namespace MediaLink

-- Powers as in the core library, also where others are in scope.
attribute [local instance (high)] instPowNat

structure Decimal where
  negative : Bool
  significand : Nat
  exponent : Int
deriving DecidableEq, Repr

namespace Decimal

def isNumeral (s : List Char) : Bool := !s.isEmpty && s.all Char.isDigit

def value (s : List Char) : Nat := Nat.ofDigitChars 10 s 0

def natural? (s : List Char) : Option Nat :=
  if isNumeral s then some (value s) else none

def isExponentMark (c : Char) : Bool := c == 'e' || c == 'E'

/-- The digits before and after the point; without a point there must be some, with one the
fraction must not be empty. -/
def mantissa? (s : List Char) : Option (List Char × List Char) :=
  let whole := s.takeWhile (· != '.')
  match s.dropWhile (· != '.') with
  | [] => if isNumeral whole then some (whole, []) else none
  | _ :: fraction =>
    if whole.all Char.isDigit && isNumeral fraction then some (whole, fraction) else none

def exponent? : List Char → Option Int
  | '+' :: s => (natural? s).map Int.ofNat
  | '-' :: s => (natural? s).map fun n => -(n : Int)
  | s => (natural? s).map Int.ofNat

def magnitude? (s : List Char) : Option (Nat × Int) := do
  let (whole, fraction) ← mantissa? (s.takeWhile (!isExponentMark ·))
  let e ← match s.dropWhile (!isExponentMark ·) with
    | [] => some 0
    | _ :: t => exponent? t
  return (value (whole ++ fraction), e - fraction.length)

def ofText? : List Char → Option Decimal
  | '-' :: s => (magnitude? s).map fun (n, e) => ⟨true, n, e⟩
  | s => (magnitude? s).map fun (n, e) => ⟨false, n, e⟩

/-- The digits of `n · 10 ^ e` without an exponent, and without a fraction that is zero. -/
def positional (n : Nat) (e : Int) : List Char :=
  match e with
  | .ofNat k => Nat.toDigits 10 (n * 10 ^ k)
  | .negSucc k =>
    let unit := 10 ^ (k + 1)
    let digits := Nat.toDigits 10 (n % unit)
    let fraction := List.replicate (k + 1 - digits.length) '0' ++ digits
    match (fraction.reverse.dropWhile (· == '0')).reverse with
    | [] => Nat.toDigits 10 (n / unit)
    | kept => Nat.toDigits 10 (n / unit) ++ '.' :: kept

end Decimal

end MediaLink
