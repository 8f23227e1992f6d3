import MediaLink.Binary64

namespace MediaLink.Script

inductive Spelling where
  | whole
  | fractional
  | hexadecimal
  | octal
  | binary
deriving DecidableEq, Repr

def Spelling.description : Spelling → String
  | whole => "decimal"
  | fractional => "float"
  | hexadecimal => "hex"
  | octal => "octal"
  | binary => "binary"

structure Numeral where
  spelling : Spelling
  value : Binary64
  raw : List Char

def digit? (base : Nat) (c : Char) : Option Nat :=
  let value :=
    if c.isDigit then some (c.toNat - '0'.toNat)
    else if 'a' ≤ c ∧ c ≤ 'z' then some (c.toNat - 'a'.toNat + 10)
    else if 'A' ≤ c ∧ c ≤ 'Z' then some (c.toNat - 'A'.toNat + 10)
    else none
  value.filter (· < base)

namespace Numeral

def digits (base : Nat) (s : List Char) : List Char :=
  s.takeWhile fun c => (digit? base c).isSome || c == '_'

def valueOf (base : Nat) (s : List Char) : Nat :=
  s.foldl (fun n c => (digit? base c).elim n (base * n + ·)) 0

def exponent : List Char → List Char
  | [] => []
  | mark :: rest =>
    let sign := (rest.take 1).filter fun c => c == '+' || c == '-'
    let power := digits 10 (rest.drop sign.length)
    if Decimal.isExponentMark mark && !power.isEmpty then mark :: sign ++ power else []

def exponentValue (s : List Char) : Int :=
  if s.contains '-' then -(valueOf 10 s) else valueOf 10 s

def ofBase (spelling : Spelling) (base : Nat) (mark s : List Char) : Numeral :=
  let ds := digits base s
  ⟨spelling, .nearest (valueOf base ds) 0, mark ++ ds⟩

def decimal (s : List Char) : Numeral :=
  let whole := digits 10 s
  let rest := s.drop whole.length
  let fraction := if rest.head? = some '.' then '.' :: digits 10 rest.tail else []
  let power := exponent (rest.drop fraction.length)
  let places := (fraction.filter Char.isDigit).length
  { spelling := if fraction.isEmpty ∧ power.isEmpty then .whole else .fractional
    value := .ofDecimal (valueOf 10 (whole ++ fraction)) (exponentValue (power.drop 1) - places)
    raw := whole ++ fraction ++ power }

def read : List Char → Numeral
  | '0' :: 'x' :: s => ofBase .hexadecimal 16 ['0', 'x'] s
  | '0' :: 'X' :: s => ofBase .hexadecimal 16 ['0', 'X'] s
  | '0' :: 'o' :: s => ofBase .octal 8 ['0', 'o'] s
  | '0' :: 'O' :: s => ofBase .octal 8 ['0', 'O'] s
  | '0' :: 'b' :: s => ofBase .binary 2 ['0', 'b'] s
  | '0' :: 'B' :: s => ofBase .binary 2 ['0', 'B'] s
  | s => decimal s

end Numeral

namespace Number

def withExponent (digits : List Char) (e : Int) : List Char := digits ++ 'e' :: (toString e).toList

/-- Digits with a point behind so many of them. Near the digits it is written as a point, without a
zero before it; further off it becomes an exponent of the number with one digit before the point. -/
def plain (digits : List Char) (point : Int) : List Char :=
  if digits.length ≤ point ∧ point ≤ 21 then
    digits ++ List.replicate (point.toNat - digits.length) '0'
  else if 0 < point ∧ point ≤ 21 then
    digits.take point.toNat ++ '.' :: digits.drop point.toNat
  else if -6 < point ∧ point ≤ 0 then
    '.' :: List.replicate (-point).toNat '0' ++ digits
  else
    let fraction := if digits.length = 1 then [] else '.' :: digits.drop 1
    withExponent (digits.take 1 ++ fraction) (point - 1)

def withoutZeros (n : Nat) (e : Int) : List Char × Int :=
  let ds := Nat.toDigits 10 n
  let kept := (ds.reverse.dropWhile (· == '0')).reverse
  (kept, e + (ds.length - kept.length : Nat))

def shorter (s t : List Char) : List Char := if s.length < t.length then s else t

/-- A whole number is written in base sixteen if that is shorter. Otherwise an exponent behind the
digits stands for the point or the zeros if that is shorter. -/
def text (v : Binary64) : String :=
  match v.shortest with
  | none => "Infinity"
  | some (0, _) => "0"
  | some (n, e) =>
    let (digits, e) := withoutZeros n e
    let plain := plain digits (digits.length + e)
    let hex := v.whole?.elim plain fun w => '0' :: 'x' :: Nat.toDigits 16 w
    String.ofList
      (if hex.length < plain.length then hex else shorter (withExponent digits e) plain)

def takesPoint (v : Binary64) : Bool := (text v).toList.all Char.isDigit

end Number

end MediaLink.Script
