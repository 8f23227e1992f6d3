import MediaLink.Decimal

namespace MediaLink

-- Powers as in the core library, also where others are in scope.
attribute [local instance (high)] instPowNat

namespace Binary64

def spacing (n : Nat) : Nat := 2 ^ (n.log2 - 52)

def leastExponent : Nat := 1074

def topExponent : Nat := 1024

def unitsPerOne : Nat := 2 ^ leastExponent

def bound : Nat := 2 ^ (leastExponent + topExponent)

def IsFinite (n : Nat) : Prop := spacing n ∣ n ∧ n < bound

instance (n : Nat) : Decidable (IsFinite n) :=
  inferInstanceAs (Decidable (_ ∧ _))

/-- The multiple of the spacing nearest to `num / den` units; a tie goes to the even multiple. -/
def roundQuotient (num den : Nat) : Nat :=
  let step := spacing (num / den)
  let quotient := num / (den * step)
  let rest := 2 * (num % (den * step))
  if rest < den * step ∨ rest = den * step ∧ quotient % 2 = 0 then quotient * step
  else (quotient + 1) * step

theorem bound_pos : 0 < bound := Nat.two_pow_pos _

theorem isFinite_zero : IsFinite 0 := ⟨Nat.dvd_zero _, bound_pos⟩

theorem log2_mul_pow (m k : Nat) (hm : m ≠ 0) : (m * 2 ^ k).log2 = m.log2 + k := by
  induction k with
  | zero => simp
  | succ k ih =>
    have hz : m * 2 ^ k ≠ 0 := Nat.mul_ne_zero hm (by simp)
    rw [Nat.pow_succ, ← Nat.mul_assoc, Nat.mul_comm _ 2, Nat.log2_two_mul hz, ih, Nat.add_assoc]

theorem spacing_dvd_mul_pow {m k : Nat} (hm : m ≤ 2 ^ (53 : Nat)) :
    spacing (m * 2 ^ k) ∣ m * 2 ^ k := by
  by_cases h0 : m = 0
  · simp [h0]
  rw [spacing, log2_mul_pow m k h0]
  by_cases h : m = 2 ^ (53 : Nat)
  · rw [h, Nat.log2_two_pow, ← Nat.pow_add]
    exact Nat.pow_dvd_pow 2 (by omega)
  · have hl : m.log2 < 53 := (Nat.log2_lt h0).2 (by omega)
    exact Nat.dvd_trans (Nat.pow_dvd_pow 2 (by omega)) (Nat.dvd_mul_left _ _)

theorem quotient_lt (q : Nat) : q / spacing q < 2 ^ (53 : Nat) := by
  rw [spacing, Nat.div_lt_iff_lt_mul (Nat.two_pow_pos _), ← Nat.pow_add]
  exact Nat.lt_of_lt_of_le Nat.lt_log2_self (Nat.pow_le_pow_right (by decide) (by omega))

theorem spacing_dvd_roundQuotient (num den : Nat) :
    spacing (roundQuotient num den) ∣ roundQuotient num den := by
  have h := quotient_lt (num / den)
  rw [Nat.div_div_eq_div_mul] at h
  simp only [roundQuotient]
  split
  · exact spacing_dvd_mul_pow (k := (num / den).log2 - 52) (by omega)
  · exact spacing_dvd_mul_pow (k := (num / den).log2 - 52) (by omega)

end Binary64

open Binary64 in
/-- A magnitude of the format, counted in units of `2 ^ -1074`, or infinity. -/
inductive Binary64 where
  | finite (units : Nat) (valid : IsFinite units)
  | infinite
deriving DecidableEq

namespace Binary64

def zero : Binary64 := .finite 0 isFinite_zero

def ofQuotient (num den : Nat) : Binary64 :=
  if h : roundQuotient num den < bound then
    .finite (roundQuotient num den) ⟨spacing_dvd_roundQuotient num den, h⟩
  else .infinite

def nearest (n : Nat) (e : Int) : Binary64 :=
  ofQuotient (n * 10 ^ e.toNat * unitsPerOne) (10 ^ (-e).toNat)

/-- As `nearest`, without computing powers of ten that lie beyond both ends of the format. -/
def ofDecimal (n : Nat) (e : Int) : Binary64 :=
  let top := e + (Nat.toDigits 10 n).length
  if n = 0 ∨ top < -330 then zero
  else if 310 < top then .infinite
  else nearest n e

def scale (num den : Nat) : Int :=
  let whole := num / den
  if whole = 0 then
    -(((Nat.toDigits 10 ((den - 1) / num)).length : Int) - 1)
  else (Nat.toDigits 10 whole).length

/-- The points of the grid `10 ^ e` below and above `num / den` that read back as `m`, the nearer
one if both do, and the upper one in a tie. -/
def onGrid? (m : Binary64) (num den : Nat) (e : Int) : Option Nat :=
  let num := num * 10 ^ (-e).toNat
  let den := den * 10 ^ e.toNat
  let low := num / den
  let up := nearest (low + 1) e = m
  let down := nearest low e = m
  if up ∧ (¬down ∨ den ≤ 2 * (num % den)) then some (low + 1)
  else if down then some low
  else none

def shortest? (m : Binary64) (num den : Nat) : Nat → Int → Option (Nat × Int)
  | 0, _ => none
  | fuel + 1, e =>
    (onGrid? m num den e).map (·, e) <|> shortest? m num den fuel (e - 1)

/-- The decimal of fewest digits that reads back, as a multiple of a power of ten; seventeen digits
always suffice, and the exact expansion stands behind them. -/
def shortest : Binary64 → Option (Nat × Int)
  | .infinite => none
  | .finite 0 _ => some (0, 0)
  | .finite u h =>
    some ((shortest? (.finite u h) u unitsPerOne 17 (scale u unitsPerOne - 1)).getD
      (u * 5 ^ leastExponent, -leastExponent))

def text (m : Binary64) : List Char :=
  match m.shortest with
  | none => "inf".toList
  | some (n, e) => Decimal.positional n e

def whole? : Binary64 → Option Nat
  | .infinite => none
  | .finite u _ => if u % unitsPerOne = 0 then some (u / unitsPerOne) else none

end Binary64

end MediaLink
