import Mathlib.Computability.RegularExpressions
import MediaLink.Proofs.Numerals

namespace MediaLink.Decimal

open RegularExpression

def decimalDigits : List Char := ['0', '1', '2', '3', '4', '5', '6', '7', '8', '9']

def signs : List Char := ['+', '-']

def exponentMarks : List Char := ['e', 'E']

theorem isDigit_iff_mem {c : Char} : c.isDigit ↔ c ∈ decimalDigits := by
  constructor
  · intro h
    have hall : ∀ n ≤ '9'.toNat, '0'.toNat ≤ n → Char.ofNat n ∈ decimalDigits := by decide
    obtain ⟨hlow, hhigh⟩ := Char.isDigit_iff_toNat.mp h
    rw [← c.ofNat_toNat]
    exact hall c.toNat hhigh hlow
  · intro h
    have hall : decimalDigits.all Char.isDigit := by decide
    exact List.all_eq_true.mp hall c h

theorem isExponentMark_iff_mem {c : Char} : isExponentMark c ↔ c ∈ exponentMarks := by
  simp [isExponentMark, exponentMarks]

theorem isNumeral_iff_mem {s : List Char} : isNumeral s ↔ s ≠ [] ∧ ∀ c ∈ s, c ∈ decimalDigits := by
  simp only [isNumeral_iff, isDigit_iff_mem]

def anyOf (cs : List Char) : RegularExpression Char := (cs.map char).sum

def someOf (cs : List Char) : RegularExpression Char := anyOf cs * (anyOf cs).star

def optional (r : RegularExpression Char) : RegularExpression Char := 1 + r

def Mantissa.pattern : RegularExpression Char :=
  someOf decimalDigits + (anyOf decimalDigits).star * char '.' * someOf decimalDigits

def Exponent.pattern : RegularExpression Char :=
  anyOf exponentMarks * optional (anyOf signs) * someOf decimalDigits

/-- The expression `-?(D+|D*\.D+)([eE][+-]?D+)?`, with `D` for any digit. -/
def Numeral.pattern : RegularExpression Char :=
  optional (char '-') * Mantissa.pattern * optional Exponent.pattern

theorem mem_anyOf {cs s : List Char} : s ∈ (anyOf cs).matches' ↔ ∃ c ∈ cs, s = [c] := by
  induction cs with
  | nil => simp [anyOf]
  | cons c cs ih =>
    have hcons : anyOf (c :: cs) = char c + anyOf cs := List.sum_cons
    have hchar : s ∈ (char c).matches' ↔ s = [c] := Iff.rfl
    rw [hcons, matches'_add, Language.mem_add, hchar, ih]
    simp only [List.mem_cons, exists_eq_or_imp]

theorem mem_star_anyOf {cs s : List Char} :
    s ∈ (anyOf cs).star.matches' ↔ ∀ c ∈ s, c ∈ cs := by
  rw [matches'_star, Language.mem_kstar]
  constructor
  · rintro ⟨ps, rfl, hps⟩ c hc
    obtain ⟨p, hp, hc⟩ := List.mem_flatten.mp hc
    obtain ⟨d, hd, rfl⟩ := mem_anyOf.mp (hps p hp)
    obtain rfl := List.mem_singleton.mp hc
    exact hd
  · intro h
    refine ⟨s.map ([·]), (List.flatMap_singleton' s).symm, fun p hp => ?_⟩
    obtain ⟨c, hc, rfl⟩ := List.mem_map.mp hp
    exact mem_anyOf.mpr ⟨c, h c hc, rfl⟩

theorem mem_someOf {cs s : List Char} :
    s ∈ (someOf cs).matches' ↔ s ≠ [] ∧ ∀ c ∈ s, c ∈ cs := by
  rw [someOf, matches'_mul, Language.mem_mul]
  constructor
  · rintro ⟨first, hfirst, rest, hrest, rfl⟩
    obtain ⟨c, hc, rfl⟩ := mem_anyOf.mp hfirst
    exact ⟨List.cons_ne_nil _ _, List.forall_mem_cons.mpr ⟨hc, mem_star_anyOf.mp hrest⟩⟩
  · rintro ⟨hne, h⟩
    cases s with
    | nil => exact absurd rfl hne
    | cons c s =>
      obtain ⟨hc, hs⟩ := List.forall_mem_cons.mp h
      exact ⟨[c], mem_anyOf.mpr ⟨c, hc, rfl⟩, s, mem_star_anyOf.mpr hs, rfl⟩

theorem mem_optional {r : RegularExpression Char} {s : List Char} :
    s ∈ (optional r).matches' ↔ s = [] ∨ s ∈ r.matches' := by
  rw [optional, matches'_add, Language.mem_add, matches'_epsilon, Language.mem_one]

theorem mem_digits_iff {s : List Char} :
    s ∈ (someOf decimalDigits).matches' ↔ isNumeral s := by
  rw [mem_someOf, isNumeral_iff_mem]

theorem Mantissa.mem_pattern_iff {s : List Char} :
    s ∈ pattern.matches' ↔ ∃ m : Mantissa, m.text = s := by
  rw [pattern, matches'_add, Language.mem_add, mem_digits_iff, matches'_mul, Language.mem_mul]
  constructor
  · rintro (hwhole | ⟨front, hfront, fraction, hfraction, rfl⟩)
    · exact ⟨.whole s hwhole, rfl⟩
    · obtain ⟨digits, hdigits, point, rfl, rfl⟩ := Language.mem_mul.mp hfront
      have hall : digits.all Char.isDigit := List.all_eq_true.mpr fun c hc =>
        isDigit_iff_mem.mpr (mem_star_anyOf.mp hdigits c hc)
      refine ⟨.point digits fraction hall (mem_digits_iff.mp hfraction), ?_⟩
      rw [List.append_assoc, List.singleton_append]
      rfl
  · rintro ⟨m, rfl⟩
    cases m with
    | whole digits valid => exact .inl valid
    | point digits fraction hdigits hfraction =>
      refine .inr ⟨digits ++ ['.'], ?_, fraction, mem_digits_iff.mpr hfraction, ?_⟩
      · refine Language.append_mem_mul (mem_star_anyOf.mpr fun c hc => ?_) rfl
        exact isDigit_iff_mem.mp (List.all_eq_true.mp hdigits c hc)
      · rw [List.append_assoc, List.singleton_append]
        rfl

theorem Sign.mem_pattern_iff {s : List Char} :
    s ∈ (optional (anyOf signs)).matches' ↔ ∃ sign : Sign, sign.text = s := by
  rw [mem_optional, mem_anyOf]
  constructor
  · rintro (rfl | ⟨c, hc, rfl⟩)
    · exact ⟨.none, rfl⟩
    · obtain rfl | rfl : c = '+' ∨ c = '-' := by simpa [signs] using hc
      · exact ⟨.plus, rfl⟩
      · exact ⟨.minus, rfl⟩
  · rintro ⟨sign, rfl⟩
    cases sign with
    | none => exact .inl rfl
    | plus => exact .inr ⟨'+', by decide, rfl⟩
    | minus => exact .inr ⟨'-', by decide, rfl⟩

theorem Exponent.mem_pattern_iff {s : List Char} :
    s ∈ pattern.matches' ↔ ∃ e : Exponent, e.text = s := by
  rw [pattern, matches'_mul, Language.mem_mul]
  constructor
  · rintro ⟨front, hfront, digits, hdigits, rfl⟩
    obtain ⟨mark, hmark, signText, hsign, rfl⟩ := Language.mem_mul.mp hfront
    obtain ⟨c, hc, rfl⟩ := mem_anyOf.mp hmark
    obtain ⟨sign, rfl⟩ := Sign.mem_pattern_iff.mp hsign
    exact ⟨⟨c, sign, digits, isExponentMark_iff_mem.mpr hc, mem_digits_iff.mp hdigits⟩, rfl⟩
  · rintro ⟨⟨mark, sign, digits, hmark, hdigits⟩, rfl⟩
    refine ⟨[mark] ++ sign.text, ?_, digits, mem_digits_iff.mpr hdigits, rfl⟩
    exact Language.append_mem_mul (mem_anyOf.mpr ⟨mark, isExponentMark_iff_mem.mp hmark, rfl⟩)
      (Sign.mem_pattern_iff.mpr ⟨sign, rfl⟩)

theorem Exponent.mem_optional_pattern_iff {s : List Char} :
    s ∈ (optional pattern).matches' ↔ ∃ e : Option Exponent, e.elim [] text = s := by
  rw [mem_optional, mem_pattern_iff]
  constructor
  · rintro (rfl | ⟨e, rfl⟩)
    · exact ⟨none, rfl⟩
    · exact ⟨some e, rfl⟩
  · rintro ⟨e, rfl⟩
    cases e with
    | none => exact .inl rfl
    | some e => exact .inr ⟨e, rfl⟩

theorem mem_minus_iff {s : List Char} :
    s ∈ (optional (char '-')).matches' ↔
      ∃ negative : Bool, (if negative then ['-'] else []) = s := by
  have hchar : s ∈ (char '-').matches' ↔ s = ['-'] := Iff.rfl
  rw [mem_optional, hchar]
  constructor
  · rintro (rfl | rfl)
    · exact ⟨false, rfl⟩
    · exact ⟨true, rfl⟩
  · rintro ⟨negative, rfl⟩
    cases negative with
    | false => exact .inl rfl
    | true => exact .inr rfl

theorem Numeral.mem_pattern_iff {s : List Char} :
    s ∈ pattern.matches' ↔ ∃ n : Numeral, n.text = s := by
  rw [pattern, matches'_mul, Language.mem_mul]
  constructor
  · rintro ⟨front, hfront, exponentText, hexponent, rfl⟩
    obtain ⟨minus, hminus, mantissaText, hmantissa, rfl⟩ := Language.mem_mul.mp hfront
    obtain ⟨negative, rfl⟩ := mem_minus_iff.mp hminus
    obtain ⟨mantissa, rfl⟩ := Mantissa.mem_pattern_iff.mp hmantissa
    obtain ⟨exponent, rfl⟩ := Exponent.mem_optional_pattern_iff.mp hexponent
    exact ⟨⟨negative, mantissa, exponent⟩, (List.append_assoc ..).symm⟩
  · rintro ⟨⟨negative, mantissa, exponent⟩, rfl⟩
    have hminus := mem_minus_iff.mpr ⟨negative, rfl⟩
    have hmantissa := Mantissa.mem_pattern_iff.mpr ⟨mantissa, rfl⟩
    have hexponent := Exponent.mem_optional_pattern_iff.mpr ⟨exponent, rfl⟩
    exact ⟨_, Language.append_mem_mul hminus hmantissa, _, hexponent, List.append_assoc ..⟩

theorem isSome_ofText?_iff {s : List Char} : (ofText? s).isSome ↔ ∃ n : Numeral, n.text = s := by
  rw [Option.isSome_iff_exists]
  constructor
  · rintro ⟨d, hd⟩
    obtain ⟨n, hn, -⟩ := ofText?_eq_some_iff.mp hd
    exact ⟨n, hn⟩
  · rintro ⟨n, rfl⟩
    exact ⟨n.decimal, ofText?_text n⟩

namespace Numeral

def minusText (n : Numeral) : List Char := if n.negative then ['-'] else []

def exponentText (n : Numeral) : List Char := n.exponent.elim [] Exponent.text

theorem text_eq (n : Numeral) : n.text = n.minusText ++ (n.mantissa.text ++ n.exponentText) := rfl

end Numeral

/-- What stands where in the text of a number. -/
structure IsOrderly (s : List Char) : Prop where
  sign_placed : ∀ front sign behind, s = front ++ sign :: behind → sign ∈ signs →
    front = [] ∧ sign = '-' ∨ ∃ before, ∃ mark ∈ exponentMarks, front = before ++ [mark]
  one_point : s.count '.' ≤ 1
  digit_behind_point : ∀ front behind, s = front ++ '.' :: behind →
    ∃ d ∈ decimalDigits, ∃ rest, behind = d :: rest
  one_mark : s.countP (· ∈ exponentMarks) ≤ 1
  digits_behind_mark : ∀ front mark behind, s = front ++ mark :: behind → mark ∈ exponentMarks →
    ∃ sign ∈ [[], ['+'], ['-']], ∃ digits, behind = sign ++ digits ∧ digits ≠ [] ∧
      ∀ d ∈ digits, d ∈ decimalDigits
  mem_characters : ∀ c ∈ s, c ∈ decimalDigits ∨ c ∈ ['.', '+', '-', 'e', 'E']

theorem append_eq_append_cons {a b front behind : List Char} {c : Char}
    (h : a ++ b = front ++ c :: behind) :
    (∃ rest, a = front ++ c :: rest) ∨
      ∃ middle, front = a ++ middle ∧ b = middle ++ c :: behind := by
  obtain ⟨middle, hfront, hb⟩ | ⟨rest, ha, hrest⟩ := List.append_eq_append_iff.mp h
  · exact .inr ⟨middle, hfront, hb⟩
  · cases rest with
    | nil => exact .inr ⟨[], by rw [ha, List.append_nil, List.append_nil], hrest.symm⟩
    | cons d rest =>
      obtain ⟨rfl, -⟩ := List.cons.inj hrest
      exact .inl ⟨rest, ha⟩

theorem apart_of_mem_signs {c : Char} (h : c ∈ signs) :
    c.isDigit = false ∧ c ≠ '.' ∧ c ∉ exponentMarks := by
  obtain rfl | rfl : c = '+' ∨ c = '-' := by simpa [signs] using h
  · decide
  · decide

theorem apart_of_mem_exponentMarks {c : Char} (h : c ∈ exponentMarks) :
    c.isDigit = false ∧ c ≠ '.' ∧ c ∉ signs := by
  obtain rfl | rfl : c = 'e' ∨ c = 'E' := by simpa [exponentMarks] using h
  · decide
  · decide

theorem countP_exponentMarks_eq_zero {s : List Char} (h : ∀ c ∈ exponentMarks, c ∉ s) :
    s.countP (· ∈ exponentMarks) = 0 :=
  List.countP_eq_zero.mpr fun c hc hmark => h c (decide_eq_true_iff.mp hmark) hc

theorem notMem_of_isNumeral {s : List Char} {c : Char} (hs : isNumeral s) (hc : c.isDigit = false) :
    c ∉ s := by
  intro h
  have hdigit := (isNumeral_iff.mp hs).2 c h
  exact ne_of_isDigit hdigit hc rfl

theorem Mantissa.notMem_text {m : Mantissa} {c : Char} (hc : c.isDigit = false) (hpoint : c ≠ '.') :
    c ∉ m.text := by
  cases m with
  | whole digits valid => exact notMem_of_isNumeral valid hc
  | point digits fraction hdigits hfraction =>
    intro h
    obtain h | h := List.mem_append.mp h
    · exact ne_of_isDigit (List.all_eq_true.mp hdigits c h) hc rfl
    · obtain h | h := List.mem_cons.mp h
      · exact hpoint h
      · exact notMem_of_isNumeral hfraction hc h

theorem Sign.mem_signs {sign : Sign} {c : Char} (h : c ∈ sign.text) : c ∈ signs := by
  cases sign with
  | none => cases h
  | plus =>
    obtain rfl := List.mem_singleton.mp h
    decide
  | minus =>
    obtain rfl := List.mem_singleton.mp h
    decide

theorem Sign.text_mem (sign : Sign) : sign.text ∈ [[], ['+'], ['-']] := by
  cases sign <;> decide

theorem Sign.eq_nil_of_text_eq {sign : Sign} {front behind : List Char} {c : Char}
    (h : sign.text = front ++ c :: behind) : front = [] := by
  have hlength := congrArg List.length h
  have hle : sign.text.length ≤ 1 := by cases sign <;> decide
  simp only [List.length_append, List.length_cons] at hlength
  exact List.length_eq_zero_iff.mp (by omega)

namespace Exponent

theorem notMem_signedDigits {e : Exponent} {c : Char} (hc : c.isDigit = false) (hsign : c ∉ signs) :
    c ∉ e.sign.text ++ e.digits := by
  intro h
  obtain h | h := List.mem_append.mp h
  · exact hsign (Sign.mem_signs h)
  · exact notMem_of_isNumeral e.digits_valid hc h

theorem mark_mem (e : Exponent) : e.mark ∈ exponentMarks := isExponentMark_iff_mem.mp e.mark_valid

theorem eq_mark_of_sign {e : Exponent} {front behind : List Char} {c : Char}
    (h : e.text = front ++ c :: behind) (hc : c ∈ signs) : front = [e.mark] := by
  cases front with
  | nil =>
    obtain ⟨hmark, -⟩ := List.cons.inj h
    exact absurd (hmark ▸ e.mark_mem) (apart_of_mem_signs hc).2.2
  | cons mark front =>
    obtain ⟨rfl, hsigned⟩ := List.cons.inj h
    obtain ⟨rest, hsign⟩ | ⟨middle, -, hdigits⟩ := append_eq_append_cons hsigned
    · rw [Sign.eq_nil_of_text_eq hsign]
    · have hmem : c ∈ e.digits := hdigits ▸ List.mem_append_right _ List.mem_cons_self
      exact absurd hmem (notMem_of_isNumeral e.digits_valid (apart_of_mem_signs hc).1)

end Exponent

namespace Numeral

theorem minus_of_minusText_eq {n : Numeral} {front behind : List Char} {c : Char}
    (h : n.minusText = front ++ c :: behind) : front = [] ∧ c = '-' := by
  rw [minusText] at h
  split at h
  · cases front with
    | nil => exact ⟨rfl, (List.cons.inj h).1.symm⟩
    | cons d front => simp at h
  · simp at h

theorem notMem_minusText {n : Numeral} {c : Char} (hc : c ≠ '-') : c ∉ n.minusText := by
  intro h
  obtain ⟨front, behind, hcut⟩ := List.append_of_mem h
  exact hc (minus_of_minusText_eq hcut).2

theorem exponentText_eq (n : Numeral) :
    n.exponentText = [] ∨ ∃ e : Exponent, n.exponentText = e.mark :: (e.sign.text ++ e.digits) := by
  rw [exponentText]
  cases n.exponent with
  | none => exact .inl rfl
  | some e => exact .inr ⟨e, rfl⟩

theorem point_notMem_exponentText (n : Numeral) : '.' ∉ n.exponentText := by
  obtain hnone | ⟨e, he⟩ := n.exponentText_eq
  · rw [hnone]
    exact List.not_mem_nil
  · rw [he, List.mem_cons, not_or]
    exact ⟨fun hmark => absurd (hmark ▸ e.mark_mem) (by decide),
      Exponent.notMem_signedDigits rfl (by decide)⟩

/-- There is no point, or just one, and a fraction behind it. -/
theorem cut_at_point (n : Numeral) :
    '.' ∉ n.text ∨ ∃ front fraction rest, n.text = front ++ '.' :: (fraction ++ rest) ∧
      '.' ∉ front ∧ '.' ∉ fraction ++ rest ∧ isNumeral fraction := by
  have hminus : '.' ∉ n.minusText := notMem_minusText (by decide)
  have hexponent := n.point_notMem_exponentText
  rw [text_eq]
  cases n.mantissa with
  | whole digits valid =>
    have hdigits : '.' ∉ digits := notMem_of_isNumeral valid rfl
    refine .inl ?_
    simp only [List.mem_append, not_or, Mantissa.text]
    exact ⟨hminus, hdigits, hexponent⟩
  | point digits fraction hdigits hfraction =>
    have hfront : '.' ∉ digits := fun h => by
      have hdigit := List.all_eq_true.mp hdigits _ h
      exact absurd hdigit (by decide)
    have hbehind : '.' ∉ fraction := notMem_of_isNumeral hfraction rfl
    refine .inr ⟨n.minusText ++ digits, fraction, n.exponentText, ?_, ?_, ?_, hfraction⟩
    · simp only [Mantissa.text, List.append_assoc, List.cons_append]
    · simp only [List.mem_append, not_or]
      exact ⟨hminus, hfront⟩
    · simp only [List.mem_append, not_or]
      exact ⟨hbehind, hexponent⟩

/-- There is no exponent mark, or just one, with an exponent behind it. -/
theorem cut_at_mark (n : Numeral) :
    (∀ c ∈ exponentMarks, c ∉ n.text) ∨
      ∃ front, ∃ e : Exponent, n.text = front ++ e.mark :: (e.sign.text ++ e.digits) ∧
        ∀ c ∈ exponentMarks, c ∉ front ∧ c ∉ e.sign.text ++ e.digits := by
  have hfront (c : Char) (hc : c ∈ exponentMarks) : c ∉ n.minusText ++ n.mantissa.text := by
    obtain ⟨hdigit, hpoint, hsign⟩ := apart_of_mem_exponentMarks hc
    have hminus : c ≠ '-' := by
      rintro rfl
      exact hsign (by decide)
    rw [List.mem_append, not_or]
    exact ⟨notMem_minusText hminus, Mantissa.notMem_text hdigit hpoint⟩
  rw [text_eq, ← List.append_assoc]
  obtain hnone | ⟨e, he⟩ := n.exponentText_eq
  · rw [hnone, List.append_nil]
    exact .inl hfront
  · rw [he]
    refine .inr ⟨_, e, rfl, fun c hc => ⟨hfront c hc, ?_⟩⟩
    obtain ⟨hdigit, -, hsign⟩ := apart_of_mem_exponentMarks hc
    exact Exponent.notMem_signedDigits hdigit hsign

theorem sign_placed {n : Numeral} {front behind : List Char} {sign : Char}
    (h : n.text = front ++ sign :: behind) (hsign : sign ∈ signs) :
    front = [] ∧ sign = '-' ∨ ∃ before, ∃ mark ∈ exponentMarks, front = before ++ [mark] := by
  rw [text_eq] at h
  obtain ⟨rest, hminus⟩ | ⟨middle, rfl, hmagnitude⟩ := append_eq_append_cons h
  · exact .inl (minus_of_minusText_eq hminus)
  -- the mantissa has no sign, so what is left is the exponent's own
  obtain ⟨rest, hmantissa⟩ | ⟨before, rfl, hexponent⟩ := append_eq_append_cons hmagnitude
  · have hmem : sign ∈ n.mantissa.text := hmantissa ▸ List.mem_append_right _ List.mem_cons_self
    obtain ⟨hdigit, hpoint, -⟩ := apart_of_mem_signs hsign
    exact absurd hmem (Mantissa.notMem_text hdigit hpoint)
  · obtain hnone | ⟨e, he⟩ := n.exponentText_eq
    · simp [hnone] at hexponent
    · rw [he] at hexponent
      rw [Exponent.eq_mark_of_sign hexponent hsign, ← List.append_assoc]
      exact .inr ⟨_, e.mark, e.mark_mem, rfl⟩

theorem isOrderly_text (n : Numeral) : IsOrderly n.text where
  sign_placed _ _ _ h hsign := sign_placed h hsign
  one_point := by
    obtain hnone | ⟨front, fraction, rest, htext, hfront, hbehind, -⟩ := n.cut_at_point
    · rw [List.count_eq_zero.mpr hnone]
      exact Nat.zero_le 1
    · rw [htext, List.count_append, List.count_cons_self, List.count_eq_zero.mpr hfront,
        List.count_eq_zero.mpr hbehind]
  digit_behind_point front behind h := by
    obtain hnone | ⟨_, fraction, rest, htext, hfront, hbehind, hfraction⟩ := n.cut_at_point
    · exact absurd (h ▸ List.mem_append_right _ List.mem_cons_self) hnone
    · -- there is no other point, so the fraction stands behind this one
      rw [h, eq_comm] at htext
      obtain ⟨-, -, rfl⟩ := (List.append_cons_inj_of_notMem hfront hbehind).mp htext
      obtain ⟨hne, hdigits⟩ := isNumeral_iff_mem.mp hfraction
      obtain ⟨d, ds, rfl⟩ := List.exists_cons_of_ne_nil hne
      exact ⟨d, hdigits d List.mem_cons_self, ds ++ rest, rfl⟩
  one_mark := by
    obtain hnone | ⟨front, e, htext, hclean⟩ := n.cut_at_mark
    · rw [countP_exponentMarks_eq_zero hnone]
      exact Nat.zero_le 1
    · have hfront := countP_exponentMarks_eq_zero fun c hc => (hclean c hc).1
      have hbehind := countP_exponentMarks_eq_zero fun c hc => (hclean c hc).2
      rw [htext, List.countP_append, List.countP_cons, hfront, hbehind,
        if_pos (decide_eq_true e.mark_mem)]
  digits_behind_mark front mark behind h hmark := by
    obtain hnone | ⟨_, e, htext, hclean⟩ := n.cut_at_mark
    · exact absurd (h ▸ List.mem_append_right _ List.mem_cons_self) (hnone mark hmark)
    · obtain ⟨hfront, hbehind⟩ := hclean mark hmark
      rw [h, eq_comm] at htext
      obtain ⟨-, -, rfl⟩ := (List.append_cons_inj_of_notMem hfront hbehind).mp htext
      obtain ⟨hne, hdigits⟩ := isNumeral_iff_mem.mp e.digits_valid
      exact ⟨e.sign.text, e.sign.text_mem, e.digits, rfl, hne, hdigits⟩
  mem_characters c h := by
    have hnumeric := isNumeric_of_mem_text h
    rw [isNumeric, Bool.or_eq_true_iff, isDigit_iff_mem, decide_eq_true_iff] at hnumeric
    exact hnumeric

end Numeral

structure IsRecognized (s : List Char) : Prop where
  isSome_iff : (ofText? s).isSome ↔ s ∈ Numeral.pattern.matches'
  isOrderly : (ofText? s).isSome → IsOrderly s

/-- A text is read exactly if it is in the language, so none is read with a sign, a point, an
exponent mark or any other character out of place. -/
theorem isRecognized (s : List Char) : IsRecognized s where
  isSome_iff := isSome_ofText?_iff.trans Numeral.mem_pattern_iff.symm
  isOrderly h := by
    obtain ⟨n, rfl⟩ := isSome_ofText?_iff.mp h
    exact n.isOrderly_text

example : (ofText? "-.5e+3".toList).isSome ∧ ofText? "1.e3".toList = none := by decide

end MediaLink.Decimal
