import MediaLink.Decimal
import Mathlib.Data.List.TakeWhile
import Mathlib.Tactic.Ring

namespace MediaLink

theorem head_dropWhile_not {p : Char → Bool} {s t : List Char} {c : Char}
    (h : s.dropWhile p = c :: t) : p c = false := by
  have hhead := List.head?_dropWhile_not p s
  rw [h] at hhead
  exact hhead

namespace Decimal

/-- `n · 10 ^ e` and `n' · 10 ^ e'` are the same number. -/
def SameValue (n : Nat) (e : Int) (n' : Nat) (e' : Int) : Prop :=
  n * 10 ^ e.toNat * 10 ^ (-e').toNat = n' * 10 ^ e'.toNat * 10 ^ (-e).toNat

theorem value_append (s t : List Char) : value (s ++ t) = value s * 10 ^ t.length + value t := by
  rw [value, Nat.ofDigitChars_append, Nat.ofDigitChars_eq_ofDigitChars_zero, Nat.mul_comm]
  rfl

theorem value_toDigits (n : Nat) : value (Nat.toDigits 10 n) = n := Nat.ofDigitChars_ten_toDigits

theorem value_replicate (m : Nat) : value (List.replicate m '0') = 0 := by
  rw [value, Nat.ofDigitChars_replicate_zero, Nat.mul_zero]

theorem isDigit_of_mem_toDigits {n : Nat} {c : Char} (h : c ∈ Nat.toDigits 10 n) : c.isDigit :=
  Nat.isDigit_of_mem_toDigits (by decide) (by decide) h

theorem isNumeral_iff {s : List Char} : isNumeral s ↔ s ≠ [] ∧ ∀ c ∈ s, c.isDigit := by
  simp [isNumeral]

theorem isNumeral_toDigits (n : Nat) : isNumeral (Nat.toDigits 10 n) :=
  isNumeral_iff.mpr ⟨Nat.toDigits_ne_nil, fun _ => isDigit_of_mem_toDigits⟩

theorem ne_of_isDigit {c d : Char} (hc : c.isDigit) (hd : d.isDigit = false) : c ≠ d := by
  rintro rfl
  exact Bool.false_ne_true (hd.symm.trans hc)

theorem not_isExponentMark {c : Char} (h : c.isDigit) : (!isExponentMark c) = true := by
  have he : c ≠ 'e' := ne_of_isDigit h rfl
  have hE : c ≠ 'E' := ne_of_isDigit h rfl
  simp [isExponentMark, he, hE]

theorem ne_point {c : Char} (h : c.isDigit) : (c != '.') = true :=
  bne_iff_ne.mpr (ne_of_isDigit h rfl)

theorem mantissa?_whole {w : List Char} (h : isNumeral w) : mantissa? w = some (w, []) := by
  obtain ⟨-, hdigits⟩ := isNumeral_iff.mp h
  have htake : w.takeWhile (· != '.') = w :=
    List.takeWhile_eq_self_iff.mpr fun c hc => ne_point (hdigits c hc)
  have hdrop : w.dropWhile (· != '.') = [] :=
    List.dropWhile_eq_nil_iff.mpr fun c hc => ne_point (hdigits c hc)
  simp only [mantissa?, htake, hdrop, h, if_true]

theorem mantissa?_fraction {w f : List Char} (hw : ∀ c ∈ w, c.isDigit) (hf : isNumeral f) :
    mantissa? (w ++ '.' :: f) = some (w, f) := by
  have htake : (w ++ '.' :: f).takeWhile (· != '.') = w := by
    rw [List.takeWhile_append_of_pos fun c hc => ne_point (hw c hc)]
    exact List.append_nil w
  have hdrop : (w ++ '.' :: f).dropWhile (· != '.') = '.' :: f := by
    rw [List.dropWhile_append_of_pos fun c hc => ne_point (hw c hc)]
    rfl
  have hall : w.all Char.isDigit = true := List.all_eq_true.mpr hw
  simp only [mantissa?, htake, hdrop, hall, hf, Bool.and_self, if_true]

theorem magnitude?_of_mantissa? {s w f : List Char} (h : mantissa? s = some (w, f))
    (hs : ∀ c ∈ s, (!isExponentMark c) = true) :
    magnitude? s = some (value (w ++ f), -(f.length : Int)) := by
  have htake : s.takeWhile (!isExponentMark ·) = s := List.takeWhile_eq_self_iff.mpr hs
  have hdrop : s.dropWhile (!isExponentMark ·) = [] := List.dropWhile_eq_nil_iff.mpr hs
  simp [magnitude?, htake, hdrop, h]

theorem magnitude?_toDigits (n : Nat) : magnitude? (Nat.toDigits 10 n) = some (n, 0) := by
  have h := magnitude?_of_mantissa? (mantissa?_whole (isNumeral_toDigits n))
    fun c hc => not_isExponentMark (isDigit_of_mem_toDigits hc)
  rw [List.append_nil, value_toDigits] at h
  exact h

theorem magnitude?_fraction (n : Nat) {f : List Char} (hf : isNumeral f) :
    magnitude? (Nat.toDigits 10 n ++ '.' :: f) =
      some (n * 10 ^ f.length + value f, -(f.length : Int)) := by
  have hdigits : ∀ c ∈ Nat.toDigits 10 n, c.isDigit := fun _ => isDigit_of_mem_toDigits
  have h := magnitude?_of_mantissa? (mantissa?_fraction hdigits hf) fun c hc => by
    obtain hc | hc := List.mem_append.mp hc
    · exact not_isExponentMark (hdigits c hc)
    · obtain rfl | hc := List.mem_cons.mp hc
      · rfl
      · exact not_isExponentMark ((isNumeral_iff.mp hf).2 c hc)
  rw [value_append, value_toDigits] at h
  exact h

theorem exists_replicate_zero (s : List Char) :
    ∃ m, s = (s.reverse.dropWhile (· == '0')).reverse ++ List.replicate m '0' := by
  have hsplit := congrArg List.reverse
    (List.takeWhile_append_dropWhile (p := (· == '0')) (l := s.reverse))
  have hzeros : s.reverse.takeWhile (· == '0') =
      List.replicate (s.reverse.takeWhile (· == '0')).length '0' :=
    List.eq_replicate_iff.mpr ⟨rfl, fun c hc => by
      have hzero := List.mem_takeWhile_imp hc
      exact beq_iff_eq.mp hzero⟩
  rw [List.reverse_append, List.reverse_reverse, hzeros, List.reverse_replicate] at hsplit
  exact ⟨_, hsplit.symm⟩

theorem value_fraction {r width : Nat} (h : r < 10 ^ width) (hw : 0 < width) :
    let digits := Nat.toDigits 10 r
    let fraction := List.replicate (width - digits.length) '0' ++ digits
    value fraction = r ∧ fraction.length = width ∧ ∀ c ∈ fraction, c.isDigit := by
  intro digits fraction
  have hlength : digits.length ≤ width := (Nat.length_toDigits_le_iff (by decide) hw).mpr h
  refine ⟨?_, ?_, fun c hc => ?_⟩
  · rw [value_append, value_replicate, Nat.zero_mul, Nat.zero_add, value_toDigits]
  · rw [List.length_append, List.length_replicate, Nat.sub_add_cancel hlength]
  · obtain hc | hc := List.mem_append.mp hc
    · rw [List.eq_of_mem_replicate hc]
      rfl
    · exact isDigit_of_mem_toDigits hc

/-- What is written of a decimal reads back with its value. -/
theorem magnitude?_positional (n : Nat) (e : Int) :
    ∃ n' e', magnitude? (positional n e) = some (n', e') ∧ SameValue n' e' n e := by
  cases e with
  | ofNat k =>
    refine ⟨n * 10 ^ k, 0, magnitude?_toDigits _, ?_⟩
    simp [SameValue]
  | negSucc k =>
    have hunit : n % 10 ^ (k + 1) < 10 ^ (k + 1) := Nat.mod_lt _ (Nat.pow_pos (by decide))
    obtain ⟨hvalue, hlength, hdigits⟩ := value_fraction hunit k.succ_pos
    unfold positional
    dsimp only
    generalize List.replicate (k + 1 - (Nat.toDigits 10 (n % 10 ^ (k + 1))).length) '0' ++
      Nat.toDigits 10 (n % 10 ^ (k + 1)) = fraction at hvalue hlength hdigits
    obtain ⟨m, hm⟩ := exists_replicate_zero fraction
    generalize (fraction.reverse.dropWhile (· == '0')).reverse = kept at hm
    have hsplit : value kept * 10 ^ m = n % 10 ^ (k + 1) := by
      rw [← hvalue, hm, value_append, value_replicate, List.length_replicate, Nat.add_zero]
    have hwidth : kept.length + m = k + 1 := by
      rw [← hlength, hm, List.length_append, List.length_replicate]
    have hn := Nat.div_add_mod n (10 ^ (k + 1))
    cases kept with
    | nil =>
      have hrest : n % 10 ^ (k + 1) = 0 := by
        rw [← hsplit, value, Nat.ofDigitChars_nil, Nat.zero_mul]
      refine ⟨n / 10 ^ (k + 1), 0, magnitude?_toDigits _, ?_⟩
      change n / 10 ^ (k + 1) * 10 ^ 0 * 10 ^ (k + 1) = n * 10 ^ 0 * 10 ^ 0
      rw [hrest, Nat.mul_comm] at hn
      simpa using hn
    | cons c cs =>
      have hnumeral : isNumeral (c :: cs) := isNumeral_iff.mpr ⟨List.cons_ne_nil _ _, fun d hd =>
        hdigits d (hm ▸ List.mem_append_left _ hd)⟩
      refine ⟨_, _, magnitude?_fraction _ hnumeral, ?_⟩
      have hexponent : (-((c :: cs).length : Int)).toNat = 0 := Int.toNat_neg_natCast _
      rw [SameValue, hexponent, Int.neg_neg, Int.toNat_natCast]
      change (n / 10 ^ (k + 1) * 10 ^ (c :: cs).length + value (c :: cs)) * 10 ^ 0 * 10 ^ (k + 1) =
        n * 10 ^ 0 * 10 ^ (c :: cs).length
      generalize (c :: cs).length = l at hwidth
      generalize value (c :: cs) = v at hsplit
      calc (n / 10 ^ (k + 1) * 10 ^ l + v) * 10 ^ 0 * 10 ^ (k + 1)
          = (10 ^ (k + 1) * (n / 10 ^ (k + 1)) + v * 10 ^ m) * 10 ^ l := by
            rw [← hwidth, Nat.pow_add]
            ring
        _ = n * 10 ^ 0 * 10 ^ l := by rw [hsplit, hn, Nat.pow_zero, Nat.mul_one]

theorem mem_positional {n : Nat} {e : Int} {c : Char} (h : c ∈ positional n e) :
    c.isDigit ∨ c = '.' := by
  cases e with
  | ofNat k => exact .inl (isDigit_of_mem_toDigits h)
  | negSucc k =>
    have hunit : n % 10 ^ (k + 1) < 10 ^ (k + 1) := Nat.mod_lt _ (Nat.pow_pos (by decide))
    obtain ⟨-, -, hdigits⟩ := value_fraction hunit k.succ_pos
    simp only [positional] at h
    split at h
    case h_1 => exact .inl (isDigit_of_mem_toDigits h)
    case h_2 kept hkept =>
      obtain h | h := List.mem_append.mp h
      · exact .inl (isDigit_of_mem_toDigits h)
      obtain h | h := List.mem_cons.mp h
      · exact .inr h
      · have hfraction := (List.dropWhile_sublist _).subset (List.mem_reverse.mp h)
        exact .inl (hdigits c (List.mem_reverse.mp hfraction))

theorem magnitude?_minus (s : List Char) : magnitude? ('-' :: s) = none := by
  have hmantissa (t : List Char) : mantissa? ('-' :: t) = none := by
    unfold mantissa?
    dsimp only
    split <;> rfl
  simp [magnitude?, isExponentMark, hmantissa]

theorem ofText?_of_magnitude? {s : List Char} {n : Nat} {e : Int}
    (h : magnitude? s = some (n, e)) : ofText? s = some ⟨false, n, e⟩ := by
  unfold ofText?
  split
  case h_1 =>
    rw [magnitude?_minus] at h
    cases h
  case h_2 => rw [h, Option.map_some]

end Decimal

end MediaLink
