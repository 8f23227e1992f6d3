import MediaLink.Proofs.DecimalText

namespace MediaLink.Decimal

/-- The digits of a number: some without a point, or any with a point and some behind it. -/
inductive Mantissa where
  | whole (digits : List Char) (valid : isNumeral digits)
  | point (digits fraction : List Char) (digits_valid : digits.all Char.isDigit)
    (fraction_valid : isNumeral fraction)

namespace Mantissa

def text : Mantissa → List Char
  | whole digits _ => digits
  | point digits fraction _ _ => digits ++ '.' :: fraction

def digits : Mantissa → List Char × List Char
  | whole digits _ => (digits, [])
  | point digits fraction _ _ => (digits, fraction)

end Mantissa

inductive Sign where
  | none
  | plus
  | minus

def Sign.text : Sign → List Char
  | none => []
  | plus => ['+']
  | minus => ['-']

structure Exponent where
  mark : Char
  sign : Sign
  digits : List Char
  mark_valid : isExponentMark mark
  digits_valid : isNumeral digits

namespace Exponent

def text (e : Exponent) : List Char := e.mark :: (e.sign.text ++ e.digits)

def value (e : Exponent) : Int :=
  match e.sign with
  | .none | .plus => Decimal.value e.digits
  | .minus => -Decimal.value e.digits

end Exponent

/-- A number as it is written: perhaps a minus, a mantissa, and perhaps an exponent. -/
structure Numeral where
  negative : Bool
  mantissa : Mantissa
  exponent : Option Exponent

namespace Numeral

def magnitudeText (n : Numeral) : List Char :=
  n.mantissa.text ++ n.exponent.elim [] Exponent.text

def text (n : Numeral) : List Char :=
  (if n.negative then ['-'] else []) ++ n.magnitudeText

def magnitude (n : Numeral) : Nat × Int :=
  (value (n.mantissa.digits.1 ++ n.mantissa.digits.2),
    n.exponent.elim 0 Exponent.value - n.mantissa.digits.2.length)

def decimal (n : Numeral) : Decimal := ⟨n.negative, n.magnitude.1, n.magnitude.2⟩

end Numeral

theorem natural?_eq_some_iff {s : List Char} {n : Nat} :
    natural? s = some n ↔ isNumeral s ∧ value s = n := by
  rw [natural?, Option.ite_none_right_eq_some, Option.some.injEq]

theorem mantissa?_text (m : Mantissa) : mantissa? m.text = some m.digits := by
  cases m with
  | whole digits valid => exact mantissa?_whole valid
  | point digits fraction hdigits hfraction =>
    exact mantissa?_fraction (List.all_eq_true.mp hdigits) hfraction

theorem exists_of_mantissa? {s : List Char} {ds : List Char × List Char}
    (h : mantissa? s = some ds) : ∃ m : Mantissa, m.text = s ∧ m.digits = ds := by
  have hsplit := List.takeWhile_append_dropWhile (p := (· != '.')) (l := s)
  rw [mantissa?] at h
  split at h
  case h_1 hnil =>
    obtain ⟨hwhole, h⟩ := Option.ite_none_right_eq_some.mp h
    rw [hnil, List.append_nil] at hsplit
    exact ⟨.whole _ hwhole, hsplit, Option.some.inj h⟩
  case h_2 c fraction hcons =>
    obtain ⟨hvalid, h⟩ := Option.ite_none_right_eq_some.mp h
    obtain ⟨hwhole, hfraction⟩ := Bool.and_eq_true_iff.mp hvalid
    obtain rfl : c = '.' := by simpa using head_dropWhile_not hcons
    rw [hcons] at hsplit
    exact ⟨.point _ fraction hwhole hfraction, hsplit, Option.some.inj h⟩

theorem not_isExponentMark_of_mem_text {m : Mantissa} {c : Char} (h : c ∈ m.text) :
    (!isExponentMark c) = true := by
  cases m with
  | whole digits valid => exact not_isExponentMark ((isNumeral_iff.mp valid).2 c h)
  | point digits fraction hdigits hfraction =>
    obtain h | h := List.mem_append.mp h
    · exact not_isExponentMark (List.all_eq_true.mp hdigits c h)
    · obtain rfl | h := List.mem_cons.mp h
      · rfl
      · exact not_isExponentMark ((isNumeral_iff.mp hfraction).2 c h)

theorem exponent?_text (e : Exponent) : exponent? (e.sign.text ++ e.digits) = some e.value := by
  obtain ⟨mark, sign, digits, -, hdigits⟩ := e
  have hread : natural? digits = some (value digits) := natural?_eq_some_iff.mpr ⟨hdigits, rfl⟩
  cases sign with
  | plus => simp [exponent?, Sign.text, hread, Exponent.value]
  | minus => simp [exponent?, Sign.text, hread, Exponent.value]
  | none =>
    -- digits are not mistaken for a sign
    have hsign : ∀ c, c.isDigit = false → ∀ t, digits ≠ c :: t := by
      rintro c hc t rfl
      have hd := (isNumeral_iff.mp hdigits).2 c List.mem_cons_self
      rw [hc] at hd
      cases hd
    change exponent? digits = some (value digits : Int)
    unfold exponent?
    split
    case h_1 t => exact absurd rfl (hsign '+' rfl t)
    case h_2 t => exact absurd rfl (hsign '-' rfl t)
    case h_3 => rw [hread, Option.map_some]; rfl

theorem exists_of_exponent? {c : Char} {s : List Char} {k : Int} (hc : isExponentMark c)
    (h : exponent? s = some k) : ∃ e : Exponent, e.text = c :: s ∧ e.value = k := by
  unfold exponent? at h
  split at h
  case h_1 t =>
    obtain ⟨n, hn, rfl⟩ := Option.map_eq_some_iff.mp h
    obtain ⟨ht, rfl⟩ := natural?_eq_some_iff.mp hn
    exact ⟨⟨c, .plus, t, hc, ht⟩, rfl, rfl⟩
  case h_2 t =>
    obtain ⟨k, hk, rfl⟩ := Option.map_eq_some_iff.mp h
    obtain ⟨n, hn, hkn⟩ := Option.bind_eq_some_iff.mp hk
    obtain ⟨ht, rfl⟩ := natural?_eq_some_iff.mp hn
    exact ⟨⟨c, .minus, t, hc, ht⟩, rfl, congrArg Neg.neg (Option.some.inj hkn)⟩
  case h_3 =>
    obtain ⟨n, hn, rfl⟩ := Option.map_eq_some_iff.mp h
    obtain ⟨ht, rfl⟩ := natural?_eq_some_iff.mp hn
    exact ⟨⟨c, .none, s, hc, ht⟩, rfl, rfl⟩

theorem magnitude?_magnitudeText (n : Numeral) :
    magnitude? n.magnitudeText = some n.magnitude := by
  obtain ⟨negative, mantissa, exponent⟩ := n
  have hmantissa : ∀ c ∈ mantissa.text, (!isExponentMark c) = true :=
    fun _ => not_isExponentMark_of_mem_text
  cases exponent with
  | none =>
    have htext : Numeral.magnitudeText ⟨negative, mantissa, none⟩ = mantissa.text :=
      List.append_nil _
    have hread : mantissa? mantissa.text = some (mantissa.digits.1, mantissa.digits.2) :=
      mantissa?_text mantissa
    rw [htext, magnitude?_of_mantissa? hread hmantissa, Numeral.magnitude, Option.elim_none,
      Int.zero_sub]
  | some e =>
    have htake : (mantissa.text ++ e.text).takeWhile (!isExponentMark ·) = mantissa.text := by
      rw [List.takeWhile_append_of_pos hmantissa, Exponent.text]
      simp [e.mark_valid]
    have hdrop : (mantissa.text ++ e.text).dropWhile (!isExponentMark ·) =
        e.mark :: (e.sign.text ++ e.digits) := by
      rw [List.dropWhile_append_of_pos hmantissa, Exponent.text]
      simp [e.mark_valid]
    simp [Numeral.magnitudeText, magnitude?, htake, hdrop, mantissa?_text, exponent?_text,
      Numeral.magnitude]

theorem exists_of_magnitude? {s : List Char} {m : Nat × Int} (negative : Bool)
    (h : magnitude? s = some m) :
    ∃ n : Numeral, n.negative = negative ∧ n.magnitudeText = s ∧ n.magnitude = m := by
  have hsplit := List.takeWhile_append_dropWhile (p := (!isExponentMark ·)) (l := s)
  obtain ⟨ds, hmantissa, h⟩ := Option.bind_eq_some_iff.mp h
  obtain ⟨mantissa, htext, rfl⟩ := exists_of_mantissa? hmantissa
  dsimp only at h
  rw [← htext] at hsplit
  split at h
  case h_1 hnil =>
    rw [hnil] at hsplit
    exact ⟨⟨negative, mantissa, none⟩, rfl, hsplit, Option.some.inj h⟩
  case h_2 c t hcons =>
    obtain ⟨k, hexponent, h⟩ := Option.bind_eq_some_iff.mp h
    have hmark : isExponentMark c := by simpa using head_dropWhile_not hcons
    obtain ⟨e, hetext, rfl⟩ := exists_of_exponent? hmark hexponent
    rw [hcons, ← hetext] at hsplit
    exact ⟨⟨negative, mantissa, some e⟩, rfl, hsplit, Option.some.inj h⟩

theorem ofText?_text (n : Numeral) : ofText? n.text = some n.decimal := by
  have hread := magnitude?_magnitudeText n
  cases hn : n.negative with
  | true => simp [Numeral.text, ofText?, hread, Numeral.decimal, hn]
  | false =>
    have htext : n.text = n.magnitudeText := by simp [Numeral.text, hn]
    rw [htext, Numeral.decimal, hn]
    exact ofText?_of_magnitude? hread

/-- A text is read exactly if it is a number of the grammar, and as what this says. -/
theorem ofText?_eq_some_iff {s : List Char} {d : Decimal} :
    ofText? s = some d ↔ ∃ n : Numeral, n.text = s ∧ n.decimal = d := by
  constructor
  · intro h
    unfold ofText? at h
    split at h
    case h_1 t =>
      obtain ⟨m, hm, rfl⟩ := Option.map_eq_some_iff.mp h
      obtain ⟨n, hn, rfl, rfl⟩ := exists_of_magnitude? true hm
      exact ⟨n, by simp [Numeral.text, hn], by simp [Numeral.decimal, hn]⟩
    case h_2 =>
      obtain ⟨m, hm, rfl⟩ := Option.map_eq_some_iff.mp h
      obtain ⟨n, hn, rfl, rfl⟩ := exists_of_magnitude? false hm
      exact ⟨n, by simp [Numeral.text, hn], by simp [Numeral.decimal, hn]⟩
  · rintro ⟨n, rfl, rfl⟩
    exact ofText?_text n

def isNumeric (c : Char) : Bool := c.isDigit || c ∈ ['.', '+', '-', 'e', 'E']

theorem isNumeric_of_isDigit {c : Char} (h : c.isDigit) : isNumeric c := by
  rw [isNumeric, h, Bool.true_or]

theorem Mantissa.isNumeric_of_mem_text {m : Mantissa} {c : Char} (h : c ∈ m.text) :
    isNumeric c := by
  cases m with
  | whole digits valid => exact isNumeric_of_isDigit ((isNumeral_iff.mp valid).2 c h)
  | point digits fraction hdigits hfraction =>
    obtain h | h := List.mem_append.mp h
    · exact isNumeric_of_isDigit (List.all_eq_true.mp hdigits c h)
    · obtain rfl | h := List.mem_cons.mp h
      · rfl
      · exact isNumeric_of_isDigit ((isNumeral_iff.mp hfraction).2 c h)

theorem Exponent.isNumeric_of_mem_text {e : Exponent} {c : Char} (h : c ∈ e.text) :
    isNumeric c := by
  obtain ⟨mark, sign, digits, hmark, hdigits⟩ := e
  obtain rfl | h := List.mem_cons.mp h
  · obtain he | he := Bool.or_eq_true_iff.mp hmark
    · rw [beq_iff_eq.mp he]
      rfl
    · rw [beq_iff_eq.mp he]
      rfl
  · obtain h | h := List.mem_append.mp h
    · cases sign with
      | none => cases h
      | plus =>
        obtain rfl := List.mem_singleton.mp h
        rfl
      | minus =>
        obtain rfl := List.mem_singleton.mp h
        rfl
    · exact isNumeric_of_isDigit ((isNumeral_iff.mp hdigits).2 c h)

theorem Numeral.isNumeric_of_mem_text {n : Numeral} {c : Char} (h : c ∈ n.text) :
    isNumeric c := by
  obtain ⟨negative, mantissa, exponent⟩ := n
  obtain h | h := List.mem_append.mp h
  · cases negative with
    | false => cases h
    | true =>
      obtain rfl := List.mem_singleton.mp h
      rfl
  · obtain h | h := List.mem_append.mp h
    · exact Mantissa.isNumeric_of_mem_text h
    · cases exponent with
      | none => cases h
      | some e => exact Exponent.isNumeric_of_mem_text h

end MediaLink.Decimal
