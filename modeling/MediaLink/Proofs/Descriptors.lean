import MediaLink.Proofs.Rounding
import MediaLink.Srcset.Parser

namespace MediaLink.Srcset

namespace Density

def IsBounded (d : Density) : Prop := d.magnitude ≠ .infinite

instance (d : Density) : Decidable d.IsBounded := inferInstanceAs (Decidable (_ ≠ _))

theorem density?_text {d : Density} (h : d.isBelowZero = false) :
    Descriptor.density? d.text = if d.IsBounded then some d else none := by
  obtain ⟨negative, magnitude⟩ := d
  by_cases hm : magnitude = .infinite
  · subst hm
    cases negative with
    | true => cases h
    | false =>
      have hread : Decimal.ofText? (Density.text ⟨false, .infinite⟩) = none := by decide
      simp [Descriptor.density?, hread, IsBounded]
  · obtain ⟨n, e, hread, hvalue⟩ := Binary64.magnitude?_text hm
    have htext : Decimal.ofText? (Density.text ⟨negative, magnitude⟩) = some ⟨negative, n, e⟩ := by
      cases negative with
      | true => simp [Density.text, Decimal.ofText?, hread]
      | false => exact Decimal.ofText?_of_magnitude? hread
    simp [Descriptor.density?, htext, ofDecimal, hvalue, h, IsBounded, hm]

end Density

namespace Descriptor

theorem extent?_toDigits {n : Nat} (h : 0 < n ∧ n < 2 ^ 32) :
    extent? (Nat.toDigits 10 n) = some n := by
  simp only [extent?, Decimal.natural?, Decimal.isNumeral_toDigits, Decimal.value_toDigits, if_true]
  exact if_pos h

theorem ofToken?_width {n : Nat} (h : 0 < n ∧ n < 2 ^ 32) :
    ofToken? (Nat.toDigits 10 n ++ ['w']) = some (.width n) := by
  simp [ofToken?, extent?_toDigits h]

theorem ofToken?_height {n : Nat} (h : 0 < n ∧ n < 2 ^ 32) :
    ofToken? (Nat.toDigits 10 n ++ ['h']) = some (.height n) := by
  simp [ofToken?, extent?_toDigits h]

theorem ofToken?_density {d : Density} (h : d.isBelowZero = false) :
    ofToken? (d.text ++ ['x']) = if d.IsBounded then some (.density d) else none := by
  simp only [ofToken?, List.getLast?_concat, List.dropLast_concat, Density.density?_text h]
  split <;> rfl

def Valid : Descriptor → Prop
  | width n | height n => 0 < n ∧ n < 2 ^ 32
  | density d => d.isBelowZero = false

theorem extent?_bounds {s : List Char} {n : Nat} (h : extent? s = some n) : 0 < n ∧ n < 2 ^ 32 := by
  obtain ⟨m, -, h⟩ := Option.bind_eq_some_iff.mp h
  obtain ⟨hm, h⟩ := Option.ite_none_right_eq_some.mp h
  exact Option.some.inj h ▸ hm

theorem density?_isBelowZero {s : List Char} {d : Density} (h : density? s = some d) :
    d.isBelowZero = false := by
  obtain ⟨m, -, h⟩ := Option.bind_eq_some_iff.mp h
  obtain ⟨hm, h⟩ := Option.ite_none_left_eq_some.mp h
  exact Option.some.inj h ▸ Bool.eq_false_of_not_eq_true hm

theorem valid_of_ofToken? {token : List Char} {d : Descriptor} (h : ofToken? token = some d) :
    d.Valid := by
  rw [ofToken?] at h
  split at h
  case h_1 | h_2 =>
    obtain ⟨n, hn, rfl⟩ := Option.map_eq_some_iff.mp h
    exact extent?_bounds hn
  case h_3 =>
    obtain ⟨m, hm, rfl⟩ := Option.map_eq_some_iff.mp h
    exact density?_isBelowZero hm
  case h_4 => cases h

end Descriptor

namespace Candidate

/-- What a candidate can be read as, its URL apart. -/
structure Valid (c : Candidate) : Prop where
  width : ∀ n, c.width = some n → 0 < n ∧ n < 2 ^ 32
  height : ∀ n, c.height = some n → 0 < n ∧ n < 2 ^ 32
  density : ∀ d, c.density = some d → d.isBelowZero = false ∧ c.width = none ∧ c.height = none

def isBounded (c : Candidate) : Bool := c.density.all fun d => decide d.IsBounded

def descriptorTokens (c : Candidate) : List (List Char) :=
  (c.density.elim [] fun d => [d.text ++ ['x']]) ++
    (c.width.elim [] fun n => [Nat.toDigits 10 n ++ ['w']]) ++
    (c.height.elim [] fun n => [Nat.toDigits 10 n ++ ['h']])

theorem descriptorText_eq (c : Candidate) :
    c.descriptorText = c.descriptorTokens.flatMap (' ' :: ·) := by
  obtain ⟨url, density, width, height⟩ := c
  cases density <;> cases width <;> cases height <;> simp [descriptorText, descriptorTokens]

theorem add?_valid {c c' : Candidate} {d : Descriptor} (hc : c.Valid) (hd : d.Valid)
    (h : c.add? d = some c') : c'.Valid ∧ c'.url = c.url := by
  cases d with
  | width n =>
    obtain ⟨hfree, h⟩ := Option.ite_none_right_eq_some.mp h
    obtain rfl := Option.some.inj h
    simp only [Bool.and_eq_true, Option.isNone_iff_eq_none] at hfree
    refine ⟨⟨?_, hc.height, ?_⟩, rfl⟩
    · rintro m hm
      exact Option.some.inj hm ▸ hd
    · intro d hdensity
      exact absurd (hfree.2.symm.trans hdensity) nofun
  | height n =>
    obtain ⟨hfree, h⟩ := Option.ite_none_right_eq_some.mp h
    obtain rfl := Option.some.inj h
    simp only [Bool.and_eq_true, Option.isNone_iff_eq_none] at hfree
    refine ⟨⟨hc.width, ?_, ?_⟩, rfl⟩
    · rintro m hm
      exact Option.some.inj hm ▸ hd
    · intro d hdensity
      exact absurd (hfree.2.symm.trans hdensity) nofun
  | density d =>
    obtain ⟨hfree, h⟩ := Option.ite_none_right_eq_some.mp h
    obtain rfl := Option.some.inj h
    simp only [Bool.and_eq_true, Option.isNone_iff_eq_none] at hfree
    refine ⟨⟨hc.width, hc.height, ?_⟩, rfl⟩
    rintro m hm
    exact Option.some.inj hm ▸ ⟨hd, hfree.1⟩

theorem valid_foldlM {tokens : List (List Char)} {start c : Candidate} (hstart : start.Valid)
    (h : tokens.foldlM (fun c token => Descriptor.ofToken? token >>= c.add?) start = some c) :
    c.Valid ∧ c.url = start.url := by
  induction tokens generalizing start with
  | nil =>
    obtain rfl := Option.some.inj h
    exact ⟨hstart, rfl⟩
  | cons token tokens ih =>
    rw [List.foldlM_cons] at h
    obtain ⟨next, hnext, h⟩ := Option.bind_eq_some_iff.mp h
    obtain ⟨d, hd, hnext⟩ := Option.bind_eq_some_iff.mp hnext
    obtain ⟨hvalid, hurl⟩ := add?_valid hstart (Descriptor.valid_of_ofToken? hd) hnext
    obtain ⟨hc, hcurl⟩ := ih hvalid h
    exact ⟨hc, hcurl.trans hurl⟩

theorem valid_of_ofTokens? {url : List Char} {tokens : List (List Char)} {c : Candidate}
    (h : ofTokens? url tokens = some c) : c.Valid ∧ c.url = url := by
  have hstart : Valid { url } := by
    constructor <;> intro _ hnone <;> cases hnone
  rw [ofTokens?] at h
  exact valid_foldlM hstart h

/-- The tokens that are written for a candidate read back as its descriptors. -/
theorem ofTokens?_descriptorTokens {c : Candidate} (h : c.Valid) (url : List Char) :
    ofTokens? url c.descriptorTokens = if c.isBounded then some { c with url } else none := by
  obtain ⟨_, density, width, height⟩ := c
  cases density with
  | some d =>
    obtain ⟨hd, hwidth, hheight⟩ := h.density d rfl
    dsimp only at hwidth hheight
    subst hwidth hheight
    simp only [descriptorTokens, ofTokens?, isBounded, Option.elim, List.append_nil,
      List.foldlM_cons, List.foldlM_nil, Descriptor.ofToken?_density hd, Option.all_some]
    by_cases hbounded : d.IsBounded
    · simp [hbounded, add?]
    · simp [hbounded]
  | none =>
    cases width with
    | none =>
      cases height with
      | none => rfl
      | some n =>
        have hn := h.height n rfl
        simp [descriptorTokens, ofTokens?, isBounded, Descriptor.ofToken?_height hn, add?]
    | some n =>
      have hn := h.width n rfl
      cases height with
      | none => simp [descriptorTokens, ofTokens?, isBounded, Descriptor.ofToken?_width hn, add?]
      | some k =>
        have hk := h.height k rfl
        simp [descriptorTokens, ofTokens?, isBounded, Descriptor.ofToken?_width hn,
          Descriptor.ofToken?_height hk, add?]

end Candidate

end MediaLink.Srcset
