import MediaLink.Proofs.Descriptors
import MediaLink.Proofs.Numerals

namespace MediaLink.Srcset

namespace Descriptor

def IsExtent (unit : Char) (token : List Char) (n : Nat) : Prop :=
  ∃ digits, token = digits ++ [unit] ∧ Decimal.isNumeral digits ∧ Decimal.value digits = n ∧
    0 < n ∧ n < 2 ^ 32

def IsDensity (token : List Char) (d : Density) : Prop :=
  ∃ n : Decimal.Numeral, token = n.text ++ ['x'] ∧ Density.ofDecimal n.decimal = d ∧
    d.isBelowZero = false

def IsSpelled (token : List Char) : Descriptor → Prop
  | width n => IsExtent 'w' token n
  | height n => IsExtent 'h' token n
  | density d => IsDensity token d

theorem extent?_eq_some_iff {s : List Char} {n : Nat} :
    extent? s = some n ↔ Decimal.isNumeral s ∧ Decimal.value s = n ∧ 0 < n ∧ n < 2 ^ 32 := by
  constructor
  · intro h
    obtain ⟨m, hm, h⟩ := Option.bind_eq_some_iff.mp h
    obtain ⟨hbounds, h⟩ := Option.ite_none_right_eq_some.mp h
    obtain rfl := Option.some.inj h
    obtain ⟨hs, hvalue⟩ := Decimal.natural?_eq_some_iff.mp hm
    exact ⟨hs, hvalue, hbounds⟩
  · rintro ⟨hs, hvalue, hbounds⟩
    have hread : Decimal.natural? s = some n := Decimal.natural?_eq_some_iff.mpr ⟨hs, hvalue⟩
    exact Option.bind_eq_some_iff.mpr ⟨n, hread, if_pos hbounds⟩

theorem density?_eq_some_iff {s : List Char} {d : Density} :
    density? s = some d ↔
      ∃ n : Decimal.Numeral, n.text = s ∧ Density.ofDecimal n.decimal = d ∧
        d.isBelowZero = false := by
  constructor
  · intro h
    obtain ⟨m, hm, h⟩ := Option.bind_eq_some_iff.mp h
    obtain ⟨hzero, h⟩ := Option.ite_none_left_eq_some.mp h
    obtain rfl := Option.some.inj h
    obtain ⟨n, hn, rfl⟩ := Decimal.ofText?_eq_some_iff.mp hm
    exact ⟨n, hn, rfl, Bool.eq_false_of_not_eq_true hzero⟩
  · rintro ⟨n, rfl, rfl, hzero⟩
    refine Option.bind_eq_some_iff.mpr ⟨n.decimal, Decimal.ofText?_text n, if_neg ?_⟩
    rw [hzero]
    exact Bool.false_ne_true

theorem ofToken?_eq_some_iff {token : List Char} {d : Descriptor} :
    ofToken? token = some d ↔ d.IsSpelled token := by
  constructor
  · intro h
    rw [ofToken?] at h
    split at h
    case h_1 hlast | h_2 hlast =>
      obtain ⟨digits, rfl⟩ := List.getLast?_eq_some_iff.mp hlast
      obtain ⟨n, hn, rfl⟩ := Option.map_eq_some_iff.mp h
      rw [List.dropLast_concat] at hn
      exact ⟨digits, rfl, extent?_eq_some_iff.mp hn⟩
    case h_3 hlast =>
      obtain ⟨text, rfl⟩ := List.getLast?_eq_some_iff.mp hlast
      obtain ⟨d, hd, rfl⟩ := Option.map_eq_some_iff.mp h
      rw [List.dropLast_concat] at hd
      obtain ⟨n, rfl, hvalue⟩ := density?_eq_some_iff.mp hd
      exact ⟨n, rfl, hvalue⟩
    case h_4 => cases h
  · intro h
    cases d with
    | width n =>
      obtain ⟨digits, rfl, h⟩ := h
      simp [ofToken?, extent?_eq_some_iff.mpr h]
    | height n =>
      obtain ⟨digits, rfl, h⟩ := h
      simp [ofToken?, extent?_eq_some_iff.mpr h]
    | density d =>
      obtain ⟨n, rfl, h⟩ := h
      simp [ofToken?, density?_eq_some_iff.mpr ⟨n, rfl, h⟩]

end Descriptor

namespace Candidate

open Descriptor

theorem length_descriptorTokens_add? {c c' : Candidate} {d : Descriptor} (h : c.add? d = some c') :
    c'.descriptorTokens.length = c.descriptorTokens.length + 1 := by
  cases d with
  | width n =>
    obtain ⟨hfree, h⟩ := Option.ite_none_right_eq_some.mp h
    obtain rfl := Option.some.inj h
    simp only [Bool.and_eq_true, Option.isNone_iff_eq_none] at hfree
    simp [descriptorTokens, hfree.1, hfree.2, Nat.add_comm]
  | height n =>
    obtain ⟨hfree, h⟩ := Option.ite_none_right_eq_some.mp h
    obtain rfl := Option.some.inj h
    simp only [Bool.and_eq_true, Option.isNone_iff_eq_none] at hfree
    simp [descriptorTokens, hfree.1, hfree.2]
  | density d =>
    obtain ⟨hfree, h⟩ := Option.ite_none_right_eq_some.mp h
    obtain rfl := Option.some.inj h
    simp only [Bool.and_eq_true, Option.isNone_iff_eq_none] at hfree
    simp [descriptorTokens, hfree.1, hfree.2]

theorem length_descriptorTokens_foldlM {tokens : List (List Char)} {start c : Candidate}
    (h : tokens.foldlM (fun c token => ofToken? token >>= c.add?) start = some c) :
    c.descriptorTokens.length = start.descriptorTokens.length + tokens.length := by
  induction tokens generalizing start with
  | nil =>
    obtain rfl := Option.some.inj h
    rfl
  | cons token tokens ih =>
    rw [List.foldlM_cons] at h
    obtain ⟨next, hnext, h⟩ := Option.bind_eq_some_iff.mp h
    obtain ⟨d, -, hnext⟩ := Option.bind_eq_some_iff.mp hnext
    rw [ih h, length_descriptorTokens_add? hnext, List.length_cons, Nat.add_right_comm,
      Nat.add_assoc]

theorem length_descriptorTokens_le {c : Candidate} (h : c.Valid) :
    c.descriptorTokens.length ≤ 2 := by
  obtain ⟨url, density, width, height⟩ := c
  cases density with
  | none => cases width <;> cases height <;> simp [descriptorTokens]
  | some d =>
    obtain ⟨-, hwidth, hheight⟩ := h.density d rfl
    simp only at hwidth hheight
    simp [descriptorTokens, hwidth, hheight]

theorem length_le_of_ofTokens? {url : List Char} {tokens : List (List Char)} {c : Candidate}
    (h : ofTokens? url tokens = some c) : tokens.length ≤ 2 := by
  have hle := length_descriptorTokens_le (valid_of_ofTokens? h).1
  have hlength := length_descriptorTokens_foldlM h
  have hstart : descriptorTokens { url } = [] := rfl
  rw [hstart] at hlength
  simpa [hlength] using hle

/-- The branches test different fields, but what they let through is the same in either order. -/
theorem add?_comm (c : Candidate) (d e : Descriptor) :
    (c.add? d >>= fun c' => c'.add? e) = (c.add? e >>= fun c' => c'.add? d) := by
  obtain ⟨url, density, width, height⟩ := c
  cases d <;> cases e <;> cases density <;> cases width <;> cases height <;> rfl

theorem foldlM_perm {tokens tokens' : List (List Char)} (h : tokens.Perm tokens')
    (start : Candidate) :
    tokens.foldlM (fun c token => ofToken? token >>= c.add?) start =
      tokens'.foldlM (fun c token => ofToken? token >>= c.add?) start := by
  induction h generalizing start with
  | nil => rfl
  | cons token _ ih =>
    rw [List.foldlM_cons, List.foldlM_cons]
    exact bind_congr ih
  | swap t u rest =>
    simp only [List.foldlM_cons]
    rw [← bind_assoc, ← bind_assoc]
    congr 1
    cases ht : ofToken? t with
    | none => simp
    | some d =>
      cases hu : ofToken? u with
      | none => simp
      | some e => exact add?_comm start e d
  | trans _ _ ih ih' => exact (ih start).trans (ih' start)

theorem ofTokens?_perm (url : List Char) {tokens tokens' : List (List Char)}
    (h : tokens.Perm tokens') : ofTokens? url tokens = ofTokens? url tokens' :=
  foldlM_perm h { url }

/-- The tokens of one candidate, and the fields that they give it. -/
inductive Describes : List (List Char) → Option Density → Option Nat → Option Nat → Prop
  | nothing : Describes [] none none none
  | density {t d} (h : IsDensity t d) : Describes [t] (some d) none none
  | width {t n} (h : IsExtent 'w' t n) : Describes [t] none (some n) none
  | height {t n} (h : IsExtent 'h' t n) : Describes [t] none none (some n)
  | extents {t u n k} (hw : IsExtent 'w' t n) (hh : IsExtent 'h' u k) :
    Describes [t, u] none (some n) (some k)

theorem ofTokens?_of_describes (url : List Char) {tokens : List (List Char)}
    {density : Option Density} {width height : Option Nat}
    (h : Describes tokens density width height) :
    ofTokens? url tokens = some ⟨url, density, width, height⟩ := by
  cases h with
  | nothing => rfl
  | density h => simp [ofTokens?, ofToken?_eq_some_iff (d := .density _) |>.mpr h, add?]
  | width h => simp [ofTokens?, ofToken?_eq_some_iff (d := .width _) |>.mpr h, add?]
  | height h => simp [ofTokens?, ofToken?_eq_some_iff (d := .height _) |>.mpr h, add?]
  | extents hw hh =>
    simp [ofTokens?, ofToken?_eq_some_iff (d := .width _) |>.mpr hw,
      ofToken?_eq_some_iff (d := .height _) |>.mpr hh, add?]

theorem describes_of_ofTokens? {url : List Char} {tokens : List (List Char)} {c : Candidate}
    (h : ofTokens? url tokens = some c) :
    ∃ ts, tokens.Perm ts ∧ Describes ts c.density c.width c.height := by
  have hlength := length_le_of_ofTokens? h
  match tokens with
  | [] =>
    obtain rfl := Option.some.inj h
    exact ⟨[], .nil, .nothing⟩
  | [t] =>
    simp only [ofTokens?, List.foldlM_cons, List.foldlM_nil, bind_pure] at h
    obtain ⟨d, hd, h⟩ := Option.bind_eq_some_iff.mp h
    have hspelled := ofToken?_eq_some_iff.mp hd
    refine ⟨[t], .refl _, ?_⟩
    cases d with
    | width n =>
      obtain rfl := Option.some.inj h
      exact .width hspelled
    | height n =>
      obtain rfl := Option.some.inj h
      exact .height hspelled
    | density d =>
      obtain rfl := Option.some.inj h
      exact .density hspelled
  | [t, u] =>
    simp only [ofTokens?, List.foldlM_cons, List.foldlM_nil, bind_pure] at h
    obtain ⟨next, hnext, h⟩ := Option.bind_eq_some_iff.mp h
    obtain ⟨d, hd, hnext⟩ := Option.bind_eq_some_iff.mp hnext
    obtain ⟨e, he, h⟩ := Option.bind_eq_some_iff.mp h
    have ht := ofToken?_eq_some_iff.mp hd
    have hu := ofToken?_eq_some_iff.mp he
    -- every second descriptor but the missing extent is refused
    cases d with
    | width n =>
      obtain rfl := Option.some.inj hnext
      cases e with
      | height k =>
        obtain rfl := Option.some.inj h
        exact ⟨[t, u], .refl _, .extents ht hu⟩
      | width k => cases h
      | density d => cases h
    | height n =>
      obtain rfl := Option.some.inj hnext
      cases e with
      | width k =>
        obtain rfl := Option.some.inj h
        exact ⟨[u, t], .swap .., .extents hu ht⟩
      | height k => cases h
      | density d => cases h
    | density d =>
      obtain rfl := Option.some.inj hnext
      cases e <;> cases h
  | t :: u :: v :: rest => simp at hlength

/-- What becomes of a URL and the tokens behind it. -/
structure IsDescribed (url : List Char) (tokens : List (List Char)) : Prop where
  isSome_iff : (ofTokens? url tokens).isSome ↔
    ∃ ts density width height, tokens.Perm ts ∧ Describes ts density width height
  eq_some_iff : ∀ c, ofTokens? url tokens = some c ↔
    c.url = url ∧ ∃ ts, tokens.Perm ts ∧ Describes ts c.density c.width c.height
  eq_of_perm : ∀ tokens', tokens.Perm tokens' → ofTokens? url tokens' = ofTokens? url tokens

/-- Whatever the tokens are, they make a candidate exactly if some order of them describes one, and
then the one that is described. -/
theorem isDescribed_ofTokens? (url : List Char) (tokens : List (List Char)) :
    IsDescribed url tokens := by
  have hiff (c : Candidate) : ofTokens? url tokens = some c ↔
      c.url = url ∧ ∃ ts, tokens.Perm ts ∧ Describes ts c.density c.width c.height := by
    constructor
    · intro h
      exact ⟨(valid_of_ofTokens? h).2, describes_of_ofTokens? h⟩
    · rintro ⟨rfl, ts, hperm, h⟩
      rw [ofTokens?_perm _ hperm, ofTokens?_of_describes _ h]
  refine ⟨?_, hiff, fun tokens' hperm => (ofTokens?_perm url hperm).symm⟩
  rw [Option.isSome_iff_exists]
  constructor
  · rintro ⟨c, hc⟩
    obtain ⟨-, ts, h⟩ := (hiff c).mp hc
    exact ⟨ts, _, _, _, h⟩
  · rintro ⟨ts, density, width, height, h⟩
    exact ⟨⟨url, density, width, height⟩, (hiff _).mpr ⟨rfl, ts, h⟩⟩

end Candidate

end MediaLink.Srcset
