import Mathlib.Data.List.TakeWhile
import MediaLink.Proofs.AbsoluteUrl

namespace MediaLink.Reference

theorem isPrefixOf_eq_false {q s : List Char} (h : ∀ t, s ≠ q ++ t) : q.isPrefixOf s = false := by
  rw [Bool.eq_false_iff]
  intro hq
  obtain ⟨t, ht⟩ := List.isPrefixOf_iff_prefix.mp hq
  exact h t ht.symm

theorem opensAuthority_eq (s : List Char) :
    opensAuthority s =
      ([':', '/', '/'].isPrefixOf s && !([':', '/', '/', '/'].isPrefixOf s)) := by
  unfold opensAuthority
  split
  case h_1 rest =>
    cases rest with
    | nil => rfl
    | cons c rest =>
      change (c != '/') = (true && !(('/' == c) && true))
      rw [Bool.true_and, Bool.and_true, BEq.comm]
      rfl
  case h_2 hne => rw [isPrefixOf_eq_false hne, Bool.false_and]

theorem opensAuthority_iff {s : List Char} :
    opensAuthority s ↔ ∃ rest, s = [':', '/', '/'] ++ rest ∧ rest.head? ≠ some '/' := by
  constructor
  · intro h
    unfold opensAuthority at h
    split at h
    case h_1 rest => exact ⟨rest, rfl, bne_iff_ne.mp h⟩
    case h_2 => cases h
  · rintro ⟨rest, rfl, hrest⟩
    exact bne_iff_ne.mpr hrest

def NamesAuthority (s : List Char) : Prop :=
  ∃ scheme rest, s = scheme ++ [':', '/', '/'] ++ rest ∧ scheme ≠ [] ∧
    (∀ c ∈ scheme, c.isAlpha) ∧ rest.head? ≠ some '/'

theorem isScheme_of_isAlpha {scheme : List Char} (hne : scheme ≠ [])
    (h : ∀ c ∈ scheme, c.isAlpha) : isScheme scheme := by
  cases scheme with
  | nil => exact absurd rfl hne
  | cons c cs =>
    obtain ⟨hc, hcs⟩ := List.forall_mem_cons.mp h
    have hrest : cs.all continuesScheme = true := by
      rw [List.all_eq_true]
      intro d hd
      simp [continuesScheme, Char.isAlphanum, hcs d hd]
    rw [isScheme, hc, hrest, Bool.true_and]

theorem isAbsolute_iff {s : List Char} : isAbsolute s ↔ NamesAuthority s := by
  constructor
  · intro h
    rw [isAbsolute_eq, Bool.and_eq_true, Option.any_eq_true] at h
    obtain ⟨⟨c, hhead, hc⟩, hopens⟩ := h
    obtain ⟨rest, hrest, hslash⟩ := opensAuthority_iff.mp hopens
    refine ⟨s.takeWhile Char.isAlpha, rest, ?_, ?_, fun d hd => List.mem_takeWhile_imp hd, hslash⟩
    · rw [List.append_assoc, ← hrest, List.takeWhile_append_dropWhile]
    · obtain ⟨t, rfl⟩ := List.head?_eq_some_iff.mp hhead
      rw [List.takeWhile_cons_of_pos hc]
      exact List.cons_ne_nil _ _
  · rintro ⟨scheme, rest, rfl, hne, halpha, hrest⟩
    have hopens : opensAuthority (':' :: '/' :: '/' :: rest) := opensAuthority_iff.mpr
      ⟨rest, rfl, hrest⟩
    have hall : scheme.all Char.isAlpha = true := List.all_eq_true.mpr halpha
    rw [List.append_assoc]
    change isAbsolute (scheme ++ ':' :: ('/' :: '/' :: rest)) = true
    rw [isAbsolute_scheme (isScheme_of_isAlpha hne halpha), hall, hopens, Bool.true_and]

theorem closesPlaceholder_eq (s : List Char) :
    closesPlaceholder s =
      (s.head? != some '%' && ['%', '7', 'D'].isPrefixOf (s.dropWhile (· != '%'))) := by
  unfold closesPlaceholder
  split
  case h_1 rest heq =>
    rw [heq]
    rfl
  case h_2 hne => rw [isPrefixOf_eq_false hne]

/-- The marks do not overlap, so each place can be looked at on its own. -/
theorem hasPlaceholder_cons (c : Char) (s : List Char) :
    hasPlaceholder (c :: s) =
      (['%', '7', 'B'].isPrefixOf (c :: s) && closesPlaceholder (s.drop 2) ||
        hasPlaceholder s) := by
  conv_lhs => unfold hasPlaceholder
  split
  case h_1 heq => cases heq
  case h_2 rest heq =>
    obtain ⟨rfl, rfl⟩ := List.cons_eq_cons.mp heq
    rfl
  case h_3 d t hne heq =>
    obtain ⟨rfl, rfl⟩ := List.cons_eq_cons.mp heq
    have hno : ∀ t, c :: s ≠ ['%', '7', 'B'] ++ t := by
      intro t ht
      obtain ⟨hc, hs⟩ := List.cons_eq_cons.mp ht
      exact hne t hc hs
    rw [isPrefixOf_eq_false hno, Bool.false_and, Bool.false_or]

theorem closesPlaceholder_iff {s : List Char} :
    closesPlaceholder s ↔
      ∃ name back, s = name ++ ['%', '7', 'D'] ++ back ∧ name ≠ [] ∧ '%' ∉ name := by
  rw [closesPlaceholder_eq, Bool.and_eq_true, bne_iff_ne, List.isPrefixOf_iff_prefix]
  constructor
  · rintro ⟨hhead, back, hback⟩
    refine ⟨s.takeWhile (· != '%'), back, ?_, ?_, ?_⟩
    · rw [List.append_assoc, hback, List.takeWhile_append_dropWhile]
    · intro hnil
      -- with no name, the closing mark is what the text begins with
      have hs : s.dropWhile (· != '%') = s := by
        have hsplit := List.takeWhile_append_dropWhile (p := (· != '%')) (l := s)
        rwa [hnil, List.nil_append] at hsplit
      rw [hs] at hback
      exact hhead (hback ▸ rfl)
    · intro hmem
      have hne := List.mem_takeWhile_imp hmem
      simp at hne
  · rintro ⟨name, back, rfl, hne, hname⟩
    have hkept : ∀ c ∈ name, (c != '%') = true := fun c hc => bne_iff_ne.mpr fun h => hname (h ▸ hc)
    refine ⟨?_, back, ?_⟩
    · rw [List.append_assoc, List.head?_append_of_ne_nil _ hne, List.head?_eq_some_head hne]
      intro hhead
      exact hname (Option.some.inj hhead ▸ List.head_mem hne)
    · rw [List.append_assoc, List.dropWhile_append_of_pos hkept]
      rfl

theorem hasPlaceholder_iff_closes {s : List Char} :
    hasPlaceholder s ↔
      ∃ front rest, s = front ++ ['%', '7', 'B'] ++ rest ∧ closesPlaceholder rest := by
  induction s with
  | nil =>
    constructor
    · intro h
      cases h
    · rintro ⟨front, rest, h, -⟩
      simp at h
  | cons c s ih =>
    rw [hasPlaceholder_cons, Bool.or_eq_true, Bool.and_eq_true, List.isPrefixOf_iff_prefix, ih]
    constructor
    · rintro (⟨⟨rest, hrest⟩, hcloses⟩ | ⟨front, rest, rfl, hcloses⟩)
      · obtain rfl : '7' :: 'B' :: rest = s := List.tail_eq_of_cons_eq hrest
        exact ⟨[], rest, hrest.symm, hcloses⟩
      · exact ⟨c :: front, rest, rfl, hcloses⟩
    · rintro ⟨front, rest, hs, hcloses⟩
      cases front with
      | nil =>
        obtain rfl : s = '7' :: 'B' :: rest := List.tail_eq_of_cons_eq hs
        exact .inl ⟨⟨rest, hs.symm⟩, hcloses⟩
      | cons d front =>
        obtain rfl : s = front ++ ['%', '7', 'B'] ++ rest := List.tail_eq_of_cons_eq hs
        exact .inr ⟨front, rest, rfl, hcloses⟩

/-- An opening mark at `i`, a closing mark at `j`, and a name between them that has no `%`. -/
structure IsPlaceholder (s : List Char) (i j : Nat) : Prop where
  opens : ['%', '7', 'B'] <+: s.drop i
  closes : ['%', '7', 'D'] <+: s.drop j
  lt : i + 3 < j
  name : '%' ∉ (s.take j).drop (i + 3)

theorem isPlaceholder_of_eq {front name back : List Char} (hne : name ≠ []) (hname : '%' ∉ name) :
    IsPlaceholder (front ++ ['%', '7', 'B'] ++ (name ++ ['%', '7', 'D'] ++ back)) front.length
      (front.length + 3 + name.length) := by
  have hfront : (front ++ ['%', '7', 'B']).length = front.length + 3 := by simp
  have hback : (front ++ ['%', '7', 'B'] ++ name).length = front.length + 3 + name.length := by
    rw [List.length_append, hfront]
  have hs : front ++ ['%', '7', 'B'] ++ (name ++ ['%', '7', 'D'] ++ back) =
      front ++ ['%', '7', 'B'] ++ name ++ (['%', '7', 'D'] ++ back) := by simp
  refine ⟨?_, ?_, ?_, ?_⟩
  · rw [List.append_assoc, List.drop_left]
    exact List.prefix_append _ _
  · rw [hs, List.drop_left' hback]
    exact List.prefix_append _ _
  · have := List.length_pos_of_ne_nil hne
    omega
  · rw [hs, List.take_left' hback, List.drop_left' hfront]
    exact hname

theorem IsPlaceholder.exists_eq {s : List Char} {i j : Nat} (h : IsPlaceholder s i j) :
    ∃ front name back, s = front ++ ['%', '7', 'B'] ++ (name ++ ['%', '7', 'D'] ++ back) ∧
      name ≠ [] ∧ '%' ∉ name := by
  obtain ⟨⟨rest, hrest⟩, ⟨back, hback⟩, hlt, hname⟩ := h
  have hj : j < s.length := by
    by_contra hj
    rw [List.drop_eq_nil_of_le (Nat.not_lt.mp hj)] at hback
    cases hback
  have hopened : s.drop (i + 3) = rest := by
    rw [← List.drop_drop, ← hrest]
    rfl
  have hnamed : (s.take j).drop (i + 3) ++ s.drop j = rest := by
    rw [← hopened]
    conv_rhs => rw [← List.take_append_drop j s]
    rw [List.drop_append_of_le_length]
    rw [List.length_take]
    omega
  refine ⟨s.take i, (s.take j).drop (i + 3), back, ?_, ?_, hname⟩
  · rw [List.append_assoc _ _ back, hback, hnamed, List.append_assoc, hrest, List.take_append_drop]
  · intro hnil
    have hlength := congrArg List.length hnil
    simp only [List.length_drop, List.length_take, List.length_nil] at hlength
    omega

theorem hasPlaceholder_iff {s : List Char} : hasPlaceholder s ↔ ∃ i j, IsPlaceholder s i j := by
  rw [hasPlaceholder_iff_closes]
  constructor
  · rintro ⟨front, rest, rfl, hcloses⟩
    obtain ⟨name, back, rfl, hne, hname⟩ := closesPlaceholder_iff.mp hcloses
    exact ⟨_, _, isPlaceholder_of_eq hne hname⟩
  · rintro ⟨i, j, h⟩
    obtain ⟨front, name, back, rfl, hne, hname⟩ := h.exists_eq
    exact ⟨front, _, rfl, closesPlaceholder_iff.mpr ⟨name, back, rfl, hne, hname⟩⟩

/-- Nothing that stands around a placeholder hides it. -/
theorem IsPlaceholder.hasPlaceholder_around {s : List Char} {i j : Nat} (h : IsPlaceholder s i j)
    (front back : List Char) : hasPlaceholder (front ++ s ++ back) := by
  obtain ⟨before, name, behind, rfl, hne, hname⟩ := h.exists_eq
  refine hasPlaceholder_iff_closes.mpr
    ⟨front ++ before, name ++ ['%', '7', 'D'] ++ (behind ++ back), ?_, ?_⟩
  · simp only [List.append_assoc]
  · exact closesPlaceholder_iff.mpr ⟨name, behind ++ back, rfl, hne, hname⟩

structure IsClassified (s : List Char) : Prop where
  isRewritable_eq_false_iff : isRewritable s = false ↔
    NamesAuthority s ∨ s.head? = some '/' ∨ ∃ i j, IsPlaceholder s i j
  hasPlaceholder_around : ∀ i j, IsPlaceholder s i j →
    ∀ front back, hasPlaceholder (front ++ s ++ back)

/-- Every text is classified by its authority, its first character and its placeholders alone. -/
theorem isClassified (s : List Char) : IsClassified s where
  isRewritable_eq_false_iff := by
    rw [isRewritable, Bool.and_eq_false_iff, Bool.and_eq_false_iff, Bool.not_eq_false',
      bne_eq_false_iff_eq, Bool.not_eq_false', isAbsolute_iff, hasPlaceholder_iff, or_assoc]
  hasPlaceholder_around i j h := h.hasPlaceholder_around

example : isRewritable "a%7B%7D%7Bb%20%7Bname%7D".toList = false := by decide

end MediaLink.Reference
