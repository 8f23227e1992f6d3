import MediaLink.Proofs.RelativePaths
import MediaLink.Proofs.Rewritable
import MediaLink.Proofs.SessionRuns

namespace MediaLink

namespace Reference

/-- The two parts of a reference that was made relative. -/
structure IsSplit (raw : List Char) (r : Reference) : Prop where
  text_eq : r.path ++ r.suffix = if raw.head? = some '.' then raw else '.' :: '/' :: raw
  head_path : r.path.head? = some '.'
  hash_notMem : '#' ∉ r.path
  mark_notMem : '?' ∉ r.path
  head_suffix : r.suffix = [] ∨ r.suffix.head? = some '#' ∨ r.suffix.head? = some '?'

theorem startsSuffix_iff {c : Char} : startsSuffix c ↔ c = '#' ∨ c = '?' := by
  simp [startsSuffix]

theorem takeWhile_append_suffix {path suffix : List Char} (hhash : '#' ∉ path) (hmark : '?' ∉ path)
    (hsuffix : suffix = [] ∨ suffix.head? = some '#' ∨ suffix.head? = some '?') :
    (path ++ suffix).takeWhile (!startsSuffix ·) = path ∧
      (path ++ suffix).dropWhile (!startsSuffix ·) = suffix := by
  have hpath : ∀ c ∈ path, (!startsSuffix c) = true := by
    intro c hc
    rw [Bool.not_eq_true', Bool.eq_false_iff]
    intro hstarts
    obtain rfl | rfl := startsSuffix_iff.mp hstarts
    · exact hhash hc
    · exact hmark hc
  rw [List.takeWhile_append_of_pos hpath, List.dropWhile_append_of_pos hpath]
  cases suffix with
  | nil => exact ⟨List.append_nil path, rfl⟩
  | cons c s =>
    have hc : startsSuffix c := by
      rw [startsSuffix_iff]
      simpa using hsuffix
    simp [hc]

theorem isSplit_ofRaw (raw : List Char) : IsSplit raw (ofRaw raw) where
  text_eq := text_ofRaw raw
  head_path := head?_path_ofRaw raw
  hash_notMem h := absurd (List.mem_takeWhile_imp h) (by decide)
  mark_notMem h := absurd (List.mem_takeWhile_imp h) (by decide)
  head_suffix := by
    cases hs : (ofRaw raw).suffix with
    | nil => exact .inl rfl
    | cons c s =>
      have hhead := List.head?_dropWhile_not (!startsSuffix ·) (relative raw)
      rw [show (relative raw).dropWhile (!startsSuffix ·) = c :: s from hs] at hhead
      have hc : startsSuffix c := by simpa using hhead
      exact .inr (by simpa using startsSuffix_iff.mp hc)

theorem IsSplit.relative_eq {raw : List Char} {r : Reference} (h : IsSplit raw r) :
    relative raw = r.path ++ r.suffix := h.text_eq.symm

theorem IsSplit.head_text {raw : List Char} {r : Reference} (h : IsSplit raw r) :
    (r.path ++ r.suffix).head? = some '.' := by
  rw [List.head?_append, h.head_path, Option.some_or]

theorem isSplit_iff {raw : List Char} {r : Reference} : IsSplit raw r ↔ r = ofRaw raw := by
  constructor
  · intro h
    obtain ⟨hpath, hsuffix⟩ := takeWhile_append_suffix h.hash_notMem h.mark_notMem h.head_suffix
    rw [ofRaw, h.relative_eq, hpath, hsuffix]
  · rintro rfl
    exact isSplit_ofRaw raw

theorem ofRaw_path (raw : List Char) : ofRaw (ofRaw raw).path = ⟨(ofRaw raw).path, []⟩ := by
  have h := isSplit_ofRaw raw
  refine (isSplit_iff.mp ?_).symm
  refine ⟨?_, h.head_path, h.hash_notMem, h.mark_notMem, .inl rfl⟩
  rw [if_pos h.head_path]
  exact List.append_nil _

theorem ofRaw_append (raw : List Char) :
    ofRaw ((ofRaw raw).path ++ (ofRaw raw).suffix) = ofRaw raw := by
  have h := isSplit_ofRaw raw
  refine (isSplit_iff.mp ⟨?_, h.head_path, h.hash_notMem, h.mark_notMem, h.head_suffix⟩).symm
  exact (if_pos h.head_text).symm

theorem isRewritable_of_head {s : List Char} (h : s.head? = some '.') :
    isRewritable s = !hasPlaceholder s := by
  have habsolute : isAbsolute s = false := by
    rw [isAbsolute_eq, h]
    rfl
  rw [isRewritable, habsolute, h]
  rfl

theorem hasPlaceholder_relative (raw : List Char) :
    hasPlaceholder (relative raw) = hasPlaceholder raw := by
  rw [relative]
  split <;> rfl

theorem hasPlaceholder_append {s : List Char} (h : hasPlaceholder s) (t : List Char) :
    hasPlaceholder (s ++ t) := by
  obtain ⟨i, j, hplaceholder⟩ := hasPlaceholder_iff.mp h
  exact hplaceholder.hasPlaceholder_around [] t

theorem hasPlaceholder_relative_of_isRewritable {raw : List Char} (h : isRewritable raw) :
    hasPlaceholder (relative raw) = false := by
  rw [isRewritable, Bool.and_eq_true] at h
  rw [hasPlaceholder_relative]
  simpa using h.2

theorem isRewritable_append {raw : List Char} (h : isRewritable raw) :
    isRewritable ((ofRaw raw).path ++ (ofRaw raw).suffix) := by
  have hs := isSplit_ofRaw raw
  rw [isRewritable_of_head hs.head_text, ← hs.relative_eq,
    hasPlaceholder_relative_of_isRewritable h]
  rfl

theorem isRewritable_path {raw : List Char} (h : isRewritable raw) :
    isRewritable (ofRaw raw).path := by
  have hs := isSplit_ofRaw raw
  have hnone : hasPlaceholder (ofRaw raw).path = false := by
    rw [Bool.eq_false_iff]
    intro hpath
    have hwhole := hasPlaceholder_append hpath (ofRaw raw).suffix
    rw [← hs.relative_eq, hasPlaceholder_relative_of_isRewritable h] at hwhole
    cases hwhole
  rw [isRewritable_of_head hs.head_path, hnone]
  rfl

/-- The part before the first `#` or `?`, with `./` in front unless it starts with a dot. -/
def key (raw : List Char) : List Char :=
  relative (raw.takeWhile fun c => c != '#' && c != '?')

theorem path_eq_key (raw : List Char) : (ofRaw raw).path = key raw := by
  have hclass : (fun c => c != '#' && c != '?') = (!startsSuffix ·) := by
    funext c
    rw [startsSuffix, Bool.not_or]
    rfl
  rw [path_ofRaw, key, hclass, relative, List.head?_takeWhile]
  by_cases h : raw.head? = some '.'
  · rw [if_pos h, h, if_pos (by rfl)]
  · rw [if_neg h, if_neg]
    intro hkept
    exact h (Option.filter_eq_some_iff.mp hkept).1

end Reference

namespace Registry

theorem resolve_fst (r : Registry) (path : List Char) :
    (r.resolve path).1 = (r.resolve path).2.nameOf path := by
  rw [resolve]
  cases hfind : r.bindings.find? (·.path == path) with
  | some b => simp [nameOf, Binding.nameIn, hfind]
  | none => simp [nameOf, Binding.nameIn, List.find?_append, hfind]

theorem mem_paths_resolve (r : Registry) (path : List Char) :
    path ∈ (r.resolve path).2.bindings.map (·.path) :=
  mem_paths_resolveAll r (List.mem_singleton_self path)

theorem resolve_eq_iff {r : Registry} (h : r.Valid) (p q : List Char) (between : List (List Char)) :
    (r.resolve p).1 = (((r.resolve p).2.resolveAll between).resolve q).1 ↔ p = q := by
  let last := ((r.resolve p).2.resolveAll between).resolve q
  have hvalid : last.2.Valid := valid_resolve (valid_resolveAll (valid_resolve h p) between) q
  have hprefix : (r.resolve p).2.bindings <+: last.2.bindings :=
    (prefix_resolveAll _ between).trans (prefix_resolve _ q)
  have hp := mem_paths_resolve r p
  have hfirst : (r.resolve p).1 = Binding.nameIn last.2.bindings p := by
    rw [resolve_fst, nameOf, Binding.nameIn_of_prefix hprefix hp]
  have hlast : last.1 = Binding.nameIn last.2.bindings q := resolve_fst _ q
  rw [hfirst]
  change _ = last.1 ↔ _
  rw [hlast]
  exact Binding.nameIn_inj hvalid.names_nodup (( hprefix.map _).subset hp) (mem_paths_resolve _ q)

end Registry

namespace Reference

open Registry LinkedProgram

/-- Everything that the cut of a reference keeps, and what makes it share the import of another. -/
structure IsCanonical (raw : List Char) : Prop where
  isSplit_iff : ∀ r, IsSplit raw r ↔ r = ofRaw raw
  ofRaw_path : ofRaw (ofRaw raw).path = ⟨(ofRaw raw).path, []⟩
  ofRaw_append : ofRaw ((ofRaw raw).path ++ (ofRaw raw).suffix) = ofRaw raw
  isRewritable_path : isRewritable raw → isRewritable (ofRaw raw).path
  isRewritable_append : isRewritable raw → isRewritable ((ofRaw raw).path ++ (ofRaw raw).suffix)
  resolve_eq_iff : ∀ (other : List Char) (requests : List Request) (between : List (List Char)),
    let first := (serve answer {} requests).2.resolve (ofRaw raw).path
    first.1 = ((first.2.resolveAll between).resolve (ofRaw other).path).1 ↔ key raw = key other
  name_eq_iff : ∀ (other : List Char) (κ : Type) (o : Options) (body : List (Tree κ)),
    raw ∈ rewritable o body → other ∈ rewritable o body →
    let bound := (ofBody o body).bindings
    (ofRaw raw).path ∈ bound.map (·.path) ∧
      (Binding.nameIn bound (ofRaw raw).path = Binding.nameIn bound (ofRaw other).path ↔
        key raw = key other)

/-- Every reference is cut in the one way there is, and the path that this leaves says which
references are imported together. -/
theorem isCanonical (raw : List Char) : IsCanonical raw where
  isSplit_iff _ := Reference.isSplit_iff
  ofRaw_path := Reference.ofRaw_path raw
  ofRaw_append := Reference.ofRaw_append raw
  isRewritable_path := Reference.isRewritable_path
  isRewritable_append := Reference.isRewritable_append
  resolve_eq_iff other requests between := by
    rw [← path_eq_key, ← path_eq_key]
    exact Registry.resolve_eq_iff (valid_serve valid_empty requests) _ _ between
  name_eq_iff other κ o body hraw hother := by
    have hmem : ∀ r ∈ rewritable o body, (ofRaw r).path ∈ (ofBody o body).bindings.map (·.path) :=
      fun r hr => (mem_paths_iff o body _).mpr ⟨r, hr, rfl⟩
    refine ⟨hmem raw hraw, ?_⟩
    rw [← path_eq_key, ← path_eq_key]
    exact Binding.nameIn_inj (links_ofBody o body).names_nodup (hmem raw hraw) (hmem other hother)

example : isRewritable "a%7Bb#c%7D".toList = false ∧
    isRewritable (ofRaw "a%7Bb#c%7D".toList).path = true := by decide

end Reference

end MediaLink
