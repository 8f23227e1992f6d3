import Mathlib.Data.List.TakeWhile
import MediaLink.Proofs.References

namespace MediaLink

namespace Reference

def firstSegment (path : List Char) : List Char := path.takeWhile (· != '/')

/-- No bundler takes the path for the name of a package. -/
def IsRelative (path : List Char) : Prop :=
  firstSegment path = ['.'] ∨ firstSegment path = ['.', '.']

instance (path : List Char) : Decidable (IsRelative path) :=
  inferInstanceAs (Decidable (_ ∨ _))

def opening (raw : List Char) : List Char := raw.takeWhile fun c => c != '/' && !startsSuffix c

/-- The reference begins with a dot that is the first letter of a name. -/
structure BeginsDotName (raw : List Char) : Prop where
  head : raw.head? = some '.'
  ne_dot : opening raw ≠ ['.']
  ne_dots : opening raw ≠ ['.', '.']

theorem path_ofRaw (raw : List Char) : (ofRaw raw).path =
    if raw.head? = some '.' then raw.takeWhile (!startsSuffix ·)
    else '.' :: '/' :: raw.takeWhile (!startsSuffix ·) := by
  rw [ofRaw, relative]
  split <;> rfl

theorem head?_path_ofRaw (raw : List Char) : (ofRaw raw).path.head? = some '.' := by
  rw [path_ofRaw]
  split
  case isTrue h =>
    rw [List.head?_takeWhile, h]
    rfl
  case isFalse => rfl

theorem firstSegment_path_ofRaw {raw : List Char} (h : raw.head? = some '.') :
    firstSegment (ofRaw raw).path = opening raw := by
  -- the path has no suffix, so that its first segment ends where this begins
  rw [path_ofRaw, if_pos h, firstSegment, List.takeWhile_takeWhile, opening]
  simp only [Bool.decide_and, Bool.decide_eq_true]

theorem isRelative_path_ofRaw (raw : List Char) :
    IsRelative (ofRaw raw).path ↔ ¬ BeginsDotName raw := by
  by_cases h : raw.head? = some '.'
  · rw [IsRelative, firstSegment_path_ofRaw h]
    constructor
    · rintro (hdot | hdots) hname
      · exact hname.ne_dot hdot
      · exact hname.ne_dots hdots
    · intro hname
      by_contra hopening
      rw [not_or] at hopening
      exact hname ⟨h, hopening.1, hopening.2⟩
  · have hpath : firstSegment (ofRaw raw).path = ['.'] := by
      rw [path_ofRaw, if_neg h]
      rfl
    exact iff_of_true (.inl hpath) fun hname => h hname.head

end Reference

namespace LinkedProgram

open MediaLink.Tree

variable {κ : Type} (o : Options) (body : List (Tree κ))

def rewritable (o : Options) (body : List (Tree κ)) : List (List Char) :=
  ((allEligible o body).flatMap (·.references)).filter Reference.isRewritable

/-- What the paths of a linked program look like, and with them the sources of its imports. -/
structure IsDotted (o : Options) (body : List (Tree κ)) (l : LinkedProgram κ) : Prop where
  head : ∀ b ∈ l.bindings, b.path.head? = some '.'
  authored : ∀ b ∈ l.bindings, ∃ r ∈ rewritable o body, (Reference.ofRaw r).path = b.path
  isRelative_iff : ∀ b ∈ l.bindings, ∀ r ∈ rewritable o body, (Reference.ofRaw r).path = b.path →
    (Reference.IsRelative b.path ↔ ¬ Reference.BeginsDotName r)
  inserts_eq : inserts o body l.body = l.imports.map fun b =>
    .node (.defaultImport (String.ofList b.name) (String.ofList b.path)) []
  imports_subset : l.imports ⊆ l.bindings

theorem mem_paths_iff (path : List Char) : path ∈ (ofBody o body).bindings.map (·.path) ↔
    ∃ r ∈ rewritable o body, (Reference.ofRaw r).path = path := by
  rw [paths_ofBody, List.mem_eraseDups, List.mem_map, rewritable]

theorem inserts_ofBody :
    inserts o body (ofBody o body).body = (ofBody o body).imports.map Binding.importTree := by
  rw [imports]
  cases h : (ofBody o body).inserted with
  | true =>
    rw [(inserts_body o body h).1, bindings_ofBody]
    rfl
  | false =>
    rw [body_of_not_inserted o body h, inserts, length_substituted, Nat.sub_self, List.take_zero]
    rfl

/-- Every path begins with a dot, and is relative unless this dot was authored and begins a name. -/
theorem isDotted_ofBody : IsDotted o body (ofBody o body) := by
  have hauthored : ∀ b ∈ (ofBody o body).bindings,
      ∃ r ∈ rewritable o body, (Reference.ofRaw r).path = b.path :=
    fun b hb => (mem_paths_iff o body b.path).mp (List.mem_map_of_mem hb)
  refine ⟨?_, hauthored, ?_, inserts_ofBody o body, ?_⟩
  · intro b hb
    obtain ⟨r, -, hr⟩ := hauthored b hb
    rw [← hr]
    exact Reference.head?_path_ofRaw r
  · intro b _ r _ hr
    rw [← hr]
    exact Reference.isRelative_path_ofRaw r
  · rw [imports]
    split
    · exact List.Subset.refl _
    · exact List.nil_subset _

theorem not_isRelative_hidden :
    let body : List (Tree Unit) :=
      [.node (.function (some "_createMdxContent") false false)
        [.node (.opening (.plain "img") true)
          [.node (.attribute (.plain "src")) [.string ".hidden/a.png"]]]]
    (ofBody {} body).imports.map (·.path) = [".hidden/a.png".toList] ∧
      ¬ ∀ b ∈ (ofBody {} body).bindings, Reference.IsRelative b.path := by
  decide +kernel

end LinkedProgram

end MediaLink
