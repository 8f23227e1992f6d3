import MediaLink.Proofs.Hygiene
import MediaLink.Proofs.SessionRuns

namespace MediaLink

open Text

namespace Binding

/-- What has to hold of the characters that may begin a name, and of those that may stand in it. -/
structure IsClassification (start part : Char → Bool) : Prop where
  part_of_start : ∀ c, start c → part c
  start_of_isAlpha : ∀ c, c.isAlpha → start c
  start_underscore : start '_'
  start_dollar : start '$'

structure IsName (start part : Char → Bool) (name : List Char) : Prop where
  head : ∃ c rest, name = c :: rest ∧ start c
  part : ∀ c ∈ name, part c

def nameBy (start part : Char → Bool) (slug : List Char) : List Char :=
  let body := slug.map fun c => if part c then c else '_'
  (if slug.head?.any fun c => !start c && part c then '_' :: body else body) ++ nameEnding

theorem nameOfSlug_eq_nameBy (slug : List Char) :
    nameOfSlug slug = nameBy isIdentifierStart isIdentifierPart slug := rfl

section Classes

variable {start part : Char → Bool} (h : IsClassification start part)

include h

theorem part_of_mem_nameEnding {c : Char} (hc : c ∈ nameEnding) : part c := by
  have hletters : nameEnding.all fun c => c == '$' || c.isAlpha := by decide
  apply h.part_of_start
  obtain hdollar | halpha := Bool.or_eq_true_iff.mp (List.all_eq_true.mp hletters c hc)
  · obtain rfl := beq_iff_eq.mp hdollar
    exact h.start_dollar
  · exact h.start_of_isAlpha c halpha

theorem part_of_mem_body {slug : List Char} {c : Char}
    (hc : c ∈ slug.map fun c => if part c then c else '_') : part c := by
  obtain ⟨d, -, rfl⟩ := List.mem_map.mp hc
  split
  case isTrue hd => exact hd
  case isFalse => exact h.part_of_start _ h.start_underscore

theorem head_nameBy (slug : List Char) :
    ∃ c rest, nameBy start part slug = c :: rest ∧ start c := by
  cases slug with
  | nil => exact ⟨'$', _, rfl, h.start_dollar⟩
  | cons d slug =>
    simp only [nameBy, List.head?_cons, Option.any_some, List.map_cons]
    cases hstart : start d with
    | true =>
      -- a first letter is kept
      rw [if_pos (h.part_of_start d hstart)]
      exact ⟨d, _, rfl, hstart⟩
    | false =>
      cases part d with
      | true => exact ⟨'_', _, rfl, h.start_underscore⟩
      | false => exact ⟨'_', _, rfl, h.start_underscore⟩

theorem isName_nameBy (slug : List Char) : IsName start part (nameBy start part slug) where
  head := head_nameBy h slug
  part c hc := by
    obtain hc | hc := List.mem_append.mp hc
    · split at hc
      case isTrue =>
        obtain rfl | hc := List.mem_cons.mp hc
        · exact h.part_of_start _ h.start_underscore
        · exact part_of_mem_body h hc
      case isFalse => exact part_of_mem_body h hc
    · exact part_of_mem_nameEnding h hc

end Classes

theorem isIdentifierStart_of_isAlpha {c : Char} (h : c.isAlpha) : isIdentifierStart c := by
  have hranges : (0x41, 0x5a) ∈ startRanges ∧ (0x61, 0x7a) ∈ startRanges := by decide +kernel
  have hc : startRanges.has c := by
    obtain hupper | hlower := Bool.or_eq_true_iff.mp h
    · obtain ⟨hlow, hhigh⟩ := of_decide_eq_true hupper
      have hlow : 0x41 ≤ c.toNat := UInt32.le_iff_toNat_le.mp hlow
      have hhigh : c.toNat ≤ 0x5a := UInt32.le_iff_toNat_le.mp hhigh
      exact List.any_eq_true.mpr ⟨_, hranges.1, by simp [hlow, hhigh]⟩
    · obtain ⟨hlow, hhigh⟩ := Bool.and_eq_true_iff.mp hlower
      have hlow : 0x61 ≤ c.toNat := UInt32.le_iff_toNat_le.mp (of_decide_eq_true hlow)
      have hhigh : c.toNat ≤ 0x7a := UInt32.le_iff_toNat_le.mp (of_decide_eq_true hhigh)
      exact List.any_eq_true.mpr ⟨_, hranges.2, by simp [hlow, hhigh]⟩
  simp [isIdentifierStart, hc]

theorem isClassification_identifier : IsClassification isIdentifierStart isIdentifierPart where
  part_of_start _ := isIdentifierPart_of_start
  start_of_isAlpha _ := isIdentifierStart_of_isAlpha
  start_underscore := rfl
  start_dollar := rfl

/-- A name as a registry makes it. -/
structure IsMade (name : List Char) : Prop where
  isName : IsName isIdentifierStart isIdentifierPart name
  ending : nameEnding <:+ name
  exists_slug : ∃ slug, name = nameBy isIdentifierStart isIdentifierPart slug ∧
    ∀ start part, IsClassification start part → IsName start part (nameBy start part slug)

theorem isMade_nameOfSlug (slug : List Char) : IsMade (nameOfSlug slug) where
  isName := isName_nameBy isClassification_identifier slug
  ending := List.suffix_append ..
  exists_slug := ⟨slug, nameOfSlug_eq_nameBy slug, fun _ _ h => isName_nameBy h slug⟩

end Binding

namespace Registry

open Binding

theorem exists_slug_resolve {r : Registry} (h : r.NamesSlugs) (path : List Char) :
    ∃ slug, (r.resolve path).1 = nameOfSlug slug := by
  rw [resolve]
  cases hfind : r.bindings.find? (·.path == path) with
  | some b => exact h b (List.mem_of_find?_eq_some hfind)
  | none => exact exists_slug_freshName ..

theorem namesSlugs_answer {r : Registry} (h : r.NamesSlugs) (request : Request) :
    (r.answer request).2.NamesSlugs := by
  cases request with
  | resolve path => exact namesSlugs_resolve h path
  | takeBindings => exact fun b hb => nomatch hb

theorem namesSlugs_serve {r : Registry} (h : r.NamesSlugs) (requests : List Request) :
    (serve answer r requests).2.NamesSlugs := by
  induction requests generalizing r with
  | nil => exact h
  | cons request requests ih => exact ih (namesSlugs_answer h request)

/-- Whatever was asked before, the answer to a path is a name. -/
theorem isMade_resolve (requests : List Request) (path : List Char) :
    IsMade ((serve answer {} requests).2.resolve path).1 := by
  have hslugs := namesSlugs_serve (r := {}) (fun b hb => nomatch hb) requests
  obtain ⟨slug, hname⟩ := exists_slug_resolve hslugs path
  rw [hname]
  exact isMade_nameOfSlug slug

example : (serve answer {} (["./", "../", "./1²-a b.png"].map (.resolve ·.toList))).1 =
    ["", "_1", "_1__a_bpng"].map fun s => .name (s.toList ++ nameEnding) := by
  decide +kernel

end Registry

end MediaLink
