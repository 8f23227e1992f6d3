import Mathlib.Data.List.Induction
import MediaLink.Proofs.Session

namespace MediaLink

namespace Binding

theorem find?_path_isSome {bs : List Binding} {path : List Char} :
    (bs.find? (·.path == path)).isSome ↔ path ∈ bs.map (·.path) := by
  simp [List.find?_isSome]

theorem mem_nameIn {bs : List Binding} {path : List Char} (h : path ∈ bs.map (·.path)) :
    ⟨path, nameIn bs path⟩ ∈ bs := by
  obtain ⟨b, hb⟩ := Option.isSome_iff_exists.mp (find?_path_isSome.mpr h)
  have hp : b.path = path :=
    beq_iff_eq.mp (List.find?_some (p := fun b : Binding => b.path == path) hb)
  have hn : (⟨path, nameIn bs path⟩ : Binding) = b := by rw [nameIn, hb, ← hp]; rfl
  exact hn ▸ List.mem_of_find?_eq_some hb

/-- Earlier bindings are stable under later ones. -/
theorem nameIn_of_prefix {bs cs : List Binding} (h : bs <+: cs) {path : List Char}
    (hp : path ∈ bs.map (·.path)) : nameIn cs path = nameIn bs path := by
  obtain ⟨ds, rfl⟩ := h
  obtain ⟨b, hb⟩ := Option.isSome_iff_exists.mp (find?_path_isSome.mpr hp)
  rw [nameIn, nameIn, List.find?_append, hb, Option.some_or]

theorem nameIn_inj {bs : List Binding} (h : (bs.map (·.name)).Nodup) {p q : List Char}
    (hp : p ∈ bs.map (·.path)) (hq : q ∈ bs.map (·.path)) :
    nameIn bs p = nameIn bs q ↔ p = q := by
  refine ⟨fun he => ?_, fun he => he ▸ rfl⟩
  have hb := List.inj_on_of_nodup_map h (mem_nameIn hp) (mem_nameIn hq) he
  exact congrArg Binding.path hb

theorem nameIn_of_mem {bs : List Binding} (h : (bs.map (·.path)).Nodup) {b : Binding}
    (hb : b ∈ bs) : nameIn bs b.path = b.name :=
  congrArg Binding.name
    (List.inj_on_of_nodup_map h (mem_nameIn (List.mem_map_of_mem hb)) hb rfl)

end Binding

namespace Registry

theorem prefix_resolve (r : Registry) (path : List Char) :
    r.bindings <+: (r.resolve path).2.bindings := by
  rw [resolve]
  cases r.bindings.find? (·.path == path) with
  | some b => exact List.prefix_refl _
  | none => exact List.prefix_append ..

theorem paths_resolve (r : Registry) (path : List Char) :
    (r.resolve path).2.bindings.map (·.path) =
      if path ∈ r.bindings.map (·.path) then r.bindings.map (·.path)
      else r.bindings.map (·.path) ++ [path] := by
  rw [resolve]
  cases hfind : r.bindings.find? (·.path == path) with
  | some b => rw [if_pos (Binding.find?_path_isSome.mp (by rw [hfind]; rfl))]
  | none =>
    have hm : path ∉ r.bindings.map (·.path) := by
      rw [← Binding.find?_path_isSome, hfind]
      exact Bool.false_ne_true
    simp [hm]

theorem resolveAll_append (r : Registry) (ps qs : List (List Char)) :
    r.resolveAll (ps ++ qs) = (r.resolveAll ps).resolveAll qs := List.foldl_append

theorem prefix_resolveAll (r : Registry) (ps : List (List Char)) :
    r.bindings <+: (r.resolveAll ps).bindings := by
  induction ps generalizing r with
  | nil => exact List.prefix_refl _
  | cons p ps ih => exact (prefix_resolve r p).trans (ih (r.resolve p).2)

theorem mem_paths_resolveAll (r : Registry) {ps : List (List Char)} {p : List Char}
    (h : p ∈ ps) : p ∈ (r.resolveAll ps).bindings.map (·.path) := by
  induction ps generalizing r with
  | nil => simp at h
  | cons q ps ih =>
    obtain rfl | h := List.mem_cons.mp h
    · have hp : p ∈ (r.resolve p).2.bindings.map (·.path) := by
        rw [paths_resolve]
        split
        · assumption
        · simp
      exact (prefix_resolveAll (r.resolve p).2 ps).map (·.path) |>.subset hp
    · exact ih (r.resolve q).2 h

theorem valid_resolveAll {r : Registry} (h : r.Valid) (ps : List (List Char)) :
    (r.resolveAll ps).Valid := by
  induction ps generalizing r with
  | nil => exact h
  | cons p ps ih => exact ih (valid_resolve h p)

/-- A new registry lists the paths in the order of their first occurrences. -/
theorem paths_resolveAll (ps : List (List Char)) :
    (resolveAll {} ps).bindings.map (·.path) = ps.eraseDups := by
  induction ps using List.reverseRecOn with
  | nil => rfl
  | append_singleton ps p ih =>
    rw [resolveAll_append, List.eraseDups_append]
    change ((resolveAll {} ps).resolve p).2.bindings.map (·.path) = _
    rw [paths_resolve, ih]
    by_cases hp : p ∈ ps <;> simp [List.removeAll, List.mem_eraseDups, List.eraseDups_cons, hp]

end Registry

end MediaLink
