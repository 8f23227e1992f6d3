import MediaLink.Encoding

namespace MediaLink

structure Linking where
  registry : Registry := {}
  rewritten : Nat := 0

structure LinkedProgram (κ : Type) where
  body : List (Tree κ)
  bindings : List Binding
  inserted : Bool
  rewritten : Nat

namespace Linking

open Encoding

variable {κ : Type}

def replace (s : Linking) : Option Target → Option (Tree κ) × Linking
  | none => (none, s)
  | some t =>
    let r := s.registry.resolveAll t.paths
    (some (t.tree r.nameOf), ⟨r, s.rewritten + 1⟩)

def replaceAll (s : Linking) : List (Option Target) → List (Option (Tree κ)) × Linking
  | [] => ([], s)
  | t :: ts =>
    let (v, s) := s.replace t
    let (vs, s) := s.replaceAll ts
    (v :: vs, s)

def suffixes (ts : List (Option Target)) : List (List Char) :=
  (ts.filterMap id).filterMap fun t => if t.suffix.isEmpty then none else some t.suffix

/-- Puts names in place of the values of an element, and their suffixes behind its attributes. -/
def rewrite (c : Encoding) (o : Options) (form : Form κ) (parts : List (Tree κ)) (s : Linking) :
    List (Tree κ) × Linking :=
  let ts := c.targets o form parts
  let (values, s) := s.replaceAll ts
  (c.graft values (suffixes ts) parts, s)

theorem heightAll_setValues_le (e : Element) (items : List (Tree κ)) (s : Linking) :
    Tree.heightAll (setValues items (s.replaceAll (items.map (target? e))).1) ≤
      Tree.heightAll items := by
  induction items generalizing s with
  | nil => exact Nat.le_refl _
  | cons item items ih =>
    simp only [List.map_cons, replaceAll]
    cases ht : target? e item with
    | none =>
      have hitems := ih s
      simp only [replace, setValues, Tree.heightAll]
      omega
    | some t =>
      obtain ⟨a, ha, -⟩ := Option.bind_eq_some_iff.mp ht
      simp only [replace, setValues, Tree.heightAll]
      generalize s.registry.resolveAll t.paths = r
      have hitem := height_setValue_le (Target.height_tree_le t r.nameOf) ha
      have hitems := ih ⟨r, s.rewritten + 1⟩
      omega

theorem heightAll_suffixes_le (e : Element) (items : List (Tree κ)) {f : List Char → Tree κ}
    (hf : ∀ s, (f s).height = 4) :
    Tree.heightAll ((suffixes (items.map (target? e))).map f) ≤ Tree.heightAll items := by
  rw [Tree.heightAll_le_iff]
  intro u hu
  obtain ⟨s, hs, rfl⟩ := List.mem_map.mp hu
  obtain ⟨t, ht, -⟩ := List.mem_filterMap.mp hs
  obtain ⟨_, hm, rfl⟩ := List.mem_filterMap.mp ht
  obtain ⟨item, hitem, htarget⟩ := List.mem_map.mp hm
  obtain ⟨a, ha, -⟩ := Option.bind_eq_some_iff.mp htarget
  rw [hf]
  exact Nat.le_trans (four_le_height ha) (Tree.heightAll_le_iff.mp (Nat.le_refl _) item hitem)

/-- What stands below a node once it is rewritten is no higher than before, so that a walk may go
down into it. -/
theorem heightAll_rewrite_le (c : Encoding) (o : Options) (form : Form κ) (parts : List (Tree κ))
    (s : Linking) : Tree.heightAll (rewrite c o form parts s).1 ≤ Tree.heightAll parts := by
  cases hm : c.match? o form parts with
  | none =>
    simp only [rewrite, targets, hm]
    exact Nat.le_of_eq (congrArg Tree.heightAll (graft_nil c parts))
  | some m =>
    obtain ⟨e, items⟩ := m
    have hvalues := heightAll_setValues_le e items s
    have hsuffixes {f : List Char → Tree κ} (hf : ∀ s, (f s).height = 4) :=
      heightAll_suffixes_le e items hf
    simp only [rewrite, targets, hm]
    cases c with
    | call =>
      obtain ⟨opt, callee, kind, rest, rfl, rfl⟩ := match?_call hm
      have hobject := hsuffixes height_suffixProperty
      simp only [graft, Tree.heightAll, Tree.height, Tree.heightAll_append]
      omega
    | literal =>
      obtain ⟨_, _, rfl, rfl⟩ := match?_literal hm
      rw [graft, Tree.heightAll_append]
      exact Nat.max_le.mpr ⟨hvalues, hsuffixes height_suffixLiteral⟩

theorem height_lt_of_mem_rewrite {c : Encoding} {o : Options} {form : Form κ}
    {parts : List (Tree κ)} {s : Linking} {t : Tree κ} (h : t ∈ (rewrite c o form parts s).1) :
    t.height < (Tree.node form parts).height :=
  calc
    t.height ≤ Tree.heightAll (rewrite c o form parts s).1 :=
      Tree.heightAll_le_iff.mp (Nat.le_refl _) t h
    _ ≤ Tree.heightAll parts := heightAll_rewrite_le c o form parts s
    _ < (Tree.node form parts).height := Tree.heightAll_lt_height form parts

def walkEach {α : Type} (walk : α → Linking → Tree κ × Linking) :
    List α → Linking → List (Tree κ) × Linking
  | [], s => ([], s)
  | t :: ts, s =>
    let (t, s) := walk t s
    let (ts, s) := walkEach walk ts s
    (t :: ts, s)

/-- Rewrites a node and then goes down into what stands there now. -/
def walk (c : Encoding) (o : Options) : Tree κ → Linking → Tree κ × Linking
  | .node form parts, s =>
    let rewritten := rewrite c o form parts s
    let (parts, s) := walkEach (fun t s => walk c o t.1 s) rewritten.1.attach rewritten.2
    (.node form parts, s)
termination_by t => t.height
decreasing_by exact height_lt_of_mem_rewrite t.2

def walkAll (c : Encoding) (o : Options) : List (Tree κ) → Linking → List (Tree κ) × Linking :=
  walkEach (walk c o)

end Linking

def Binding.importTree {κ : Type} (b : Binding) : Tree κ :=
  .node (.defaultImport (String.ofList b.name) (String.ofList b.path)) []

namespace Tree

variable {κ : Type}

/-- The statements with `new` in front of the first that declares the function. -/
def insertBefore? (name : String) (new : List (Tree κ)) : List (Tree κ) → Option (List (Tree κ))
  | [] => none
  | t :: ts =>
    if t.declares name then some (new ++ t :: ts) else (insertBefore? name new ts).map (t :: ·)

end Tree

namespace LinkedProgram

variable {κ : Type}

/-- Links the media of the calls before those of the element literals, and imports what has been
named in front of the content function. -/
def ofBody (o : Options) (body : List (Tree κ)) : LinkedProgram κ :=
  let (body, s) := Linking.walkAll .call o body {}
  let (body, s) := Linking.walkAll .literal o body s
  let bindings := s.registry.takeBindings.1
  match Tree.insertBefore? o.functionName (bindings.map Binding.importTree) body with
  | some linked => ⟨linked, bindings, !bindings.isEmpty, s.rewritten⟩
  | none => ⟨body, bindings, false, s.rewritten⟩

def droppedImports (l : LinkedProgram κ) : Bool := !l.bindings.isEmpty && !l.inserted

end LinkedProgram

end MediaLink
