import MediaLink.Proofs.Eligible
import MediaLink.Proofs.Resolution

namespace MediaLink

theorem Target.tree_congr {κ : Type} {t : Target} {name name' : List Char → List Char}
    (h : ∀ p ∈ t.paths, name p = name' p) : (t.tree name : Tree κ) = t.tree name' := by
  unfold Target.tree
  rw [Target.paths] at h
  cases hv : t.value with
  | whole path =>
    rw [hv] at h
    simp only [h path List.mem_cons_self]
  | template tm =>
    rw [hv] at h
    simp only [List.map_congr_left fun p hp => congrArg Target.reference (h p hp),
      Function.comp_def]

namespace Linking

variable {κ : Type}

/-- What a walk over attributes leaves behind when it has found `as`. -/
def after (s : Linking) (as : List Authored) : Linking :=
  ⟨s.registry.resolveAll (as.flatMap (·.paths)), s.rewritten + as.length⟩

theorem after_append (s : Linking) (as bs : List Authored) :
    s.after (as ++ bs) = (s.after as).after bs := by
  simp [after, Registry.resolveAll_append, Nat.add_assoc]

theorem prefix_after (s : Linking) (as : List Authored) :
    s.registry.bindings <+: (s.after as).registry.bindings :=
  Registry.prefix_resolveAll ..

theorem replace_snd {t : Target} {a : Authored} (h : a.paths = t.paths) (s : Linking) :
    (s.replace (some t) : Option (Tree κ) × Linking).2 = s.after [a] := by
  simp [replace, after, h]

theorem replaceAll_snd (e : Element) (items : List (Tree κ)) (s : Linking) :
    (s.replaceAll (items.map (Encoding.target? e)) : List (Option (Tree κ)) × Linking).2 =
      s.after (items.filterMap (Encoding.authored? e)) := by
  induction items generalizing s with
  | nil => rfl
  | cons item items ih =>
    rw [List.map_cons, replaceAll]
    cases ht : Encoding.target? e item with
    | none =>
      rw [List.filterMap_cons_none (Encoding.authored?_of_target?_eq_none ht)]
      exact ih s
    | some t =>
      obtain ⟨a, ha, hp⟩ := Encoding.authored?_of_target? ht
      have hs : (s.replace (some t) : Option (Tree κ) × Linking).2 = s.after [a] :=
        replace_snd hp s
      rw [List.filterMap_cons_some ha, ← List.singleton_append, after_append, ← hs]
      exact ih _

/-- The values are those that any bindings give which extend the last ones. -/
theorem replaceAll_fst (e : Element) (items : List (Tree κ)) (s : Linking) {bs : List Binding}
    (h : (s.after (items.filterMap (Encoding.authored? e))).registry.bindings <+: bs) :
    (s.replaceAll (items.map (Encoding.target? e))).1 =
      (items.map (Encoding.target? e)).map
        (Option.map (·.tree (Binding.nameIn bs) : Target → Tree κ)) := by
  induction items generalizing s with
  | nil => rfl
  | cons item items ih =>
    simp only [List.map_cons, replaceAll]
    cases ht : Encoding.target? e item with
    | none =>
      rw [List.filterMap_cons_none (Encoding.authored?_of_target?_eq_none ht)] at h
      rw [← ih s h]
      rfl
    | some t =>
      obtain ⟨a, ha, hp⟩ := Encoding.authored?_of_target? ht
      rw [List.filterMap_cons_some ha, ← List.singleton_append, after_append] at h
      have hs : (s.replace (some t) : Option (Tree κ) × Linking).2 = s.after [a] :=
        replace_snd hp s
      have hbs : (s.registry.resolveAll t.paths).bindings <+: bs := by
        refine List.IsPrefix.trans ?_ h
        simpa [after, hp] using prefix_after (s.after [a]) _
      have htree : (t.tree (s.registry.resolveAll t.paths).nameOf : Tree κ) =
          t.tree (Binding.nameIn bs) :=
        Target.tree_congr fun p hm => (Binding.nameIn_of_prefix hbs
          (Registry.mem_paths_resolveAll s.registry hm)).symm
      rw [← ih (s.after [a]) h, ← hs, Option.map_some, ← htree]
      rfl

theorem replaceAll_targets_snd (c : Encoding) (o : Options) (form : Form κ)
    (parts : List (Tree κ)) (s : Linking) :
    (s.replaceAll (c.targets o form parts) : List (Option (Tree κ)) × Linking).2 =
      s.after (c.authored o form parts) := by
  rw [Encoding.targets, Encoding.authored]
  cases c.match? o form parts with
  | none => rfl
  | some m => exact replaceAll_snd m.1 m.2 s

theorem replaceAll_targets_fst (c : Encoding) (o : Options) (form : Form κ)
    (parts : List (Tree κ)) (s : Linking) {bs : List Binding}
    (h : (s.after (c.authored o form parts)).registry.bindings <+: bs) :
    (s.replaceAll (c.targets o form parts)).1 =
      (c.targets o form parts).map
        (Option.map (·.tree (Binding.nameIn bs) : Target → Tree κ)) := by
  rw [Encoding.authored] at h
  rw [Encoding.targets]
  cases hm : c.match? o form parts with
  | none => rfl
  | some m =>
    rw [hm] at h
    exact replaceAll_fst m.1 m.2 s h

theorem rewrite_eq {c : Encoding} {o : Options} {form : Form κ} {parts : List (Tree κ)}
    {s : Linking} {bs : List Binding}
    (h : (s.after (c.authored o form parts)).registry.bindings <+: bs) :
    rewrite c o form parts s =
      (c.replaceAt o (Binding.nameIn bs) form parts parts, s.after (c.authored o form parts)) := by
  rw [rewrite, ← replaceAll_targets_snd, Encoding.replaceAt,
    ← replaceAll_targets_fst c o form parts s h]

theorem rewrite_of_none {c : Encoding} {o : Options} {form : Form κ} {parts : List (Tree κ)}
    (h : c.match? o form parts = none) (s : Linking) : rewrite c o form parts s = (parts, s) := by
  rw [rewrite, Encoding.targets, h]
  exact congrArg (·, s) (Encoding.graft_nil c parts)

theorem walkEach_map {α β : Type} (walk : β → Linking → Tree κ × Linking) (f : α → β)
    (ts : List α) (s : Linking) :
    walkEach walk (ts.map f) s = walkEach (fun t => walk (f t)) ts s := by
  induction ts generalizing s with
  | nil => rfl
  | cons t ts ih => simp only [List.map_cons, walkEach, ih]

theorem walk_node (c : Encoding) (o : Options) (form : Form κ) (parts : List (Tree κ))
    (s : Linking) :
    let rewritten := rewrite c o form parts s
    let walked := walkAll c o rewritten.1 rewritten.2
    walk c o (.node form parts) s = (.node form walked.1, walked.2) := by
  intro rewritten walked
  have hwalked : walkEach (fun t s => walk c o t.1 s) rewritten.1.attach rewritten.2 = walked := by
    rw [← walkEach_map (walk c o) Subtype.val, List.attach_map_subtype_val]
    rfl
  rw [walk, hwalked]

variable (c : Encoding) (o : Options)

theorem walkAll_cons (t : Tree κ) (ts : List (Tree κ)) (s : Linking) :
    walkAll c o (t :: ts) s =
      ((walk c o t s).1 :: (walkAll c o ts (walk c o t s).2).1,
        (walkAll c o ts (walk c o t s).2).2) := rfl

theorem walkAll_append (ts us : List (Tree κ)) (s : Linking) :
    walkAll c o (ts ++ us) s =
      ((walkAll c o ts s).1 ++ (walkAll c o us (walkAll c o ts s).2).1,
        (walkAll c o us (walkAll c o ts s).2).2) := by
  induction ts generalizing s with
  | nil => rfl
  | cons t ts ih =>
    rw [List.cons_append, walkAll_cons, walkAll_cons, ih]
    rfl

theorem walk_of_encodes (form : Form κ) (h : Encoding.encodes form = false)
    (parts : List (Tree κ)) (s : Linking) :
    walk c o (.node form parts) s =
      (.node form (walkAll c o parts s).1, (walkAll c o parts s).2) := by
  rw [walk_node, rewrite_of_none (Encoding.match?_eq_none c o h parts)]

/-- There is nothing in the tree for the walk. -/
def Passes (t : Tree κ) : Prop := ∀ s, walk c o t s = (t, s)

theorem walkAll_of_passes {ts : List (Tree κ)} (h : ∀ t ∈ ts, Passes c o t) (s : Linking) :
    walkAll c o ts s = (ts, s) := by
  induction ts with
  | nil => rfl
  | cons t ts ih =>
    rw [walkAll_cons, h t List.mem_cons_self, ih fun u hu => h u (List.mem_cons_of_mem _ hu)]

theorem passes_of_encodes {form : Form κ} (h : Encoding.encodes form = false)
    {parts : List (Tree κ)} (hparts : ∀ t ∈ parts, Passes c o t) :
    Passes c o (.node form parts) := by
  intro s
  rw [walk_of_encodes c o form h, walkAll_of_passes c o hparts]

theorem passes_of_string? {t : Tree κ} {value : String} (h : Encoding.string? t = some value) :
    Passes c o t := by
  obtain ⟨raw, rfl⟩ := Encoding.string?_eq_some h
  exact passes_of_encodes c o rfl (List.forall_mem_nil _)

theorem passes_tree (t : Target) (name : List Char → List Char) :
    Passes c o (t.tree name : Tree κ) := by
  have href (p : List Char) : Passes c o (Target.reference p : Tree κ) :=
    passes_of_encodes c o rfl (List.forall_mem_nil _)
  rw [Target.tree]
  split
  · exact href _
  · refine passes_of_encodes c o rfl fun u hu => ?_
    obtain ⟨p, -, rfl⟩ := List.mem_map.mp hu
    exact href _

theorem passes_suffixProperty (s : List Char) :
    Passes c o (Encoding.suffixProperty s : Tree κ) := by
  refine passes_of_encodes c o rfl (List.forall_mem_cons.mpr ⟨?_, List.forall_mem_singleton.mpr ?_⟩)
  · exact passes_of_string? c o rfl
  · exact passes_of_string? c o rfl

theorem passes_suffixLiteral (s : List Char) :
    Passes c o (Encoding.suffixLiteral s : Tree κ) :=
  passes_of_encodes c o rfl (List.forall_mem_singleton.mpr (passes_of_string? c o rfl))

theorem walk_setValue {v t : Tree κ} (hv : Passes c o v) {a : String × String}
    (h : Encoding.text? t = some a) (s : Linking) :
    walk c o (Encoding.setValue v t) s =
      (Encoding.setValue v (walk c o t s).1, (walk c o t s).2) := by
  obtain ⟨traits, key, value, rfl, hs⟩ | ⟨name, value, rfl, hs⟩ := Encoding.text?_eq_some h
  · have hvalue := passes_of_string? c o hs
    simp only [Encoding.setValue, walk_of_encodes c o (.property traits) rfl, walkAll_cons,
      hv _, hvalue _]
    rfl
  · have hvalue := passes_of_string? c o hs
    simp only [Encoding.setValue, walk_of_encodes c o (.attribute name) rfl,
      walk_of_encodes c o .container rfl, walkAll_cons, hv _, hvalue _]
    rfl

theorem walkAll_setValues (e : Element) (name : List Char → List Char) (items : List (Tree κ))
    (s : Linking) :
    let values := (items.map (Encoding.target? e)).map (Option.map (·.tree name))
    walkAll c o (Encoding.setValues items values) s =
      (Encoding.setValues (walkAll c o items s).1 values, (walkAll c o items s).2) := by
  induction items generalizing s with
  | nil => rfl
  | cons item items ih =>
    simp only [List.map_cons]
    cases ht : Encoding.target? e item with
    | none => simp only [Option.map_none, Encoding.setValues, walkAll_cons, ih]
    | some t =>
      obtain ⟨a, ha, -⟩ := Option.bind_eq_some_iff.mp ht
      simp only [Option.map_some, Encoding.setValues, walkAll_cons, ih,
        walk_setValue c o (passes_tree c o t name) ha]

theorem walkAll_setValues_append (e : Element) (name : List Char → List Char)
    (items : List (Tree κ)) (ss : List (List Char)) {suffixTree : List Char → Tree κ}
    (h : ∀ s, Passes c o (suffixTree s)) (s : Linking) :
    let values := (items.map (Encoding.target? e)).map (Option.map (·.tree name))
    walkAll c o (Encoding.setValues items values ++ ss.map suffixTree) s =
      (Encoding.setValues (walkAll c o items s).1 values ++ ss.map suffixTree,
        (walkAll c o items s).2) := by
  intro values
  have hsuffixes : ∀ t ∈ ss.map suffixTree, Passes c o t := by
    intro t ht
    obtain ⟨suffix, -, rfl⟩ := List.mem_map.mp ht
    exact h suffix
  rw [walkAll_append, walkAll_setValues, walkAll_of_passes c o hsuffixes]

/-- It does not matter whether the media of an element are replaced before a walk goes down into it
or after: what takes the place of a value holds nothing for the walk. -/
theorem walkAll_replaceAt (name : List Char → List Char) (form : Form κ) (parts : List (Tree κ))
    (s : Linking) :
    walkAll c o (c.replaceAt o name form parts parts) s =
      (c.replaceAt o name form parts (walkAll c o parts s).1, (walkAll c o parts s).2) := by
  cases hm : c.match? o form parts with
  | none => rw [Encoding.replaceAt_of_none hm, Encoding.replaceAt_of_none hm]
  | some m =>
    obtain ⟨e, items⟩ := m
    rw [Encoding.replaceAt, Encoding.replaceAt, Encoding.targets, hm]
    cases c with
    | call =>
      obtain ⟨opt, callee, kind, rest, rfl, rfl⟩ := Encoding.match?_call hm
      simp only [Encoding.graft, walkAll_cons, walk_of_encodes .call o .object rfl,
        walkAll_setValues_append .call o e name items _ (passes_suffixProperty .call o)]
    | literal =>
      obtain ⟨_, _, rfl, rfl⟩ := Encoding.match?_literal hm
      exact walkAll_setValues_append .literal o e name parts _ (passes_suffixLiteral .literal o) s

/-- What a walk over the trees does. -/
def WalksAll (c : Encoding) (o : Options) (ts : List (Tree κ)) : Prop :=
  ∀ s : Linking, (walkAll c o ts s).2 = s.after (Tree.eligibleAll c o ts) ∧
    ∀ bs, (s.after (Tree.eligibleAll c o ts)).registry.bindings <+: bs →
      (walkAll c o ts s).1 = Tree.substituteAll [c] o (Binding.nameIn bs) ts

def Walks (c : Encoding) (o : Options) (t : Tree κ) : Prop :=
  ∀ s : Linking, (walk c o t s).2 = s.after (t.eligible c o) ∧
    ∀ bs, (s.after (t.eligible c o)).registry.bindings <+: bs →
      (walk c o t s).1 = t.substitute [c] o (Binding.nameIn bs)

theorem walksAll_of_walks {c : Encoding} {o : Options} {ts : List (Tree κ)}
    (h : ∀ t ∈ ts, Walks c o t) : WalksAll c o ts := by
  induction ts with
  | nil => exact fun _ => ⟨rfl, fun _ _ => rfl⟩
  | cons t ts ih =>
    intro s
    obtain ⟨ht, htree⟩ := h t List.mem_cons_self s
    obtain ⟨hts, htrees⟩ := ih (fun u hu => h u (List.mem_cons_of_mem _ hu))
      (s.after (t.eligible c o))
    simp only [walkAll_cons, Tree.eligibleAll, Tree.substituteAll, after_append, ht]
    refine ⟨hts, fun bs hbs => ?_⟩
    rw [htree bs ((prefix_after ..).trans hbs), htrees bs hbs]

theorem walks (c : Encoding) (o : Options) (t : Tree κ) : Walks c o t := by
  induction t with
  | node form parts ih =>
    intro s
    let found := s.after (c.authored o form parts)
    have hwalk {bs : List Binding} (hbs : found.registry.bindings <+: bs) :
        walk c o (.node form parts) s =
          (.node form (c.replaceAt o (Binding.nameIn bs) form parts (walkAll c o parts found).1),
            (walkAll c o parts found).2) := by
      rw [walk_node, rewrite_eq hbs, walkAll_replaceAt]
    obtain ⟨hparts, htrees⟩ := walksAll_of_walks ih found
    constructor
    · -- any names will do for the state, such as those of the bindings so far
      rw [hwalk (List.prefix_refl _), hparts, Tree.eligible, after_append]
    · intro bs hbs
      rw [Tree.eligible, after_append] at hbs
      rw [hwalk ((prefix_after ..).trans hbs), htrees bs hbs, Tree.substitute]
      rfl

theorem walksAll (c : Encoding) (o : Options) (ts : List (Tree κ)) : WalksAll c o ts :=
  walksAll_of_walks fun t _ => walks c o t

end Linking

end MediaLink
