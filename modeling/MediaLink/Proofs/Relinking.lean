import MediaLink.Proofs.CollectSubstitute

namespace MediaLink

namespace Encoding

variable {κ : Type}

theorem match?_literal_congr {o : Options} {form : Form κ} {items : List (Tree κ)} {e : Element}
    (h : literal.match? o form items = some (e, items)) (now : List (Tree κ)) :
    literal.match? o form now = some (e, now) := by
  obtain ⟨n, selfClosing, rfl, -⟩ := match?_literal h
  simp only [match?, Option.map_eq_some_iff, Prod.mk.injEq, and_true, exists_eq_right] at h ⊢
  exact h

theorem authored?_of_text?_eq_none (e : Element) {item : Tree κ} (h : text? item = none) :
    authored? e item = none := by
  rw [authored?, h]
  rfl

theorem authored?_congr (e : Element) {t u : Tree κ} (h : text? t = text? u) :
    authored? e t = authored? e u := by
  rw [authored?, authored?, h]

theorem string?_tree (t : Target) (name : List Char → List Char) :
    string? (t.tree name : Tree κ) = none := by
  rw [Target.tree]
  split
  · rfl
  · rfl

theorem text?_setValue {v t : Tree κ} (hv : string? v = none) {a : String × String}
    (h : text? t = some a) : text? (setValue v t) = none := by
  obtain ⟨traits, key, value, rfl, -⟩ | ⟨name, value, rfl, -⟩ := text?_eq_some h
  · cases hk : keyName? key <;> simp [setValue, text?, hv, hk]
  · cases name <;> rfl

theorem authored?_replaceItem (e : Element) (name : List Char → List Char) {item now : Tree κ}
    (h : text? now = text? item) : authored? e (replaceItem e name item now) = none := by
  rw [replaceItem]
  cases ht : target? e item with
  | none =>
    rw [authored?_congr e h]
    exact authored?_of_target?_eq_none ht
  | some t =>
    obtain ⟨a, ha, -⟩ := Option.bind_eq_some_iff.mp ht
    exact authored?_of_text?_eq_none e (text?_setValue (string?_tree t name) (h.trans ha))

theorem role?_suffixAttribute (e : Element) : e.role? suffixAttribute = none := by
  cases e <;> decide

theorem authored?_suffixProperty (e : Element) (s : List Char) :
    authored? e (suffixProperty s : Tree κ) = none := by
  rw [authored?, suffixProperty]
  simp [text?, keyName?, string?, Tree.string, role?_suffixAttribute]

theorem authored?_suffixLiteral (e : Element) (s : List Char) :
    authored? e (suffixLiteral s : Tree κ) = none := by
  rw [authored?, suffixLiteral]
  simp [text?, string?, Tree.string, role?_suffixAttribute]

theorem target?_of_authored?_eq_none {e : Element} {item : Tree κ} (h : authored? e item = none) :
    target? e item = none := by
  cases ht : target? e item with
  | none => rfl
  | some t =>
    obtain ⟨a, ha, -⟩ := authored?_of_target? ht
    rw [h] at ha
    cases ha

theorem targets_of_authored_eq_nil {c : Encoding} {o : Options} {form : Form κ}
    {parts : List (Tree κ)} (h : c.authored o form parts = []) :
    ∀ t ∈ c.targets o form parts, t = none := by
  rw [authored] at h
  rw [targets]
  cases hm : c.match? o form parts with
  | none => simp
  | some m =>
    rw [hm] at h
    intro t ht
    obtain ⟨item, hitem, rfl⟩ := List.mem_map.mp ht
    exact target?_of_authored?_eq_none (List.filterMap_eq_nil_iff.mp h item hitem)

theorem setValues_of_none (items : List (Tree κ)) {values : List (Option (Tree κ))}
    (h : ∀ v ∈ values, v = none) : setValues items values = items := by
  induction items generalizing values with
  | nil => cases values <;> rfl
  | cons item items ih =>
    cases values with
    | nil => rfl
    | cons v values =>
      obtain rfl := h v List.mem_cons_self
      rw [setValues, ih fun v hv => h v (List.mem_cons_of_mem _ hv)]

theorem graft_of_none (c : Encoding) (parts : List (Tree κ)) {values : List (Option (Tree κ))}
    (h : ∀ v ∈ values, v = none) : c.graft values [] parts = parts := by
  unfold graft
  split <;> simp [setValues_of_none _ h]

theorem replaceAt_of_authored_eq_nil {c : Encoding} {o : Options} {form : Form κ}
    {parts : List (Tree κ)} (h : c.authored o form parts = []) (name : List Char → List Char)
    (now : List (Tree κ)) : c.replaceAt o name form parts now = now := by
  have hnone := targets_of_authored_eq_nil h
  have hfound : (c.targets o form parts).filterMap id = [] := List.filterMap_eq_nil_iff.mpr hnone
  have hsuffixes : Linking.suffixes (c.targets o form parts) = [] := by
    rw [Linking.suffixes, hfound, List.filterMap_nil]
  rw [replaceAt, hsuffixes]
  refine graft_of_none c now fun v hv => ?_
  obtain ⟨t, ht, rfl⟩ := List.mem_map.mp hv
  rw [hnone t ht]
  rfl

end Encoding

namespace Tree

open Encoding

variable {κ : Type} (c : Encoding) (o : Options) (name : List Char → List Char)

/-- A tree without media stays as it is. -/
theorem substitute_of_eligible_eq_nil {t : Tree κ} (h : ∀ c, eligible c o t = []) :
    substitute [.call, .literal] o name t = t := by
  induction t with
  | node form parts ih =>
    simp only [eligible_node, List.append_eq_nil_iff, List.flatMap_eq_nil_iff] at h
    have hparts : parts.map (substitute [.call, .literal] o name) = parts :=
      (List.map_congr_left fun t ht => ih t ht fun c => (h c).2 t ht).trans (List.map_id' parts)
    rw [substitute_node, List.foldl_cons, List.foldl_cons, List.foldl_nil, hparts,
      replaceAt_of_authored_eq_nil (h .call).1, replaceAt_of_authored_eq_nil (h .literal).1]

theorem mayConstruct_substitute (cs : List Encoding) (t : Tree κ) :
    mayConstruct (substitute cs o name t) = mayConstruct t := by
  obtain ⟨form, parts⟩ := t
  cases form <;> rfl

theorem argumentElement?_substitute (cs : List Encoding) (o' : Options) (t : Tree κ) :
    argumentElement? o' (substitute cs o name t) = argumentElement? o' t := by
  obtain ⟨form, parts⟩ := t
  cases form with
  | member property isOptional =>
    rw [substitute_of_encodes cs o name rfl]
    match parts with
    | [.node form ps] => cases form <;> rfl
    | [] => rfl
    | .node form ps :: _ :: _ => cases form <;> rfl
  | _ => rfl

theorem match?_map (cs : List Encoding) (o' : Options) (form : Form κ) (parts : List (Tree κ)) :
    c.match? o' form (parts.map (substitute cs o name)) =
      (c.match? o' form parts).map fun m => (m.1, m.2.map (substitute cs o name)) := by
  cases c with
  | call =>
    cases form with
    | call isOptional =>
      match parts with
      | callee :: kind :: .node third items :: rest =>
        cases third with
        | object =>
          simp only [List.map_cons, substitute_object, match?, mayConstruct_substitute,
            argumentElement?_substitute]
          split
          · rw [Option.map_map]
            rfl
          · rfl
        | _ => rfl
      | [] | [_] | [_, _] => rfl
    | _ => rfl
  | literal =>
    cases form with
    | opening n selfClosing =>
      simp only [match?, Option.map_map]
      rfl
    | _ => rfl

/-- A call constructs the same element once its parts are replaced. -/
theorem match?_call_substitute {cs : List Encoding} {o' : Options} {form : Form κ}
    {callee kind : Tree κ} {items rest : List (Tree κ)} {e : Element}
    (h : call.match? o' form (callee :: kind :: .node .object items :: rest) = some (e, items))
    (now rest' : List (Tree κ)) :
    call.match? o' form (substitute cs o name callee :: substitute cs o name kind ::
      .node .object now :: rest') = some (e, now) := by
  obtain ⟨isOptional, _, _, _, rfl, -⟩ := match?_call h
  simp only [match?, Option.ite_none_right_eq_some, Option.map_eq_some_iff, Prod.mk.injEq, and_true,
    exists_eq_right, mayConstruct_substitute, argumentElement?_substitute] at h ⊢
  exact h

theorem authored?_items (e : Element) {f : Tree κ → Tree κ} (hf : ∀ t, text? (f t) = text? t)
    {g : List Char → Tree κ} (hg : ∀ s, authored? e (g s) = none) (items : List (Tree κ))
    (ss : List (List Char)) :
    (items.map (fun item => replaceItem e name item (f item)) ++ ss.map g).filterMap
      (authored? e) = [] := by
  rw [List.filterMap_eq_nil_iff]
  intro t ht
  obtain ht | ht := List.mem_append.mp ht
  · obtain ⟨item, -, rfl⟩ := List.mem_map.mp ht
    exact authored?_replaceItem e name (hf item)
  · obtain ⟨s, -, rfl⟩ := List.mem_map.mp ht
    exact hg s

/-- No node of the linked tree has an attribute to replace, and neither has any of its parts. -/
theorem eligible_substitute (t : Tree κ) :
    eligible c o (substitute [.call, .literal] o name t) = [] := by
  induction t with
  | node form parts ih =>
    have htext := text?_substitute (κ := κ) [.call, .literal] o name
    have hparts :
        (parts.map (substitute [.call, .literal] o name)).flatMap (eligible c o) = [] := by
      rw [List.flatMap_map, List.flatMap_eq_nil_iff]
      exact ih
    -- grafting leaves what is below a node as it is, whatever is grafted
    have hreplaced (c' : Encoding) :=
      (eligible_replaceAt c o name c' [.call, .literal] form parts).trans hparts
    obtain ⟨e, opt, callee, kind, items, rest, rfl, rfl, hcall, -, hnode⟩ |
      ⟨e, -, hliteral, hnode⟩ | ⟨hcall, hliteral, hnode⟩ := substitute_cases o name form parts
    · have hbelow := hreplaced .call
      simp only [List.map_cons, substitute_object, replaceAt_call hcall] at hbelow
      rw [hnode, eligible_node, hbelow, List.append_nil]
      cases c with
      | call =>
        rw [authored, match?_call_substitute o name hcall]
        exact authored?_items name e htext (authored?_suffixProperty e) items _
      | literal => rfl
    · have hbelow := hreplaced .literal
      rw [replaceAt_literal hliteral] at hbelow
      rw [hnode, eligible_node, hbelow, List.append_nil]
      cases c with
      | call =>
        obtain ⟨_, _, rfl, -⟩ := match?_literal hliteral
        rfl
      | literal =>
        rw [authored, match?_literal_congr hliteral]
        exact authored?_items name e htext (authored?_suffixLiteral e) parts _
    · rw [hnode, eligible_node, hparts, List.append_nil, authored, match?_map]
      cases c with
      | call => rw [hcall]; rfl
      | literal => rw [hliteral]; rfl

end Tree

namespace LinkedProgram

variable {κ : Type} (o : Options) (body : List (Tree κ))

theorem ofBody_of_eligible_eq_nil (h : ∀ c, ∀ t ∈ body, Tree.eligible c o t = []) :
    ofBody o body = { body, bindings := [], inserted := false, rewritten := 0 } := by
  have hall : Tree.allEligible o body = [] := by
    simp only [Tree.allEligible, Tree.eligibleAll_eq_flatMap, List.append_eq_nil_iff,
      List.flatMap_eq_nil_iff]
    exact ⟨h .call, h .literal⟩
  have hbindings : bindingsOf o body = [] := by
    rw [bindingsOf, hall]
    rfl
  have hbody : substituted o body = body := by
    rw [substituted, Tree.substituteAll_eq_map]
    exact (List.map_congr_left fun t ht =>
      Tree.substitute_of_eligible_eq_nil o _ fun c => h c t ht).trans (List.map_id' body)
  rw [ofBody_eq, hbindings, hbody, hall]
  rfl

theorem eligible_importTree (c : Encoding) (b : Binding) :
    Tree.eligible c o (b.importTree : Tree κ) = [] :=
  Tree.eligible_of_encodes c o rfl []

theorem eligible_of_mem_body (c : Encoding) {t : Tree κ} (h : t ∈ (ofBody o body).body) :
    Tree.eligible c o t = [] := by
  have hsubstituted : ∀ t ∈ substituted o body, Tree.eligible c o t = [] := by
    intro t ht
    rw [substituted, Tree.substituteAll_eq_map] at ht
    obtain ⟨u, -, rfl⟩ := List.mem_map.mp ht
    exact Tree.eligible_substitute c o _ u
  rw [ofBody_eq] at h
  dsimp only at h
  split at h
  · simp only [List.mem_append, List.mem_map] at h
    obtain (h | ⟨b, -, rfl⟩) | h := h
    · exact hsubstituted t (List.mem_of_mem_take h)
    · exact eligible_importTree o c b
    · exact hsubstituted t (List.mem_of_mem_drop h)
  · exact hsubstituted t h

/-- Linking once is enough: a second time it finds nothing and leaves every node as it is. -/
theorem ofBody_body_ofBody :
    ofBody o (ofBody o body).body =
      { body := (ofBody o body).body, bindings := [], inserted := false, rewritten := 0 } :=
  ofBody_of_eligible_eq_nil o _ fun c _ h => eligible_of_mem_body o body c h

end LinkedProgram

end MediaLink
