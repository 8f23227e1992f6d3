import MediaLink.Proofs.Walk

namespace MediaLink

namespace Tree

open Encoding

variable {κ : Type} (c : Encoding) (o : Options)

theorem eligible_tree (t : Target) (name : List Char → List Char) :
    eligible c o (t.tree name : Tree κ) = [] := by
  have href : ∀ p, eligible c o (Target.reference p : Tree κ) = [] :=
    fun p => eligible_of_encodes c o rfl []
  rw [Target.tree]
  split
  · exact href _
  · rw [eligible_of_encodes c o rfl, List.flatMap_eq_nil_iff]
    intro u hu
    obtain ⟨p, -, rfl⟩ := List.mem_map.mp hu
    exact href _

theorem eligible_of_string? {t : Tree κ} {s : String} (h : string? t = some s) :
    eligible c o t = [] := by
  obtain ⟨raw, rfl⟩ := string?_eq_some h
  exact eligible_string c o s raw []

theorem eligible_suffixProperty (s : List Char) :
    eligible c o (suffixProperty s : Tree κ) = [] := by
  simp only [suffixProperty, Tree.string, eligible_property, eligible_string, List.flatMap_cons,
    List.flatMap_nil, List.append_nil]

theorem eligible_suffixLiteral (s : List Char) :
    eligible c o (suffixLiteral s : Tree κ) = [] := by
  simp only [suffixLiteral, Tree.string, eligible_attribute, eligible_string, List.flatMap_cons,
    List.flatMap_nil, List.append_nil]

/-- A value that is to be replaced holds no element, and neither does what replaces it. -/
theorem eligible_setValue {v t : Tree κ} (hv : eligible c o v = []) {a : String × String}
    (h : text? t = some a) : eligible c o (setValue v t) = eligible c o t := by
  obtain ⟨traits, key, value, rfl, hs⟩ | ⟨name, value, rfl, hs⟩ := text?_eq_some h
  · simp only [setValue, eligible_property, List.flatMap_cons, hv, eligible_of_string? c o hs]
  · simp only [setValue, eligible_attribute, eligible_container, List.flatMap_cons, hv,
      eligible_of_string? c o hs, List.flatMap_nil, List.append_nil]

theorem eligible_replaceItem (e : Element) (name : List Char → List Char) {item now : Tree κ}
    (h : text? now = text? item) :
    eligible c o (replaceItem e name item now) = eligible c o now := by
  rw [replaceItem]
  cases ht : target? e item with
  | none => rfl
  | some t =>
    obtain ⟨a, ha, -⟩ := Option.bind_eq_some_iff.mp ht
    exact eligible_setValue c o (eligible_tree c o t name) (h.trans ha)

variable (name : List Char → List Char)

theorem eligible_replaceItems (e : Element) (cs : List Encoding) (items : List (Tree κ)) :
    (items.map fun item => replaceItem e name item (substitute cs o name item)).flatMap
        (eligible c o) =
      (items.map (substitute cs o name)).flatMap (eligible c o) := by
  rw [List.flatMap_map, List.flatMap_map]
  apply List.flatMap_congr
  intro item _
  exact eligible_replaceItem c o e name (text?_substitute cs o name item)

/-- Replacing the media of one element neither brings nor takes away others. -/
theorem eligible_replaceAt (c' : Encoding) (cs : List Encoding) (form : Form κ)
    (parts : List (Tree κ)) :
    (c'.replaceAt o name form parts (parts.map (substitute cs o name))).flatMap (eligible c o) =
      (parts.map (substitute cs o name)).flatMap (eligible c o) := by
  have hsuffixes {f : List Char → Tree κ} (hf : ∀ s, eligible c o (f s) = [])
      (ss : List (List Char)) : (ss.map f).flatMap (eligible c o) = [] := by
    rw [List.flatMap_map, List.flatMap_eq_nil_iff]
    exact fun s _ => hf s
  cases hm : c'.match? o form parts with
  | none => rw [replaceAt_of_none hm]
  | some m =>
    obtain ⟨e, items⟩ := m
    cases c' with
    | call =>
      obtain ⟨opt, callee, kind, rest, rfl, rfl⟩ := match?_call hm
      simp only [List.map_cons, substitute_object, replaceAt_call hm, List.flatMap_cons,
        eligible_object, List.flatMap_append, eligible_replaceItems,
        hsuffixes (eligible_suffixProperty c o), List.append_nil]
    | literal =>
      obtain ⟨_, _, rfl, rfl⟩ := match?_literal hm
      rw [replaceAt_literal hm, List.flatMap_append, eligible_replaceItems,
        hsuffixes (eligible_suffixLiteral c o), List.append_nil]

theorem authored_literal_substitute (form : Form κ) (parts : List (Tree κ)) :
    literal.authored o form (parts.map (substitute [.call] o name)) =
      literal.authored o form parts := by
  cases form with
  | opening n selfClosing =>
    simp only [authored, match?]
    cases literalElement? o n with
    | none => rfl
    | some e =>
      simp only [Option.map_some, List.filterMap_map]
      apply List.filterMap_congr
      intro item _
      simp only [Function.comp, authored?, text?_substitute]
  | _ => rfl

/-- The first walk leaves to the second the attributes that were there for it at the start. -/
theorem eligible_literal_substitute (t : Tree κ) :
    eligible .literal o (substitute [.call] o name t) = eligible .literal o t := by
  induction t with
  | node form parts ih =>
    have hparts : (parts.map (substitute [.call] o name)).flatMap (eligible .literal o) =
        parts.flatMap (eligible .literal o) := by
      rw [List.flatMap_map]
      exact List.flatMap_congr ih
    rw [substitute_node, List.foldl_cons, List.foldl_nil, eligible_node, eligible_node,
      eligible_replaceAt, hparts]
    congr 1
    cases hm : call.match? o form parts with
    | none => rw [replaceAt_of_none hm, authored_literal_substitute]
    | some m =>
      obtain ⟨_, _, _, _, rfl, -⟩ := match?_call hm
      rfl

theorem declares_substitute (cs : List Encoding) (f : String) (t : Tree κ) :
    declares f (substitute cs o name t) = declares f t := by
  obtain ⟨form, parts⟩ := t
  rw [substitute_node]
  cases form with
  | function n _ _ => cases n <;> rfl
  | _ => rfl

theorem eligibleAll_literal_substituteAll (ts : List (Tree κ)) :
    eligibleAll .literal o (substituteAll [.call] o name ts) = eligibleAll .literal o ts := by
  rw [eligibleAll_eq_flatMap, eligibleAll_eq_flatMap, substituteAll_eq_map, List.flatMap_map]
  apply List.flatMap_congr
  intro t _
  exact eligible_literal_substitute o name t

theorem substituteAll_substituteAll (ts : List (Tree κ)) :
    substituteAll [.literal] o name (substituteAll [.call] o name ts) =
      substituteAll [.call, .literal] o name ts := by
  simp only [substituteAll_eq_map, List.map_map]
  apply List.map_congr_left
  intro t _
  exact substitute_substitute o name t

theorem insertBefore?_eq (f : String) (new ts : List (Tree κ)) :
    insertBefore? f new ts =
      if ts.any (declares f) then
        some (ts.take (ts.findIdx (declares f)) ++ new ++ ts.drop (ts.findIdx (declares f)))
      else none := by
  induction ts with
  | nil => rfl
  | cons t ts ih =>
    rw [insertBefore?, List.any_cons, List.findIdx_cons]
    cases declares f t with
    | true => simp
    | false =>
      rw [ih]
      cases ts.any (declares f) <;> simp

/-- The attributes to replace in a program: those of its calls before those of its literals. -/
def allEligible (o : Options) (body : List (Tree κ)) : List Authored :=
  eligibleAll .call o body ++ eligibleAll .literal o body

end Tree

namespace LinkedProgram

variable {κ : Type} (o : Options) (body : List (Tree κ))

def bindingsOf (o : Options) (body : List (Tree κ)) : List Binding :=
  (Registry.resolveAll {} ((Tree.allEligible o body).flatMap (·.paths))).bindings

def substituted (o : Options) (body : List (Tree κ)) : List (Tree κ) :=
  Tree.substituteAll [.call, .literal] o (Binding.nameIn (bindingsOf o body)) body

theorem any_declares_substituted (f : String) :
    (substituted o body).any (Tree.declares f) = body.any (Tree.declares f) := by
  simp only [substituted, Tree.substituteAll_eq_map, List.any_map, Function.comp_def,
    Tree.declares_substitute]

theorem findIdx_declares_substituted (f : String) :
    (substituted o body).findIdx (Tree.declares f) = body.findIdx (Tree.declares f) := by
  simp only [substituted, Tree.substituteAll_eq_map, List.findIdx_map, Function.comp_def,
    Tree.declares_substitute]

theorem ofBody_eq :
    ofBody o body =
      let inserted := !(bindingsOf o body).isEmpty && body.any (Tree.declares o.functionName)
      let i := body.findIdx (Tree.declares o.functionName)
      { body :=
          if inserted then
            (substituted o body).take i ++ (bindingsOf o body).map Binding.importTree ++
              (substituted o body).drop i
          else substituted o body
        bindings := bindingsOf o body
        inserted
        rewritten := (Tree.allEligible o body).length } := by
  obtain ⟨hcall, hcalls⟩ := Linking.walksAll .call o body {}
  obtain ⟨hliteral, hliterals⟩ := Linking.walksAll .literal o
    (Tree.substituteAll [.call] o (Binding.nameIn (bindingsOf o body)) body)
    (Linking.after {} (Tree.eligibleAll .call o body))
  have hfound : (Linking.after {} (Tree.eligibleAll .call o body)).after
      (Tree.eligibleAll .literal o body) = Linking.after {} (Tree.allEligible o body) :=
    (Linking.after_append ..).symm
  rw [Tree.eligibleAll_literal_substituteAll, hfound] at hliteral hliterals
  have hbody := hcalls (bindingsOf o body) (by
    change _ <+: (Linking.after {} (Tree.allEligible o body)).registry.bindings
    rw [← hfound]
    exact Linking.prefix_after ..)
  have hlinked := hliterals (bindingsOf o body) (List.prefix_refl _)
  rw [Tree.substituteAll_substituteAll] at hlinked
  have hbindings : (Linking.after {} (Tree.allEligible o body)).registry.bindings =
      bindingsOf o body := rfl
  have hrewritten : (Linking.after {} (Tree.allEligible o body)).rewritten =
      (Tree.allEligible o body).length := Nat.zero_add _
  simp only [ofBody, hcall, hbody, hliteral, hlinked, Registry.takeBindings, hbindings, hrewritten]
  rw [← substituted, Tree.insertBefore?_eq, any_declares_substituted, findIdx_declares_substituted]
  cases body.any (Tree.declares o.functionName) with
  | false => simp
  | true => cases hb : bindingsOf o body <;> simp

end LinkedProgram

end MediaLink
