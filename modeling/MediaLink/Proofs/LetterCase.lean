import MediaLink.Proofs.CollectSubstitute

namespace MediaLink

def lowerCase (s : String) : String := String.ofList (foldCase s)

theorem toLower_toLower (c : Char) : c.toLower.toLower = c.toLower := by
  by_cases h : c.val ≥ 'A'.val ∧ c.val ≤ 'Z'.val
  · have hval : c.toLower.val = c.val + 32 := congrArg Char.val (dif_pos h)
    have hbounds : 65 ≤ c.val.toNat ∧ c.val.toNat ≤ 90 :=
      h.imp UInt32.le_iff_toNat_le.mp UInt32.le_iff_toNat_le.mp
    have hsum : (c.val + 32).toNat = c.val.toNat + 32 :=
      (UInt32.toNat_add ..).trans (Nat.mod_eq_of_lt (Nat.lt_of_le_of_lt
        (Nat.add_le_add_right hbounds.2 32) (by decide)))
    refine dif_neg fun hlower => ?_
    have hle : (c.val + 32).toNat ≤ 90 := UInt32.le_iff_toNat_le.mp (hval ▸ hlower.2)
    omega
  · have hc : c.toLower = c := dif_neg h
    rw [hc, hc]

theorem foldCase_lowerCase (s : String) : foldCase (lowerCase s) = foldCase s := by
  rw [lowerCase, foldCase, foldCase, String.toList_ofList, List.map_map]
  apply List.map_congr_left
  exact fun c _ => toLower_toLower c

theorem Element.named?_eq_some_iff {s : String} {e : Element} :
    Element.named? s = some e ↔ s = e.name := by
  constructor
  · intro h
    have hname := List.find?_some h
    exact (beq_iff_eq.mp hname).symm
  · rintro rfl
    cases e <;> rfl

/-- How names come into lower case outside of what linking looks at: `construct` says so of the
other constructs, which may hold the closing tag of an element, and `spelling` of how a key that is
a string is spelled. -/
structure Lowering (κ : Type) where
  construct : κ → κ
  spelling : String → Option String

namespace Lowering

variable {κ : Type} (l : Lowering κ)

def elementName : ElementName → ElementName
  | .plain name => .plain (lowerCase name)
  | .member (.plain object) property =>
    .member (.plain object)
      (if object = Encoding.componentsObject then lowerCase property else property)
  | name => name

def attributeName : AttributeName → AttributeName
  | .plain name => .plain (lowerCase name)
  | name => name

def form : Form κ → Form κ
  | .opening name selfClosing => .opening (elementName name) selfClosing
  | .attribute name => .attribute (attributeName name)
  | .other construct => .other (l.construct construct)
  | form => form

def key : Tree κ → Tree κ
  | .node (.identifier name) parts => .node (.identifier (lowerCase name)) parts
  | .node (.string name raw) parts =>
    .node (.string (lowerCase name) (raw.bind l.spelling)) parts
  | t => t

def member : Tree κ → Tree κ
  | .node (.property traits) (key :: rest) =>
    .node (.property traits) ((if traits.computed then key else l.key key) :: rest)
  | t => t

def parts : Form κ → List (Tree κ) → List (Tree κ)
  | .call _, callee :: kind :: .node .object members :: rest =>
    callee :: kind :: .node .object (members.map l.member) :: rest
  | _, parts => parts

mutual

/-- The tree with all these names in lower case. -/
def tree : Tree κ → Tree κ
  | .node form parts => .node (l.form form) (l.parts form (trees parts))

def trees : List (Tree κ) → List (Tree κ)
  | [] => []
  | t :: ts => tree t :: trees ts

end

theorem trees_eq_map (ts : List (Tree κ)) : l.trees ts = ts.map l.tree := by
  induction ts with
  | nil => rfl
  | cons t ts ih => rw [trees, ih, List.map_cons]

theorem tree_node (form : Form κ) (parts : List (Tree κ)) :
    l.tree (.node form parts) = .node (l.form form) (l.parts form (parts.map l.tree)) := by
  rw [tree, trees_eq_map]

theorem tree_identifier (name : String) (parts : List (Tree κ)) :
    l.tree (.node (.identifier name) parts) = .node (.identifier name) (parts.map l.tree) :=
  l.tree_node ..

theorem tree_string (value : String) (raw : Option String) (parts : List (Tree κ)) :
    l.tree (.node (.string value raw) parts) = .node (.string value raw) (parts.map l.tree) :=
  l.tree_node ..

theorem tree_object (parts : List (Tree κ)) :
    l.tree (.node .object parts) = .node .object (parts.map l.tree) :=
  l.tree_node ..

theorem tree_property (traits : PropertyTraits) (parts : List (Tree κ)) :
    l.tree (.node (.property traits) parts) = .node (.property traits) (parts.map l.tree) :=
  l.tree_node ..

theorem tree_attribute (name : AttributeName) (parts : List (Tree κ)) :
    l.tree (.node (.attribute name) parts) =
      .node (.attribute (attributeName name)) (parts.map l.tree) :=
  l.tree_node ..

theorem tree_container (parts : List (Tree κ)) :
    l.tree (.node .container parts) = .node .container (parts.map l.tree) :=
  l.tree_node ..

def item : Encoding → Tree κ → Tree κ
  | .call, t => l.member (l.tree t)
  | .literal, t => l.tree t

theorem parts_call_object (isOptional : Bool) (callee kind : Tree κ)
    (members rest : List (Tree κ)) :
    l.parts (.call isOptional) ((callee :: kind :: .node .object members :: rest).map l.tree) =
      l.tree callee :: l.tree kind :: .node .object (members.map (l.item .call)) ::
        rest.map l.tree := by
  rw [List.map_cons, List.map_cons, List.map_cons, tree_object, parts, List.map_map]
  rfl

theorem namedIgnoringCase?_lowerCase (s : String) :
    Element.namedIgnoringCase? (lowerCase s) = Element.namedIgnoringCase? s := by
  rw [Element.namedIgnoringCase?, foldCase_lowerCase, Element.namedIgnoringCase?]

theorem role?_lowerCase (e : Element) (s : String) : e.role? (lowerCase s) = e.role? s := by
  rw [Element.role?, foldCase_lowerCase, Element.role?]

open Encoding

theorem literalElement?_elementName (o : Options) (name : ElementName) :
    literalElement? o (elementName name) = literalElement? o name := by
  match name with
  | .plain name => simp only [elementName, literalElement?, namedIgnoringCase?_lowerCase]
  | .member (.plain object) property =>
    by_cases hobject : object = componentsObject
    · simp only [elementName, literalElement?, hobject, ↓reduceIte, namedIgnoringCase?_lowerCase]
    · simp only [elementName, literalElement?, hobject, ↓reduceIte]
  | .member (.member ..) _ | .member (.namespaced ..) _ | .namespaced .. => rfl

theorem mayConstruct_tree (t : Tree κ) : mayConstruct (l.tree t) = mayConstruct t := by
  obtain ⟨form, parts⟩ := t
  cases form <;> rfl

theorem argumentElement?_tree (o : Options) (t : Tree κ) :
    argumentElement? o (l.tree t) = argumentElement? o t := by
  obtain ⟨form, parts⟩ := t
  cases form with
  | member property isOptional =>
    match parts with
    | [.node form ps] => cases form <;> rfl
    | [] => rfl
    | .node form ps :: _ :: _ => cases form <;> rfl
  | _ => rfl

theorem string?_tree (t : Tree κ) : string? (l.tree t) = string? t := by
  obtain ⟨form, parts⟩ := t
  cases form with
  | string value raw => cases parts <;> rfl
  | _ => rfl

theorem keyName?_tree (t : Tree κ) : keyName? (l.tree t) = keyName? t := by
  obtain ⟨form, parts⟩ := t
  cases form <;> rfl

theorem keyName?_key (t : Tree κ) : keyName? (l.key t) = (keyName? t).map lowerCase := by
  obtain ⟨form, parts⟩ := t
  cases form <;> rfl

end Lowering

namespace Encoding

variable {κ : Type}

def reading? (e : Element) (item : Tree κ) : Option (Role × String) :=
  (text? item).bind fun a => (e.role? a.1).map (·, a.2)

theorem target?_eq_reading? (e : Element) (item : Tree κ) :
    target? e item = (reading? e item).bind fun r => Target.ofValue? r.1 r.2 := by
  rw [target?, reading?]
  cases text? item with
  | none => rfl
  | some a => cases hrole : e.role? a.1 <;> simp [hrole]

theorem authored?_eq_reading? (e : Element) (item : Tree κ) :
    authored? e item =
      (reading? e item).bind fun r => Option.guard Authored.isEligible ⟨r.1, r.2.toList⟩ := by
  rw [authored?, reading?]
  cases text? item with
  | none => rfl
  | some a => cases hrole : e.role? a.1 <;> simp [hrole]

end Encoding

namespace Lowering

open Encoding

variable {κ : Type} (l : Lowering κ)

theorem reading?_tree (e : Element) (item : Tree κ) :
    reading? e (l.tree item) = reading? e item := by
  obtain ⟨form, parts⟩ := item
  cases form with
  | property traits =>
    rw [tree_node]
    match parts with
    | [key, value] =>
      simp only [form, Lowering.parts, List.map_cons, List.map_nil, reading?, text?, keyName?_tree,
        string?_tree]
    | [] | [_] | _ :: _ :: _ :: _ => rfl
  | «attribute» name =>
    rw [tree_node]
    cases name with
    | namespaced => rfl
    | plain name =>
      cases parts with
      | nil => rfl
      | cons value rest =>
        cases rest with
        | nil =>
          simp only [form, Lowering.parts, attributeName, List.map_cons, List.map_nil, reading?,
            text?, string?_tree]
          cases string? value with
          | none => rfl
          | some value => simp only [Option.map_some, Option.bind_some, role?_lowerCase]
        | cons => rfl
  | _ => rfl

theorem reading?_member (e : Element) (item : Tree κ) :
    reading? e (l.member item) = reading? e item := by
  obtain ⟨form, parts⟩ := item
  cases form with
  | property traits =>
    match parts with
    | [key, value] =>
      cases hcomputed : traits.computed with
      | true => simp only [member, hcomputed, ↓reduceIte]
      | false =>
        simp only [member, hcomputed, Bool.false_eq_true, ↓reduceIte, reading?, text?, keyName?_key]
        cases keyName? key with
        | none => rfl
        | some name =>
          cases string? value with
          | none => rfl
          | some value => simp [role?_lowerCase]
    | [] | [_] | _ :: _ :: _ :: _ => rfl
  | _ => rfl

theorem reading?_item (c : Encoding) (e : Element) (t : Tree κ) :
    reading? e (l.item c t) = reading? e t := by
  cases c with
  | call => rw [item, reading?_member, reading?_tree]
  | literal => exact l.reading?_tree e t

theorem match?_lowered (c : Encoding) (o : Options) (form : Form κ) (parts : List (Tree κ)) :
    c.match? o (l.form form) (l.parts form (parts.map l.tree)) =
      (c.match? o form parts).map fun m => (m.1, m.2.map (l.item c)) := by
  cases c with
  | call =>
    cases form with
    | call isOptional =>
      match parts with
      | callee :: kind :: .node third members :: rest =>
        cases third with
        | object =>
          simp only [parts_call_object, Lowering.form, match?, mayConstruct_tree,
            argumentElement?_tree]
          split
          · rw [Option.map_map]
            rfl
          · rfl
        | _ => rfl
      | [] | [_] | [_, _] => rfl
    | _ => rfl
  | literal =>
    cases form with
    | opening name selfClosing =>
      simp only [Lowering.form, Lowering.parts, match?, literalElement?_elementName,
        Option.map_map]
      rfl
    | _ => rfl

theorem targets_lowered (c : Encoding) (o : Options) (form : Form κ) (parts : List (Tree κ)) :
    c.targets o (l.form form) (l.parts form (parts.map l.tree)) = c.targets o form parts := by
  rw [targets, targets, match?_lowered]
  cases c.match? o form parts with
  | none => rfl
  | some m =>
    simp only [Option.map_some, List.map_map]
    apply List.map_congr_left
    intro t _
    simp only [Function.comp, target?_eq_reading?, reading?_item]

theorem authored_lowered (c : Encoding) (o : Options) (form : Form κ) (parts : List (Tree κ)) :
    c.authored o (l.form form) (l.parts form (parts.map l.tree)) = c.authored o form parts := by
  rw [authored, authored, match?_lowered]
  cases c.match? o form parts with
  | none => rfl
  | some m =>
    simp only [Option.map_some, List.filterMap_map]
    apply List.filterMap_congr
    intro t _
    simp only [Function.comp, authored?_eq_reading?, reading?_item]

theorem tree_targetTree (t : Target) (name : List Char → List Char) :
    l.tree (t.tree name : Tree κ) = t.tree name := by
  have href : ∀ p, l.tree (Target.reference p : Tree κ) = Target.reference p :=
    fun p => l.tree_identifier _ []
  rw [Target.tree]
  split
  · exact href _
  · rw [tree_node, List.map_map]
    exact congrArg _ (List.map_congr_left fun p _ => href _)

theorem lowerCase_suffixAttribute : lowerCase suffixAttribute = suffixAttribute := by
  decide +kernel

theorem tree_setValue {v : Tree κ} (hv : l.tree v = v) (t : Tree κ) :
    l.tree (setValue v t) = setValue v (l.tree t) := by
  obtain ⟨form, parts⟩ := t
  cases form with
  | property traits =>
    match parts with
    | [] | [_] | [_, _] | _ :: _ :: _ :: _ =>
      simp only [setValue, tree_property, List.map_cons, List.map_nil, hv]
  | «attribute» a =>
    simp only [setValue, tree_attribute, tree_container, List.map_cons, List.map_nil, hv]
  | _ => rfl

theorem member_setValue (v t : Tree κ) : l.member (setValue v t) = setValue v (l.member t) := by
  obtain ⟨form, parts⟩ := t
  cases form with
  | property traits =>
    match parts with
    | [] | [_] | [_, _] | _ :: _ :: _ :: _ => rfl
  | _ => rfl

theorem item_setValue (c : Encoding) {v : Tree κ} (hv : l.tree v = v) (t : Tree κ) :
    l.item c (setValue v t) = setValue v (l.item c t) := by
  cases c with
  | call => rw [item, item, l.tree_setValue hv, member_setValue]
  | literal => exact l.tree_setValue hv t

theorem item_suffixProperty (s : List Char) :
    l.item .call (suffixProperty s : Tree κ) = suffixProperty s := by
  simp only [item, suffixProperty, Tree.string, tree_property, tree_string, List.map_cons,
    List.map_nil, member, key, Bool.false_eq_true, ↓reduceIte, lowerCase_suffixAttribute,
    Option.bind_none]

theorem item_suffixLiteral (s : List Char) :
    l.item .literal (suffixLiteral s : Tree κ) = suffixLiteral s := by
  simp only [item, suffixLiteral, Tree.string, tree_attribute, tree_string, List.map_cons,
    List.map_nil, attributeName, lowerCase_suffixAttribute]

theorem parts_graft (c : Encoding) {o : Options} {form : Form κ} {parts : List (Tree κ)}
    {m : Element × List (Tree κ)} (hm : c.match? o form parts = some m)
    {vs : List (Option (Tree κ))} (hv : ∀ v, some v ∈ vs → l.tree v = v) (ss : List (List Char))
    (now : List (Tree κ)) :
    l.parts form ((c.graft vs ss now).map l.tree) =
      c.graft vs ss (l.parts form (now.map l.tree)) := by
  have hset : ∀ v, some v ∈ vs → ∀ t, l.item c (setValue v t) = setValue v (l.item c t) :=
    fun v h t => l.item_setValue c (hv v h) t
  cases c with
  | call =>
    obtain ⟨isOptional, _, _, _, rfl, -⟩ := match?_call hm
    match now with
    | callee :: kind :: .node third members :: rest =>
      cases third with
      | object =>
        simp only [graft, parts_call_object, map_setValues_append hset l.item_suffixProperty]
      | _ => rfl
    | [] | [_] | [_, _] => rfl
  | literal =>
    obtain ⟨_, _, rfl, -⟩ := match?_literal hm
    exact map_setValues_append hset l.item_suffixLiteral now ss

theorem parts_replaceAt (c : Encoding) (o : Options) (name : List Char → List Char)
    (form : Form κ) (parts now : List (Tree κ)) :
    l.parts form ((c.replaceAt o name form parts now).map l.tree) =
      c.replaceAt o name (l.form form) (l.parts form (parts.map l.tree))
        (l.parts form (now.map l.tree)) := by
  cases hm : c.match? o form parts with
  | none =>
    have hlowered : c.match? o (l.form form) (l.parts form (parts.map l.tree)) = none := by
      rw [match?_lowered, hm, Option.map_none]
    rw [replaceAt_of_none hm, replaceAt_of_none hlowered]
  | some m =>
    rw [replaceAt, replaceAt, targets_lowered]
    apply l.parts_graft c hm
    intro v hv
    obtain ⟨t, rfl⟩ := exists_target_of_mem hv
    exact l.tree_targetTree t name

section Substitute

variable (cs : List Encoding) (o : Options) (name : List Char → List Char)

theorem key_substitute (t : Tree κ) :
    l.key (Tree.substitute cs o name t) = Tree.substitute cs o name (l.key t) := by
  obtain ⟨form, parts⟩ := t
  cases form with
  | identifier | string =>
    rw [key, Tree.substitute_of_encodes cs o name rfl, Tree.substitute_of_encodes cs o name rfl,
      key]
  | _ => rfl

theorem member_substitute (t : Tree κ) :
    l.member (Tree.substitute cs o name t) = Tree.substitute cs o name (l.member t) := by
  obtain ⟨form, parts⟩ := t
  cases form with
  | property traits =>
    cases parts with
    | nil => simp only [Tree.substitute_property, List.map_nil, member]
    | cons key rest =>
      rw [Tree.substitute_property, List.map_cons, member, member, Tree.substitute_property,
        List.map_cons]
      by_cases hcomputed : traits.computed
      · rw [if_pos hcomputed, if_pos hcomputed]
      · rw [if_neg hcomputed, if_neg hcomputed, key_substitute]
  | _ => rfl

theorem parts_map_substitute (form : Form κ) (ts : List (Tree κ)) :
    l.parts form (ts.map (Tree.substitute cs o name)) =
      (l.parts form ts).map (Tree.substitute cs o name) := by
  cases form with
  | call isOptional =>
    match ts with
    | callee :: kind :: .node third members :: rest =>
      cases third with
      | object =>
        simp only [Lowering.parts, List.map_cons, Tree.substitute_object, List.map_map,
          Function.comp_def, member_substitute]
      | _ => rfl
    | [] | [_] | [_, _] => rfl
  | _ => rfl

/-- It does not matter whether names come into lower case before media are replaced or after. -/
theorem tree_substitute (t : Tree κ) :
    l.tree (Tree.substitute cs o name t) = Tree.substitute cs o name (l.tree t) := by
  induction t with
  | node form parts ih =>
    have hparts : l.parts form ((parts.map (Tree.substitute cs o name)).map l.tree) =
        (l.parts form (parts.map l.tree)).map (Tree.substitute cs o name) := by
      rw [← parts_map_substitute, List.map_map, List.map_map]
      exact congrArg _ (List.map_congr_left ih)
    rw [tree_node, Tree.substitute_node, tree_node, Tree.substitute_node, ← hparts]
    congr 1
    -- one encoding after the other
    symm
    apply List.foldl_hom fun now : List (Tree κ) => l.parts form (now.map l.tree)
    intro now c
    exact (l.parts_replaceAt c o name form parts now).symm

end Substitute

section Eligible

variable (c : Encoding) (o : Options)

theorem eligible_key (t : Tree κ) :
    Tree.eligible c o (l.key t) = Tree.eligible c o t := by
  obtain ⟨form, parts⟩ := t
  cases form with
  | identifier | string =>
    rw [key, Tree.eligible_of_encodes c o rfl, Tree.eligible_of_encodes c o rfl]
  | _ => rfl

theorem eligible_member (t : Tree κ) :
    Tree.eligible c o (l.member t) = Tree.eligible c o t := by
  obtain ⟨form, parts⟩ := t
  cases form with
  | property traits =>
    cases parts with
    | nil => rfl
    | cons key rest =>
      rw [member, Tree.eligible_property, Tree.eligible_property, List.flatMap_cons,
        List.flatMap_cons]
      by_cases hcomputed : traits.computed
      · rw [if_pos hcomputed]
      · rw [if_neg hcomputed, eligible_key]
  | _ => rfl

theorem flatMap_eligible_parts (form : Form κ) (ts : List (Tree κ)) :
    (l.parts form ts).flatMap (Tree.eligible c o) = ts.flatMap (Tree.eligible c o) := by
  cases form with
  | call isOptional =>
    match ts with
    | callee :: kind :: .node third members :: rest =>
      cases third with
      | object =>
        simp only [Lowering.parts, List.flatMap_cons, Tree.eligible_object, List.flatMap_map,
          eligible_member]
      | _ => rfl
    | [] | [_] | [_, _] => rfl
  | _ => rfl

theorem eligible_tree (t : Tree κ) :
    Tree.eligible c o (l.tree t) = Tree.eligible c o t := by
  induction t with
  | node form parts ih =>
    rw [tree_node, Tree.eligible_node, Tree.eligible_node, authored_lowered,
      flatMap_eligible_parts, List.flatMap_map]
    exact congrArg _ (List.flatMap_congr ih)

end Eligible

theorem declares_tree (f : String) (t : Tree κ) : (l.tree t).declares f = t.declares f := by
  obtain ⟨form, parts⟩ := t
  cases form with
  | function name _ _ => cases name <;> rfl
  | _ => rfl

end Lowering

namespace Encoding

variable {κ : Type}

/-- The first argument of a call that constructs the element, to the letter. -/
inductive IsKind (o : Options) (e : Element) : Tree κ → Prop
  | string (raw : Option String) (parts : List (Tree κ)) (h : o.excludes .html = false) :
    IsKind o e (.node (.string e.name raw) parts)
  | member (isOptional : Bool) (parts : List (Tree κ)) (h : o.excludes .markdown = false) :
    IsKind o e (.node (.member e.name isOptional) [.node (.identifier componentsObject) parts])

theorem argumentElement?_eq_some_iff {o : Options} {e : Element} {kind : Tree κ} :
    argumentElement? o kind = some e ↔ IsKind o e kind := by
  constructor
  · intro h
    unfold argumentElement? at h
    split at h
    case h_1 name raw parts =>
      obtain ⟨ho, h⟩ := Option.ite_none_left_eq_some.mp h
      obtain rfl := Element.named?_eq_some_iff.mp h
      exact .string raw parts (Bool.eq_false_iff.mpr ho)
    case h_2 property isOptional object parts =>
      obtain ⟨ho, h⟩ := Option.ite_none_left_eq_some.mp h
      obtain rfl := Element.named?_eq_some_iff.mp h
      simp only [Bool.or_eq_true, bne_iff_ne, not_or, Decidable.not_not] at ho
      obtain ⟨ho, rfl⟩ := ho
      exact .member isOptional parts (Bool.eq_false_iff.mpr ho)
    case h_3 => cases h
  · rintro (⟨raw, parts, ho⟩ | ⟨isOptional, parts, ho⟩)
    · simp only [argumentElement?, ho, Bool.false_eq_true, ↓reduceIte, Element.named?_eq_some_iff]
    · simp only [argumentElement?, ho, bne_self_eq_false, Bool.or_self, Bool.false_eq_true,
        ↓reduceIte, Element.named?_eq_some_iff]

theorem match?_call_eq_some_iff {o : Options} {isOptional : Bool} {callee kind : Tree κ}
    {members rest : List (Tree κ)} {e : Element} :
    call.match? o (.call isOptional) (callee :: kind :: .node .object members :: rest) =
        some (e, members) ↔
      mayConstruct callee ∧ IsKind o e kind := by
  rw [match?, Option.ite_none_right_eq_some, Option.map_eq_some_iff,
    ← argumentElement?_eq_some_iff]
  simp only [Prod.mk.injEq, and_true, exists_eq_right]

end Encoding

namespace LinkedProgram

variable {κ : Type} (l : Lowering κ) (o : Options) (body : List (Tree κ))

theorem allEligible_lowered :
    Tree.allEligible o (body.map l.tree) = Tree.allEligible o body := by
  simp only [Tree.allEligible, Tree.eligibleAll_eq_flatMap, List.flatMap_map,
    Lowering.eligible_tree]

theorem bindingsOf_lowered : bindingsOf o (body.map l.tree) = bindingsOf o body := by
  rw [bindingsOf, bindingsOf, allEligible_lowered]

theorem substituted_lowered :
    substituted o (body.map l.tree) = (substituted o body).map l.tree := by
  simp only [substituted, Tree.substituteAll_eq_map, bindingsOf_lowered, List.map_map,
    Function.comp_def, Lowering.tree_substitute]

/-- Linking a program in lower case is linking it and bringing the result into lower case. -/
theorem ofBody_lowered :
    ofBody o (body.map l.tree) =
      { ofBody o body with body := (ofBody o body).body.map l.tree } := by
  have himports (bs : List Binding) :
      (bs.map Binding.importTree).map l.tree = bs.map Binding.importTree := by
    rw [List.map_map]
    exact List.map_congr_left fun b _ => l.tree_node _ []
  have hdeclares (f : String) : Tree.declares f ∘ l.tree = Tree.declares f :=
    funext (l.declares_tree f)
  rw [ofBody_eq, ofBody_eq, bindingsOf_lowered, substituted_lowered, allEligible_lowered,
    List.any_map, List.findIdx_map, hdeclares]
  dsimp only
  split
  · simp only [List.map_append, List.map_take, List.map_drop, himports]
  · rfl

structure AgreesUpToCase (l : Lowering κ) (p p' : LinkedProgram κ) : Prop where
  body_eq : p.body.map l.tree = p'.body.map l.tree
  bindings_eq : p.bindings = p'.bindings
  inserted_eq : p.inserted = p'.inserted
  rewritten_eq : p.rewritten = p'.rewritten

/-- Letter case never matters in the names of element literals and of attributes; in the kind of a
call it always does. -/
theorem agreesUpToCase_ofBody {body body' : List (Tree κ)}
    (h : body.map l.tree = body'.map l.tree) :
    AgreesUpToCase l (ofBody o body) (ofBody o body') ∧
      ∀ isOptional (callee kind : Tree κ) members rest e,
        Encoding.call.match? o (.call isOptional)
            (callee :: kind :: .node .object members :: rest) = some (e, members) ↔
          Encoding.mayConstruct callee ∧ Encoding.IsKind o e kind := by
  have hlowered := ofBody_lowered l o body
  rw [h, ofBody_lowered] at hlowered
  injection hlowered with hbody hbindings hinserted hrewritten
  refine ⟨⟨hbody.symm, hbindings.symm, hinserted.symm, hrewritten.symm⟩, ?_⟩
  intro isOptional callee kind members rest e
  exact Encoding.match?_call_eq_some_iff

def mixedCase (plain member source key : String) : List (Tree ElementName) :=
  let literal (name : ElementName) (value : String) : Tree ElementName :=
    .node (.other name)
      [.node (.opening name false) [.node (.attribute (.plain source)) [.string value]]]
  let call (kind value : String) : Tree ElementName :=
    .node (.call false) [.identifier "_jsx", .string kind,
      .node .object [.node (.property {}) [.identifier key, .string value]]]
  [.node (.function (some "_createMdxContent") false false)
    [literal (.plain plain) "a.png#x",
      literal (.member (.plain Encoding.componentsObject) member) "b.mp4",
      call "audio" "c.mp3", call "IMG" "d.png"]]

theorem agreesUpToCase_mixedCase :
    let l : Lowering ElementName := ⟨Lowering.elementName, fun _ => none⟩
    let body := mixedCase "Img" "VIDEO" "sRc" "SRC"
    let body' := mixedCase "img" "video" "src" "src"
    body.map l.tree = body'.map l.tree ∧
      AgreesUpToCase l (ofBody {} body) (ofBody {} body') ∧ (ofBody {} body).rewritten = 3 := by
  intro l body body'
  have hplain : lowerCase "Img" = lowerCase "img" := by decide +kernel
  have hmember : lowerCase "VIDEO" = lowerCase "video" := by decide +kernel
  have hattribute : lowerCase "sRc" = lowerCase "src" := by decide +kernel
  have hkey : lowerCase "SRC" = lowerCase "src" := by decide +kernel
  have h : body.map l.tree = body'.map l.tree := by
    simp [body, body', mixedCase, l, Lowering.tree_node, Lowering.form, Lowering.parts,
      Lowering.elementName, Lowering.attributeName, Lowering.member, Lowering.key,
      Tree.string, Tree.identifier, hplain, hmember, hattribute, hkey]
  exact ⟨h, (agreesUpToCase_ofBody l {} h).1, by decide +kernel⟩

end LinkedProgram

end MediaLink
