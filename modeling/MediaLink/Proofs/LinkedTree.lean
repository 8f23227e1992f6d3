import MediaLink.Proofs.Attributes
import MediaLink.Proofs.References

namespace MediaLink

open Srcset

namespace Authored

variable {κ : Type}

/-- The expression that takes the place of the value, where `name` says what each path is imported
as. -/
def replacement? (name : List Char → List Char) (a : Authored) : Option (Tree κ) :=
  let reference (path : List Char) : Tree κ := .node (.identifier (String.ofList (name path))) []
  match a.role with
  | .single =>
    if Reference.isRewritable a.value then some (reference (Reference.ofRaw a.value).path) else none
  | .candidates =>
    match LinkedText.ofText? a.value with
    | some (.whole path) => some (reference path)
    | some (.template t) =>
      let quasis := t.quasis.map fun text =>
        ⟨String.ofList (Target.escape text), some (String.ofList text)⟩
      some (.node (.template quasis) (t.paths.map reference))
    | none => none

def suffix? (a : Authored) : Option (List Char) :=
  match a.role with
  | .single =>
    let suffix := (Reference.ofRaw a.value).suffix
    if suffix.isEmpty then none else some suffix
  | .candidates => none

theorem replacement?_eq_tree {role : Role} {value : String} {t : Target}
    (h : Target.ofValue? role value = some t) (name : List Char → List Char) :
    replacement? name ⟨role, value.toList⟩ = some (t.tree name : Tree κ) := by
  cases role with
  | single =>
    obtain ⟨hr, ht⟩ := Option.ite_none_right_eq_some.mp h
    obtain rfl := Option.some.inj ht
    exact if_pos hr
  | candidates =>
    obtain ⟨v, hv, rfl⟩ := Option.map_eq_some_iff.mp h
    simp only [replacement?, hv]
    cases v with
    | whole path => rfl
    | template t => rfl

theorem isSome_replacement? (name : List Char → List Char) (a : Authored) :
    (a.replacement? name : Option (Tree κ)).isSome = a.isEligible := by
  obtain ⟨role, value⟩ := a
  cases role with
  | single =>
    simp only [replacement?, isEligible]
    cases Reference.isRewritable value <;> rfl
  | candidates =>
    simp only [replacement?, isEligible]
    cases LinkedText.ofText? value with
    | none => rfl
    | some v => cases v <;> rfl

theorem suffix?_eq_suffix {role : Role} {value : String} {t : Target}
    (h : Target.ofValue? role value = some t) :
    suffix? ⟨role, value.toList⟩ = if t.suffix.isEmpty then none else some t.suffix := by
  cases role with
  | single =>
    obtain ⟨-, ht⟩ := Option.ite_none_right_eq_some.mp h
    obtain rfl := Option.some.inj ht
    rfl
  | candidates =>
    obtain ⟨v, -, rfl⟩ := Option.map_eq_some_iff.mp h
    rfl

end Authored

namespace Encoding

open MediaLink.Tree

variable {κ : Type}

/-- The attributes to replace of an element: members of an object with a key that is not computed,
or attributes of a literal with a plain name. Under this name the element may hold a path, and the
value is a string that has one to replace. -/
inductive IsAuthored (e : Element) : Tree κ → Authored → Prop
  | identifier {traits : PropertyTraits} {name value : String} {raw : Option String} {role : Role}
    (parts : List (Tree κ)) (hcomputed : traits.computed = false)
    (hrole : e.role? name = some role) (heligible : Authored.isEligible ⟨role, value.toList⟩) :
    IsAuthored e (.node (.property traits)
      [.node (.identifier name) parts, .node (.string value raw) []]) ⟨role, value.toList⟩
  | string {traits : PropertyTraits} {name value : String} {spelling raw : Option String}
    {role : Role} (parts : List (Tree κ)) (hcomputed : traits.computed = false)
    (hrole : e.role? name = some role) (heligible : Authored.isEligible ⟨role, value.toList⟩) :
    IsAuthored e (.node (.property traits)
      [.node (.string name spelling) parts, .node (.string value raw) []]) ⟨role, value.toList⟩
  | plain {name value : String} {raw : Option String} {role : Role}
    (hrole : e.role? name = some role) (heligible : Authored.isEligible ⟨role, value.toList⟩) :
    IsAuthored e (.node (.attribute (.plain name)) [.node (.string value raw) []])
      ⟨role, value.toList⟩

/-- The second attribute is the first with another value. -/
inductive HasValue (value : Tree κ) : Tree κ → Tree κ → Prop
  | property {traits : PropertyTraits} {key key' old : Tree κ} (h : key'.form = key.form) :
    HasValue value (.node (.property traits) [key, old]) (.node (.property traits) [key', value])
  | attribute {name : AttributeName} {old : Tree κ} :
    HasValue value (.node (.attribute name) [old])
      (.node (.attribute name) [.node .container [value]])

def metaItem (suffix : List Char) : Encoding → Tree κ
  | call =>
    .node (.property ⟨.init, false, false, false⟩)
      [.node (.string "data-meta" none) [], .node (.string (String.ofList suffix) none) []]
  | literal =>
    .node (.attribute (.plain "data-meta")) [.node (.string (String.ofList suffix) none) []]

/-- What becomes of an attribute of the element, which stands there as `now` once everything below
it is linked. -/
def linkedItem (e : Element) (name : List Char → List Char) (item now : Tree κ) : Tree κ :=
  match (authored? e item).bind (·.replacement? name), now with
  | some v, .node (.property traits) [key, _] => .node (.property traits) [key, v]
  | some v, .node (.attribute a) [_] => .node (.attribute a) [.node .container [v]]
  | _, now => now

def suffixItems (c : Encoding) (e : Element) (items : List (Tree κ)) : List (Tree κ) :=
  ((items.filterMap (authored? e)).filterMap (·.suffix?)).map fun suffix => c.metaItem suffix

def linkedItems (c : Encoding) (e : Element) (name : List Char → List Char)
    (items now : List (Tree κ)) : List (Tree κ) :=
  List.zipWith (linkedItem e name) items now ++ c.suffixItems e items

theorem keyName?_eq_some_iff {t : Tree κ} {name : String} :
    keyName? t = some name ↔ (∃ parts, t = .node (.identifier name) parts) ∨
      ∃ spelling parts, t = .node (.string name spelling) parts := by
  obtain ⟨form, parts⟩ := t
  cases form <;> simp [keyName?]

theorem authored?_eq_some_iff {e : Element} {item : Tree κ} {a : Authored} :
    authored? e item = some a ↔ IsAuthored e item a := by
  constructor
  · intro h
    obtain ⟨⟨name, value⟩, htext, h⟩ := Option.bind_eq_some_iff.mp h
    obtain ⟨role, hrole, h⟩ := Option.bind_eq_some_iff.mp h
    obtain ⟨rfl, heligible⟩ := Option.guard_eq_some_iff.mp h
    unfold text? at htext
    split at htext
    case h_1 traits key t =>
      obtain ⟨hcomputed, htext⟩ := Option.ite_none_left_eq_some.mp htext
      obtain ⟨n, hkey, htext⟩ := Option.bind_eq_some_iff.mp htext
      obtain ⟨v, hvalue, htext⟩ := Option.bind_eq_some_iff.mp htext
      obtain ⟨rfl, rfl⟩ := Prod.mk.inj (Option.some.inj htext)
      obtain ⟨raw, rfl⟩ := string?_eq_some hvalue
      obtain ⟨parts, rfl⟩ | ⟨spelling, parts, rfl⟩ := keyName?_eq_some_iff.mp hkey
      · exact .identifier parts (Bool.eq_false_iff.mpr hcomputed) hrole heligible
      · exact .string parts (Bool.eq_false_iff.mpr hcomputed) hrole heligible
    case h_2 n t =>
      obtain ⟨v, hvalue, htext⟩ := Option.map_eq_some_iff.mp htext
      obtain ⟨rfl, rfl⟩ := Prod.mk.inj htext
      obtain ⟨raw, rfl⟩ := string?_eq_some hvalue
      exact .plain hrole heligible
    case h_3 => cases htext
  · intro h
    cases h with
    | identifier parts hcomputed hrole heligible | string parts hcomputed hrole heligible =>
      simp [authored?, text?, hcomputed, keyName?, string?, hrole, Option.guard, heligible]
    | plain hrole heligible =>
      simp [authored?, text?, string?, hrole, Option.guard, heligible]

theorem replacement?_authored? (e : Element) (name : List Char → List Char) (item : Tree κ) :
    (authored? e item).bind (·.replacement? name) =
      (target? e item).map (·.tree name : Target → Tree κ) := by
  cases ht : target? e item with
  | none => rw [authored?_of_target?_eq_none ht, Option.bind_none, Option.map_none]
  | some t =>
    obtain ⟨role, value, ha, hvalue⟩ := exists_value_of_target? ht
    rw [ha, Option.bind_some, Authored.replacement?_eq_tree hvalue, Option.map_some]

theorem linkedItem_eq (e : Element) (name : List Char → List Char) {item now : Tree κ}
    (h : text? now = text? item) : linkedItem e name item now = replaceItem e name item now := by
  unfold linkedItem
  rw [replaceItem, replacement?_authored?]
  cases ht : target? e item with
  | none => rfl
  | some t =>
    obtain ⟨a, ha, -⟩ := Option.bind_eq_some_iff.mp ht
    obtain ⟨_, _, _, rfl, -⟩ | ⟨_, _, rfl, -⟩ := text?_eq_some (h.trans ha)
    · rfl
    · rfl

theorem suffixItems_eq (c : Encoding) (e : Element) (items : List (Tree κ)) :
    c.suffixItems e items =
      (Linking.suffixes (items.map (target? e))).map (c.suffixItem : List Char → Tree κ) := by
  have hitem (s : List Char) : c.metaItem s = (c.suffixItem s : Tree κ) := by cases c <;> rfl
  have hsuffixes : (items.filterMap (authored? e)).filterMap (·.suffix?) =
      Linking.suffixes (items.map (target? e)) := by
    rw [Linking.suffixes, List.filterMap_map, List.filterMap_filterMap, List.filterMap_filterMap]
    apply List.filterMap_congr
    intro item _
    simp only [Function.comp, id]
    cases ht : target? e item with
    | none => rw [authored?_of_target?_eq_none ht, Option.bind_none, Option.bind_none]
    | some t =>
      obtain ⟨role, value, ha, hvalue⟩ := exists_value_of_target? ht
      rw [ha, Option.bind_some, Option.bind_some, Authored.suffix?_eq_suffix hvalue]
  rw [suffixItems, hsuffixes]
  exact List.map_congr_left fun s _ => hitem s

theorem linkedItems_map (c : Encoding) (e : Element) (name : List Char → List Char)
    (items : List (Tree κ)) {f : Tree κ → Tree κ} (hf : ∀ t, text? (f t) = text? t) :
    linkedItems c e name items (items.map f) =
      items.map (fun item => replaceItem e name item (f item)) ++
        (Linking.suffixes (items.map (target? e))).map c.suffixItem := by
  rw [linkedItems, suffixItems_eq, List.zipWith_map_right, List.zipWith_self]
  simp only [linkedItem_eq e name (hf _)]

theorem getElem?_linkedItems (c : Encoding) (e : Element) (name : List Char → List Char)
    {items : List (Tree κ)} {i : Nat} {item : Tree κ} (h : items[i]? = some item)
    (f : Tree κ → Tree κ) :
    (linkedItems c e name items (items.map f))[i]? = some (linkedItem e name item (f item)) := by
  rw [linkedItems, List.zipWith_map_right, List.zipWith_self]
  exact getElem?_map_append _ _ h

end Encoding

namespace Tree

open Encoding

variable {κ : Type}

mutual

/-- The tree with expressions in place of all values to replace, and with their suffixes. -/
def linked (o : Options) (name : List Char → List Char) : Tree κ → Tree κ
  | .node form parts =>
    .node form <|
      match call.match? o form parts, literal.match? o form parts, linkedAll o name parts with
      | some (e, items), _, callee :: kind :: .node .object members :: rest =>
        callee :: kind :: .node .object (linkedItems call e name items members) :: rest
      | _, some (e, items), attributes => linkedItems literal e name items attributes
      | _, _, parts => parts

def linkedAll (o : Options) (name : List Char → List Char) : List (Tree κ) → List (Tree κ)
  | [] => []
  | t :: ts => linked o name t :: linkedAll o name ts

end

variable (o : Options) (name : List Char → List Char)

theorem linkedAll_eq_map (ts : List (Tree κ)) : linkedAll o name ts = ts.map (linked o name) := by
  induction ts with
  | nil => rfl
  | cons t ts ih => rw [linkedAll, ih, List.map_cons]

theorem substitute_eq_linked (t : Tree κ) :
    substitute [.call, .literal] o name t = linked o name t := by
  induction t with
  | node form parts ih =>
    have hparts : linkedAll o name parts = parts.map (substitute [.call, .literal] o name) := by
      rw [linkedAll_eq_map, List.map_congr_left ih]
    have htext := text?_substitute (κ := κ) [.call, .literal] o name
    rw [linked, hparts]
    obtain ⟨e, opt, callee, kind, items, rest, rfl, rfl, hcall, hliteral, hnode⟩ |
      ⟨e, hcall, hliteral, hnode⟩ | ⟨hcall, hliteral, hnode⟩ := substitute_cases o name form parts
    · rw [hnode, hcall, hliteral, List.map_cons, List.map_cons, List.map_cons, substitute_object]
      simp only [linkedItems_map call e name items htext]
      rfl
    · rw [hnode, hcall, hliteral]
      simp only [linkedItems_map literal e name parts htext]
      rfl
    · rw [hnode, hcall, hliteral]

theorem hasValue_linkedItem {e : Element} {item v : Tree κ} {a : Authored}
    (h : IsAuthored e item a) (hv : a.replacement? name = some v) :
    HasValue v item (linkedItem e name item (linked o name item)) := by
  have hbind : (authored? e item).bind (·.replacement? name) = some v := by
    rw [authored?_eq_some_iff.mpr h]
    exact hv
  unfold linkedItem
  rw [hbind]
  cases h with
  | identifier | string => exact .property rfl
  | plain => exact .attribute

end Tree

namespace LinkedProgram

open MediaLink.Tree Encoding

variable {κ : Type} (o : Options) (body : List (Tree κ))

def IsEligibleAt (o : Options) (body : List (Tree κ)) (p : List Nat) (item : Tree κ)
    (a : Authored) : Prop :=
  ∃ q i c e, p = q ++ [i] ∧ holderAt? o body q = some (c, e) ∧ atAll? body p = some item ∧
    IsAuthored e item a

/-- What a program becomes, where `name` says what each path is imported as. -/
structure IsImage (o : Options) (name : List Char → List Char) (body now : List (Tree κ)) :
    Prop where
  map_eq : now = body.map (linked o name)
  replaced : ∀ p item a, IsEligibleAt o body p item a → ∃ v item',
    a.replacement? name = some v ∧ atAll? now p = some item' ∧ HasValue v item item'
  appended : ∀ p c e, holderAt? o body p = some (c, e) → ∃ form items items',
    atAll? body p = some (.node form items) ∧ items'.length = items.length ∧
      atAll? now p = some (.node form (items' ++ c.suffixItems e items))

/-- A linked program is what comes of collecting all that is to be replaced and then putting names
in place of it. -/
structure IsSubstituted (o : Options) (body : List (Tree κ)) (l : LinkedProgram κ) : Prop where
  eligible_iff : ∀ a, a ∈ allEligible o body ↔ ∃ p item, IsEligibleAt o body p item a
  bindings_eq : l.bindings =
    (Registry.resolveAll {} ((allEligible o body).flatMap (·.paths))).bindings
  paths_eq : l.bindings.map (·.path) = ((allEligible o body).flatMap (·.paths)).eraseDups
  rewritten_eq : l.rewritten = (allEligible o body).length
  body_eq : ∃ name before behind,
    (∀ a ∈ allEligible o body, ∀ path ∈ a.paths, ⟨path, name path⟩ ∈ l.bindings) ∧
    IsImage o name body (before ++ behind) ∧
    l.body = before ++ (if l.inserted then l.bindings.map fun b =>
      .node (.defaultImport (String.ofList b.name) (String.ofList b.path)) [] else []) ++ behind

theorem mem_allEligible_iff (a : Authored) :
    a ∈ allEligible o body ↔ ∃ p item, IsEligibleAt o body p item a := by
  constructor
  · intro h
    obtain ⟨q, i, c, e, item, hholder, hitem, ha⟩ := exists_holderAt?_of_mem_allEligible h
    exact ⟨q ++ [i], item, q, i, c, e, rfl, hholder, hitem, authored?_eq_some_iff.mp ha⟩
  · rintro ⟨_, item, q, i, c, e, rfl, hholder, hitem, ha⟩
    rw [atAll?_concat hholder] at hitem
    obtain ⟨⟨form, items⟩, hnode, hitem⟩ := Option.bind_eq_some_iff.mp hitem
    exact mem_allEligible hholder hnode (List.mem_of_getElem? hitem)
      (authored?_eq_some_iff.mpr ha)

variable {o body}

theorem atAll?_map_linked {p : List Nat} {c : Encoding} {e : Element}
    (h : holderAt? o body p = some (c, e)) (name : List Char → List Char) : ∃ form items,
      atAll? body p = some (.node form items) ∧ atAll? (body.map (linked o name)) p =
        some (.node form (linkedItems c e name items (items.map (linked o name)))) := by
  have hf : substitute [.call, .literal] o name = linked (κ := κ) o name :=
    funext (substitute_eq_linked o name)
  obtain ⟨form, items, hold, hnew⟩ := atAll?_map_substitute h name
  rw [← linkedItems_map c e name items (text?_substitute _ o name), hf] at hnew
  exact ⟨form, items, hold, hnew⟩

theorem isImage_map_linked (name : List Char → List Char) :
    IsImage o name body (body.map (linked o name)) := by
  refine ⟨rfl, ?_, ?_⟩
  · rintro _ item a ⟨q, i, c, e, rfl, hholder, hitem, ha⟩
    obtain ⟨v, hv⟩ : ∃ v, a.replacement? (κ := κ) name = some v := by
      rw [← Option.isSome_iff_exists, Authored.isSome_replacement?]
      cases ha <;> assumption
    obtain ⟨form, items, hold, hnew⟩ := atAll?_map_linked hholder name
    rw [atAll?_concat hholder, hold] at hitem
    refine ⟨v, _, hv, ?_, hasValue_linkedItem o name ha hv⟩
    rw [atAll?_concat hholder, hnew]
    exact getElem?_linkedItems c e name hitem _
  · intro p c e hholder
    obtain ⟨form, items, hold, hnew⟩ := atAll?_map_linked hholder name
    refine ⟨form, items, _, hold, ?_, hnew⟩
    rw [List.length_zipWith, List.length_map, Nat.min_self]

variable (o body)

theorem isSubstituted_ofBody : IsSubstituted o body (ofBody o body) := by
  have hpaths : (ofBody o body).bindings.map (·.path) =
      ((allEligible o body).flatMap (·.paths)).eraseDups := by
    rw [bindings_ofBody]
    exact Registry.paths_resolveAll _
  refine ⟨mem_allEligible_iff o body, bindings_ofBody o body, hpaths, rewritten_ofBody o body, ?_⟩
  obtain ⟨before, behind, hkept, hbody⟩ := exists_body_eq o body
  refine ⟨Binding.nameIn (ofBody o body).bindings, before, behind, ?_, ?_, ?_⟩
  · intro a ha path hpath
    exact Binding.mem_nameIn ((mem_paths_ofBody o body path).mpr ⟨a, ha, hpath⟩)
  · have hlinked : linkTree o body = linked o (Binding.nameIn (ofBody o body).bindings) :=
      funext (substitute_eq_linked o _)
    rw [hkept, hlinked]
    exact isImage_map_linked _
  · rw [hbody, imports]
    cases (ofBody o body).inserted <;> rfl

end LinkedProgram

end MediaLink
