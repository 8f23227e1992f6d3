import MediaLink.Proofs.Placement

namespace MediaLink

structure Tag where
  name : String
  isComponent : Bool
  isLower : name.toList.any Char.isUpper = false

structure Written where
  name : String
  value : String

/-- The attributes of an element in a program: each with the expression that has come in place of
its value, if one has, and the suffixes behind them. -/
structure Attributes (κ : Type) where
  items : List (Written × Option (Tree κ))
  suffixes : List (List Char)

def Written.target? (e : Element) (w : Written) : Option Target :=
  (e.role? w.name).bind fun role => Target.ofValue? role w.value

namespace Attributes

variable {κ : Type}

def authored (ws : List Written) : Attributes κ := ⟨ws.map fun w => (w, none), []⟩

def linked (e : Element) (name : List Char → List Char) (ws : List Written) : Attributes κ :=
  ⟨ws.map fun w => (w, (w.target? e).map (·.tree name)), Linking.suffixes (ws.map (·.target? e))⟩

end Attributes

inductive Markup (α : Type) where
  | element (tag : Tag) (attributes : α) (children : List (Markup α))

namespace Markup

variable {α β κ : Type}

@[induction_eliminator]
theorem induction {motive : Markup α → Prop}
    (element : ∀ tag attributes children, (∀ m ∈ children, motive m) →
      motive (.element tag attributes children)) (m : Markup α) : motive m :=
  Markup.rec (motive_2 := fun ms => ∀ m ∈ ms, motive m) element (by simp)
    (fun m ms hm hms n hn => (List.mem_cons.mp hn).elim (fun h => h ▸ hm) (hms n)) m

mutual

def fold (f : Tag → α → List β → β) : Markup α → β
  | .element tag attributes children => f tag attributes (foldAll f children)

def foldAll (f : Tag → α → List β → β) : List (Markup α) → List β
  | [] => []
  | m :: ms => fold f m :: foldAll f ms

end

theorem foldAll_eq_map (f : Tag → α → List β → β) (ms : List (Markup α)) :
    foldAll f ms = ms.map (fold f) := by
  induction ms with
  | nil => rfl
  | cons m ms ih => rw [foldAll, ih, List.map_cons]

theorem fold_element (f : Tag → α → List β → β) (tag : Tag) (attributes : α)
    (children : List (Markup α)) :
    fold f (.element tag attributes children) = f tag attributes (children.map (fold f)) := by
  rw [fold, foldAll_eq_map]

def map (f : Tag → α → β) : Markup α → Markup β :=
  fold fun tag attributes children => .element tag (f tag attributes) children

theorem map_element (f : Tag → α → β) (tag : Tag) (attributes : α) (children : List (Markup α)) :
    map f (.element tag attributes children) =
      .element tag (f tag attributes) (children.map (map f)) := fold_element ..

end Markup

/-- How a compiler writes what means nothing to linking. -/
structure Spelling (κ : Type) where
  array : Nat → κ
  element : Tag → Nat → κ
  quotesKey : String → Bool
  raw : String → Option String
  literalRaw : String → Option String

namespace Spelling

open Encoding

variable {κ : Type} (s : Spelling κ)

def string (value : String) : Tree κ := .node (.string value (s.raw value)) []

def key (name : String) : Tree κ := if s.quotesKey name then s.string name else .identifier name

def argument (tag : Tag) : Tree κ :=
  if tag.isComponent then .node (.member tag.name false) [.identifier componentsObject]
  else s.string tag.name

def elementName (tag : Tag) : ElementName :=
  if tag.isComponent then .member (.plain componentsObject) tag.name else .plain tag.name

def property (a : Written × Option (Tree κ)) : Tree κ :=
  .node (.property {}) [s.key a.1.name, a.2.getD (s.string a.1.value)]

def attributeLiteral (a : Written × Option (Tree κ)) : Tree κ :=
  .node (.attribute (.plain a.1.name))
    [a.2.elim (.node (.string a.1.value (s.literalRaw a.1.value)) []) fun e => .node .container [e]]

def childrenProperty (children : List (Tree κ)) : Tree κ :=
  .node (.property {}) [.identifier "children", .node (.other (s.array children.length)) children]

/-- The properties that a call is given; the children are the last that were authored. -/
def properties (as : Attributes κ) (children : List (Tree κ)) : List (Tree κ) :=
  as.items.map s.property ++ s.childrenProperty children :: as.suffixes.map suffixProperty

def attributeLiterals (as : Attributes κ) : List (Tree κ) :=
  as.items.map s.attributeLiteral ++ as.suffixes.map suffixLiteral

def call : Markup (Attributes κ) → Tree κ :=
  Markup.fold fun tag as children =>
    .node (.call false)
      [.identifier "_jsx", s.argument tag, .node .object (s.properties as children)]

def literal : Markup (Attributes κ) → Tree κ :=
  Markup.fold fun tag as children =>
    .node (.other (s.element tag children.length))
      (.node (.opening (elementName tag) children.isEmpty) (s.attributeLiterals as) :: children)

end Spelling

namespace Markup

variable {κ : Type}

def unlinked : Markup (List Written) → Markup (Attributes κ) :=
  map fun _ ws => .authored ws

def element? (o : Options) (tag : Tag) : Option Element :=
  if o.excludes (if tag.isComponent then .markdown else .html) then none
  else Element.named? tag.name

def linkedAttributes (o : Options) (name : List Char → List Char) (tag : Tag) (ws : List Written) :
    Attributes κ :=
  (element? o tag).elim (.authored ws) fun e => .linked e name ws

def linked (o : Options) (name : List Char → List Char) :
    Markup (List Written) → Markup (Attributes κ) :=
  map (linkedAttributes o name)

end Markup

namespace Element

theorem toLower_of_isUpper {c : Char} (h : c.isUpper = false) : c.toLower = c :=
  dif_neg (of_decide_eq_false h)

theorem foldCase_of_isLower {s : String} (h : s.toList.any Char.isUpper = false) :
    foldCase s = s.toList := by
  have hc : ∀ c ∈ s.toList, c.toLower = c := by
    intro c hc
    exact toLower_of_isUpper (Bool.not_eq_true _ ▸ List.any_eq_false.mp h c hc)
  exact (List.map_congr_left hc).trans (List.map_id' _)

theorem foldCase_name (e : Element) : foldCase e.name = e.name.toList := by
  cases e <;> rfl

theorem namedIgnoringCase?_of_isLower {s : String} (h : s.toList.any Char.isUpper = false) :
    namedIgnoringCase? s = named? s := by
  rw [namedIgnoringCase?, named?]
  congr 1
  funext e
  rw [foldCase_name, foldCase_of_isLower h, Bool.eq_iff_iff, beq_iff_eq, beq_iff_eq,
    String.toList_inj]

end Element

namespace Spelling

open Encoding

variable {κ : Type} (s : Spelling κ) (o : Options)

theorem argumentElement?_argument (tag : Tag) :
    argumentElement? o (s.argument tag) = Markup.element? o tag := by
  rw [argument, Markup.element?]
  cases tag.isComponent with
  | true => simp [argumentElement?, Tree.identifier]
  | false => simp [argumentElement?, string]

theorem literalElement?_elementName (tag : Tag) :
    literalElement? o (elementName tag) = Markup.element? o tag := by
  have h := Element.namedIgnoringCase?_of_isLower tag.isLower
  rw [elementName, Markup.element?]
  cases tag.isComponent with
  | true => simp [literalElement?, h]
  | false => simp [literalElement?, h]

theorem call_element (tag : Tag) (as : Attributes κ) (children : List (Markup (Attributes κ))) :
    s.call (.element tag as children) =
      .node (.call false) [.identifier "_jsx", s.argument tag,
        .node .object (s.properties as (children.map s.call))] := Markup.fold_element ..

theorem literal_element (tag : Tag) (as : Attributes κ) (children : List (Markup (Attributes κ))) :
    s.literal (.element tag as children) =
      .node (.other (s.element tag children.length))
        (.node (.opening (elementName tag) children.isEmpty) (s.attributeLiterals as) ::
          children.map s.literal) := by
  rw [literal, Markup.fold_element, List.isEmpty_map, List.length_map]

theorem call_unlinked (tag : Tag) (ws : List Written) (ms : List (Markup (List Written))) :
    s.call (.unlinked (.element tag ws ms)) =
      .node (.call false) [.identifier "_jsx", s.argument tag,
        .node .object (s.properties (.authored ws) (ms.map fun m => s.call m.unlinked))] := by
  rw [Markup.unlinked, Markup.map_element, call_element, List.map_map]
  rfl

theorem literal_unlinked (tag : Tag) (ws : List Written) (ms : List (Markup (List Written))) :
    s.literal (.unlinked (.element tag ws ms)) =
      .node (.other (s.element tag ms.length))
        (.node (.opening (elementName tag) ms.isEmpty) (s.attributeLiterals (.authored ws)) ::
          ms.map fun m => s.literal m.unlinked) := by
  rw [Markup.unlinked, Markup.map_element, literal_element, List.map_map, List.isEmpty_map,
    List.length_map]
  rfl

theorem properties_authored (ws : List Written) (children : List (Tree κ)) :
    s.properties (.authored ws) children =
      ws.map (fun w => s.property (w, none)) ++ [s.childrenProperty children] := by
  rw [properties, Attributes.authored, List.map_map]
  rfl

theorem attributeLiterals_authored (ws : List Written) :
    s.attributeLiterals (.authored ws) = ws.map fun w => s.attributeLiteral (w, none) := by
  rw [attributeLiterals, Attributes.authored, List.map_map, List.map_nil, List.append_nil]
  rfl

theorem match?_call (tag : Tag) (items : List (Tree κ)) :
    Encoding.call.match? o (.call false) [.identifier "_jsx", s.argument tag, .node .object items] =
      (Markup.element? o tag).map (·, items) := by
  have h : mayConstruct (.identifier "_jsx" : Tree κ) := by
    simp [mayConstruct, constructors, Tree.identifier]
  rw [← s.argumentElement?_argument o tag, match?, if_pos h]

theorem match?_literal (tag : Tag) (selfClosing : Bool) (items : List (Tree κ)) :
    Encoding.literal.match? o (.opening (elementName tag) selfClosing) items =
      (Markup.element? o tag).map (·, items) := by
  rw [← literalElement?_elementName o tag]
  rfl

theorem keyName?_key (name : String) : keyName? (s.key name) = some name := by
  rw [key]
  split <;> rfl

theorem text?_property (w : Written) : text? (s.property (w, none)) = some (w.name, w.value) := by
  simp [property, text?, keyName?_key, string, string?]

theorem text?_attributeLiteral (w : Written) :
    text? (s.attributeLiteral (w, none)) = some (w.name, w.value) := rfl

theorem text?_childrenProperty (children : List (Tree κ)) :
    text? (s.childrenProperty children) = none := rfl

theorem eligible_string (c : Encoding) (value : String) : Tree.eligible c o (s.string value) = [] :=
  Tree.eligible_of_encodes c o rfl []

theorem eligible_identifier (c : Encoding) (name : String) :
    Tree.eligible c o (Tree.identifier name : Tree κ) = [] :=
  Tree.eligible_of_encodes c o rfl []

theorem eligible_key (c : Encoding) (name : String) : Tree.eligible c o (s.key name) = [] := by
  rw [key]
  split
  · exact s.eligible_string o c name
  · exact eligible_identifier o c name

theorem eligible_argument (c : Encoding) (tag : Tag) : Tree.eligible c o (s.argument tag) = [] := by
  rw [argument]
  split
  · rw [Tree.eligible_of_encodes c o rfl, List.flatMap_cons, eligible_identifier]
    rfl
  · exact s.eligible_string o c tag.name

theorem eligible_property (c : Encoding) (w : Written) :
    Tree.eligible c o (s.property (w, none)) = [] := by
  simp [property, Tree.eligible_property, eligible_key, eligible_string]

theorem eligible_attributeLiteral (c : Encoding) (w : Written) :
    Tree.eligible c o (s.attributeLiteral (w, none)) = [] := by
  simp [attributeLiteral, Tree.eligible_attribute, Tree.eligible_string]

theorem eligible_childrenProperty (c : Encoding) (children : List (Tree κ)) :
    Tree.eligible c o (s.childrenProperty children) = children.flatMap (Tree.eligible c o) := by
  have harray : encodes (.other (s.array children.length)) = false := rfl
  simp [childrenProperty, Tree.eligible_property, eligible_identifier,
    Tree.eligible_of_encodes c o harray]

theorem eligible_properties (c : Encoding) (ws : List Written) (children : List (Tree κ)) :
    (s.properties (.authored ws) children).flatMap (Tree.eligible c o) =
      children.flatMap (Tree.eligible c o) := by
  have hitems : (ws.map fun w => s.property (w, none)).flatMap (Tree.eligible c o) = [] := by
    rw [List.flatMap_map, List.flatMap_eq_nil_iff]
    exact fun w _ => s.eligible_property o c w
  rw [properties_authored, List.flatMap_append, hitems, List.nil_append, List.flatMap_singleton,
    eligible_childrenProperty]

theorem eligible_attributeLiterals (c : Encoding) (ws : List Written) :
    (s.attributeLiterals (.authored ws)).flatMap (Tree.eligible c o) = [] := by
  rw [attributeLiterals_authored, List.flatMap_map, List.flatMap_eq_nil_iff]
  exact fun w _ => s.eligible_attributeLiteral o c w

/-- Both encodings of an element hold the same attributes to replace. -/
theorem filterMap_authored? (e : Element) (ws : List Written) (children : List (Tree κ)) :
    (s.properties (.authored ws) children).filterMap (authored? e) =
      (s.attributeLiterals (.authored ws)).filterMap (authored? e) := by
  have hchildren : authored? e (s.childrenProperty children) = none :=
    authored?_of_text?_eq_none e (s.text?_childrenProperty children)
  have hitems (w : Written) :
      authored? e (s.property (w, none)) = authored? e (s.attributeLiteral (w, none)) :=
    authored?_congr e ((s.text?_property w).trans (s.text?_attributeLiteral w).symm)
  simp only [properties_authored, attributeLiterals_authored, List.filterMap_append,
    List.filterMap_map, List.filterMap_cons_none hchildren, List.filterMap_nil, List.append_nil,
    Function.comp_def, hitems]

theorem eligible_call (c : Encoding) (tag : Tag) (ws : List Written)
    (ms : List (Markup (List Written))) :
    Tree.eligible c o (s.call (.unlinked (.element tag ws ms))) =
      c.authored o (.call false) [.identifier "_jsx", s.argument tag,
        .node .object (s.properties (.authored ws) (ms.map fun m => s.call m.unlinked))] ++
      ms.flatMap fun m => Tree.eligible c o (s.call m.unlinked) := by
  rw [call_unlinked, Tree.eligible_node]
  simp only [List.flatMap_cons, List.flatMap_nil, eligible_identifier, eligible_argument,
    Tree.eligible_object, eligible_properties, List.flatMap_map, List.nil_append, List.append_nil]

theorem eligible_literal (c : Encoding) (tag : Tag) (ws : List Written)
    (ms : List (Markup (List Written))) :
    Tree.eligible c o (s.literal (.unlinked (.element tag ws ms))) =
      c.authored o (.opening (elementName tag) ms.isEmpty) (s.attributeLiterals (.authored ws)) ++
      ms.flatMap fun m => Tree.eligible c o (s.literal m.unlinked) := by
  rw [literal_unlinked, Tree.eligible_of_encodes c o rfl, List.flatMap_cons, Tree.eligible_node,
    eligible_attributeLiterals, List.append_nil, List.flatMap_map]

/-- A document as calls holds no element literals to link. -/
theorem eligible_literal_call (m : Markup (List Written)) :
    Tree.eligible .literal o (s.call m.unlinked) = [] := by
  induction m with
  | element tag ws ms ih =>
    rw [eligible_call, List.flatMap_eq_nil_iff.mpr ih]
    rfl

theorem eligible_call_literal (m : Markup (List Written)) :
    Tree.eligible .call o (s.literal m.unlinked) = [] := by
  induction m with
  | element tag ws ms ih =>
    rw [eligible_literal, List.flatMap_eq_nil_iff.mpr ih]
    rfl

/-- The children follow the attributes of their element in both encodings, be they inside the object
of the call or beside the opening element. -/
theorem eligible_call_eq (m : Markup (List Written)) :
    Tree.eligible .call o (s.call m.unlinked) =
      Tree.eligible .literal o (s.literal m.unlinked) := by
  induction m with
  | element tag ws ms ih =>
    rw [eligible_call, eligible_literal, List.flatMap_congr ih, authored, authored,
      match?_call, match?_literal]
    cases Markup.element? o tag with
    | none => rfl
    | some e => simp only [Option.map_some, filterMap_authored?]

end Spelling

end MediaLink
