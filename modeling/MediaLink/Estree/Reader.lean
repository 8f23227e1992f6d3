import MediaLink.Estree.Basic

namespace MediaLink.Estree

inductive Slot where
  | kept (v : Value)
  | child (t : Node)
  | children (items : List (Except Value Node))

abbrev Slots := List (String × Slot)

namespace Slots

def value? (s : Slots) (name : String) : Option Value :=
  match s.lookup name with
  | some (.kept v) => some v
  | _ => none

def bool? (s : Slots) (name : String) : Option Bool :=
  match s.value? name with
  | some (.bool b) => some b
  | _ => none

def string? (s : Slots) (name : String) : Option String :=
  match s.value? name with
  | some (.string t) => some t
  | _ => none

def child? (s : Slots) (name : String) : Option Node :=
  match s.lookup name with
  | some (.child t) => some t
  | _ => none

def children? (s : Slots) (name : String) : Option (List Node) :=
  match s.lookup name with
  | some (.children items) => items.mapM Except.toOption
  | _ => none

end Slots

def typeOf? (fields : List (String × Value)) : Option String :=
  match fields.lookup "type" with
  | some (.string s) => some s
  | _ => none

def nameOf? (type : String) : Value → Option String
  | .object fields =>
    match typeOf? fields, fields.lookup "name" with
    | some t, some (.string name) => if t = type ∧ fields.length = 2 then some name else none
    | _, _ => none
  | _ => none

def quasi? (isLast : Bool) : Value → Option Quasi
  | .object fields => do
    guard (fields.length = 3 ∧ typeOf? fields = some "TemplateElement")
    let .bool tail ← fields.lookup "tail" | none
    guard (tail = isLast)
    let .object value ← fields.lookup "value" | none
    guard (value.length = 2)
    let .string raw ← value.lookup "raw" | none
    match ← value.lookup "cooked" with
    | .string cooked => some ⟨raw, some cooked⟩
    | .null => some ⟨raw, none⟩
    | _ => none
  | _ => none

def quasis? : List Value → Option (List Quasi)
  | [] => some []
  | v :: vs => do return (← quasi? vs.isEmpty v) :: (← quasis? vs)

def namespaced? (fields : List (String × Value)) : Option (String × String) := do
  guard (fields.length = 3 ∧ typeOf? fields = some "JSXNamespacedName")
  return (← nameOf? "JSXIdentifier" (← fields.lookup "namespace"),
    ← nameOf? "JSXIdentifier" (← fields.lookup "name"))

def attributeName? (v : Value) : Option AttributeName :=
  match nameOf? "JSXIdentifier" v, v with
  | some name, _ => some (.plain name)
  | none, .object fields => (namespaced? fields).map fun (space, name) => .namespaced space name
  | none, _ => none

mutual

def elementName? : Value → Option ElementName
  | .object fields =>
    if typeOf? fields = some "JSXMemberExpression" then do
      guard (fields.length = 3)
      return .member (← elementNameAt? "object" fields)
        (← nameOf? "JSXIdentifier" (← fields.lookup "property"))
    else
      match attributeName? (.object fields) with
      | some (.plain name) => some (.plain name)
      | some (.namespaced space name) => some (.namespaced space name)
      | none => none
  | _ => none

def elementNameAt? (key : String) : List (String × Value) → Option ElementName
  | [] => none
  | (k, v) :: rest => if k = key then elementName? v else elementNameAt? key rest

end

def propertyKind? : String → Option PropertyKind
  | "init" => some .init
  | "get" => some .get
  | "set" => some .set
  | _ => none

/-- The node as a form that linking knows, if it has just the fields of one. -/
def known? (type : String) (s : Slots) : Option Node :=
  match type with
  | "Identifier" => do
    guard (s.length = 1)
    return .node (.identifier (← s.string? "name")) []
  | "Literal" => do
    guard (s.length = 2)
    match ← s.value? "raw" with
    | .string raw => return .node (.string (← s.string? "value") (some raw)) []
    | .null => return .node (.string (← s.string? "value") none) []
    | _ => none
  | "MemberExpression" => do
    guard (s.length = 4 ∧ s.bool? "computed" = some false)
    let .node (.identifier property) _ ← s.child? "property" | none
    return .node (.member property (← s.bool? "optional")) [← s.child? "object"]
  | "CallExpression" => do
    guard (s.length = 3)
    return .node (.call (← s.bool? "optional"))
      ((← s.child? "callee") :: (← s.children? "arguments"))
  | "ObjectExpression" => do
    guard (s.length = 1)
    return .node .object (← s.children? "properties")
  | "Property" => do
    guard (s.length = 6)
    let kind ← propertyKind? (← s.string? "kind")
    return .node (.property ⟨kind, ← s.bool? "computed", ← s.bool? "method", ← s.bool? "shorthand"⟩)
      [← s.child? "key", ← s.child? "value"]
  | "TemplateLiteral" => do
    guard (s.length = 2)
    let .array quasis ← s.value? "quasis" | none
    return .node (.template (← quasis? quasis)) (← s.children? "expressions")
  | "JSXOpeningElement" => do
    guard (s.length = 3)
    let name ← elementName? (← s.value? "name")
    return .node (.opening name (← s.bool? "selfClosing")) (← s.children? "attributes")
  | "JSXAttribute" => do
    guard (s.length = 2)
    let name ← attributeName? (← s.value? "name")
    match ← s.lookup "value" with
    | .child v => return .node (.attribute name) [v]
    | .kept .null => return .node (.attribute name) []
    | _ => none
  | "JSXExpressionContainer" => do
    guard (s.length = 1)
    return .node .container [← s.child? "expression"]
  | "FunctionDeclaration" => do
    guard (s.length = 6 ∧ s.bool? "expression" = some false)
    let id ← s.value? "id"
    let name ← match id with
      | .null => some none
      | id => (nameOf? "Identifier" id).map some
    return .node (.function name (← s.bool? "async") (← s.bool? "generator"))
      ((← s.children? "params") ++ [← s.child? "body"])
  | _ => none

def Slot.field : Slot → Field
  | .kept v => .kept v
  | .child _ => .child
  | .children items => .children (items.map fun | .error v => some v | .ok _ => none)

def Slot.parts : Slot → List Node
  | .kept _ => []
  | .child t => [t]
  | .children items => items.filterMap Except.toOption

def arrange (names : List String) (s : Slots) : Slots :=
  names.filterMap (fun n => (s.lookup n).map (n, ·)) ++ s.filter (·.1 ∉ names)

def assemble (type : String) (s : Slots) : Node :=
  (known? type s).getD
    (let s := arrange (visited type) s
    .node (.other ⟨type, s.map fun (k, slot) => (k, slot.field)⟩) (s.flatMap (·.2.parts)))

mutual

def read : Value → Slot
  | .object fields =>
    match typeOf? fields with
    | some type => .child (assemble type (readFields (visited type) fields))
    | none => .kept (.object fields)
  | .array items => .children (readItems items)
  | v => .kept v

def readItems : List Value → List (Except Value Node)
  | [] => []
  | v :: vs =>
    (match read v with
      | .child t => .ok t
      | _ => .error v) :: readItems vs

def readFields (names : List String) : List (String × Value) → Slots
  | [] => []
  | (k, v) :: rest =>
    if k = "type" then readFields names rest
    else (k, if k ∈ names then read v else .kept v) :: readFields names rest

end

def Program.ofValue? : Value → Option Program
  | .object fields => do
    let .array items ← fields.lookup "body" | none
    return ⟨← (readItems items).mapM Except.toOption, fields.filter (·.1 ≠ "body")⟩
  | _ => none

end MediaLink.Estree
