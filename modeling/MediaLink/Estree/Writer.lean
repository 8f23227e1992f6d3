import MediaLink.Estree.Basic

namespace MediaLink.Estree

def node (type : String) (fields : List (String × Value)) : Value :=
  .object (("type", .string type) :: fields)

def orNull (s : Option String) : Value := s.elim .null .string

def identifier (name : String) : Value := node "Identifier" [("name", .string name)]

def literal (value : String) (raw : Option String) : Value :=
  node "Literal" [("value", .string value), ("raw", orNull raw)]

def attributeIdentifier (name : String) : Value := node "JSXIdentifier" [("name", .string name)]

def namespacedName (space name : String) : Value :=
  node "JSXNamespacedName"
    [("namespace", attributeIdentifier space), ("name", attributeIdentifier name)]

def elementName : ElementName → Value
  | .plain name => attributeIdentifier name
  | .member object property =>
    node "JSXMemberExpression"
      [("object", elementName object), ("property", attributeIdentifier property)]
  | .namespaced space name => namespacedName space name

def attributeName : AttributeName → Value
  | .plain name => attributeIdentifier name
  | .namespaced space name => namespacedName space name

def quasis : List Quasi → List Value
  | [] => []
  | q :: qs =>
    node "TemplateElement" [("tail", .bool qs.isEmpty),
      ("value", .object [("raw", .string q.raw), ("cooked", orNull q.cooked)])] :: quasis qs

def propertyKind : PropertyKind → String
  | .init => "init"
  | .get => "get"
  | .set => "set"

def fillGaps : List (Option Value) → List Value → List Value × List Value
  | [], parts => ([], parts)
  | some v :: gaps, parts => (v :: (fillGaps gaps parts).1, (fillGaps gaps parts).2)
  | none :: gaps, part :: parts => (part :: (fillGaps gaps parts).1, (fillGaps gaps parts).2)
  | none :: gaps, [] => fillGaps gaps []

def fill : List (String × Field) → List Value → List (String × Value)
  | [], _ => []
  | (k, .kept v) :: fs, parts => (k, v) :: fill fs parts
  | (k, .child) :: fs, part :: parts => (k, part) :: fill fs parts
  | (k, .child) :: fs, [] => (k, .null) :: fill fs []
  | (k, .children gaps) :: fs, parts =>
    (k, .array (fillGaps gaps parts).1) :: fill fs (fillGaps gaps parts).2

def build (form : Form Construct) (parts : List Value) : Value :=
  match form, parts with
  | .identifier name, _ => identifier name
  | .string value raw, _ => literal value raw
  | .member property isOptional, parts =>
    node "MemberExpression" [("computed", .bool false), ("object", parts.headD .null),
      ("optional", .bool isOptional), ("property", identifier property)]
  | .call isOptional, parts =>
    node "CallExpression" [("arguments", .array parts.tail), ("callee", parts.headD .null),
      ("optional", .bool isOptional)]
  | .object, parts => node "ObjectExpression" [("properties", .array parts)]
  | .property t, parts =>
    node "Property" [("computed", .bool t.computed), ("key", parts.headD .null),
      ("kind", .string (propertyKind t.kind)), ("method", .bool t.method),
      ("shorthand", .bool t.shorthand), ("value", parts.tail.headD .null)]
  | .template qs, parts =>
    node "TemplateLiteral" [("expressions", .array parts), ("quasis", .array (quasis qs))]
  | .opening name selfClosing, parts =>
    node "JSXOpeningElement" [("attributes", .array parts), ("name", elementName name),
      ("selfClosing", .bool selfClosing)]
  | .attribute name, parts =>
    node "JSXAttribute" [("name", attributeName name), ("value", parts.headD .null)]
  | .container, parts => node "JSXExpressionContainer" [("expression", parts.headD .null)]
  | .function name isAsync isGenerator, parts =>
    node "FunctionDeclaration" [("async", .bool isAsync), ("body", parts.getLastD .null),
      ("expression", .bool false), ("generator", .bool isGenerator),
      ("id", name.elim .null identifier), ("params", .array parts.dropLast)]
  | .defaultImport name source, _ =>
    node "ImportDeclaration" [("attributes", .array []), ("phase", .null),
      ("source", literal source none),
      ("specifiers", .array [node "ImportDefaultSpecifier" [("local", identifier name)]])]
  | .other c, parts => node c.type (fill c.fields parts)

mutual

def write : Node → Value
  | .node form parts => build form (writeAll parts)

def writeAll : List Node → List Value
  | [] => []
  | t :: ts => write t :: writeAll ts

end

def Program.value (p : Program) : Value := .object (("body", .array (writeAll p.body)) :: p.fields)

end MediaLink.Estree
