import MediaLink.Tree

namespace MediaLink.Estree

inductive Value where
  | null
  | bool (b : Bool)
  | number (mantissa : Int) (exponent : Nat)
  | string (s : String)
  | array (items : List Value)
  | object (fields : List (String × Value))
deriving Inhabited

/-- How a field of a node relates to the parts of its tree. -/
inductive Field where
  | kept (v : Value)
  | child
  | children (gaps : List (Option Value))

/-- A node of any type; the fields with children stand in the order in which they are visited. -/
structure Construct where
  type : String
  fields : List (String × Field)

abbrev Node := Tree Construct

structure Program where
  body : List Node
  fields : List (String × Value)

def visited : String → List String
  | "BlockStatement" | "StaticBlock" | "ClassBody" | "LabeledStatement" => ["body"]
  | "ExpressionStatement" | "ChainExpression" | "ParenthesizedExpression"
  | "JSXExpressionContainer" | "JSXSpreadChild" => ["expression"]
  | "ReturnStatement" | "ThrowStatement" | "SpreadElement" | "RestElement" | "UnaryExpression"
  | "UpdateExpression" | "AwaitExpression" | "YieldExpression"
  | "JSXSpreadAttribute" => ["argument"]
  | "IfStatement" | "ConditionalExpression" => ["test", "consequent", "alternate"]
  | "ForStatement" => ["init", "test", "update", "body"]
  | "ForInStatement" | "ForOfStatement" => ["left", "right", "body"]
  | "WhileStatement" => ["test", "body"]
  | "DoWhileStatement" => ["body", "test"]
  | "WithStatement" => ["object", "body"]
  | "SwitchStatement" => ["discriminant", "cases"]
  | "SwitchCase" => ["test", "consequent"]
  | "TryStatement" => ["block", "handler", "finalizer"]
  | "CatchClause" => ["param", "body"]
  | "VariableDeclaration" => ["declarations"]
  | "VariableDeclarator" => ["id", "init"]
  | "FunctionDeclaration" | "FunctionExpression" | "ArrowFunctionExpression" => ["params", "body"]
  | "ClassDeclaration" | "ClassExpression" => ["superClass", "body"]
  | "MethodDefinition" | "PropertyDefinition" | "AccessorProperty" | "Property" => ["key", "value"]
  | "ExportDefaultDeclaration" | "ExportNamedDeclaration" => ["declaration"]
  | "ArrayExpression" | "ArrayPattern" => ["elements"]
  | "ObjectExpression" | "ObjectPattern" => ["properties"]
  | "CallExpression" | "NewExpression" => ["callee", "arguments"]
  | "MemberExpression" => ["object", "property"]
  | "SequenceExpression" | "TemplateLiteral" => ["expressions"]
  | "TaggedTemplateExpression" => ["tag", "quasi"]
  | "LogicalExpression" | "BinaryExpression" | "AssignmentExpression" | "AssignmentPattern" =>
    ["left", "right"]
  | "ImportExpression" => ["source", "options"]
  | "JSXElement" => ["openingElement", "children"]
  | "JSXFragment" => ["children"]
  | "JSXOpeningElement" => ["attributes"]
  | "JSXAttribute" => ["value"]
  | _ => []

end MediaLink.Estree
