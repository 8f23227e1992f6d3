import MediaLink.Script.Parser.Expression

namespace MediaLink.Script.Parser

namespace Statement

/-- A constant needs a value. -/
def declarator (n : Nested) (keyword : String) : Reader Node := do
  let place ← span
  let target ← Expression.target n (← budget)
  if ← eat "=" then return node .declarator [target, ← n.assignment]
  let name : Span := ⟨place.start, (← get).previousEnd⟩
  match target with
  | .node (.identifier _) _ => if keyword = "const" then note (.uninitialized name)
  | _ => note (.uninitializedPattern name)
  return node .declarator [target]

def declaration (n : Nested) (keyword : String) : Reader Node := do
  advance
  let first ← declarator n keyword
  let others ← many (eat ",") (declarator n keyword) (← budget)
  separate
  return node (.declaration keyword) (first :: others)

def function (n : Nested) (isAsync needsName : Bool) : Reader Node := do
  advance
  let (isGenerator, name, parts) ← Expression.functionRest n needsName
  return .node (.function name isAsync isGenerator) parts

def isAsyncFunction : Reader Bool := do
  let following ← peek
  return (← isAtWord "async") && following.token = .word "function" && !following.gap.hasLineEnd

def definition? (n : Nested) (needsName : Bool) : Reader (Option Node) := do
  if ← isAtWord "function" then return some (← function n false needsName)
  if ← isAtWord "class" then
    advance
    return some (← Expression.classRest n)
  if ← isAsyncFunction then
    advance
    return some (← function n true needsName)
  return none

def specifier : Reader (String × String) := do
  let imported ← Expression.memberName
  if ← eatWord "as" then return (imported, (← bindingName).1)
  return (imported, imported)

def source : Reader String := do
  match ← token with
  | .string value _ => advance; return value
  | _ => unexpected

def importRest (default : Option String) : Reader Node := do
  if ← eat "*" then
    expectWord "as"
    let (space, _) ← bindingName
    expectWord "from"
    return node (.import default (some space) none (← source)) []
  if ¬ (← isAt "\x7b") then unexpected
  let names ← between "\x7b" "\x7d" specifier
  expectWord "from"
  return node (.import default none (some names) (← source)) []

def importDeclaration : Reader Node := do
  advance
  let statement ← match ← token with
    | .string value _ => do
      advance
      pure (node (.import none none none value) [])
    | .word _ => do
      let (name, _) ← bindingName
      if ← eat "," then importRest (some name)
      else
        expectWord "from"
        let path ← source
        pure (.node (.defaultImport name path) [])
    | _ => importRest none
  separate
  return statement

def exportDeclaration (n : Nested) : Reader Node := do
  advance
  let keyword ← span
  if ← eatWord "default" then
    modify fun s => { s with defaults := s.defaults ++ [keyword] }
    if let some d ← definition? n false then return node .exportedDefault [d]
    let e ← n.assignment
    separate
    return node .exportedDefault [e]
  if let some d ← definition? n true then return node .exported [d]
  match ← token with
  | .word keyword =>
    if keyword ∈ ["const", "let", "var"] then return node .exported [← declaration n keyword]
    unexpected
  | _ => unexpected

def returned (n : Nested) : Reader Node := do
  advance
  let s ← get
  if s.current.token = .mark "\x7d" ∨ s.current.token = .end ∨ s.current.gap.hasLineEnd
      ∨ s.current.token = .mark ";" then
    separate
    return node .return []
  let e ← sequence n
  separate
  return node .return [e]

def conditional (n : Nested) : Reader Node := do
  advance
  expect "("
  let test ← inside (sequence n)
  expect ")"
  let yes ← n.statement
  if ← eatWord "else" then return node .if [test, yes, ← n.statement]
  return node .if [test, yes]

def read (n : Nested) : Reader Node := do
  match ← token with
  | .mark "\x7b" => return node .block (← Expression.braced n)
  | .mark ";" => advance; return node .empty []
  | .word "if" => conditional n
  | .word "return" => returned n
  | .word "const" => declaration n "const"
  | .word "let" => declaration n "let"
  | .word "var" => declaration n "var"
  | .word "import" => importDeclaration
  | .word "export" => exportDeclaration n
  | _ =>
    if let some d ← definition? n true then return d
    let e ← sequence n
    if let .node (.identifier name) _ := e then
      if ← eat ":" then return node (.labeled name) [← n.statement]
    separate
    return node .expression [e]

end Statement

end MediaLink.Script.Parser
