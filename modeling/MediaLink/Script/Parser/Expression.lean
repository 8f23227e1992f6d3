import MediaLink.Script.Parser.Element

namespace MediaLink.Script.Parser

def Operator.strength? : Token → Option (Nat × String)
  | .mark "??" => some (1, "??")
  | .mark "||" => some (2, "||")
  | .mark "&&" => some (3, "&&")
  | .mark "|" => some (4, "|")
  | .mark "^" => some (5, "^")
  | .mark "&" => some (6, "&")
  | .mark "==" => some (7, "==")
  | .mark "!=" => some (7, "!=")
  | .mark "===" => some (7, "===")
  | .mark "!==" => some (7, "!==")
  | .mark "<" => some (8, "<")
  | .mark ">" => some (8, ">")
  | .mark "<=" => some (8, "<=")
  | .word "in" => some (8, "in")
  | .word "instanceof" => some (8, "instanceof")
  | .mark "+" => some (10, "+")
  | .mark "-" => some (10, "-")
  | .mark "*" => some (11, "*")
  | .mark "/" => some (11, "/")
  | .mark "%" => some (11, "%")
  | _ => none

def bindingName : Reader (String × Span) := do
  let place ← span
  match ← token with
  | .word name =>
    if name ∈ Token.reserved then unexpected
    advance
    return (name, place)
  | _ => unexpected

namespace Expression

def key (n : Nested) : Reader (Node × Bool × Option String) := do
  match ← token with
  | .word name =>
    advance
    return (.identifier name, false, if name ∈ Token.reserved then none else some name)
  | .string value raw =>
    advance
    return (.node (.string value (some raw)) [], false, none)
  | .number _ value =>
    advance
    return (node (.number value) [], false, none)
  | .mark "[" =>
    advance
    let e ← inside n.assignment
    expect "]"
    return (e, true, none)
  | _ => unexpected

def member (n : Nested) : Reader Node := do
  if ← eat "..." then return node .spread [← n.assignment]
  let (k, computed, name) ← key n
  match name with
  | some name =>
    if ← eat ":" then return .node (.property {}) [k, ← n.assignment]
    return .node (.property { shorthand := true }) [k, .identifier name]
  | none =>
    expect ":"
    return .node (.property { computed }) [k, ← n.assignment]

def element (n : Nested) : Reader Node := do
  if ← isAt "," then return node .hole []
  if ← eat "..." then return node .spread [← n.assignment]
  n.assignment

def argument (n : Nested) : Reader Node := do
  if ← eat "..." then return node .spread [← n.assignment]
  n.assignment

def withDefault (n : Nested) (target : Node) : Reader Node := do
  if ← eat "=" then return node .withDefault [target, ← n.assignment]
  return target

mutual

def target (n : Nested) : Nat → Reader Node
  | 0 => unexpected
  | fuel + 1 => do
    if ← isAt "\x7b" then
      return node .objectPattern (← between "\x7b" "\x7d" (targetMember n fuel))
    if ← isAt "[" then return node .arrayPattern (← between "[" "]" (targetItem n fuel))
    let (name, _) ← bindingName
    return .identifier name

def targetItem (n : Nested) : Nat → Reader Node
  | 0 => unexpected
  | fuel + 1 => do
    if ← isAt "," then return node .hole []
    if ← eat "..." then return node .rest [← target n fuel]
    withDefault n (← target n fuel)

def targetMember (n : Nested) : Nat → Reader Node
  | 0 => unexpected
  | fuel + 1 => do
    if ← eat "..." then return node .rest [← target n fuel]
    let (k, computed, name) ← key n
    match name with
    | some name =>
      if ← eat ":" then
        return node (.targetProperty false) [k, ← withDefault n (← target n fuel)]
      return node (.targetProperty false) [k, ← withDefault n (.identifier name)]
    | none =>
      expect ":"
      return node (.targetProperty computed) [k, ← withDefault n (← target n fuel)]

end

def parameters (n : Nested) : Reader (List Node) := do
  between "(" ")" (targetItem n (← budget))

def statements (n : Nested) : Nat → Reader (List Node)
  | 0 => unexpected
  | fuel + 1 => do
    if (← isAt "\x7d") || (← token) = .end then return []
    let s ← commented n.statement
    return s :: (← statements n fuel)

/-- What is written between the quotes of a statement that is only a string, without parentheses. -/
def directive? : Node → Option String
  | .node (.other .expression) parts =>
    match parts.dropWhile isComment with
    | [.node (.string _ (some raw)) _] => some (String.ofList (raw.toList.drop 1).dropLast)
    | _ => none
  | _ => none

def markDirectives : List Node → List Node
  | [] => []
  | s :: rest =>
    match directive? s with
    | some raw => node (.directive raw) (s.parts.dropWhile isComment) :: markDirectives rest
    | none => s :: rest

def braced (n : Nested) : Reader (List Node) := do
  expect "\x7b"
  let ss ← inside (statements n (← budget))
  expect "\x7d"
  return ss

def body (n : Nested) : Reader Node := do
  if ¬ (← isAt "\x7b") then unexpected
  return node .body (markDirectives (← braced n))

def nameOf? : Reader (Option String) := do
  match ← token with
  | .word name => if name ∈ Token.reserved then return none else return some (← bindingName).1
  | _ => return none

def functionRest (n : Nested) (needsName : Bool) : Reader (Bool × Option String × List Node) := do
  let isGenerator ← eat "*"
  let name ← nameOf?
  if needsName ∧ name = none then
    match ← token with
    | .mark "(" => note (.unnamedFunction (← span))
    | .word _ => missing "Identifier"
    | _ => pure ()
  let parts ← within isGenerator (do return (← parameters n) ++ [← body n])
  return (isGenerator, name, parts)

def classRest (n : Nested) : Reader Node := do
  let name ← nameOf?
  let parent ← if ← eatWord "extends" then pure [← inside n.unary] else pure []
  expect "\x7b"
  expect "\x7d"
  return node (.class name) parent

def cooked (skip : Nat) : List Char → List Char
  | [] => []
  | c :: rest =>
    match skip with
    | skip + 1 => cooked skip rest
    | 0 => if c = '\\' then (escape rest).1 ++ cooked (escape rest).2 rest else c :: cooked 0 rest

def quasi (s : List Char) : Quasi :=
  ⟨String.ofList (lineEndsAsOne s), some (String.ofList (cooked 0 (lineEndsAsOne s)))⟩

/-- The expression of a hole, and the run behind it. If the expression fails at the brace, the next
run begins in the last place of the source. -/
def hole (n : Nested) : Reader Node := fun s =>
  match (do let e ← sequence n; resumeTemplate; return e : Reader Node).run s with
  | .ok r => .ok r
  | .error f =>
    if f.state.current.token = .mark "\x7d" then .error { f with state := f.state.cutTemplate }
    else .error f

def templateRest (n : Nested) : Nat → Reader (List Quasi × List Node)
  | 0 => unexpected
  | fuel + 1 => do
    match ← token with
    | .run raw false isLast =>
      advance
      if isLast then return ([quasi raw.toList], [])
      let e ← hole n
      let (qs, es) ← templateRest n fuel
      return (quasi raw.toList :: qs, e :: es)
    | _ => missing "\x7d"

def template (n : Nested) (raw : String) (isLast : Bool) : Reader Node := do
  advance
  if isLast then return .node (.template [quasi raw.toList]) []
  let e ← hole n
  let (qs, es) ← templateRest n (← budget)
  return .node (.template (quasi raw.toList :: qs)) (e :: es)

def parenthesized (n : Nested) : Reader Node := do
  let place ← span
  expect "("
  let (es, comma) ← inside (enclosed ")" n.assignment)
  if let some comma := comma then fail (.expected ")" "," comma)
  expect ")"
  match es with
  | [] => fail (.emptyParentheses ⟨place.start, (← get).previousEnd⟩)
  | [e] => return node .paren [e]
  | es => return node .paren [node .sequence es]

def primary (n : Nested) : Reader Node := do
  match ← token with
  | .word "this" => advance; return node .this []
  | .word "null" => advance; return node .null []
  | .word "true" => advance; return node (.boolean true) []
  | .word "false" => advance; return node (.boolean false) []
  | .word "function" =>
    advance
    let (isGenerator, name, parts) ← functionRest n false
    return node (.function name false isGenerator) parts
  | .word "class" => advance; classRest n
  | .word name =>
    if name ∈ Token.reserved then unexpected
    let following ← peek
    if name = "async" ∧ following.token = .word "function" ∧ !following.gap.hasLineEnd then
      advance
      advance
      let (isGenerator, name, parts) ← functionRest n false
      return node (.function name true isGenerator) parts
    advance
    return .identifier name
  | .string value raw => advance; return .node (.string value (some raw)) []
  | .number _ value => advance; return node (.number value) []
  | .run raw true isLast => template n raw isLast
  | .mark "(" => parenthesized n
  | .mark "[" => return node .array (← between "[" "]" (element n))
  | .mark "\x7b" => return .node .object (← between "\x7b" "\x7d" (member n))
  | _ => unexpected

def memberName : Reader String := do
  match ← token with
  | .word name => advance; return name
  | _ => unexpected

def suffixes (n : Nested) (e : Node) (isOptional : Bool) : Nat → Reader (Node × Bool)
  | 0 => unexpected
  | fuel + 1 => do
    if ← eat "." then suffixes n (.node (.member (← memberName) false) [e]) isOptional fuel
    else if ← eat "[" then
      let i ← inside (sequence n)
      expect "]"
      suffixes n (node (.index false) [e, i]) isOptional fuel
    else if ← isAt "(" then
      let args ← between "(" ")" (argument n)
      suffixes n (.node (.call false) (e :: args)) isOptional fuel
    else if ← eat "?." then
      if ← isAt "(" then
        let args ← between "(" ")" (argument n)
        suffixes n (.node (.call true) (e :: args)) true fuel
      else if ← eat "[" then
        let i ← inside (sequence n)
        expect "]"
        suffixes n (node (.index true) [e, i]) true fuel
      else suffixes n (.node (.member (← memberName) true) [e]) true fuel
    else match ← token with
      | .run raw true isLast =>
        suffixes n (node .tagged [e, ← template n raw isLast]) isOptional fuel
      | _ => return (e, isOptional)

def leftHandSide (n : Nested) : Reader Node := do
  let (e, isOptional) ← suffixes n (← primary n) false (← budget)
  return if isOptional then node .chain [e] else e

def unaryOperators : List Token :=
  [.mark "!", .mark "~", .mark "+", .mark "-", .word "void", .word "typeof", .word "delete"]

def typeName : Nat → Reader String
  | 0 => unexpected
  | fuel + 1 => do
    if ← eatWord "this" then return "this"
    let (name, _) ← bindingName
    if ← eat "." then return name ++ "." ++ (← typeName fuel)
    return name

/-- Whether an element literal begins here. Nothing can be called on it or taken from it. -/
def isAtElement : Reader Bool := do
  if ¬ (← isAt "<") ∨ !(← get).dialect.elements then return false
  match (← peek).token with
  | .word _ | .mark ">" => return true
  | _ => return false

def unary (n : Nested) : Reader Node := do
  let t ← token
  let d := (← get).dialect
  if t ∈ unaryOperators then
    advance
    return node (.unary t.description) [← n.unary]
  else if t = .word "await" then
    advance
    return node .await [← n.unary]
  else if ← isAtElement then n.element false
  else if t = .mark "<" ∧ d.types ∧ !d.elements then
    advance
    let type ← inside (typeName (← budget))
    expect ">"
    return node (.assertion type) [← n.unary]
  else leftHandSide n

def operations (n : Nested) : Nat → Reader (List ((Nat × String) × Node))
  | 0 => unexpected
  | fuel + 1 => do
    match Operator.strength? (← token) with
    | some op =>
      advance
      let e ← unary n
      return (op, e) :: (← operations n fuel)
    | none => return []

/-- Joins an operand with the operations behind it that bind more tightly than `least`, and leaves
the others. Operations of one strength join from the left. -/
def join (least : Nat) (e : Node) :
    Nat → List ((Nat × String) × Node) → Node × List ((Nat × String) × Node)
  | 0, ops => (e, ops)
  | _, [] => (e, [])
  | fuel + 1, ((strength, op), right) :: ops =>
    if strength ≤ least then (e, ((strength, op), right) :: ops)
    else
      let (right, ops) := join strength right fuel ops
      join least (node (.binary op) [e, right]) fuel ops

def binary (n : Nested) : Reader Node := do
  let first ← unary n
  let ops ← operations n (← budget)
  return (join 0 first (2 * ops.length) ops).1

def conditional (n : Nested) : Reader Node := do
  let test ← binary n
  if ← eat "?" then
    let yes ← inside n.assignment
    expect ":"
    return node .conditional [test, yes, ← n.assignment]
  return test

def assignmentOperators : List String :=
  ["=", "+=", "-=", "*=", "/=", "%=", "**=", "&&=", "||=", "??="]

/-- Whether a parenthesis can only begin the parameters of an arrow function, as do an empty pair
with an arrow, a colon or a brace behind it, and the name of the rest of the arguments. -/
def isSurelyArrow (s : State) : Bool :=
  let (second, c, _) := Lexeme.next s.after
  let (third, _) := Lexeme.next c
  match second.token, third.token with
  | .mark "...", .word name => name ∉ Token.reserved
  | .mark ")", .mark m => m = "=>" || m = ":" || m = "\x7b"
  | _, _ => false

/-- The parameters of an arrow function, if the current token begins one; the arrow is then the next
token. -/
def arrowHead? (n : Nested) : Reader (Option (List Node)) := fun s =>
  match s.current.token with
  | .mark "(" =>
    match (parameters n).run s with
    | .ok (ps, s') =>
      if s'.current.token = .mark "=>" ∧ !s'.current.gap.hasLineEnd then .ok (some ps, s')
      else .ok (none, s)
    | .error _ => .ok (none, s)
  | .word name =>
    let (following, _) := Lexeme.next s.after
    if name ∉ Token.reserved ∧ following.token = .mark "=>" ∧ !following.gap.hasLineEnd then
      (do advance; return some [.identifier name] : Reader (Option (List Node))).run s
    else .ok (none, s)
  | _ => .ok (none, s)

def asyncArrowHead? (n : Nested) : Reader (Option (List Node)) := fun s =>
  let (following, _) := Lexeme.next s.after
  if s.current.token = .word "async" ∧ !following.gap.hasLineEnd then
    match (do advance; arrowHead? n : Reader (Option (List Node))).run s with
    | .ok (none, _) => .ok (none, s)
    | result => result
  else .ok (none, s)

def arrowBody (n : Nested) (isAsync : Bool) (ps : List Node) : Reader Node := do
  expect "=>"
  let body ← within false (do if ← isAt "\x7b" then body n else n.assignment)
  return node (.arrow isAsync) (ps ++ [body])

def yielded (n : Nested) : Reader Node := do
  advance
  let s ← get
  let ends := [Token.mark ")", .mark "]", .mark "\x7d", .mark ",", .mark ";", .mark ":", .end]
  if s.current.gap.hasLineEnd ∨ s.current.token ∈ ends then return node (.yield false) []
  let delegate ← eat "*"
  return node (.yield delegate) [← n.assignment]

def assignment (n : Nested) : Reader Node := do
  if (← isAtWord "yield") && (← get).inGenerator then return ← yielded n
  if (← isAt "(") && isSurelyArrow (← get) then return ← arrowBody n false (← parameters n)
  if let some ps ← arrowHead? n then return ← arrowBody n false ps
  if let some ps ← asyncArrowHead? n then return ← arrowBody n true ps
  let e ← conditional n
  match ← token with
  | .mark op =>
    if op ∈ assignmentOperators then
      advance
      return node (.assign op) [e, ← n.assignment]
    return e
  | _ => return e

end Expression

end MediaLink.Script.Parser
