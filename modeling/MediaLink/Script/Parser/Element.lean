import MediaLink.Script.Parser.State

namespace MediaLink.Script.Parser

open Text

def sequence (n : Nested) : Reader Node := do
  let first ← n.assignment
  if ← isAt "," then
    let others ← many (eat ",") n.assignment (← budget)
    return node .sequence (first :: others)
  return first

namespace Element

def identifier : Reader (String × Span) := do
  let s ← get
  let .word name := s.current.token | unexpected
  let more := if s.after.rest.head? = some '-' then
    s.after.rest.takeWhile fun c => isIdentifierPart c || c == '-' else []
  let span : Span := ⟨s.current.span.start, s.current.span.stop + Cursor.width more⟩
  set { s with after := s.after.behind more, current := { s.current with span := span } }
  advance
  return (name ++ String.ofList more, span)

def memberName (name : ElementName) : Nat → Reader ElementName
  | 0 => unexpected
  | fuel + 1 => do
    if ← eat "." then
      let (property, place) ← identifier
      if property.contains '-' then fail (.unexpected place)
      memberName (.member name property) fuel
    else return name

def name : Reader (ElementName × Span) := do
  let (first, start) ← identifier
  let name ← if ← eat ":" then
      let (second, _) ← identifier
      pure (ElementName.namespaced first second)
    else memberName (.plain first) (← budget)
  return (name, ⟨start.start, (← get).previousEnd⟩)

def attributeName : Reader AttributeName := do
  let (first, _) ← identifier
  if ← eat ":" then
    let (second, _) ← identifier
    return .namespaced first second
  return .plain first

def expression (n : Nested) : Reader Node := do
  let place ← span
  let e ← within false (sequence n)
  if let .node (.other .sequence) _ := e then
    fail (.sequenceInElement ⟨place.start, (← get).previousEnd⟩)
  return e

def container (n : Nested) (go : Reader Unit) : Reader Node := do
  let e ← if ← isAt "\x7d" then pure (node .emptyContainer []) else expression n
  expectThen "\x7d" go
  return .node .container [e]

def attributeValue (n : Nested) : Reader Node := do
  match ← token with
  | .string value raw =>
    advance
    return .node (.string value (some raw)) []
  | .mark "\x7b" =>
    advance
    container n advance
  | .mark "<" => n.element false
  | _ => unexpected

def item (n : Nested) : Reader Node := do
  if ← eat "\x7b" then
    expect "..."
    let e ← expression n
    expect "\x7d"
    return node .spreadAttribute [e]
  let name ← attributeName
  if ← isAt "=" then
    advanceAttributeValue
    return .node (.attribute name) [← attributeValue n]
  return .node (.attribute name) []

def hasItem : Reader Bool := do
  match ← token with
  | .mark "<" | .mark ">" | .mark "/" => return false
  | _ => return true

/-- Goes on behind a closing bracket: with more text if that ends a child. -/
def close (isChild : Bool) : Reader Unit :=
  expectThen ">" (if isChild then advanceChild else advance)

def child? (n : Nested) : Reader (Option Node) := do
  match ← token with
  | .mark "<" =>
    if (← peek).token = .mark "/" then return none
    return some (← n.element true)
  | .mark "\x7b" =>
    advance
    if ← eat "..." then
      let e ← expression n
      expectThen "\x7d" advanceChild
      return some (node .spreadChild [e])
    return some (← container n advanceChild)
  | .text raw =>
    advanceChild
    return some (node (.elementText raw) [])
  | _ => unexpected

def children (n : Nested) : Nat → Reader (List Node)
  | 0 => unexpected
  | fuel + 1 => do
    match ← child? n with
    | some c => return c :: (← children n fuel)
    | none => return []

def closing (isChild : Bool) : Reader (Option ElementName × Span) := do
  let place ← span
  expect "<"
  expect "/"
  if ← isAt ">" then
    let last ← span
    close isChild
    return (none, ⟨place.start, last.stop⟩)
  let (name, place) ← name
  close isChild
  return (some name, place)

def read (n : Nested) (isChild : Bool) : Reader Node := do
  let place ← span
  advance
  if ← isAt ">" then
    let opening : Span := ⟨place.start, (← span).stop⟩
    advanceChild
    let cs ← children n (← budget)
    let (name, closing) ← closing isChild
    if name.isSome then fail (.unmatchedFragment opening closing)
    return node .fragment cs
  let (opening, openingSpan) ← name
  let attributes ← many hasItem (item n) (← budget)
  if ← eat "/" then
    close isChild
    return node .element [.node (.opening opening true) attributes]
  close true
  let cs ← children n (← budget)
  let (closing, closingSpan) ← closing isChild
  if closing.isNone then fail (.unmatched opening.text openingSpan closingSpan)
  if closing ≠ some opening then note (.unmatched opening.text openingSpan closingSpan)
  return node .element (.node (.opening opening false) attributes :: cs)

end Element

end MediaLink.Script.Parser
