import MediaLink.Script.Construct
import MediaLink.Script.Dialect
import MediaLink.Script.Token

namespace MediaLink.Script.Parser

structure State where
  dialect : Dialect
  current : Lexeme
  after : Cursor
  previousEnd : Nat := 0
  errors : List SyntaxError := []
  tokenErrors : List SyntaxError := []
  defaults : List Span := []
  inGenerator : Bool := false

structure Failure where
  error : SyntaxError
  state : State

abbrev Reader := StateT State (Except Failure)

def fail {α : Type} (e : SyntaxError) : Reader α := fun s => .error ⟨e, s⟩

def note (e : SyntaxError) : Reader Unit := modify fun s => { s with errors := s.errors ++ [e] }

def token : Reader Token := return (← get).current.token

def span : Reader Span := return (← get).current.span

def moveTo (next : Lexeme × Cursor × Option SyntaxError) : Reader Unit :=
  modify fun s => { s with
    current := next.1
    after := next.2.1
    previousEnd := s.current.span.stop
    tokenErrors := s.tokenErrors ++ next.2.2.toList }

def advance : Reader Unit := do moveTo (Lexeme.next (← get).after)

def advanceChild : Reader Unit := do moveTo (Lexeme.nextChild (← get).after)

def advanceAttributeValue : Reader Unit := do moveTo (Lexeme.nextAttributeValue (← get).after)

def peek : Reader Lexeme := return (Lexeme.next (← get).after).1

def isAt (m : String) : Reader Bool := return (← token) = .mark m

def isAtWord (w : String) : Reader Bool := return (← token) = .word w

def eat (m : String) : Reader Bool := do
  if ← isAt m then
    advance
    return true
  return false

def eatWord (w : String) : Reader Bool := do
  if ← isAtWord w then
    advance
    return true
  return false

/-- A mistake inside the current token explains why the token does not fit. -/
def unexpected {α : Type} : Reader α := do
  let s ← get
  match s.current.token, s.tokenErrors.getLast? with
  | .invalid, some e =>
    set { s with tokenErrors := s.tokenErrors.dropLast }
    fail e
  | _, _ => fail (.unexpected s.current.span)

/-- Reading stops for good where a fixed token is missing. -/
def missing {α : Type} (wanted : String) : Reader α := do
  let l := (← get).current
  modify fun s => { s with current := { l with token := .end } }
  fail (.expected wanted l.token.description l.span)

def expectThen (m : String) (go : Reader Unit) : Reader Unit := do
  if ← isAt m then go else missing m

def expect (m : String) : Reader Unit := expectThen m advance

def expectWord (w : String) : Reader Unit := do
  if ← isAtWord w then advance else missing w

def isStuck : Reader Bool := do
  match ← token with
  | .end | .invalid => return true
  | _ => return false

def resumeTemplate : Reader Unit := do
  if ← isAt "\x7d" then
    let s ← get
    let (l, c, e) := Lexeme.run s.after s.current.span.start false
    set { s with current := l, after := c, tokenErrors := s.tokenErrors ++ e.toList }

def State.cutTemplate (s : State) : State :=
  let stop := (s.after.behind s.after.rest).offset
  let span : Span := ⟨stop - 1, stop⟩
  { s with
    current := ⟨.invalid, span, {}⟩
    tokenErrors := s.tokenErrors ++ [.unterminatedString span] }

/-- A mistake that ends the reading before a mark that has to follow uses up the source. -/
def inside {α : Type} (r : Reader α) : Reader α := fun s =>
  match r s with
  | .error f =>
    let current := { f.state.current with token := .end }
    .error { f with state := { f.state with current } }
  | .ok a => .ok a

def within {α : Type} (inGenerator : Bool) (r : Reader α) : Reader α := do
  let outside := (← get).inGenerator
  modify fun s => { s with inGenerator }
  let a ← r
  modify fun s => { s with inGenerator := outside }
  return a

/-- No reading goes on for more steps than there are characters. -/
def budget : Reader Nat := return (← get).after.rest.length + 2

/-- Items with commas between them up to a closing mark, and the comma behind the last of them, if
there is one. -/
def items {α : Type} (close : String) (item : Reader α) : Nat → Reader (List α × Option Span)
  | 0 => unexpected
  | fuel + 1 => do
    let a ← item
    if (← isAt close) || (← isStuck) then return ([a], none)
    let comma ← span
    expect ","
    if ← isAt close then return ([a], some comma)
    let (as, last) ← items close item fuel
    return (a :: as, last)

def enclosed {α : Type} (close : String) (item : Reader α) : Reader (List α × Option Span) := do
  if (← isAt close) || (← isStuck) then return ([], none)
  items close item (← budget)

def between {α : Type} (opening closing : String) (item : Reader α) : Reader (List α) := do
  expect opening
  let (as, _) ← inside (enclosed closing item)
  expect closing
  return as

def many {α : Type} (more : Reader Bool) (item : Reader α) : Nat → Reader (List α)
  | 0 => unexpected
  | fuel + 1 => do
    if ← more then
      let a ← item
      return a :: (← many more item fuel)
    return []

def separate : Reader Unit := do
  if ← eat ";" then return
  let s ← get
  if s.current.token = .mark "\x7d" ∨ s.current.token = .end ∨ s.current.gap.hasLineEnd then return
  fail (.unseparated s.previousEnd)

def commentNode (c : Comment) : Node := node (.comment c.raw c.isBelow c.endsLine) []

/-- The comments in front of what is read become its first parts. -/
def commented (r : Reader Node) : Reader Node := do
  let comments := (← get).current.gap.leading
  let .node f parts ← r
  return .node f (comments.map commentNode ++ parts)

structure Nested where
  unary : Reader Node
  assignment : Reader Node
  statement : Reader Node
  element : Bool → Reader Node

end MediaLink.Script.Parser
