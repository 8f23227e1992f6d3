import MediaLink.Script.Parser.Statement

namespace MediaLink.Script.Parser

def nested : Nat → Nested
  | 0 => ⟨unexpected, unexpected, unexpected, fun _ => unexpected⟩
  | depth + 1 =>
    { unary := fun s => Expression.unary (nested depth) s
      assignment := fun s => Expression.assignment (nested depth) s
      statement := fun s => Statement.read (nested depth) s
      element := fun isChild s => inside (Element.read (nested depth) isChild) s }

def statements (n : Nested) : Nat → Reader (List Node)
  | 0 => unexpected
  | fuel + 1 => do
    if (← token) = .end then return (← get).current.gap.leading.map commentNode
    let s ← commented n.statement
    return s :: (← statements n fuel)

def program (n : Nested) : Reader (List Node) := do
  return Expression.markDirectives (← statements n (← budget))

def repeatedDefaults (s : State) : List SyntaxError :=
  if s.dialect.types ∨ s.defaults.length ≤ 1 then [] else [.repeatedDefault s.defaults]

/-- Mistakes inside tokens come first. Where such a mistake has used up the source, what ended the
reading is not a mistake of its own. -/
def Failure.mistakes (f : Failure) : List SyntaxError :=
  let own := if !f.state.tokenErrors.isEmpty && f.state.current.token = .end then [] else [f.error]
  f.state.tokenErrors ++ f.state.errors ++ own ++ repeatedDefaults f.state

def start (d : Dialect) (source : String) : State :=
  let (l, c, e) := Lexeme.next ⟨source.toList, 0⟩
  { dialect := d, current := l, after := c, tokenErrors := e.toList }

def read (d : Dialect) (source : String) : Option (List Node) × List SyntaxError :=
  let s := start d source
  match (program (nested (4 * (source.length + 2)))).run s with
  | .ok (body, s) => (some body, s.tokenErrors ++ s.errors ++ repeatedDefaults s)
  | .error f => (none, f.mistakes)

end MediaLink.Script.Parser
