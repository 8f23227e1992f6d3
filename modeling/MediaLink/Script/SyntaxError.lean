import MediaLink.Diagnostic

namespace MediaLink.Script

structure Span where
  start : Nat
  stop : Nat
deriving DecidableEq, Repr

inductive SyntaxError where
  | unexpected (token : Span)
  | expected (wanted found : String) (token : Span)
  | unseparated (offset : Nat)
  | unterminatedString (text : Span)
  | unterminatedComment (text : Span)
  | invalidNumber (text : Span)
  | strayInText (mark : Char) (offset : Nat)
  | uninitialized (name : Span)
  | uninitializedPattern (pattern : Span)
  | unnamedFunction (token : Span)
  | repeatedDefault (keywords : List Span)
  | emptyParentheses (text : Span)
  | sequenceInElement (text : Span)
  | unmatched (name : String) (opening closing : Span)
  | unmatchedFragment (opening closing : Span)
deriving DecidableEq, Repr

namespace SyntaxError

def mark (span : Span) (text : Option String := none) : Report.Mark :=
  ⟨text, span.start, span.stop - span.start⟩

def message : SyntaxError → String
  | unexpected _ => "Unexpected token"
  | expected wanted found _ => "Expected `" ++ wanted ++ "` but found `" ++ found ++ "`"
  | unseparated _ =>
    "Expected a semicolon or an implicit semicolon after a statement, but found none"
  | unterminatedString _ => "Unterminated string"
  | unterminatedComment _ => "Unterminated multiline comment"
  | invalidNumber _ => "Invalid characters after number"
  | strayInText mark _ =>
    let escape := if mark = '>' then "gt" else "rbrace"
    "Unexpected token. Did you mean `\x7b'" ++ String.ofList [mark] ++ "'\x7d` or `&" ++ escape ++
      ";`?"
  | uninitialized _ => "Missing initializer in const declaration"
  | uninitializedPattern _ => "Missing initializer in destructuring declaration"
  | unnamedFunction _ => "Expected function name"
  | repeatedDefault _ => "Duplicated default export"
  | emptyParentheses _ => "Empty parenthesized expression"
  | sequenceInElement _ => "JSX expressions may not use the comma operator"
  | unmatched name _ _ => "Expected corresponding JSX closing tag for '" ++ name ++ "'."
  | unmatchedFragment _ _ => "Expected corresponding closing tag for JSX fragment."

def help : SyntaxError → Option String
  | unseparated _ => some "Try insert a semicolon here"
  | unnamedFunction _ => some "Function name is required in function declaration or named export"
  | sequenceInElement _ => some "Did you mean to write an array?"
  | _ => none

def marks : SyntaxError → List Report.Mark
  | unexpected span | unterminatedString span | unterminatedComment span | invalidNumber span
  | uninitialized span | uninitializedPattern span | unnamedFunction span | emptyParentheses span
  | sequenceInElement span => [mark span]
  | expected wanted _ span => [mark span (some ("`" ++ wanted ++ "` expected"))]
  | unseparated offset | strayInText _ offset => [mark ⟨offset, offset⟩]
  | repeatedDefault spans => spans.map mark
  | unmatched _ opening closing | unmatchedFragment opening closing => [mark opening, mark closing]

def report (e : SyntaxError) : Report := ⟨.error, e.message, e.help, e.marks⟩

end SyntaxError

end MediaLink.Script
