namespace MediaLink.Script

def closesScript (s : List Char) : Bool := (s.take 7).map Char.toLower == "/script".toList

/-- Text inside a template, which can stand in a script element. -/
def guardScript : List Char → List Char
  | [] => []
  | c :: rest =>
    if c = '<' ∧ closesScript rest then '<' :: '\\' :: guardScript rest else c :: guardScript rest

def quoteChar (c : Char) (rest : List Char) : List Char :=
  match c with
  | '\x00' => if rest.head?.any Char.isDigit then "\\x00".toList else ['\\', '0']
  | '\x07' => "\\x07".toList
  | '\x08' => ['\\', 'b']
  | '\x0b' => ['\\', 'v']
  | '\x0c' => ['\\', 'f']
  | '\n' => ['\\', 'n']
  | '\r' => ['\\', 'r']
  | '\x1b' => "\\x1B".toList
  | '\\' => ['\\', '\\']
  | '"' => ['\\', '"']
  | '\u00a0' => "\\xA0".toList
  | '\u2028' => "\\u2028".toList
  | '\u2029' => "\\u2029".toList
  | '<' => if closesScript rest then ['<', '\\'] else ['<']
  | c => [c]

def quoteChars : List Char → List Char
  | [] => []
  | c :: rest => quoteChar c rest ++ quoteChars rest

def quote (s : String) : String := "\"" ++ String.ofList (quoteChars s.toList) ++ "\""

def quoteRaw (s : String) : String :=
  if s.toList.contains '"' then "'" ++ s ++ "'" else "\"" ++ s ++ "\""

/-- The quote that a directive's text does not hold, unless behind a backslash: the first quote that
stands by itself decides. -/
def directiveQuote : List Char → String
  | [] => "\""
  | '"' :: _ => "'"
  | '\'' :: _ => "\""
  | ['\\'] => "\""
  | '\\' :: _ :: rest => directiveQuote rest
  | _ :: rest => directiveQuote rest

def quoteDirective (s : String) : String :=
  directiveQuote s.toList ++ s ++ directiveQuote s.toList

end MediaLink.Script
