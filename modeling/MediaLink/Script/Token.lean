import MediaLink.Script.Number
import MediaLink.Script.SyntaxError
import MediaLink.Text.Blank
import MediaLink.Text.Identifier

namespace MediaLink.Script

open Text

inductive Token where
  | end
  | word (name : String)
  | mark (text : String)
  | number (spelling : Spelling) (value : Binary64)
  | string (value raw : String)
  | run (raw : String) (isFirst isLast : Bool)
  | text (raw : String)
  | invalid
deriving DecidableEq

namespace Token

def reserved : List String :=
  ["break", "case", "catch", "class", "const", "continue", "debugger", "default", "delete", "do",
   "else", "enum", "export", "extends", "false", "finally", "for", "function", "if", "import", "in",
   "instanceof", "new", "null", "return", "super", "switch", "this", "throw", "true", "try",
   "typeof", "var", "void", "while", "with"]

def contextual : List String :=
  ["abstract", "accessor", "any", "as", "assert", "asserts", "async", "await", "bigint", "boolean",
   "constructor", "declare", "defer", "from", "get", "global", "implements", "infer", "interface",
   "intrinsic", "is", "keyof", "let", "meta", "module", "namespace", "never", "number", "object",
   "of", "out", "override", "package", "private", "protected", "public", "readonly", "require",
   "satisfies", "set", "source", "static", "string", "symbol", "target", "type", "undefined",
   "unique", "unknown", "using", "yield"]

def description : Token → String
  | .end => "EOF"
  | word name => if name ∈ reserved ∨ name ∈ contextual then name else "Identifier"
  | mark s => s
  | number spelling _ => spelling.description
  | string _ _ => "string"
  | run _ true true => "$\x7b\x7d"
  | run _ true false => "$\x7b"
  | run _ false true => "\x7d"
  | run _ false false => "$\x7bexpr\x7d"
  | text _ => "jsx"
  | invalid => "Unknown"

end Token

/-- A place in the source: what is left of it, and how many bytes are behind. -/
structure Cursor where
  rest : List Char
  offset : Nat

namespace Cursor

-- The sum begins with the zero of the core library, also where others are in scope.
attribute [local instance (high)] Zero.ofOfNat0

def width (s : List Char) : Nat := (s.map Char.utf8Size).sum

def behind (c : Cursor) (s : List Char) : Cursor := ⟨c.rest.drop s.length, c.offset + width s⟩

def takeWhile (c : Cursor) (p : Char → Bool) : List Char × Cursor :=
  (c.rest.takeWhile p, c.behind (c.rest.takeWhile p))

end Cursor

def isLineEnd (c : Char) : Bool := c == '\n' || c == '\r' || c == '\u2028' || c == '\u2029'

def isSpace (c : Char) : Bool := isBlank c || c == '\u200b' || c == '\ufeff'

def lineEndsAsOne : List Char → List Char
  | '\r' :: '\n' :: rest => '\n' :: lineEndsAsOne rest
  | '\r' :: rest => '\n' :: lineEndsAsOne rest
  | c :: rest => c :: lineEndsAsOne rest
  | [] => []

structure Comment where
  raw : String
  isBelow : Bool
  endsLine : Bool
deriving DecidableEq, Repr

structure Gap where
  hasLineEnd : Bool := false
  isBelow : Bool := false
  comments : List Comment := []
  unterminated : Option Span := none

/-- Comments have their text so far, in reverse, and those that can go on behind a line end the
offset where they began. -/
inductive Gap.Mode where
  | space
  | lineComment (text : List Char)
  | comment (start : Nat) (text : List Char)

namespace Gap

def comment (g : Gap) (text : List Char) (endsLine : Bool) : Gap :=
  let raw := String.ofList (lineEndsAsOne text.reverse)
  { g with comments := g.comments ++ [⟨raw, g.isBelow, endsLine⟩] }

def lineEnd (g : Gap) : Gap where
  hasLineEnd := true
  isBelow := true
  comments := g.comments.dropLast ++ g.comments.getLast?.toList.map ({ · with endsLine := true })
  unterminated := g.unterminated

def skip (g : Gap) (mode : Mode) (offset : Nat) : List Char → Gap × Cursor
  | [] =>
    match mode with
    | .space => (g, ⟨[], offset⟩)
    | .lineComment text => (g.comment text true, ⟨[], offset⟩)
    | .comment start _ => ({ g with unterminated := some ⟨start, offset⟩ }, ⟨[], offset⟩)
  | '*' :: '/' :: rest =>
    match mode with
    | .space => (g, ⟨'*' :: '/' :: rest, offset⟩)
    | .lineComment text => skip g (.lineComment ('/' :: '*' :: text)) (offset + 2) rest
    | .comment _ text => skip (g.comment ('/' :: '*' :: text) false) .space (offset + 2) rest
  | '/' :: '*' :: rest =>
    match mode with
    | .space => skip g (.comment offset ['*', '/']) (offset + 2) rest
    | .lineComment text => skip g (.lineComment ('*' :: '/' :: text)) (offset + 2) rest
    | .comment start text => skip g (.comment start ('/' :: text)) (offset + 1) ('*' :: rest)
  | c :: rest =>
    match mode with
    | .comment start text =>
      skip { g with hasLineEnd := g.hasLineEnd || isLineEnd c } (.comment start (c :: text))
        (offset + c.utf8Size) rest
    | .lineComment text =>
      if isLineEnd c then skip (g.comment text true).lineEnd .space (offset + c.utf8Size) rest
      else skip g (.lineComment (c :: text)) (offset + c.utf8Size) rest
    | .space =>
      if isLineEnd c then skip g.lineEnd mode (offset + c.utf8Size) rest
      else if isSpace c then skip g mode (offset + c.utf8Size) rest
      else if c = '/' ∧ rest.head? = some '/' then skip g (.lineComment ['/']) (offset + 1) rest
      else (g, ⟨c :: rest, offset⟩)
termination_by s => s.length

/-- The comments on what follows. Those at the end of a line are on what stands there. -/
def leading (g : Gap) : List Comment :=
  if g.isBelow then g.comments.filter Comment.isBelow else g.comments

end Gap

def hex? (n : Nat) (s : List Char) : Option Nat :=
  if s.length < n then none
  else (s.take n).foldlM (fun v c => (digit? 16 c).map (16 * v + ·)) 0

def ofUnits (high low : Nat) : Option Char :=
  if 0xd800 ≤ high ∧ high < 0xdc00 ∧ 0xdc00 ≤ low ∧ low < 0xe000 then
    some (Char.ofNat (0x10000 + (high - 0xd800) * 0x400 + (low - 0xdc00)))
  else none

/-- What the escape at the start of a text denotes, and how many characters it takes. The text
begins behind the backslash. -/
def escape : List Char → List Char × Nat
  | [] => ([], 0)
  | 'n' :: _ => (['\n'], 1)
  | 'r' :: _ => (['\r'], 1)
  | 't' :: _ => (['\t'], 1)
  | 'b' :: _ => (['\x08'], 1)
  | 'f' :: _ => (['\x0c'], 1)
  | 'v' :: _ => (['\x0b'], 1)
  | '0' :: _ => (['\x00'], 1)
  | 'x' :: rest =>
    match hex? 2 rest with
    | some n => ([Char.ofNat n], 3)
    | none => (['x'], 1)
  | 'u' :: '\x7b' :: rest =>
    let digits := rest.takeWhile (· != '\x7d')
    match hex? digits.length digits with
    | some n => ([Char.ofNat n], digits.length + 3)
    | none => (['u'], 1)
  | 'u' :: rest =>
    match hex? 4 rest, rest.drop 4 with
    | some high, '\\' :: 'u' :: after =>
      match (hex? 4 after).bind (ofUnits high) with
      | some c => ([c], 11)
      | none => ([Char.ofNat high], 5)
    | some n, _ => ([Char.ofNat n], 5)
    | none, _ => (['u'], 1)
  | '\r' :: '\n' :: _ => ([], 2)
  | c :: _ => (if isLineEnd c then [] else [c], 1)

/-- The text up to the quote that closes it: what it denotes and what was written. Without such a
quote before the end of the line there is only what was written, with that line end. -/
def quoted (quote : Char) (value raw : List Char) (skip : Nat) :
    List Char → Option (List Char) × List Char
  | [] => (none, raw.reverse)
  | c :: rest =>
    match skip with
    | skip + 1 => quoted quote value (c :: raw) skip rest
    | 0 =>
      if c = quote then (some value.reverse, raw.reverse)
      else if c = '\\' then
        let (denoted, taken) := escape rest
        quoted quote (denoted.reverse ++ value) (c :: raw) taken rest
      else if c = '\n' ∨ c = '\r' then (none, (c :: raw).reverse)
      else quoted quote (c :: value) (c :: raw) 0 rest

/-- A run of a template up to the closing quote or the next hole: what is written, and whether the
template ends behind it. -/
def templateRun (raw : List Char) : List Char → Option (List Char × Bool)
  | [] => none
  | '`' :: _ => some (raw.reverse, true)
  | '$' :: '\x7b' :: _ => some (raw.reverse, false)
  | '\\' :: c :: rest => templateRun (c :: '\\' :: raw) rest
  | c :: rest => templateRun (c :: raw) rest

def longMarks : List String :=
  ["...", "===", "!==", "**=", "&&=", "||=", "??=", "<<=", "=>", "==", "!=", "<=", "<<", "&&", "||",
   "??", "?.", "++", "--", "+=", "-=", "*=", "/=", "%=", "&=", "|=", "^=", "**"]

def mark (s : List Char) : List Char :=
  match longMarks.find? fun m => m.toList.isPrefixOf s with
  | some m => if m = "?." ∧ (s.drop 2).head?.any Char.isDigit then ['?'] else m.toList
  | none => s.take 1

structure Lexeme where
  token : Token
  span : Span
  gap : Gap := {}

namespace Lexeme

def here (c : Cursor) (token : Token) (s : List Char) : Lexeme × Cursor :=
  (⟨token, ⟨c.offset, c.offset + Cursor.width s⟩, {}⟩, c.behind s)

def string (c : Cursor) (quote : Char) (inside : List Char) :
    Lexeme × Cursor × Option SyntaxError :=
  match quoted quote [] [] 0 inside with
  | (some value, raw) =>
    let s := quote :: raw ++ [quote]
    let (l, next) := here c (.string (String.ofList value) (String.ofList s)) s
    (l, next, none)
  | (none, raw) =>
    let (l, next) := here c .invalid (quote :: raw)
    (l, next, some (.unterminatedString l.span))

def run (c : Cursor) (start : Nat) (isFirst : Bool) : Lexeme × Cursor × Option SyntaxError :=
  match templateRun [] c.rest with
  | some (raw, isLast) =>
    let behind := c.behind (raw ++ if isLast then ['`'] else ['$', '\x7b'])
    (⟨.run (String.ofList raw) isFirst isLast, ⟨start, behind.offset⟩, {}⟩, behind, none)
  | none =>
    let behind := c.behind c.rest
    let span : Span := ⟨start, behind.offset⟩
    (⟨.invalid, span, {}⟩, behind, some (.unterminatedString span))

def number (c : Cursor) : Lexeme × Cursor × Option SyntaxError :=
  let numeral := Numeral.read c.rest
  let (l, next) := here c (.number numeral.spelling numeral.value) numeral.raw
  match next.takeWhile isIdentifierPart with
  | ([], _) => (l, next, none)
  | (_, behind) =>
    (⟨.invalid, ⟨c.offset, behind.offset⟩, {}⟩, behind,
      some (.invalidNumber ⟨next.offset, behind.offset⟩))

def read (c : Cursor) : Lexeme × Cursor × Option SyntaxError :=
  match c.rest with
  | [] => (⟨.end, ⟨c.offset, c.offset⟩, {}⟩, c, none)
  | ch :: inside =>
    if isIdentifierStart ch then
      let s := c.rest.takeWhile isIdentifierPart
      let (l, next) := here c (.word (String.ofList s)) s
      (l, next, none)
    else if ch.isDigit ∨ ch = '.' ∧ inside.head?.any Char.isDigit then number c
    else if ch = '"' ∨ ch = '\'' then string c ch inside
    else if ch = '`' then run (c.behind ['`']) c.offset true
    else
      let (l, next) := here c (.mark (String.ofList (mark c.rest))) (mark c.rest)
      (l, next, none)

def next (c : Cursor) : Lexeme × Cursor × Option SyntaxError :=
  let (gap, c) := Gap.skip { isBelow := c.offset = 0 } .space c.offset c.rest
  match gap.unterminated with
  | some span => (⟨.end, ⟨c.offset, c.offset⟩, gap⟩, c, some (.unterminatedComment span))
  | none =>
    let (l, c, e) := read c
    ({ l with gap }, c, e)

/-- The next token inside an element: a brace, a tag, or the text before them, in which no closing
brace or bracket stands by itself. -/
def nextChild (c : Cursor) : Lexeme × Cursor × Option SyntaxError :=
  match c.rest with
  | [] => (⟨.end, ⟨c.offset, c.offset⟩, {}⟩, c, none)
  | ch :: _ =>
    if ch = '<' ∨ ch = '\x7b' then
      let (l, next) := here c (.mark (String.ofList [ch])) [ch]
      (l, next, none)
    else
      let (s, behind) := c.takeWhile fun ch => ch ∉ ['<', '>', '\x7b', '\x7d']
      let span : Span := ⟨c.offset, behind.offset⟩
      match behind.rest with
      | [] => (⟨.end, span, {}⟩, behind, none)
      | ch :: _ =>
        if ch = '<' ∨ ch = '\x7b' then (⟨.text (String.ofList s), span, {}⟩, behind, none)
        else (⟨.invalid, span, {}⟩, behind, some (.strayInText ch behind.offset))

def nextAttributeValue (c : Cursor) : Lexeme × Cursor × Option SyntaxError :=
  let (_, start) := Gap.skip {} .space c.offset c.rest
  match start.rest with
  | quote :: inside =>
    if quote = '"' ∨ quote = '\'' then
      let s := inside.takeWhile (· != quote)
      if s.length < inside.length then
        let raw := quote :: s ++ [quote]
        let (l, next) := here start (.string (String.ofList s) (String.ofList raw)) raw
        (l, next, none)
      else
        let (l, next) := here start .invalid (quote :: s)
        (l, next, some (.unterminatedString l.span))
    else next c
  | [] => next c

end Lexeme

end MediaLink.Script
