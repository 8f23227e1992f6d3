import MediaLink.Script.Construct
import MediaLink.Script.Number
import MediaLink.Script.Quote
import MediaLink.Script.Token

namespace MediaLink.Script

open Text

/-- What the text of an expression is the first of; there some expressions would be read as
something else. -/
inductive Start where
  | nothing
  | statement
  | arrowBody
  | defaultExport
deriving DecidableEq

structure Place where
  level : Nat := 0
  start : Start := .nothing

namespace Level

def comma : Nat := 1
def yield : Nat := 3
def assign : Nat := 4
def conditional : Nat := 5
def unary : Nat := 18
def suffixed : Nat := 19
def primary : Nat := 100

def operator : String → Nat
  | "??" => 6
  | "||" => 7
  | "&&" => 8
  | "|" => 9
  | "^" => 10
  | "&" => 11
  | "==" | "!=" | "===" | "!==" => 12
  | "<" | ">" | "<=" | "in" | "instanceof" => 13
  | "+" | "-" => 15
  | "*" | "/" | "%" => 16
  | _ => 17

/-- What needs no parentheses on the right of an operator. The grouping of a logical operator with
itself makes no difference. -/
def rightOf (op : String) : Nat :=
  if op ∈ ["??", "||", "&&"] then operator op - 1 else operator op

end Level

def Construct.level : Construct → Nat
  | sequence => Level.comma
  | yield _ | arrow _ | assign _ => Level.assign
  | conditional => Level.conditional
  | binary op => Level.operator op
  | unary _ | await => Level.unary
  | chain => Level.suffixed
  | _ => Level.primary

def isFunction : Node → Bool
  | .node (.other (.function _ _ _)) _ | .node (.other (.arrow _)) _ => true
  | _ => false

/-- Whether parentheses go around a form. Those of the source stay around a function, which may be
meant to be called. -/
def isWrapped (p : Place) (form : Form Construct) (parts : List Node) : Bool :=
  match form with
  | .object => p.start = .statement || p.start = .arrowBody
  | .other .paren => parts.any isFunction
  | .other (.function _ _ _) | .other (.class _) => p.start = .statement || p.start = .defaultExport
  | .other c => c.level ≤ p.level
  | _ => false

def isDefinition : Node → Bool
  | .node (.function _ _ _) _ | .node (.other (.class _)) _ => true
  | _ => false

def places (p : Place) (form : Form Construct) (parts : List Node) : Place × Place :=
  let wrapped := isWrapped p form parts
  let start := if wrapped then .nothing else p.start
  match form with
  | .member _ _ => (⟨Level.suffixed, start⟩, {})
  | .call _ => (⟨Level.suffixed, start⟩, ⟨Level.comma, .nothing⟩)
  | .object | .property _ => (⟨Level.comma, .nothing⟩, ⟨Level.comma, .nothing⟩)
  | .function _ _ _ => (⟨Level.comma, .nothing⟩, ⟨Level.comma, .nothing⟩)
  | .other c =>
    match c with
    | .paren => (if wrapped then {} else p, {})
    | .chain => (⟨0, start⟩, {})
    | .index _ | .tagged => (⟨Level.suffixed, start⟩, {})
    | .assertion _ => (⟨Level.suffixed, .nothing⟩, {})
    | .unary _ | .await => (⟨Level.unary - 1, .nothing⟩, {})
    | .binary op => (⟨Level.operator op - 1, start⟩, ⟨Level.rightOf op, .nothing⟩)
    | .assign _ => (⟨0, start⟩, ⟨Level.comma, .nothing⟩)
    | .conditional => (⟨Level.conditional, start⟩, ⟨Level.yield, .nothing⟩)
    | .sequence => (⟨0, start⟩, {})
    | .arrow _ => (⟨Level.comma, .arrowBody⟩, ⟨Level.comma, .arrowBody⟩)
    | .yield _ => (⟨Level.yield, .nothing⟩, {})
    | .expression => (⟨0, .statement⟩, {})
    | .exportedDefault =>
      if parts.all isDefinition then ({}, {}) else (⟨Level.comma, .defaultExport⟩, {})
    | .array | .spread | .withDefault | .targetProperty _ | .declarator | .function _ _ _
    | .spreadAttribute =>
      (⟨Level.comma, .nothing⟩, ⟨Level.comma, .nothing⟩)
    | .class _ => (⟨Level.suffixed, .nothing⟩, {})
    | _ => ({}, {})
  | _ => ({}, {})

def isSpread (form : Form Construct) (parts : List Node) : Bool :=
  match form with
  | .object => 2 ≤ parts.length
  | .other .array => 3 ≤ parts.length
  | .other .block | .other .body => !parts.isEmpty
  | _ => false

def tabs (depth : Nat) : String := String.ofList (List.replicate depth '\t')

def commas (parts : List String) : String := ", ".intercalate parts

def lines (depth : Nat) (parts : List String) (separator : String) : String :=
  "\n" ++ (separator ++ "\n").intercalate (parts.map (tabs (depth + 1) ++ ·)) ++ "\n" ++ tabs depth

def inBraces (s : String) : String := "\x7b" ++ s ++ "\x7d"

def inParens (s : String) : String := "(" ++ s ++ ")"

def shared? : Node → Option String
  | .node (.identifier name) _ => some name
  | .node (.other .paren) [e] => shared? e
  | .node (.other .withDefault) (.node (.identifier name) _ :: _) => some name
  | _ => none

def isShared (isComputed : Bool) : List Node → Bool
  | [.node (.identifier name) _, value] => !isComputed && shared? value = some name
  | _ => false

def property (isComputed isShort : Bool) : List String → String
  | [key, value] =>
    if isShort then value else (if isComputed then "[" ++ key ++ "]" else key) ++ ": " ++ value
  | parts => commas parts

def isShort (traits : PropertyTraits) : List Node → Bool
  | .node (.identifier "__proto__") _ :: _ => !traits.computed && traits.shorthand
  | parts => isShared traits.computed parts

def template : List Quasi → List String → String
  | [], _ => ""
  | q :: qs, [] => String.ofList (guardScript q.raw.toList) ++ template qs []
  | q :: qs, e :: es =>
    String.ofList (guardScript q.raw.toList) ++ "$" ++ inBraces e ++ template qs es

def signature (parts : List String) : String :=
  inParens (commas parts.dropLast) ++ " " ++ parts.getLastD ""

def functionHead (name : Option String) (isAsync isGenerator : Bool) : String :=
  (if isAsync then "async " else "") ++ "function" ++ (if isGenerator then "* " else "") ++
    name.elim "" ((if isGenerator then "" else " ") ++ ·)

def importClause (default space : Option String) (named : Option (List (String × String))) :
    List String :=
  default.toList ++ (space.map ("* as " ++ ·)).toList ++
    match named with
    | none => []
    | some [] => if default.isSome then [] else [inBraces ""]
    | some names =>
      let entries := names.map fun (a, b) => if a = b then a else a ++ " as " ++ b
      [inBraces (" " ++ commas entries ++ " ")]

def importText (default space : Option String) (named : Option (List (String × String)))
    (source : String) : String :=
  let clause := importClause default space named
  let path := if clause = [inBraces ""] then "\"" ++ source ++ "\"" else quote source
  "import " ++ (if clause.isEmpty then "" else commas clause ++ " from ") ++ path ++ ";"

def needsGap (operator operand : String) : Bool :=
  operator.toList.all Char.isAlpha ||
    (operator ∈ ["+", "-"] && operand.toList.head? = operator.toList.head?)

def takesPoint : Node → Bool
  | .node (.other (.number v)) _ => Number.takesPoint v
  | .node (.other .paren) [e] => takesPoint e
  | _ => false

def items (parts : List Node) (texts : List String) : List String :=
  match parts.getLast? with
  | some (.node (.other .hole) _) => texts.dropLast ++ [","]
  | _ => texts

def targets (parts : List Node) (texts : List String) : String :=
  match parts.getLast?, texts.dropLast with
  | some (.node (.other .rest) _), t :: ts => commas (t :: ts) ++ "," ++ texts.getLastD ""
  | _, _ => commas texts

def string? : Node → Option String
  | .node (.string value _) _ => some value
  | .node (.other .paren) [e] => string? e
  | _ => none

def firstString? : List Node → Option String
  | .node (.other .expression) parts :: _ =>
    match parts.dropWhile isComment with
    | [e] => string? e
    | _ => none
  | _ => none

/-- The lines of a body. A string at its beginning has parentheses, and no tabs in front, so that it
does not become a directive. -/
def bodyLines (depth : Nat) (parts : List Node) (texts : List String) : List String :=
  match firstString? parts with
  | some s => (inParens (quote s) ++ ";") :: texts.tail.map (tabs depth ++ ·)
  | none => texts.map (tabs depth ++ ·)

def branch (part : Node) (text : String) : String :=
  match part with
  | .node (.other .empty) _ => text
  | _ => " " ++ text

def isBlock : Node → Bool
  | .node (.other .block) _ => true
  | _ => false

def comment (depth : Nat) (raw : String) : String :=
  let lines := (raw.toList.splitOnP isLineEnd).map (·.dropWhile isBlank)
  ("\n" ++ tabs depth).intercalate (lines.map (String.ofList ∘ guardScript))

/-- Comments and what is behind the last of them: the first text if that ends its line. -/
def comments (depth : Nat) (atLineEnd otherwise : String) : List Node → String
  | .node (.other (.comment raw _ endsLine)) _ :: rest =>
    let gap := match rest with
      | [] => if endsLine then atLineEnd else otherwise
      | .node (.other (.comment _ true _)) _ :: _ => "\n" ++ tabs depth
      | _ => ""
    comment depth raw ++ gap ++ comments depth atLineEnd otherwise rest
  | _ => ""

def construct (depth : Nat) (c : Construct) (parts : List Node) (texts : List String) : String :=
  match c, texts with
  | .this, _ => "this"
  | .null, _ => "null"
  | .boolean b, _ => if b then "true" else "false"
  | .number v, _ => Number.text v
  | .array, ts =>
    let ts := items parts ts
    if isSpread (.other .array) parts then "[" ++ lines depth ts "," ++ "]"
    else "[" ++ commas ts ++ "]"
  | .arrayPattern, ts => "[" ++ commas (items parts ts) ++ "]"
  | .objectPattern, [] => inBraces ""
  | .objectPattern, ts => inBraces (" " ++ targets parts ts ++ " ")
  | .targetProperty isComputed, ts => property isComputed (isShared isComputed parts) ts
  | .hole, _ => ""
  | .spread, ts | .rest, ts => "..." ++ commas ts
  | .index isOptional, [e, i] => e ++ (if isOptional then "?.[" else "[") ++ i ++ "]"
  | .unary op, ts => op ++ (if needsGap op (commas ts) then " " else "") ++ commas ts
  | .assertion type, ts => "<" ++ type ++ ">" ++ commas ts
  | .await, ts => "await " ++ commas ts
  | .binary op, [a, b] => a ++ " " ++ op ++ " " ++ b
  | .assign op, [a, b] => a ++ " " ++ op ++ " " ++ b
  | .withDefault, [a, b] => a ++ " = " ++ b
  | .conditional, [test, yes, no] => test ++ " ? " ++ yes ++ " : " ++ no
  | .arrow isAsync, ts =>
    (if isAsync then "async " else "") ++ inParens (commas ts.dropLast) ++ " => " ++ ts.getLastD ""
  | .function name isAsync isGenerator, ts => functionHead name isAsync isGenerator ++ signature ts
  | .yield delegate, ts =>
    "yield" ++ (if delegate then "*" else "") ++ (if ts.isEmpty then "" else " " ++ commas ts)
  | .element, opening :: children =>
    match parts with
    | .node (.opening name false) _ :: _ =>
      opening ++ "".intercalate children ++ "</" ++ name.text ++ ">"
    | _ => opening
  | .fragment, ts => "<>" ++ "".intercalate ts ++ "</>"
  | .elementText raw, _ => raw
  | .emptyContainer, _ => ""
  | .spreadAttribute, ts | .spreadChild, ts => inBraces ("..." ++ commas ts)
  | .tagged, ts => "".intercalate ts
  | .directive raw, _ => quoteDirective raw ++ ";"
  | .expression, ts => commas ts ++ ";"
  | .empty, _ => ";"
  | .return, ts => "return" ++ (if ts.isEmpty then "" else " " ++ commas ts) ++ ";"
  | .block, ts => inBraces (if isSpread (.other .block) parts then lines depth ts "" else "")
  | .body, ts =>
    inBraces
      (if ts.isEmpty then ""
       else "\n" ++ "\n".intercalate (bodyLines (depth + 1) parts ts) ++ "\n" ++ tabs depth)
  | .labeled name, ts => name ++ ":" ++ "".intercalate (List.zipWith branch parts ts)
  | .if, test :: ts =>
    let gap := if (parts.drop 1).head?.any isBlock then " " else "\n" ++ tabs depth
    "if " ++ inParens test ++ (gap ++ "else").intercalate (List.zipWith branch (parts.drop 1) ts)
  | .class name, ts =>
    "class" ++ name.elim "" (" " ++ ·) ++ "".intercalate (ts.map (" extends " ++ ·)) ++ " " ++
      inBraces ""
  | .declaration keyword, ts => keyword ++ " " ++ commas ts ++ ";"
  | .declarator, ts => " = ".intercalate ts
  | .exported, ts => "export " ++ commas ts
  | .exportedDefault, ts =>
    "export default " ++ commas ts ++ (if parts.all isDefinition then "" else ";")
  | .import default space named source, _ => importText default space named source
  | _, ts => commas ts

def form (depth : Nat) (f : Form Construct) (parts : List Node) (texts : List String) : String :=
  match f, texts with
  | .identifier name, _ => name
  | .string value _, _ => quote value
  | .member name isOptional, ts =>
    let gap := if !isOptional && parts.any takesPoint then " " else ""
    commas ts ++ gap ++ (if isOptional then "?." else ".") ++ name
  | .call isOptional, ts =>
    ts.headD "" ++ (if isOptional then "?." else "") ++ inParens (commas ts.tail)
  | .object, ts =>
    if ts.isEmpty then inBraces ""
    else if isSpread .object parts then inBraces (lines depth ts ",")
    else inBraces (" " ++ commas ts ++ " ")
  | .property traits, ts => property traits.computed (isShort traits parts) ts
  | .template qs, ts => "`" ++ template qs ts ++ "`"
  | .opening name selfClosing, ts =>
    "<" ++ name.text ++ "".intercalate (ts.map (" " ++ ·)) ++ (if selfClosing then " />" else ">")
  | .attribute name, ts =>
    match parts with
    | [.node (.string value _) _] => name.text ++ "=" ++ quoteRaw value
    | _ => "=".intercalate (name.text :: ts)
  | .container, ts => inBraces (commas ts)
  | .function name isAsync isGenerator, ts => functionHead name isAsync isGenerator ++ signature ts
  | .defaultImport name source, _ => importText (some name) none none source
  | .other c, ts => construct depth c parts ts

mutual

def print (depth : Nat) (p : Place) : Node → String
  | .node f parts =>
    let (front, own) := parts.span isComment
    let (first, others) := places p f own
    let depthBelow := if isSpread f own then depth + 1 else depth
    let texts := (printAll depthBelow first others parts).drop front.length
    let s := form depth f own texts
    comments depth ("\n" ++ tabs depth) " " front ++ if isWrapped p f own then inParens s else s

def printAll (depth : Nat) (first others : Place) : List Node → List String
  | [] => []
  | t :: ts =>
    print depth first t :: printAll depth (if isComment t then first else others) others ts

end

def printProgram (body : List Node) : String :=
  let statements := body.filter (!isComment ·)
  let lines := bodyLines 0 statements (printAll 0 {} {} statements)
  "".intercalate (lines.map (· ++ "\n")) ++ comments 0 "\n" "" (body.filter isComment)

end MediaLink.Script
