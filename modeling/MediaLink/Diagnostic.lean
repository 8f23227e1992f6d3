namespace MediaLink

inductive Severity where
  | error
  | warning
  | hint
deriving DecidableEq, Repr

/-- A marked stretch of the source: `start` and `stop` count bytes, lines count from one, columns
count characters from zero. -/
structure Label where
  text : Option String
  start : UInt32
  stop : UInt32
  line : Nat
  column : Nat
deriving DecidableEq, Repr

structure Diagnostic where
  severity : Severity
  text : String
  hint : String
  labels : List Label
deriving DecidableEq, Repr

structure Report.Mark where
  text : Option String
  offset : Nat
  length : Nat
deriving DecidableEq, Repr

structure Report where
  severity : Severity
  message : String
  help : Option String
  marks : List Report.Mark
deriving DecidableEq, Repr

namespace Label

def before (offset : Nat) : List Char → List Char
  | [] => []
  | c :: rest => if offset = 0 then [] else c :: before (offset - c.utf8Size) rest

def advance (p : Nat × Nat) (c : Char) : Nat × Nat :=
  if c = '\n' then (p.1 + 1, 0) else (p.1, p.2 + 1)

def position (source : List Char) (offset : Nat) : Nat × Nat :=
  (before offset source).foldl advance (1, 0)

def ofSpan (source : String) (text : Option String) (start stop : UInt32) : Label :=
  let (line, column) := position source.toList start.toNat
  ⟨text, start, stop, line, column⟩

end Label

namespace Diagnostic

/-- Offsets count modulo `2 ^ 32`. -/
def ofReport (source : String) (r : Report) : Diagnostic where
  severity := r.severity
  text := r.message
  hint := r.help.getD ""
  labels := r.marks.map fun m =>
    .ofSpan source m.text (UInt32.ofNat m.offset) (UInt32.ofNat (m.offset + m.length))

/-- Imports were found, but not the function they are to be placed before. -/
def droppedImports (functionName : String) (count : Nat) : Diagnostic where
  severity := .warning
  text := toString count ++ " media import(s) dropped: no top-level function `" ++ functionName ++
    "` found"
  hint := "The rewritten attributes reference identifiers that are never imported. " ++
    "Run the rewrite on the compiled MDX program, or set `content_function`."
  labels := []

def help? (d : Diagnostic) : Option String := if d.hint.isEmpty then none else some d.hint

end Diagnostic

end MediaLink
