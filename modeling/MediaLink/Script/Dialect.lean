namespace MediaLink.Script

structure Dialect where
  elements : Bool
  /-- Types; where there are no element literals, `<` then begins a type assertion. -/
  types : Bool
deriving DecidableEq, Repr

namespace Dialect

def plain : Dialect := ⟨false, false⟩
def withElements : Dialect := ⟨true, false⟩
def typed : Dialect := ⟨false, true⟩
def typedWithElements : Dialect := ⟨true, true⟩

def extension? (path : String) : Option String := do
  let name ← ((path.splitOn "/").filter fun c => c != "" && c != ".").getLast?
  let after := (name.toList.reverse.takeWhile (· != '.')).reverse
  if name = ".." ∨ name.length ≤ after.length + 1 then none else some (String.ofList after)

def ofExtension : String → Dialect
  | "js" | "mjs" | "cjs" => plain
  | "ts" | "mts" | "cts" => typed
  | "tsx" => typedWithElements
  | _ => withElements

def ofFilename (path : Option String) : Dialect :=
  ((path >>= extension?).map ofExtension).getD withElements

end Dialect

end MediaLink.Script
