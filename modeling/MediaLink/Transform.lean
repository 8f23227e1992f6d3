import MediaLink.Diagnostic
import MediaLink.Linking

namespace MediaLink

structure Parsed (κ : Type) where
  body : Option (List (Tree κ))
  reports : List Report

structure Transformed where
  code : String
  imports : List Binding
  diagnostics : List Diagnostic
deriving DecidableEq

namespace Transformed

variable {κ : Type}

/-- A source that does not parse stays as it is. Imports that were not placed are not reported as
placed, but their references are in the code. -/
def ofSource (parse : String → Parsed κ) (print : List (Tree κ) → String) (o : Options)
    (source : String) : Transformed :=
  match parse source with
  | ⟨some body, []⟩ =>
    let linked := LinkedProgram.ofBody o body
    { code := print linked.body
      imports := if linked.inserted then linked.bindings else []
      diagnostics :=
        if linked.droppedImports then [.droppedImports o.functionName linked.bindings.length]
        else [] }
  | ⟨_, reports⟩ =>
    { code := source, imports := [], diagnostics := reports.map (Diagnostic.ofReport source) }

end Transformed

end MediaLink
