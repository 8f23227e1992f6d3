import MediaLink.Script.Parser.Program
import MediaLink.Script.Printer
import MediaLink.Transform

namespace MediaLink.Script

def parse (d : Dialect) (source : String) : Parsed Construct :=
  let (body, mistakes) := Parser.read d source
  ⟨body, mistakes.map SyntaxError.report⟩

def transform (d : Dialect) (o : Options) (source : String) : Transformed :=
  .ofSource (parse d) printProgram o source

end MediaLink.Script
