namespace MediaLink

/-- How an element was authored: as Markdown, which leaves it open to be overridden by a component,
or as plain HTML. -/
inductive Authoring where
  | markdown
  | html
deriving DecidableEq, Repr

structure UnknownAuthoring where
  name : String
deriving DecidableEq, Repr

namespace Authoring

def name : Authoring → String
  | markdown => "markdown"
  | html => "html"

def named (s : String) : Except UnknownAuthoring Authoring :=
  if s = "markdown" then .ok markdown
  else if s = "html" then .ok html
  else .error ⟨s⟩

end Authoring

def UnknownAuthoring.message (e : UnknownAuthoring) : String :=
  "unknown syntax `" ++ e.name ++ "`, expected `markdown` or `html`"

structure Options where
  excluded : List Authoring := []
  /-- The function that the imports are placed before, where it differs from the default. -/
  contentFunction : Option String := none
deriving DecidableEq, Repr

namespace Options

def defaultFunction : String := "_createMdxContent"

def exclude (o : Options) (a : Authoring) : Options :=
  if a ∈ o.excluded then o else { o with excluded := o.excluded ++ [a] }

def excludeExactly (o : Options) (as : List Authoring) : Options :=
  as.foldl exclude { o with excluded := [] }

def within (o : Options) (name : String) : Options := { o with contentFunction := some name }

def excludes (o : Options) (a : Authoring) : Bool := decide (a ∈ o.excluded)

def functionName (o : Options) : String := o.contentFunction.getD defaultFunction

end Options

end MediaLink
