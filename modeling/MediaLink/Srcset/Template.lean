import MediaLink.Reference
import MediaLink.Srcset.Parser

namespace MediaLink.Srcset

/-- Literal text around holes; each hole is a path and the literal text behind it. -/
structure Template where
  lead : List Char
  holes : List (List Char × List Char)
deriving DecidableEq

namespace Template

def quasis (t : Template) : List (List Char) := t.lead :: t.holes.map (·.2)

def paths (t : Template) : List (List Char) := t.holes.map (·.1)

/-- The candidates written in a row, with a hole at the path of each rewritable URL. -/
def ofCandidates : List Candidate → Template
  | [] => ⟨[], []⟩
  | c :: rest =>
    let t := ofCandidates rest
    let tail := c.descriptorText ++ (if rest.isEmpty then [] else [',', ' ']) ++ t.lead
    if Reference.isRewritable c.url then
      let r := Reference.ofRaw c.url
      ⟨[], (r.path, r.suffix ++ tail) :: t.holes⟩
    else ⟨c.url ++ tail, t.holes⟩

end Template

inductive LinkedText where
  | whole (path : List Char)
  | template (t : Template)
deriving DecidableEq

namespace LinkedText

def whole? : List Candidate → Option (List Char)
  | [c] =>
    let r := Reference.ofRaw c.url
    if !c.hasDescriptors && Reference.isRewritable c.url && r.suffix.isEmpty then some r.path
    else none
  | _ => none

def ofCandidates? (cs : List Candidate) : Option LinkedText :=
  match whole? cs with
  | some path => some (.whole path)
  | none =>
    let t := Template.ofCandidates cs
    if t.holes.isEmpty then none else some (.template t)

/-- Nothing for a list with an invalid candidate, or without a rewritable one: such a list stays as
it was written. -/
def ofText? (s : List Char) : Option LinkedText := parseComplete? s >>= ofCandidates?

end LinkedText

end MediaLink.Srcset
