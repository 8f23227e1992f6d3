import MediaLink.Slug
import MediaLink.Text.Identifier

namespace MediaLink

open Text Slug

structure Binding where
  path : List Char
  name : List Char
deriving DecidableEq

namespace Binding

def nameEnding : List Char := "$recmamdximport".toList

/-- A slug as a name: characters that no name may have become `_`, and `_` goes in front of one that
may not come first. -/
def stem (slug : List Char) : List Char :=
  let body := slug.map fun c => if isIdentifierPart c then c else '_'
  if slug.head?.any fun c => !isIdentifierStart c && isIdentifierPart c then '_' :: body else body

def nameOfSlug (slug : List Char) : List Char := stem slug ++ nameEnding

def nameIn (bs : List Binding) (path : List Char) : List Char :=
  ((bs.find? (·.path == path)).map (·.name)).getD []

end Binding

structure Registry where
  bindings : List Binding := []
  issued : List (List Char) := []
  slugger : Slugger := {}
deriving DecidableEq

namespace Registry

/-- Slugs the path until its name is not yet issued. As many slugs as names were issued can be in
the way, so that many repeats find a new one. -/
def freshName (issued : List (List Char)) (path : List Char) :
    Nat → Slugger → List Char × Slugger
  | 0, g => ((g.slug path).map Binding.nameOfSlug id)
  | fuel + 1, g =>
    let (slug, g) := g.slug path
    if Binding.nameOfSlug slug ∈ issued then freshName issued path fuel g
    else (Binding.nameOfSlug slug, g)

/-- The name bound to the path, which is bound now if it was not before. -/
def resolve (r : Registry) (path : List Char) : List Char × Registry :=
  match r.bindings.find? (·.path == path) with
  | some b => (b.name, r)
  | none =>
    let (name, g) := freshName r.issued path r.issued.length r.slugger
    (name, ⟨r.bindings ++ [⟨path, name⟩], name :: r.issued, g⟩)

def resolveAll (r : Registry) (paths : List (List Char)) : Registry :=
  paths.foldl (fun r path => (r.resolve path).2) r

def nameOf (r : Registry) (path : List Char) : List Char := Binding.nameIn r.bindings path

def takeBindings (r : Registry) : List Binding × Registry := (r.bindings, {})

end Registry

end MediaLink
