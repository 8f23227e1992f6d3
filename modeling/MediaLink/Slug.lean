import MediaLink.Text.Alphanumeric
import MediaLink.Text.Lowercase

namespace MediaLink.Slug

open Text

def isKept (c : Char) : Bool := isAlphanumeric c || c == '_' || c == '-' || c == ' '

def ofText (s : List Char) : List Char :=
  ((s.flatMap lowercase).filter isKept).map fun c => if c = ' ' then '-' else c

def numbered (base : List Char) (n : Nat) : List Char := base ++ '-' :: Nat.toDigits 10 n

/-- The slugs handed out so far, each with the last number tried behind it. -/
structure Slugger where
  seen : List (List Char × Nat) := []
deriving DecidableEq

namespace Slugger

def has (g : Slugger) (slug : List Char) : Bool := g.seen.any (·.1 == slug)

def record (g : Slugger) (slug : List Char) : Slugger := ⟨(slug, 0) :: g.seen⟩

def count (g : Slugger) (base : List Char) : Nat := (g.seen.lookup base).getD 0

def setCount (g : Slugger) (base : List Char) (n : Nat) : Slugger :=
  ⟨g.seen.map fun e => if e.1 = base then (base, n) else e⟩

def firstFree (g : Slugger) (base : List Char) : Nat → Nat → Nat
  | 0, n => n
  | fuel + 1, n => if g.has (numbered base n) then firstFree g base fuel (n + 1) else n

/-- A slug not handed out before. As many slugs as were seen can be in the way, so that many steps
find a free one. -/
def slug (g : Slugger) (s : List Char) : List Char × Slugger :=
  let base := ofText s
  if g.has base then
    let n := g.firstFree base g.seen.length (g.count base + 1)
    (numbered base n, (g.setCount base n).record (numbered base n))
  else (base, g.record base)

def reset (_ : Slugger) : Slugger := {}

end Slugger

end MediaLink.Slug
