import MediaLink.Srcset.Density

namespace MediaLink.Srcset

-- Powers as in the core library, also where others are in scope.
attribute [local instance (high)] instPowNat

structure Candidate where
  url : List Char
  density : Option Density := none
  width : Option Nat := none
  height : Option Nat := none
deriving DecidableEq

inductive Descriptor where
  | width (n : Nat)
  | height (n : Nat)
  | density (d : Density)
deriving DecidableEq

namespace Descriptor

def extent? (s : List Char) : Option Nat := do
  let n ← Decimal.natural? s
  if 0 < n ∧ n < 2 ^ (32 : Nat) then some n else none

def density? (s : List Char) : Option Density := do
  let d ← Decimal.ofText? s
  let density := Density.ofDecimal d
  if density.isBelowZero then none else some density

def ofToken? (token : List Char) : Option Descriptor :=
  match token.getLast? with
  | some 'w' => (extent? token.dropLast).map .width
  | some 'h' => (extent? token.dropLast).map .height
  | some 'x' => (density? token.dropLast).map .density
  | _ => none

end Descriptor

namespace Candidate

/-- A density stands alone; a width and a height may stand together; none may be repeated. -/
def add? (c : Candidate) : Descriptor → Option Candidate
  | .width n =>
    if c.width.isNone && c.density.isNone then some { c with width := some n } else none
  | .height n =>
    if c.height.isNone && c.density.isNone then some { c with height := some n } else none
  | .density d =>
    if c.width.isNone && c.height.isNone && c.density.isNone then some { c with density := some d }
    else none

def ofTokens? (url : List Char) (tokens : List (List Char)) : Option Candidate :=
  tokens.foldlM (fun c token => Descriptor.ofToken? token >>= c.add?) { url }

def hasDescriptors (c : Candidate) : Bool :=
  c.density.isSome || c.width.isSome || c.height.isSome

/-- The descriptors, each behind a space: density, then width, then height. -/
def descriptorText (c : Candidate) : List Char :=
  (c.density.elim [] fun d => ' ' :: d.text ++ ['x']) ++
    (c.width.elim [] fun n => ' ' :: Nat.toDigits 10 n ++ ['w']) ++
    (c.height.elim [] fun n => ' ' :: Nat.toDigits 10 n ++ ['h'])

end Candidate

end MediaLink.Srcset
