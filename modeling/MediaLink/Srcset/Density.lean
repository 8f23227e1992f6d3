import MediaLink.Binary64

namespace MediaLink.Srcset

structure Density where
  negative : Bool
  magnitude : Binary64
deriving DecidableEq

namespace Density

def ofDecimal (d : Decimal) : Density := ⟨d.negative, .ofDecimal d.significand d.exponent⟩

/-- A negative zero is not below zero. -/
def isBelowZero (d : Density) : Bool := d.negative && d.magnitude != Binary64.zero

def text (d : Density) : List Char :=
  if d.negative then '-' :: d.magnitude.text else d.magnitude.text

end Density

end MediaLink.Srcset
