import Groovebox.Table
/-! # Track speeds

A track runs at one of nine fixed ratios of the master clock. -/

namespace Groovebox

/-- How fast a track runs against the master clock. -/
inductive Speed
  | quarter | third | half | twoThirds | normal | threeHalves | double | triple | quadruple
deriving DecidableEq, Inhabited, Repr

namespace Speed

instance : Table Speed where
  all := [quarter, third, half, twoThirds, normal, threeHalves, double, triple, quadruple]
  name
    | quarter => "1/4x"
    | third => "1/3x"
    | half => "1/2x"
    | twoThirds => "2/3x"
    | normal => "1x"
    | threeHalves => "3/2x"
    | double => "2x"
    | triple => "3x"
    | quadruple => "4x"
  mem_all := by intro s; cases s <;> decide

/-- The ratio as the engine reads it: the shortest decimal that reads back as the double nearest
to the ratio. -/
def multiplier : Speed → String
  | quarter => "0.25"
  | third => "0.3333333333333333"
  | half => "0.5"
  | twoThirds => "0.6666666666666666"
  | normal => "1"
  | threeHalves => "1.5"
  | double => "2"
  | triple => "3"
  | quadruple => "4"

end Speed
end Groovebox
