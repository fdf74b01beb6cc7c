/- What is left to the machine under a compiler and to the libraries there. -/
import Stencil.Function.Moment
import Stencil.Number.Double

namespace Stencil

/-- The clock of a machine, in the zone of that machine: the present, and the moment of a count of
seconds since 1970 if the clock reaches as far. -/
structure Clock where
  now : Moment
  moment? : Int → Option Moment

/-- The clock, and the notation in which doubles are printed. -/
structure Platform where
  clock : Clock
  doubleText : Double → Text

end Stencil
