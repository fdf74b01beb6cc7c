/- Printed dates come in the order of their seconds. -/
import Stencil.Function.Builtin
import Stencil.Proofs.Function.Calendar
import Stencil.Usual

namespace Stencil

namespace Text

end Text

namespace Moment

namespace Shows

variable {m n : Moment} {s s' : Int}

end Shows

end Moment

namespace Builtin

end Builtin

end Stencil
