import Rollout.Proofs.Condition.Percent
import Rollout.Proofs.Condition.Test
import Rollout.Proofs.Entries.Extend
import Rollout.Proofs.Resolution.Run
import Rollout.Proofs.Variant.Parsed

/-! # Resolutions in parts

A configuration that is cut in two is resolved part by part: the second part goes on in the scope
that the first leaves, the outcomes are put together and the mods of the second part extend those of
the first. Mods merge associatively, so where the cut is made does not show, unless a test of the
first part takes the service off the scope: the engine attaches its own once for each resolution. -/
namespace Rollout
set_option autoImplicit false

/-! ## Merging -/

namespace Mods

end Mods

variable {G : Type}

namespace Variant

end Variant

/-! ## The service from one part to the next -/

section Resolutions

variable [RandomSource G]

end Resolutions

end Rollout
