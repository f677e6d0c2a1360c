import Mathlib
import Interconnect.Proofs.Port.Separation

namespace Interconnect

namespace Port

variable {p q : Port} {vnet vnets channel : Nat} {selection : Selection} {c : Channel} {free : List Nat}

instance (p : Port) (vnet : Nat) (selection : Selection) : DecidablePred (p.Opens vnet selection) := fun _ =>
  inferInstanceAs (Decidable (_ ∨ _))

end Port

end Interconnect
