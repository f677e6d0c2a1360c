import Interconnect.Number.Shortest

namespace Interconnect

def byteSizeText (bytes : Nat) : String :=
  if bytes < 3000 then s!"{bytes} bytes"
  else
    let unit := Binary64.ofNat 1024
    let kilobytes := (Binary64.ofNat bytes).div unit
    if kilobytes.lt (Binary64.ofNat 3000) then String.ofList kilobytes.render ++ " KB"
    else String.ofList (kilobytes.div unit).render ++ " MB"

end Interconnect
