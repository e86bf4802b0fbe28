/-!
# Policies

The choices that a host makes about how scripts are run.
-/

namespace Scriptlet

/-- How to run scripts. -/
structure Policy where
  /-- Whether reading an undefined variable fails; otherwise it reads as `null`. -/
  strict : Bool := true
  /-- Whether failures carry the place in the source. -/
  located : Bool := true
  /-- The number of nodes that may be active inside one another. -/
  depthLimit : Option Nat := none
  /-- The number of rounds that a single loop may take. -/
  roundLimit : Option Nat := none
deriving DecidableEq

end Scriptlet
