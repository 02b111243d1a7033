import SpoolTag.Config
import SpoolTag.Daemon.Address
import SpoolTag.Daemon.Watcher

/-!
# Serving

The web server listens at its address; the watcher polls beside it from the first moment on.
-/

namespace SpoolTag

namespace Daemon

variable {σ : Type}

/-- How many polls begin within some milliseconds, the first of them at once. -/
def pollsWithin (milliseconds period : Nat) : Nat := (milliseconds - 1) / period + 1

/-- Serves at an address for some milliseconds, with a watcher that polls at the given period; the
clock gives the time at so many milliseconds from the start. An address where it cannot listen stops
the server at once, but not before the watcher has begun. -/
def serve (d : Daemon σ) (clock : Nat → String) (address : String) (period milliseconds : Nat) :
    Act σ (Except AddressFault Unit) := do
  if period = 0 then Act.report .watcherDisabled
  let bound := Endpoint.ofText address
  if bound.isOk then Act.report (.serving address)
  if period ≠ 0 then
    let watcher ← Watcher.start period
    let polls := if bound.isOk then pollsWithin milliseconds period else 1
    let _ ← watcher.run d ((List.range polls).map fun k => clock (k * period))
  pure (bound.map fun _ => ())

end Daemon

end SpoolTag
