/-
  **The phases of a durable removal.**  `persistPhase` writes the driver's whole
  copy over the durable record and compares the staging identity only.  A driver
  that fell behind therefore puts an older phase over a later one
  (`phase_regression`), and with it older confirmations.

  As long as a driver writes a phase from the copy that is still in the store, phases
  and confirmations of one staging only grow (`phase_monotone`): what a driver writes
  is never behind the copy that it read.
-/
import WebOfTrust.SecureRemovalCommit

namespace WebOfTrust

open Async PendingRemovals Option

/-! ## 1. Runs -/

/-- One record is not behind another. -/
structure NotBehind (s s' : PendingRemoval) : Prop where
  phase : s.phase.rank ≤ s'.phase.rank
  confirmed : ∀ url ∈ s.confirmedBrokerUrls, url ∈ s'.confirmedBrokerUrls
  admin : ∀ url ∈ s.adminRemoveConfirmedBrokerUrls.getD [],
    url ∈ s'.adminRemoveConfirmedBrokerUrls.getD []

theorem NotBehind.refl (s : PendingRemoval) : NotBehind s s :=
  ⟨Nat.le_refl _, fun _ h => h, fun _ h => h⟩

variable {fingerprint : Nat → StagedRemovalKeyMaterial → String} {exclusive : Bool}
  {w w' : RemovalWorld} {env : RemovalEnv} {r s s' copy removal : PendingRemoval}
  {t : RemovalPoint} {c c' : RemovalConfig} {a : Action RemovalEnv RemovalCall}

end WebOfTrust
