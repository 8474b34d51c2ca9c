/-
  **What the runtime reads and removes at a start and in a delete** (`inventory.ts`,
  `boot-matrix.ts`): the lock info of a namespace, its wipe and its verification layer by layer,
  the global layers, and the boot matrix.
-/
import WebOfTrust.AsyncPhases
import WebOfTrust.IdentityDevice

namespace WebOfTrust

open Async IdentityPlatform

/-! ## 1. Waiting for the register -/

def wait : IdentityProgram Unit := atomic .host fun _ s => (.ok (), s)

def settle : Identity.Closing → IdentityProgram Bool
  | none => .ret true
  | some (o, run) =>
    await .host (fun s => s.res.attempts.all fun a => decide (a.run ≠ run)) fun i s =>
      (.ok (i.ok && decide (s.res.state o = some .closed)), s)

def settleAll : List Identity.Closing → IdentityProgram Bool
  | [] => .ret true
  | c :: rest => do
    let one ← settle c
    let others ← settleAll rest
    return one && others

/-- `retry`: every closing opening of the namespace is closed again. -/
def Identity.retry (s : Identity) (ns : Option IdentityNs) : Identity × List Identity.Closing :=
  let left := s.res.openings.filter fun o => (s.res.opening o).any fun r =>
    decide (r.state = .closing ∧ ∀ n ∈ ns, r.ns = n)
  let retried := { s with res := s.res.retry ns }
  (retried, left.map fun o => ((retried.res.opening o).bind (·.closing)).map fun run => (o, run))

def resRetry (ns : Option IdentityNs) : IdentityProgram Bool := do
  let closing ← here fun _ s => ((s.retry ns).2, (s.retry ns).1)
  settleAll closing

/-! ## 2. The inventory -/

namespace IdentityInventory

section

variable (ns : IdentityNs)

def lockInfo : IdentityProgram LockInfo := do
  let vault ← vaultExists ns
  let head ← onlyIf (vault.any (·.isV3) = true) (vaultHead ns) none
  let biometric ← biometricAvailability
  let protection := head.getD .passphrase
  let k ← onlyIf (head.isSome = true ∧ protection ≠ .passphrase) (keystoreHas ns) none
  let bioUnusable ← onlyIf (head.isSome = true) (reads fun _ s => s.device.bioUnusable ns) false
  here fun _ s =>
    ({ protection := protection
       biometric := biometric
       bioUnusable := bioUnusable
       biometricLost := decide (protection = .biometricOnly ∧ k = some false)
       unsupported := decide (vault = some .unsupported)
       offerBiometric := s.offer ns protection biometric }, s)

def known : IdentityProgram (List IdentityNs) := reads fun _ s => s.device.known

def removeDatabase (db : IdentityDb) : IdentityProgram Unit :=
  writes .write fun i s => ((), if i.effect then s.setDevice fun d =>
    let left := Function.update (d.databases ns) db false
    { d with databases := Function.update d.databases ns left } else s)

def cancelNamespace : IdentityProgram Bool :=
  keystoreCall .write fun d => { d with scheduled := Function.update d.scheduled ns false }

def removeDelivered : IdentityProgram Bool :=
  keystoreCall .write fun d => { d with delivered := Function.update d.delivered ns false }

def wipeNamespace : IdentityProgram Unit := do
  removeDatabase ns .holder
  removeDatabase ns .app
  vaultWipe ns
  let _ ← keystoreRemove .write ns
  let cancelled ← cancelNamespace ns
  let removed ← removeDelivered ns
  here fun _ s => ((), if cancelled && removed then s.setDevice fun d =>
    { d with
      prefs := Function.update d.prefs ns false
      dismissed := Function.update d.dismissed ns false } else s)

def verifyNamespace : IdentityProgram (List Survivor) := do
  let databases ← reads fun _ s =>
    [IdentityDb.holder, .app].filter (s.device.databases ns) |>.map (Survivor.database ns)
  let wiped ← reads fun _ s => s.device.vaultWiped ns
  let k ← keystoreHas ns
  let quiet ← reads fun _ s => !s.device.scheduled ns && !s.device.delivered ns
  here fun _ s =>
    (databases ++ (if wiped then [] else [.vault ns]) ++
      (if k = some false then [] else [.keystore ns]) ++
      (if quiet then [] else [.notifications ns]) ++
      (if s.device.prefs ns then [.prefs ns] else []), s)

end

def clipboardBarrier : IdentityProgram Unit := do
  let holds ← here fun _ s => (s.device.clipboard, s)
  if holds then
    writes .write fun i s => ((), if i.effect then s.setDevice fun d =>
      { d with clipboard := false } else s)

def cancelAll : IdentityProgram Bool :=
  keystoreCall .write fun d => { d with scheduled := fun _ => false }

def removeAllDelivered : IdentityProgram Bool :=
  keystoreCall .write fun d => { d with delivered := fun _ => false }

def verifyNoNotification : IdentityProgram Bool := reads fun _ s =>
  s.device.spaces.all fun ns => !s.device.scheduled ns && !s.device.delivered ns

/-- Every namespace, one after the other; whether all its scheduled notifications are cancelled. -/
def cancelSpaces : List IdentityNs → IdentityProgram Bool
  | [] => .ret true
  | ns :: rest => do
    let cancelled ← cancelNamespace ns
    let _ ← removeDelivered ns
    let others ← cancelSpaces rest
    return cancelled && others

def wipeGlobal (ns : IdentityNs) : IdentityProgram Unit :=
  Async.finallyDo (do
    writes .write fun i s => ((), if i.effect then s.setDevice fun d =>
      { d with sessionData := [] } else s)
    let spaces ← tryCatch known fun _ => .ret []
    let listed ← reads fun _ s => s.device.spaces.filter s.device.scheduled
    let cancelled ← cancelSpaces ((ns :: spaces ++ listed).dedup)
    let all ← cancelAll
    let removed ← removeAllDelivered
    if cancelled && all && removed then
      let clean ← verifyNoNotification
      here fun _ s => ((), if clean then s.setDevice fun d =>
        { d with prefs := fun _ => false, dismissed := fun _ => false, terms := none } else s))
    fun _ => clipboardBarrier

def verifyAll (ns : IdentityNs) : IdentityProgram (List Survivor) := do
  let own ← verifyNamespace ns
  let prefs ← here fun _ s =>
    ((s.device.spaces.filter s.device.prefs).map Survivor.prefs ++
      (if s.device.terms.isSome then [.terms] else []), s)
  let sessionData ← reads fun _ s => s.device.sessionData.map Survivor.sessionData
  let quiet ← verifyNoNotification
  let clipboard ← here fun i s => (s.device.clipboard || !i.ok, s)
  let others ← reads fun _ s => s.device.vaultSpaces.map Survivor.vault
  return own ++ prefs ++ sessionData ++ (if quiet then [] else [.allNotifications]) ++
    (if clipboard then [.clipboard] else []) ++ others

def legacySurvivors : IdentityProgram (List Survivor) := do
  let legacy ← reads fun _ s => s.device.legacy
  let key ← atomic .read fun i s => (.ok (i.fails || s.device.legacyKeystore), s)
  return (if legacy then [.legacy] else []) ++ (if key then [.legacyKeystore] else [])

end IdentityInventory

end WebOfTrust
