/-
  **Delete, the Gen-2 reset, lock, and the runtime as one lane** (`runtime.ts`, `lifecycle.ts`).

  Everything that comes from outside the lane is an event: a lock, an answer of the holder host, the
  dismissal of an offer, and the data that other parts of the app leave on the device.
-/
import WebOfTrust.IdentityAccess

namespace WebOfTrust

open Async IdentityPlatform IdentityInventory Function

namespace IdentityRuntime

/-! ## 1. Delete -/

def deleteTarget (s : Identity) : Option IdentityNs :=
  (s.deleteNs.or (s.sessionNow.map (·.ns))).or s.target

def delMarker (step : ResumeStep) : IdentityProgram Unit := do
  match ← here fun _ s => (deleteTarget s, s) with
  | some ns => setResume (some (marker .wipe step ns none none (← now)))
  | none => return ()

/-- `delHolder`: the opening that the session of the delete owns. -/
def delHolder (s : Identity) : Option OpeningId :=
  s.session.bind fun lease =>
    if (s.sessions lease).any fun x => decide (some x.ns = s.deleteNs) then s.res.holder lease
    else none

def delPhase (ph : ShutdownPhase) : IdentityProgram Bool := do
  match ← here fun _ s => (delHolder s, s) with
  | some o => phaseHolder o ph
  | none => return true

def freeze (s : Identity) : Identity :=
  match s.session, s.sessionNow with
  | some lease, some x =>
    if s.deleteNs = none ∨ some x.ns = s.deleteNs then
      s.setSession lease fun x => { x with frozen := true }
    else s
  | _, _ => s

def deleteQuiesce : IdentityProgram StepResult := do
  let known ← here fun _ s => (deleteTarget s, freeze s)
  let ns ← onlyIf (known = none) vaultActive known
  match ns with
  | none => return .bug
  | some ns =>
    here fun _ s => ((), { s with deleteNs := some ns, remote := (0, 0), deleteVerdict := .unknown })
    delMarker .quiescing
    let ok ← delPhase .quiesce
    return if ok then .ok else .storageError

def deleteDeregister : IdentityProgram StepResult := do
  delMarker .deregistering
  match ← here fun _ s => (delHolder s, s) with
  | some o =>
    useHolder o
    here fun i s => (.remote i.number i.names.length, { s with remote := (i.number, i.names.length) })
  | none => here fun _ s => (.remote 0 0, { s with remote := (0, 0) })

def deleteSeal : IdentityProgram StepResult := do
  let ok ← delPhase .seal
  if !ok then return .storageError
  delMarker .sealed
  return .ok

/-- S5 of the session and the pending setup, and of any opening that a failed close has left. -/
def deleteClose : IdentityProgram StepResult := do
  let closing ← here fun _ s =>
    let session := s.endSession
    let pending := session.1.dropPending
    let retried := pending.1.retry none
    (session.2 :: pending.2 :: retried.2, retried.1)
  let ok ← settleAll closing
  return if ok then .ok else .storageError

def deleteWipe : IdentityProgram StepResult := do
  let target ← here fun _ s =>
    (s.deleteNs, if s.deleteNs.isSome then { s with deleteVerdict := .unknown } else s)
  match target with
  | none => return .bug
  | some ns =>
    Async.finallyDo (do
      wipeNamespace ns
      wipeGlobal ns
      orphans []) fun _ => clipboardBarrier
    return .ok

def holderSurvivors (s : Identity) : List Survivor := s.res.openings.map Survivor.holder

def deleteVerify : IdentityProgram StepResult := do
  match ← here fun _ s => (s.deleteNs, { s with deleteVerdict := .unknown }) with
  | none => return .failed
  | some ns =>
    let out ← verifyAll ns
    here fun _ s =>
      let survivors := (out ++ holderSurvivors s).dedup
      (.verified survivors, { s with
        survivors
        deleteVerdict := if survivors = [] then .clean else .survivors })

def deleteFinish : IdentityProgram StepResult := do
  let clean ← here fun _ s => (decide (s.deleteVerdict = .clean), s)
  let report ← here fun _ s => (StepResult.report clean s.remote.1 s.remote.2, s)
  if clean then
    -- the marker is the last write
    setResume none
    here fun _ s => ((), { s with deleteNs := none, target := none }.setStatus (.none none))
  return report

/-! ## 2. Gen 2 -/

def legacyWipe : IdentityProgram StepResult := do
  here fun _ s => ((), { s with legacyVerdict := .unknown })
  setResume (some (marker .legacyWipe .wiping "gen2" none none (← now)))
  writes .write fun i s =>
    ((), if i.effect then s.setDevice fun d => { d with legacy := false } else s)
  let _ ← keystoreCall .write fun d => { d with legacyKeystore := false }
  return .ok

def legacyVerify : IdentityProgram StepResult := do
  let out ← legacySurvivors
  here fun _ s => (.verified out, { s with
    survivors := out
    legacyVerdict := if out = [] then .clean else .survivors })

def legacyMark (ticket : Nat) : IdentityProgram StepResult := do
  let clean ← here fun _ s => (decide (s.legacyVerdict = .clean), s)
  onlyIf (clean = true) (setResume none) ()
  here fun _ s => ((), s.dropSession.1.dropPending.1)
  let _ ← reconcile ticket
  return .ok

/-! ## 3. Lock -/

def lockNow (s : Identity) : Identity × Option IdentityNs :=
  let ns := (s.sessionNow.map (·.ns)).or s.target
  ((s.revoke.1.retry none).1.lockIfOrphaned ns, ns)

def refreshLocked (ns : IdentityNs) (mine : Nat) : IdentityProgram Unit := do
  let active ← vaultActive
  if active ≠ some ns then return ()
  let info ← lockInfo ns
  here fun _ s => ((), if s.statusAt = mine then
    { s with target := some ns }.setStatus (.locked info) else s)

/-- What lock goes on with: the closes, and a refresh of the lock info while nothing was published. -/
def lockCleanup (ns : Option IdentityNs) (mine : Nat) (closing : List Identity.Closing) :
    IdentityProgram StepResult := do
  let _ ← settleAll closing
  match ns with
  | none => return .ok
  | some ns =>
    tryCatch (refreshLocked ns mine) fun _ => .ret ()
    return .ok

def isLocked : IdentityStatus → Bool
  | .locked _ => true
  | _ => false

def lockJoined : IdentityProgram StepResult := do
  wait
  let _ ← resRetry none
  return .ok

end IdentityRuntime

/-! ## 4. The runtime as a lane -/

inductive IdentityCall where
  | boot
  | reserve (flow : SetupFlow) (mode : ProtectionMode)
  | keystoreFirst (ns : IdentityNs)
  | undoKeystore (ns : IdentityNs)
  | writeVault (ns : IdentityNs) (words : Option MnemonicError) (protection : ProtectionInput)
  | undoVault (ns : IdentityNs)
  | keystoreAfter (ns : IdentityNs)
  | markBioUnusable (ns : IdentityNs)
  | initHolder (ns : Option IdentityNs)
  | activate (ns : Option IdentityNs)
  | switchTo (ns : IdentityNs)
  | wipeOld
  | verifyOld
  | finishRestore
  | unlockBiometric
  | unlockPassphrase (pass : String)
  | unlockMarkBioUnusable
  | unlockOpen
  | reprotect
  | restoreKeystore
  | enableBiometric
  | prove (pass : Option String)
  | keystoreStore
  | setHead (biometric : Bool)
  | rewrap (pass : String)
  | keystoreRemove
  | acceptTerms (version : String)
  | deleteQuiesce
  | deleteDeregister
  | deleteSeal
  | deleteClose
  | deleteWipe
  | deleteVerify
  | deleteFinish
  | legacyWipe
  | legacyVerify
  | legacyMark
deriving DecidableEq

namespace IdentityCall

def kind : IdentityCall → LaneKind
  | .initHolder _ | .activate _ | .switchTo _ | .finishRestore | .unlockBiometric
  | .unlockPassphrase _ | .unlockOpen | .reprotect | .restoreKeystore | .enableBiometric | .prove _
  | .keystoreStore | .setHead _ | .rewrap _ | .keystoreRemove | .acceptTerms _ => .session
  | _ => .storage

/-- `JOINABLE`, and boot. -/
def joinable : IdentityCall → Bool
  | .boot | .activate _ | .switchTo _ | .finishRestore | .unlockOpen | .deleteQuiesce
  | .deleteDeregister | .deleteSeal | .deleteClose | .deleteWipe => true
  | _ => false

/-- `BOOTS`: what a lock joins. -/
def boots : IdentityCall → Bool
  | .boot | .legacyMark => true
  | _ => false

end IdentityCall

inductive AppLayer where
  | database (db : IdentityDb)
  | scheduled
  | delivered
  | prefs

inductive IdentityEvent where
  | lock
  /-- `dismissBiometricOffer`. -/
  | dismissOffer
  /-- The holder host has answered the oldest call of an opening. -/
  | hostAnswer (o : OpeningId) (ok : Bool)
  | appWrites (ns : IdentityNs) (layer : AppLayer)
  | copied (sessionData : List String)

namespace IdentityRuntime

def appWrites (ns : IdentityNs) (layer : AppLayer) (d : Device) : Device :=
  match layer with
  | .database db =>
    { d with databases := update d.databases ns (update (d.databases ns) db true) }
  | .scheduled => { d with scheduled := update d.scheduled ns true }
  | .delivered => { d with delivered := update d.delivered ns true }
  | .prefs => { d with prefs := update d.prefs ns true }

/-- `dismissBiometricOffer`. -/
def dismissOffer (s : Identity) : Identity :=
  match (s.sessionNow.map (·.ns)).or s.target with
  | some ns => s.setDevice fun d =>
      { d with
        dismissed := update d.dismissed ns true
        prefs := update d.prefs ns true }
  | none => s

def lockEvent (holder : Option IdentityCall) (s : Identity) :
    Identity × List (IdentityProgram StepResult) :=
  if holder.any (·.boots) then (s, [lockJoined])
  else
    let closing := s.revoke.2 ++ (s.revoke.1.retry none).2
    let did := lockNow s
    (did.1, [lockCleanup (if isLocked did.1.status then did.2 else none) did.1.statusAt closing])

def event : IdentityEvent → Option IdentityCall → Identity →
    Identity × List (IdentityProgram StepResult)
  | .lock, holder, s => lockEvent holder s
  | .dismissOffer, _, s => (dismissOffer s, [])
  | .hostAnswer o ok, _, s => ({ s with res := (s.res.answer o ok).getD s.res }, [])
  | .appWrites ns layer, _, s => (s.setDevice (appWrites ns layer), [])
  | .copied data, _, s => (s.setDevice fun d => { d with sessionData := data, clipboard := true }, [])

def before : IdentityCall → Identity → Identity
  | .boot, s => s.revoke.1.setStatus .booting
  | _, s => s

def program (nfc : String → String) : IdentityCall → Nat → IdentityProgram StepResult
  | .boot, t => boot t
  | .reserve flow mode, _ => reserve flow mode
  | .keystoreFirst ns, _ => keystoreFirst ns
  | .undoKeystore ns, _ => undoKeystore ns
  | .writeVault ns words protection, _ => writeVault nfc ns words protection
  | .undoVault ns, _ => undoVault ns
  | .keystoreAfter ns, _ => keystoreAfter ns
  | .markBioUnusable ns, _ => markBioUnusable ns
  | .initHolder ns, t => initHolder t ns
  | .activate ns, t => activate t ns
  | .switchTo ns, t => switchTo t ns
  | .wipeOld, _ => wipeOld
  | .verifyOld, _ => verifyOld
  | .finishRestore, t => finishRestore t
  | .unlockBiometric, t => unlockBiometric t
  | .unlockPassphrase pass, t => unlockPassphrase nfc pass t
  | .unlockMarkBioUnusable, _ => unlockMarkBioUnusable
  | .unlockOpen, t => unlockOpen t
  | .reprotect, t => reprotect t
  | .restoreKeystore, t => restoreKeystore t
  | .enableBiometric, t => enableBiometric t
  | .prove pass, t => prove nfc pass t
  | .keystoreStore, t => keystoreStore t
  | .setHead biometric, t => setHead biometric t
  | .rewrap pass, t => rewrap nfc pass t
  | .keystoreRemove, t => keystoreRemove t
  | .acceptTerms version, t => acceptTerms version t
  | .deleteQuiesce, _ => deleteQuiesce
  | .deleteDeregister, _ => deleteDeregister
  | .deleteSeal, _ => deleteSeal
  | .deleteClose, _ => deleteClose
  | .deleteWipe, _ => deleteWipe
  | .deleteVerify, _ => deleteVerify
  | .deleteFinish, _ => deleteFinish
  | .legacyWipe, _ => legacyWipe
  | .legacyVerify, _ => legacyVerify
  | .legacyMark, t => legacyMark t

def restart (s : Identity) : Identity :=
  { Identity.start s.device with passphrases := s.passphrases }

/-- The runtime: `lifecycle.ts` with the steps of `runtime.ts`. -/
def system (nfc : String → String) :
    LaneSystem IdentityPoint PlatformAnswer Identity Unit StepResult IdentityCall IdentityEvent where
  kind := (·.kind)
  joins k running := k.joinable && decide (k = running)
  queues k := decide (k = .boot)
  epoch := (·.epoch)
  before := before
  program := program nfc
  event := event
  restart := restart

end IdentityRuntime

end WebOfTrust
