/-
  **The identity runtime** (`runtime.ts`, `boot-matrix.ts`): every port step as a transition of the
  lane, and lock beside it.

  `ticket` is the epoch that a transition was begun in.  A step that is called on a session or a
  pending setup keeps its lease, as the source keeps the object.
-/
import Mathlib.Algebra.GroupWithZero.Nat
import WebOfTrust.IdentityInventory

namespace WebOfTrust

open Async IdentityPlatform IdentityInventory

/-! ## 1. What steps answer -/

inductive MnemonicError where
  | invalid
  | checksum
deriving DecidableEq

inductive RefusedCode where
  | passphraseWrong
  | lastAccess
  | mnemonic (e : MnemonicError)
  | passphraseTooShort
deriving DecidableEq

/-- How `openHolder` ends. -/
inductive HolderOpen where
  | ok
  | locked
  | otherWriter
  | unreadable

inductive StepResult where
  | ok
  | reserved (ns : IdentityNs)
  | locked
  | bug
  | storageError
  | unavailable
  | unreadable
  | refused (code : RefusedCode)
  | platform (code : RetrieveCode)
  /-- `NO`, or what the keystore reports. -/
  | failed
  | biometric (code : RetrieveCode)
  | vaultMismatch
  | orphan (b : Bool)
  | verified (survivors : List Survivor)
  | remote (done failed : Nat)
  | report (clean : Bool) (done failed : Nat)
  | status (s : IdentityStatus)
deriving DecidableEq

/-- `pass.length`, in UTF-16 units. -/
def utf16Length (s : String) : Nat := (s.toList.map fun c => if c.toNat < 0x10000 then 1 else 2).sum

inductive ProtectionInput where
  | biometricOnly
  | passphrase (biometric : Bool) (pass : String)
deriving DecidableEq

def ProtectionInput.mode : ProtectionInput → ProtectionMode
  | .biometricOnly => .biometricOnly
  | .passphrase biometric _ => if biometric then .passphraseBiometric else .passphrase

def termsVersion : String := "2026-10-27"

/-! ## 2. State and effects -/

namespace IdentityRuntime

variable (ticket : Nat)

/-- `commit`: the state, if the transition is still current. -/
def commit (next : IdentityStatus) : IdentityProgram IdentityStatus :=
  here fun _ s =>
    let s' := if s.epoch = ticket then s.setStatus next else s
    (s'.status, s')

def lockInfo (ns : IdentityNs) : IdentityProgram LockInfo := do
  let info ← IdentityInventory.lockInfo ns
  here fun _ s => (info, { s with lockInfos := Function.update s.lockInfos ns (some info) })

variable (lease : LeaseId)

def sessionCurrent (s : Identity) : Bool :=
  decide (s.epoch = ticket) && decide (s.session = some lease) &&
    (s.sessions lease).any (fun x => !x.frozen)

/-- `publish`: unlocked, if the session is still live after the last await. -/
def publish : IdentityProgram StepResult := do
  let first ← here fun _ s =>
    (if sessionCurrent ticket lease s then
      match s.res.holder lease, s.sessions lease with
      | some _, some x => Except.ok x.ns
      | _, _ => .error StepResult.ok
    else .error StepResult.locked, s)
  match first with
  | .error answer => return answer
  | .ok ns =>
    let head ← vaultHead ns
    let biometric ← biometricAvailability
    here fun _ s =>
      match s.opened lease, s.sessions lease with
      | some o, some x =>
        if sessionCurrent ticket lease s then
          let inUse := if s.deleteNs = some ns then s.inUse else some o
          (.ok, { s with inUse }.setStatus (.unlocked
            { protection := head.getD .passphrase
              recovered := x.recovered
              termsAccepted := decide (s.device.terms = some termsVersion)
              biometric := biometric }))
        else (.locked, s)
      | _, _ => (.locked, s)

/-- `effect`: a platform write starts only while the ticket is current and the lease is held. -/
def effect {α : Type} (ticket : Nat) (lease : Option LeaseId) (write : IdentityProgram α) :
    IdentityProgram (Option α) := do
  let current ← here fun _ s =>
    (decide (s.epoch = ticket) && lease.all (fun l => !s.res.released l), s)
  if current then
    let r ← write
    return some r
  else return none

/-- The proven secret of a session, for a write that `effect` lets start. -/
def provenNow (s : Identity) : Option AccessSecret :=
  if s.epoch = ticket ∧ s.res.released lease = false then (s.sessions lease).map (·.proven)
  else none

/-- `openHolder`: the opening belongs to the lease, unless that was released meanwhile. -/
def openHolder (ns : IdentityNs) : IdentityProgram HolderOpen := do
  wait
  let released ← here fun _ s => (s.res.released lease, s)
  if released then return .locked
  let r ← atomic .host fun i s =>
    if i.fails then (.error (), s)
    else (.ok (if i.ok then HolderOpen.ok else if i.effect then .otherWriter else .unreadable), s)
  match r with
  | .otherWriter =>
    let _ ← commit ticket .otherWriter
    return .otherWriter
  | .ok =>
    here fun _ s =>
      (if s.res.released lease = false ∧ s.res.holder lease = none ∧ s.epoch = ticket then .ok
        else .locked, { s with res := s.res.adopt lease ns })
  | answer => return answer

def useHolder (o : OpeningId) : IdentityProgram Unit := do
  let active ← here fun _ s => (decide (s.res.state o = some .active), { s with res := s.res.use o })
  if active then atomic .host fun i s => (if i.fails then .error () else .ok (), s)
  else .fail ()

/-- `phase`: quiesce or seal. -/
def phaseHolder (o : OpeningId) (ph : ShutdownPhase) : IdentityProgram Bool := do
  let state ← here fun _ s => (s.res.state o, { s with res := s.res.phase o ph })
  match state with
  | some .active => atomic .host fun i s => (.ok i.ok, s)
  | state => return decide (state = some .closed)

/-! ## 3. The boot matrix -/

def wipeNamespace (ns : IdentityNs) : IdentityProgram Unit := do
  let closing ← here fun _ s =>
    if s.sessionNow.any (fun x => decide (x.ns = ns)) then (s.endSession.2, s.endSession.1)
    else (none, s)
  let _ ← settle closing
  let _ ← resRetry (some ns)
  IdentityInventory.wipeNamespace ns

def orphans (keep : List IdentityNs) : IdentityProgram Unit := do
  let known ← known
  forEach (known.filter fun ns => decide (ns ∉ keep)) wipeNamespace

/-- `locked`: locked for the namespace, which becomes the target. -/
def lockedFor (ns : IdentityNs) : IdentityProgram IdentityStatus := do
  let info ← lockInfo ns
  here fun _ s =>
    let s' := if s.epoch = ticket then { s with target := some ns }.setStatus (.locked info) else s
    (s'.status, s')

section

variable (m : ResumeMarker)

def bootSetup : IdentityProgram IdentityStatus := do
  let vault ← vaultExists m.ns
  if vault = none then
    -- setup/keystore without vault, or setup/holder whose vault is missing
    wipeNamespace m.ns
    setResume none
    commit ticket (.none (some .setupInterrupted))
  else
    here fun _ s => ((), { s with target := some m.ns })
    let info ← lockInfo m.ns
    let k ← onlyIf (info.protection = .passphraseBiometric) (keystoreHas m.ns) none
    if k = some false then
      setBioUnusable m.ns true
      commit ticket (.resumingSetup { info with bioUnusable := true })
    else commit ticket (.resumingSetup info)

/-- An active identity: the orphans go, and an entry of the keystore that its head does not name. -/
def bootActive (active : IdentityNs) : IdentityProgram IdentityStatus := do
  orphans [active]
  let head ← vaultHead active
  let k ← onlyIf (head = some .passphrase) (keystoreHas active) none
  let _ ← onlyIf (k = some true) (keystoreRemove .write active) true
  lockedFor ticket active

def bootUnmarked : IdentityProgram IdentityStatus := do
  let data ← reads fun _ s => s.device.legacy
  let legacy ← onlyIf (data = false)
    (atomic .read fun i s => (.ok (!i.fails && s.device.legacyKeystore), s)) true
  if legacy then commit ticket (.legacyGen2 false)
  else
    match ← vaultActive with
    | none =>
      orphans []
      commit ticket (.none none)
    | some active =>
      match ← vaultExists active with
      | none => commit ticket (.none (some .accessMissing))
      | some .unsupported =>
        here fun _ s => ((), { s with target := some active })
        let info ← lockInfo active
        commit ticket (.locked { info with unsupported := true })
      | some (.v3 _) => bootActive ticket active

def bootWipe : IdentityProgram IdentityStatus := do
  here fun _ s => ((), { s with deleteNs := some m.ns })
  let afterSeal := decide (m.step = .sealed)
  let vault ← onlyIf (afterSeal = false) (vaultExists m.ns) none
  let lock ← onlyIf (vault.any (·.isV3) = true) (some <$> lockInfo m.ns) none
  here fun _ s => ((), { s with target := some m.ns })
  commit ticket (.resumingWipe afterSeal lock)

def bootSwitched : IdentityProgram IdentityStatus := do
  let active ← vaultActive
  -- never destroy on suspicion
  if active ≠ some m.ns then commit ticket .storageBlocked
  else
    let _ ← commit ticket .resumingRestoreSwitch
    m.nsOld.elim (.ret ()) wipeNamespace
    let survivors ← (m.nsOld.elim (.ret []) verifyNamespace : IdentityProgram (List Survivor))
    here fun _ s => ((), { s with survivors })
    -- the marker stays until the old namespace is verified gone
    onlyIf (survivors = []) (setResume none) ()
    lockedFor ticket m.ns

def bootStaging : IdentityProgram IdentityStatus := do
  wipeNamespace m.ns
  setResume none
  match ← vaultActive with
  | some active => lockedFor ticket active
  | none => commit ticket (.none none)

end

/-- `bootMatrix`: from the marker, the active pointer and what the device holds to the state. -/
def bootMatrix : IdentityProgram IdentityStatus := do
  let usable ← reads fun i _ => i.ok
  if !usable then commit ticket .storageBlocked
  else
    let missing ← here fun i s => (i.names, s)
    if missing ≠ [] then commit ticket (.cryptoUnavailable missing)
    else
      match ← vaultResume with
      | none => bootUnmarked ticket
      | some m =>
        match m.flow with
        | .wipe => bootWipe ticket m
        | .legacyWipe => commit ticket (.legacyGen2 true)
        | .restore => if m.step = .switched then bootSwitched ticket m else bootStaging ticket m
        | .setup => bootSetup ticket m

/-- `reconcile`, once what was released is closed. -/
def reconcile : IdentityProgram IdentityStatus := do
  let closing ← here fun _ s => ((s.retry none).2, (s.retry none).1)
  wait
  let _ ← settleAll closing
  here fun _ s => ((), { s with retrieveReport := none })
  let _ ← commit ticket .booting
  bootMatrix ticket

def boot : IdentityProgram StepResult := do
  let s ← reconcile ticket
  return .status s

end IdentityRuntime

end WebOfTrust
