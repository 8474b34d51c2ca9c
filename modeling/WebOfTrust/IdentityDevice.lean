/-
  **What the identity runtime sees of its device, and what it holds** (`runtime.ts`,
  `inventory.ts`, LIFECYCLE.md).

  A call of the platform is one atomic piece: it takes effect, or it rejects and has none.  A
  keystore call may take effect whatever it reports.  Secrets are symbolic: the bytes of a
  passphrase, or one of the random secrets of the keystore; a record of the vault is opened by the
  secret that it was sealed with.  The bytes that leases own are left to the register.
-/
import WebOfTrust.AsyncLane
import WebOfTrust.ResourceRegister
import WebOfTrust.SeedVault

namespace WebOfTrust

open Async Function

/-! ## 1. The device -/

/-- A vault password: the bytes of a passphrase, or a secret of the keystore. -/
inductive AccessSecret where
  | passphrase (bytes : String)
  | random (n : Nat)
deriving DecidableEq

structure AccessRecord where
  secret : AccessSecret
  protection : ProtectionMode
deriving DecidableEq

inductive DeviceVault where
  | v3 (record : AccessRecord)
  | unsupported
deriving DecidableEq

inductive IdentityDb where
  | holder
  | app
deriving DecidableEq

structure Device where
  vaults : IdentityNs → Option DeviceVault
  init : IdentityNs → Bool
  bioUnusable : IdentityNs → Bool
  active : Option IdentityNs
  resume : Option ResumeMarker
  keystore : IdentityNs → Option AccessSecret
  databases : IdentityNs → IdentityDb → Bool
  /-- Notifications of the namespace that are scheduled, and that are shown. -/
  scheduled : IdentityNs → Bool
  delivered : IdentityNs → Bool
  /-- The namespace has prefs. -/
  prefs : IdentityNs → Bool
  /-- `bio-offer-dismissed`. -/
  dismissed : IdentityNs → Bool
  terms : Option String
  /-- What the session data and the clipboard have left. -/
  sessionData : List String
  clipboard : Bool
  /-- The Gen-2 data, and its keystore entry. -/
  legacy : Bool
  legacyKeystore : Bool
  /-- Every namespace that there has been. -/
  spaces : List IdentityNs

/-- `exists` says `v3`. -/
def DeviceVault.isV3 : DeviceVault → Bool
  | .v3 _ => true
  | .unsupported => false

namespace Device

def empty : Device where
  vaults _ := none
  init _ := false
  bioUnusable _ := false
  active := none
  resume := none
  keystore _ := none
  databases _ _ := false
  scheduled _ := false
  delivered _ := false
  prefs _ := false
  dismissed _ := false
  terms := none
  sessionData := []
  clipboard := false
  legacy := false
  legacyKeystore := false
  spaces := []

variable (d : Device)

def head (ns : IdentityNs) : Option ProtectionMode :=
  match d.vaults ns with
  | some (.v3 record) => some record.protection
  | _ => none

def vaultSpaces : List IdentityNs :=
  d.spaces.filter fun ns => (d.vaults ns).isSome || d.init ns || d.bioUnusable ns

/-- `known`: the namespaces that the vault or the host knows. -/
def known : List IdentityNs :=
  d.spaces.filter fun ns =>
    (d.vaults ns).isSome || d.init ns || d.bioUnusable ns || d.databases ns .holder ||
      d.databases ns .app

variable (ns : IdentityNs)

def setVault (v : Option DeviceVault) : Device :=
  { d with vaults := update d.vaults ns v }

def setKeystore (secret : Option AccessSecret) : Device :=
  { d with keystore := update d.keystore ns secret }

/-- `activate`: the pointer, and the marker that goes with it. -/
def activate (marker : Option ResumeMarker) : Device :=
  { d with active := some ns, init := update d.init ns false, resume := marker }

/-- The transaction of `wipe`. -/
def wipeVault : Device :=
  { d with
    vaults := update d.vaults ns none
    init := update d.init ns false
    bioUnusable := update d.bioUnusable ns false
    active := if d.active = some ns then none else d.active }

/-- `verifyWiped`. -/
def vaultWiped : Bool :=
  (d.vaults ns).isNone && !d.init ns && !d.bioUnusable ns && decide (d.active ≠ some ns)

end Device

/-! ## 2. The runtime -/

structure LockInfo where
  protection : ProtectionMode
  /-- Biometrics are available. -/
  biometric : Bool
  biometricLost : Bool
  bioUnusable : Bool
  unsupported : Bool
  offerBiometric : Bool
deriving DecidableEq

inductive NoneHint where
  | setupInterrupted
  | accessMissing
deriving DecidableEq

inductive Recovered where
  | full
  | keysOnly
deriving DecidableEq

structure UnlockedInfo where
  protection : ProtectionMode
  recovered : Option Recovered
  termsAccepted : Bool
  biometric : Bool
deriving DecidableEq

/-- `IdentityState`. -/
inductive IdentityStatus where
  | booting
  | storageBlocked
  | cryptoUnavailable (missing : List String)
  | legacyGen2 (resume : Bool)
  | resumingSetup (info : LockInfo)
  | resumingRestoreSwitch
  | resumingWipe (afterSeal : Bool) (lock : Option LockInfo)
  | none (hint : Option NoneHint)
  | locked (info : LockInfo)
  | otherWriter
  | unlocked (info : UnlockedInfo)
deriving DecidableEq

inductive SetupFlow where
  | setup
  | restore
deriving DecidableEq

structure Pending where
  flow : SetupFlow
  ns : IdentityNs
  mode : ProtectionMode
  nsOld : Option IdentityNs
  ksSecret : Option AccessSecret
  keys : Bool
  password : Option AccessSecret

inductive ProvenBy where
  | passphrase
  | keystore
deriving DecidableEq

structure Session where
  ns : IdentityNs
  proven : AccessSecret
  provenBy : ProvenBy
  recovered : Option Recovered
  frozen : Bool

inductive RetrieveReport where
  | invalidated
  | missing
  | mismatch
deriving DecidableEq

inductive Verdict where
  | unknown
  | clean
  | survivors
deriving DecidableEq

inductive Survivor where
  | database (ns : IdentityNs) (db : IdentityDb)
  | vault (ns : IdentityNs)
  | keystore (ns : IdentityNs)
  | notifications (ns : IdentityNs)
  | prefs (ns : IdentityNs)
  | terms
  | sessionData (name : String)
  | allNotifications
  | clipboard
  | holder (o : OpeningId)
  | legacy
  | legacyKeystore
deriving DecidableEq

/-- The runtime: a session and a pending setup are known by their lease, and stay what they are when
    they are not the current ones any more.  `passphrases` and `installed` are history: the
    passphrase that was set last for a namespace, and the namespaces of all sessions since the
    start. -/
structure Identity where
  device : Device
  res : Resources
  epoch : Nat
  status : IdentityStatus
  /-- How often the state was set: it is the same object only while that stays. -/
  statusAt : Nat
  pendings : LeaseId → Option Pending
  pending : Option LeaseId
  sessions : LeaseId → Option Session
  session : Option LeaseId
  retrieveReport : Option RetrieveReport
  target : Option IdentityNs
  survivors : List Survivor
  remote : Nat × Nat
  deleteNs : Option IdentityNs
  deleteVerdict : Verdict
  oldVerdict : Verdict
  legacyVerdict : Verdict
  lockInfos : IdentityNs → Option LockInfo
  inUse : Option OpeningId
  passphrases : IdentityNs → Option String
  installed : List IdentityNs

namespace Identity

def start (d : Device) : Identity where
  device := d
  res := .start
  epoch := 0
  status := .booting
  statusAt := 0
  pendings _ := none
  pending := none
  sessions _ := none
  session := none
  retrieveReport := none
  target := none
  survivors := []
  remote := (0, 0)
  deleteNs := none
  deleteVerdict := .unknown
  oldVerdict := .unknown
  legacyVerdict := .unknown
  lockInfos _ := none
  inUse := none
  passphrases _ := none
  installed := []

variable (s : Identity)

def pendingNow : Option Pending := s.pending.bind s.pendings

def sessionNow : Option Session := s.session.bind s.sessions

def opened (lease : LeaseId) : Option OpeningId :=
  (s.res.holder lease).filter fun o => decide (s.res.state o = some .active)

def setDevice (f : Device → Device) : Identity := { s with device := f s.device }

def setRecord (ns : IdentityNs) (record : AccessRecord) (pass : Option String) :
    Identity :=
  { s with
    device := s.device.setVault ns (some (.v3 record))
    passphrases := match pass with
      | some p => update s.passphrases ns (some p)
      | none => s.passphrases }

def setStatus (status : IdentityStatus) : Identity :=
  { s with status, statusAt := s.statusAt + 1 }

def setPending (lease : LeaseId) (f : Pending → Pending) : Identity :=
  { s with pendings := update s.pendings lease ((s.pendings lease).map f) }

def setSession (lease : LeaseId) (f : Session → Session) : Identity :=
  { s with sessions := update s.sessions lease ((s.sessions lease).map f) }

/-- `offer`: derived from the protection, the biometrics and the dismissal. -/
def offer (ns : IdentityNs) (protection : ProtectionMode) (biometric : Bool) : Bool :=
  decide (protection = .passphrase) && biometric && !s.device.dismissed ns

/-- `lockedNow`: the locked state from what is known, without an await. -/
def lockedNow (ns : IdentityNs) : IdentityStatus :=
  let known := s.lockInfos ns
  let protection := match s.status with
    | .unlocked info => info.protection
    | _ => (known.map (·.protection)).getD .passphrase
  let biometric := match s.status with
    | .unlocked info => info.biometric
    | _ => (known.map (·.biometric)).getD false
  .locked
    { protection, biometric
      biometricLost := (known.map (·.biometricLost)).getD false
      bioUnusable := (known.map (·.bioUnusable)).getD false
      unsupported := false
      offerBiometric := s.offer ns protection biometric }

def isUnlocked : Bool :=
  match s.status with
  | .unlocked _ => true
  | _ => false

def sessionLive : Bool :=
  match s.session with
  | some lease => (s.sessions lease).any (fun x => !x.frozen) && (s.opened lease).isSome
  | none => false

def lockIfOrphaned : Option IdentityNs → Identity
  | none => s
  | some ns =>
    if s.isUnlocked = true then
      if s.sessionLive = true then s else s.setStatus (s.lockedNow ns)
    else if s.status = .otherWriter then s.setStatus (s.lockedNow ns)
    else s

/-! ## 3. Ownership -/

/-- A promise of the register: the close attempt that it stands for. -/
abbrev Closing := Option (OpeningId × RunId)

def newLease (ns : IdentityNs) (role : LeaseRole) : Identity :=
  { s with res := { s.res with leases := s.res.leases ++ [⟨ns, role, none, false, []⟩] } }

def newPending (flow : SetupFlow) (ns : IdentityNs) (mode : ProtectionMode)
    (nsOld : Option IdentityNs) : Identity :=
  { s.newLease ns .pending with
    pendings := update s.pendings s.res.leases.length
      (some ⟨flow, ns, mode, nsOld, none, false, none⟩)
    pending := some s.res.leases.length }

def releasing (lease : LeaseId) : Closing :=
  (s.res.holder lease).bind fun o =>
    (((s.res.release lease).opening o).bind (·.closing)).map fun run => (o, run)

def release (lease : LeaseId) : Identity := { s with res := s.res.release lease }

def dropSession : Identity × Closing :=
  match s.session with
  | none => (s, none)
  | some lease => ({ s with session := none }.release lease, s.releasing lease)

def dropPending : Identity × Closing :=
  match s.pending with
  | none => (s, none)
  | some lease => ({ s with pending := none }.release lease, s.releasing lease)

/-- The session ends outside of lock: the state follows, unless a delete has frozen it. -/
def endSession : Identity × Closing :=
  let ns := (s.sessionNow.filter fun x => !x.frozen).map (·.ns)
  let did := s.dropSession
  (did.1.lockIfOrphaned ns, did.2)

/-- `revoke`: the epoch ends, session and pending setup are detached. -/
def revoke : Identity × List Closing :=
  let ended := { s with epoch := s.epoch + 1, retrieveReport := none, inUse := none }
  let session := ended.dropSession
  let pending := session.1.dropPending
  (pending.1, [session.2, pending.2])

/-- A new lease for a session, with what `source` owns. -/
def sessionLease (source : Option LeaseId) (ns : IdentityNs) : Identity :=
  let leased := s.newLease ns .session
  match source with
  | some source => { leased with res := leased.res.move source s.res.leases.length }
  | none => leased

/-- `install`: a session from what `source` owns; the one that it replaces is released. -/
def install (ticket : Nat) (source : Option LeaseId) (x : Session) : Identity × Option LeaseId :=
  if s.epoch = ticket ∧ source.all (fun lease => !s.res.released lease) = true then
    let lease := s.res.leases.length
    let moved := s.sessionLease source x.ns
    let installed := { moved.dropSession.1 with
      sessions := update moved.sessions lease (some x)
      session := some lease
      installed := x.ns :: s.installed }
    (installed.lockIfOrphaned (some x.ns), some lease)
  else (s, none)

/-- `handOver`: the session that a pending setup becomes. -/
def handOver (ticket : Nat) (lease : LeaseId) (recovered : Option Recovered) :
    Identity × Option LeaseId :=
  let ended := if s.pending = some lease then { s with pending := none } else s
  match s.pendings lease with
  | none => (ended, none)
  | some pd =>
    let did := if pd.keys = true then
        ended.install ticket (some lease)
          { ns := pd.ns
            proven := (pd.password.or pd.ksSecret).getD (.random 0)
            provenBy := if pd.mode = .biometricOnly then .keystore else .passphrase
            recovered
            frozen := false }
      else (ended, none)
    (did.1.release lease, did.2)

end Identity

/-! ## 4. Calls of the platform -/

inductive RetrieveCode where
  | cancelled
  | invalidated
  | missing
  | failed
deriving DecidableEq

/-- What the outside answers to a call: it rejects, or it takes effect and reports. -/
structure PlatformAnswer where
  fails : Bool
  effect : Bool
  ok : Bool
  code : Option RetrieveCode
  number : Nat
  name : String
  names : List String

def PlatformAnswer.done : PlatformAnswer := ⟨false, true, true, none, 0, "", []⟩

inductive IdentityPoint where
  /-- Between two calls of the platform. -/
  | here
  | read
  | write
  | create (ns : IdentityNs) (secret : AccessSecret) (mode : ProtectionMode)
  | keystoreFirst (ns : IdentityNs)
  | keystoreUndo (ns : IdentityNs)
  /-- A call of the holder host, or the end of one. -/
  | host

abbrev IdentityProgram := Async IdentityPoint PlatformAnswer Identity Unit

variable {α : Type}

def here (f : PlatformAnswer → Identity → α × Identity) : IdentityProgram α :=
  atomic .here fun i s => (.ok (f i s).1, (f i s).2)

/-- `c ? await p : a`. -/
def onlyIf (c : Prop) [Decidable c] (p : IdentityProgram α) (a : α) : IdentityProgram α :=
  if c then p else .ret a

def reads (f : PlatformAnswer → Identity → α) : IdentityProgram α :=
  atomic .read fun i s => if i.fails then (.error (), s) else (.ok (f i s), s)

def writes (t : IdentityPoint) (f : PlatformAnswer → Identity → α × Identity) : IdentityProgram α :=
  atomic t fun i s => if i.fails then (.error (), s) else (.ok (f i s).1, (f i s).2)

variable (t : IdentityPoint)

def keystoreCall (f : Device → Device) : IdentityProgram Bool :=
  atomic t fun i s =>
    let s' := if i.effect then s.setDevice f else s
    if i.fails then (.error (), s') else (.ok i.ok, s')

namespace IdentityPlatform

variable (ns : IdentityNs)

def vaultExists : IdentityProgram (Option DeviceVault) :=
  reads fun _ s => s.device.vaults ns

def vaultHead : IdentityProgram (Option ProtectionMode) :=
  reads fun _ s => s.device.head ns

def vaultActive : IdentityProgram (Option IdentityNs) := reads fun _ s => s.device.active

def vaultResume : IdentityProgram (Option ResumeMarker) := reads fun _ s => s.device.resume

/-- `open`: whether the secret opens the record. -/
def vaultOpen (secret : AccessSecret) : IdentityProgram Bool :=
  reads fun _ s =>
    match s.device.vaults ns with
    | some (.v3 record) => decide (record.secret = secret)
    | _ => false

/-- `create`, in one transaction with the sealed inputs and the marker; `passphrase` is the one that
    the user sets. -/
def vaultCreate (secret : AccessSecret) (mode : ProtectionMode)
    (passphrase : Option String) (marker : ResumeMarker) : IdentityProgram Unit :=
  writes (.create ns secret mode) fun _ s =>
    ((), (s.setRecord ns ⟨secret, mode⟩ passphrase).setDevice fun d =>
      { d with init := update d.init ns true, resume := some marker })

/-- The rewrite of a record that the secret opens; `false` where it does not, or where another writer
    was faster. -/
def vaultRewrite (secret next : AccessSecret) (mode : ProtectionMode)
    (passphrase : Option String) : IdentityProgram Bool :=
  writes .write fun i s =>
    match s.device.vaults ns with
    | some (.v3 record) =>
      if record.secret = secret ∧ i.ok = true then
        (true, s.setRecord ns ⟨next, mode⟩ passphrase)
      else (false, s)
    | _ => (false, s)

def setProtection (mode : ProtectionMode) (secret : AccessSecret) :
    IdentityProgram Bool := vaultRewrite ns secret secret mode none

def setBioUnusable (v : Bool) : IdentityProgram Unit :=
  writes .write fun _ s => ((), s.setDevice fun d =>
    { d with bioUnusable := update d.bioUnusable ns v })

variable (marker : Option ResumeMarker)

def vaultActivate : IdentityProgram Unit :=
  writes .write fun _ s => ((), s.setDevice (·.activate ns marker))

def setResume : IdentityProgram Unit :=
  writes .write fun _ s => ((), s.setDevice fun d => { d with resume := marker })

def vaultWipe : IdentityProgram Unit :=
  writes .write fun _ s => ((), s.setDevice (·.wipeVault ns))

def biometricAvailability : IdentityProgram Bool := reads fun i _ => i.ok

def keystoreStore (ns : IdentityNs) (secret : AccessSecret) :
    IdentityProgram Bool := keystoreCall t (·.setKeystore ns (some secret))

def keystoreRemove (ns : IdentityNs) : IdentityProgram Bool :=
  keystoreCall t (·.setKeystore ns none)

/-- `retrieve`: the secret of the entry, or a code. -/
def retrieve : IdentityProgram (Except RetrieveCode AccessSecret) :=
  reads fun i s =>
    match i.code, s.device.keystore ns with
    | none, some secret => .ok secret
    | none, none => .error .missing
    | some code, _ => .error code

/-- `keystoreHas`: `none` where the strict check fails. -/
def keystoreHas : IdentityProgram (Option Bool) :=
  atomic .read fun i s =>
    (.ok (if i.fails then none else some (s.device.keystore ns).isSome), s)

end IdentityPlatform

end WebOfTrust
