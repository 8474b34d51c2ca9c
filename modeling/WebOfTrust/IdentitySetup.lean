/-
  **Setup and restore of an identity** (`runtime.ts`): the steps of `setup`.

  A step that has found its pending setup keeps the lease, as the source keeps the object.  The
  words of a phrase are represented by the error that their check finds.
-/
import WebOfTrust.IdentityRuntime

namespace WebOfTrust

open Async IdentityPlatform IdentityInventory

namespace IdentityRuntime

/-! ## 1. Setup -/

def marker (flow : ResumeFlow) (step : ResumeStep) (ns : IdentityNs) (mode : Option ProtectionMode)
    (nsOld : Option IdentityNs) (now : Nat) : ResumeMarker := ⟨flow, step, ns, nsOld, mode, now⟩

def now : IdentityProgram Nat := here fun i s => (i.number, s)

def dropPending : IdentityProgram Bool := do
  let closing ← here fun _ s => (s.dropPending.2, s.dropPending.1)
  settle closing

def needPending (s : Identity) (ns : IdentityNs) : Option LeaseId :=
  s.pending.filter fun lease => (s.pendings lease).any fun pd => decide (pd.ns = ns)

def newNs : IdentityProgram IdentityNs :=
  atomic .here fun i s =>
    if i.name ∈ s.device.spaces then (.error (), s)
    else (.ok i.name, s.setDevice fun d => { d with spaces := d.spaces ++ [i.name] })

def setMarker (flow : ResumeFlow) (step : ResumeStep) (ns : IdentityNs)
    (mode : Option ProtectionMode) (nsOld : Option IdentityNs) : IdentityProgram Unit := do
  setResume (some (marker flow step ns mode nsOld (← now)))

def reserve (flow : SetupFlow) (mode : ProtectionMode) : IdentityProgram StepResult := do
  let _ ← dropPending
  let ns ← newNs
  let active ← vaultActive
  let nsOld := if flow = .restore then active else none
  onlyIf (flow = .setup ∧ mode = .biometricOnly) (setMarker .setup .keystore ns (some mode) none) ()
  onlyIf (flow = .restore) (setMarker .restore .staging ns (some mode) nsOld) ()
  here fun _ s => (.reserved ns, s.newPending flow ns mode nsOld)

section

variable (ns : IdentityNs)

def keystoreFirst : IdentityProgram StepResult := do
  let pd ← here fun i s =>
    ((needPending s ns).bind fun lease => (s.pendings lease).bind fun pd =>
      if pd.mode = .biometricOnly then some (lease, AccessSecret.random i.number) else none, s)
  match pd with
  | none => return .failed
  | some (lease, random) =>
    let ok ← keystoreStore (.keystoreFirst ns) ns random
    if !ok then return .failed
    here fun _ s =>
      if s.pending = some lease ∧ s.res.released lease = false then
        (.ok, s.setPending lease fun pd => { pd with ksSecret := some random })
      else (.failed, s)

def undoKeystore : IdentityProgram StepResult := do
  let ok ← keystoreRemove (.keystoreUndo ns) ns
  setResume none
  let mine ← here fun _ s => ((needPending s ns).isSome, s)
  let _ ← onlyIf (mine = true) dropPending true
  return .orphan !ok

section

-- `nfc` is the normal form of a passphrase, of which the bytes are taken
variable (nfc : String → String)

def passphraseBytes (p : String) : AccessSecret := .passphrase (nfc p)

def vaultSecret (pd : Pending) : ProtectionInput → Except StepResult (AccessSecret × Option String)
  | .biometricOnly =>
    match pd.ksSecret with
    | some secret => .ok (secret, none)
    | none => .error .bug
  | .passphrase _ pass =>
    if utf16Length pass < 8 then .error (.refused .passphraseTooShort)
    else .ok (passphraseBytes nfc pass, some pass)

/-- What a vault is written with: the lease of the pending setup, the secret and the passphrase. -/
structure VaultWrite where
  lease : LeaseId
  pd : Pending
  secret : AccessSecret
  passphrase : Option String

/-- What `writeVault` checks before its first await. -/
def checkWrite (ns : IdentityNs) (words : Option MnemonicError) (protection : ProtectionInput)
    (s : Identity) : Except StepResult VaultWrite :=
  match needPending s ns with
  | none => .error .bug
  | some lease =>
    match s.pendings lease with
    | none => .error .bug
    | some pd =>
      if protection.mode ≠ pd.mode then .error .bug
      else match words with
        | some e => .error (.refused (.mnemonic e))
        | none => (vaultSecret nfc pd protection).map fun k => ⟨lease, pd, k.1, k.2⟩

def writeVault (ns : IdentityNs) (words : Option MnemonicError) (protection : ProtectionInput) :
    IdentityProgram StepResult := do
  match ← here fun _ s => (checkWrite nfc ns words protection s, s) with
  | .error answer => return answer
  | .ok w =>
    let m := fun at' => if w.pd.flow = .setup then marker .setup .holder ns (some w.pd.mode) none at'
      else marker .restore .staging ns (some w.pd.mode) w.pd.nsOld at'
    let create := now >>= fun at' => vaultCreate ns w.secret w.pd.mode w.passphrase (m at')
    let written ← tryCatch ((fun _ => true) <$> create) fun _ => .ret false
    if !written then return .storageError
    here fun _ s =>
      if s.pending = some w.lease ∧ s.res.released w.lease = false then
        (.ok, s.setPending w.lease fun pd => { pd with keys := true, password := some w.secret })
      else (.locked, s)

end

def undoVault : IdentityProgram StepResult := do
  let pd ← here fun _ s => (((needPending s ns).bind s.pendings).map (·.mode), s)
  let own ← onlyIf (pd ≠ some .biometricOnly) ((fun k => decide (k = some true)) <$> keystoreHas ns) true
  let orphan ← onlyIf (own = true) ((!·) <$> keystoreRemove (.keystoreUndo ns) ns) false
  vaultWipe ns
  setResume none
  let _ ← dropPending
  return .orphan orphan

def keystoreAfter : IdentityProgram StepResult := do
  let password ← here fun _ s =>
    (((needPending s ns).bind s.pendings).bind fun pd =>
      if pd.mode = .passphraseBiometric then pd.password else none, s)
  match password with
  | none => return .failed
  | some secret =>
    let ok ← keystoreStore .write ns secret
    return if ok then .ok else .failed

def markBioUnusable : IdentityProgram StepResult := do
  setBioUnusable ns true
  return .ok

end

def ownerOf (s : Identity) (ns : IdentityNs) : Option LeaseId :=
  match s.pending, s.pendingNow with
  | some lease, some pd =>
    if pd.ns = ns ∧ pd.keys = true then some lease
    else if s.sessionNow.any (fun x => decide (x.ns = ns)) then s.session else none
  | _, _ => if s.sessionNow.any (fun x => decide (x.ns = ns)) then s.session else none

variable (ticket : Nat) (nsOrNull : Option IdentityNs)

def initHolder : IdentityProgram StepResult := do
  let owner ← here fun _ s =>
    ((nsOrNull.or s.target).bind fun ns => (ownerOf s ns).map fun lease => (ns, lease), s)
  match owner with
  | none => return .locked
  | some (ns, lease) =>
    let sealed ← reads fun _ s => s.device.init ns
    if !sealed then return .storageError
    -- the sealed inputs may not open
    let opens ← here fun i s => (i.ok, s)
    if !opens then return .storageError
    let holder ← here fun _ s => (s.res.holder lease, s)
    let o ← onlyIf (holder = none) (openHolder ticket lease ns) .ok
    match o with
    | .locked => return .locked
    | .otherWriter => return .unavailable
    | .unreadable => return .unreadable
    | .ok =>
      let h ← here fun _ s => (if s.epoch = ticket then s.res.holder lease else none, s)
      match h with
      | none => return .locked
      | some h =>
        useHolder h
        here fun i s =>
          if s.res.holder lease = some h ∧ s.epoch = ticket then
            (.ok, s.setDevice fun d => { d with terms := if i.effect then some i.name else d.terms })
          else (.locked, s)

def sessionOrHandOver (ns : IdentityNs) (pd : Option LeaseId) (s : Identity) :
    Identity × Option LeaseId :=
  let session := s.session.filter fun lease => (s.sessions lease).any fun x => decide (x.ns = ns)
  match session, pd with
  | some session, _ => (s, some session)
  | none, some pd => s.handOver ticket pd none
  | none, none => (s, none)

/-- After the pointer is written; a pending setup goes where a session owns the namespace. -/
def activated (ns : IdentityNs) (pd : Option LeaseId) (s : Identity) : Option LeaseId × Identity :=
  let did := sessionOrHandOver ticket ns pd s
  let ended := if pd.isSome ∧ did.1.pending = pd then did.1.dropPending.1 else did.1
  (did.2, if did.2.isSome then { ended with target := some ns } else ended)

def activate : IdentityProgram StepResult := do
  let owner ← here fun _ s =>
    ((nsOrNull.or s.target).bind fun ns =>
      let pd := (needPending s ns).filter fun lease => (s.pendings lease).any (·.keys)
      let session := s.session.filter fun lease =>
        (s.sessions lease).any fun x => decide (x.ns = ns)
      (pd.or session).map fun lease => (ns, pd, lease), s)
  match owner with
  | none => return .locked
  | some (ns, pd, lease) =>
    match ← effect ticket (some lease) (vaultActivate ns none) with
    | none => return .locked
    | some _ =>
      match ← here fun _ s => activated ticket ns pd s with
      | none => return .locked
      | some session => publish ticket session

def quiesceAndSeal (o : OpeningId) : IdentityProgram Bool := do
  let quiesced ← phaseHolder o .quiesce
  if quiesced then phaseHolder o .seal else return false

def switched (ns : IdentityNs) (lease : LeaseId) (s : Identity) :
    Option Identity.Closing × Identity :=
  if s.epoch = ticket ∧ s.pending = some lease then
    let dropped := s.dropSession
    let did := dropped.1.handOver ticket lease (some .keysOnly)
    if did.2.isSome then (some dropped.2, { did.1 with target := some ns }) else (none, did.1)
  else (none, s)

def switchTo (ns : IdentityNs) : IdentityProgram StepResult := do
  let first ← here fun _ s =>
    (((needPending s ns).filter fun lease => (s.pendings lease).any (·.keys)).map fun lease =>
      (lease, (s.pendings lease).bind (·.nsOld), s.session.bind fun session =>
        if (s.sessions session).any (fun x => decide (x.ns ≠ ns)) then s.res.holder session
        else none), s)
  match first with
  | none => return .locked
  | some (lease, nsOld, old) =>
    let ready ← (old.elim (.ret true) quiesceAndSeal : IdentityProgram Bool)
    if !ready then return .storageError
    let m := marker .restore .switched ns none nsOld (← now)
    match ← effect ticket (some lease) (vaultActivate ns (some m)) with
    | none => return .locked
    | some _ =>
      let closing ← here fun _ s => switched ticket ns lease s
      match closing with
      | none => return .locked
      | some closing =>
        let _ ← settle closing
        return .ok

def wipeOld : IdentityProgram StepResult := do
  match ← vaultResume with
  | none => return .bug
  | some m =>
    if m.flow ≠ .restore ∨ m.step ≠ .switched then return .bug
    here fun _ s => ((), { s with oldVerdict := .unknown })
    match m.nsOld with
    | some old => wipeNamespace old
    | none => .ret ()
    return .ok

def verifyOld : IdentityProgram StepResult := do
  let m ← vaultResume
  here fun _ s => ((), { s with oldVerdict := .unknown })
  let survivors ← ((m.bind (·.nsOld)).elim (.ret []) verifyNamespace : IdentityProgram _)
  here fun _ s => (.verified survivors, { s with
    survivors
    oldVerdict := if survivors = [] then .clean else .survivors })

def finishRestore : IdentityProgram StepResult := do
  match ← here fun _ s => (s.session, s) with
  | none => return .locked
  | some lease =>
    match ← publish ticket lease with
    | .ok =>
      let clean ← here fun _ s => (decide (s.oldVerdict = .clean), s)
      if !clean then return .ok
      let done ← tryCatch (some <$> effect ticket none (setResume none)) fun _ => .ret none
      match done with
      | none => return .storageError
      | some none => return .locked
      | some (some _) => return .ok
    | answer => return answer

end IdentityRuntime

end WebOfTrust
