/-
  **Unlock with its repairs, and the change of the protection** (`runtime.ts`): the steps of
  `unlock` and of `protection`, and `acceptTerms`.
-/
import WebOfTrust.IdentitySetup

namespace WebOfTrust

open Async IdentityPlatform IdentityInventory

namespace IdentityRuntime

/-! ## 1. Unlock -/

/-- `retrieveReport` of a code. -/
def reportOf : RetrieveCode → Option RetrieveReport
  | .invalidated => some .invalidated
  | .missing => some .missing
  | _ => none

variable (ticket : Nat)

def unlockBiometric : IdentityProgram StepResult := do
  match ← here fun _ s => (s.target, s) with
  | none => return .biometric .missing
  | some ns =>
    match ← retrieve ns with
    | .error code =>
      here fun _ s => (.biometric code, if s.epoch = ticket ∧ (reportOf code).isSome = true then
          { s with retrieveReport := reportOf code }
        else s)
    | .ok secret =>
      let opened ← vaultOpen ns secret
      here fun _ s =>
        if s.epoch ≠ ticket then (.failed, s)
        else if opened = false then (.vaultMismatch, { s with retrieveReport := some .mismatch })
        else
          let did := s.install ticket none ⟨ns, secret, .keystore, none, false⟩
          (if did.2.isSome then .ok else .failed, did.1)

variable (nfc : String → String)

def unlockPassphrase (pass : String) (ticket : Nat) : IdentityProgram StepResult := do
  match ← here fun _ s => (s.target, s) with
  | none => return .locked
  | some ns =>
    let opened ← vaultOpen ns (passphraseBytes nfc pass)
    here fun _ s =>
      if s.epoch ≠ ticket then (.locked, s)
      else if opened = false then (.refused .passphraseWrong, s)
      else
        let did := s.install ticket none ⟨ns, passphraseBytes nfc pass, .passphrase, none, false⟩
        (if did.2.isSome then .ok else .locked, did.1)

def unlockMarkBioUnusable : IdentityProgram StepResult := do
  match ← here fun _ s => (s.target, s) with
  | none => return .ok
  | some ns =>
    setBioUnusable ns true
    return .ok

def unlockOpen : IdentityProgram StepResult := do
  let session ← here fun _ s =>
    (s.session.bind fun lease => (s.sessions lease).bind fun x =>
      if x.frozen then none else some (lease, x.ns, s.res.holder lease), s)
  match session with
  | none => return .locked
  | some (lease, ns, holder) =>
    match ← onlyIf (holder = none) (openHolder ticket lease ns) .ok with
    | .locked => return .locked
    | .otherWriter => return .unavailable
    | .unreadable => return .unreadable
    | .ok => publish ticket lease

/-- The session, its namespace and its proven secret, for a write that `effect` lets start. -/
structure ProvenSession where
  lease : LeaseId
  ns : IdentityNs
  secret : AccessSecret

def passphraseSession (s : Identity) : Option (Option ProvenSession) :=
  s.session.bind fun lease => (s.sessions lease).bind fun x =>
    if x.provenBy = .passphrase then
      some ((provenNow ticket lease s).map fun secret => ⟨lease, x.ns, secret⟩)
    else none

def reprotect : IdentityProgram StepResult := do
  let session ← here fun _ s =>
    (match passphraseSession ticket s with
      | none => Except.error StepResult.locked
      | some proven =>
        -- the hint field alone never lowers the protection: only a report of this session counts
        if s.retrieveReport ≠ some RetrieveReport.invalidated ∧
            s.retrieveReport ≠ some RetrieveReport.missing then .error .bug
        else proven.elim (.error .locked) .ok, s)
  match session with
  | .error answer => return answer
  | .ok x =>
    let set ← setProtection x.ns .passphrase x.secret
    if !set then return .storageError
    match ← effect ticket (some x.lease) (keystoreRemove .write x.ns) with
    | none => return .locked
    | some _ =>
      match ← effect ticket (some x.lease) (setBioUnusable x.ns false) with
      | none => return .locked
      | some _ =>
        here fun _ s => ((), { s with retrieveReport := none })
        publish ticket x.lease

def restoreKeystore : IdentityProgram StepResult := do
  let session ← here fun _ s =>
    (if s.retrieveReport = some .mismatch then (passphraseSession ticket s).join else none, s)
  match session with
  | none => return .failed
  | some x =>
    let ok ← keystoreStore .write x.ns x.secret
    if !ok then return .failed
    match ← effect ticket (some x.lease) (setBioUnusable x.ns false) with
    | none => return .failed
    | some _ =>
      here fun _ s => ((), { s with retrieveReport := none })
      return .ok

def enableBiometric : IdentityProgram StepResult := do
  match ← here fun _ s => ((passphraseSession ticket s).join, s) with
  | none => return .failed
  | some x =>
    let ok ← keystoreStore .write x.ns x.secret
    if !ok then return .failed
    match ← here fun _ s => (provenNow ticket x.lease s, s) with
    | none => return .failed
    | some secret =>
      let set ← setProtection x.ns .passphraseBiometric secret
      if !set then return .failed
      let published ← publish ticket x.lease
      return if published = .ok then .ok else .failed

/-! ## 2. Change of the protection -/

def sessionNs : IdentityProgram (Option (LeaseId × IdentityNs)) :=
  here fun _ s => (s.session.bind fun lease => (s.sessions lease).map fun x => (lease, x.ns), s)

/-- `proven`: the proof becomes the session's. -/
def proven (ticket : Nat) (lease : LeaseId) (secret : AccessSecret) (by' : ProvenBy)
    (s : Identity) : Bool × Identity :=
  if s.epoch = ticket ∧ s.session = some lease ∧ s.res.released lease = false then
    (true, s.setSession lease fun x => { x with proven := secret, provenBy := by' })
  else (false, s)

def proveWith (lease : LeaseId) (ns : IdentityNs) (secret : AccessSecret)
    (by' : ProvenBy) : IdentityProgram StepResult := do
  let opened ← vaultOpen ns secret
  if !opened then return .refused .passphraseWrong
  here fun _ s =>
    let did := proven ticket lease secret by' s
    (if did.1 then .ok else .locked, did.2)

/-- `protection.prove`, with a passphrase or with the biometrics. -/
def prove (pass : Option String) (ticket : Nat) : IdentityProgram StepResult := do
  match ← sessionNs with
  | none => return .locked
  | some (lease, ns) =>
    match pass with
    | some pass => proveWith ticket lease ns (passphraseBytes nfc pass) .passphrase
    | none =>
      match ← retrieve ns with
      | .error code => return .platform code
      | .ok secret => proveWith ticket lease ns secret .keystore

def keystoreStore : IdentityProgram StepResult := do
  match ← sessionNs with
  | none => return .failed
  | some (lease, ns) =>
    let head ← vaultHead ns
    -- rewrap first
    if head = some .biometricOnly then return .failed
    match ← here fun _ s => (provenNow ticket lease s, s) with
    | none => return .failed
    | some secret =>
      let ok ← IdentityPlatform.keystoreStore .write ns secret
      return if ok then .ok else .failed

/-- `protection.setHead`, to `passphrase` or `passphrase+biometric`. -/
def setHead (biometric : Bool) (ticket : Nat) : IdentityProgram StepResult := do
  match ← sessionNs with
  | none => return .locked
  | some (lease, ns) =>
    let head ← vaultHead ns
    -- the password is the random secret
    if head = some .biometricOnly then return .refused .lastAccess
    match ← here fun _ s => (provenNow ticket lease s, s) with
    | none => return .locked
    | some secret =>
      let set ← setProtection ns (if biometric then .passphraseBiometric else .passphrase) secret
      if !set then return .refused .passphraseWrong
      publish ticket lease

def rewrap (pass : String) (ticket : Nat) : IdentityProgram StepResult := do
  let session ← here fun _ s =>
    (match s.session.bind fun lease => (s.sessions lease).map fun x => (lease, x.ns) with
      | none => Except.error StepResult.locked
      | some (lease, ns) =>
        if utf16Length pass < 8 then .error (.refused .passphraseTooShort)
        else match provenNow ticket lease s with
          | none => .error .locked
          | some secret => .ok (ProvenSession.mk lease ns secret), s)
  match session with
  | .error answer => return answer
  | .ok x =>
    let next := passphraseBytes nfc pass
    let done ← vaultRewrite x.ns x.secret next .passphraseBiometric (some pass)
    if !done then return .refused .passphraseWrong
    let mine ← here fun _ s => proven ticket x.lease next .passphrase s
    if mine then publish ticket x.lease else return .locked

def keystoreRemove : IdentityProgram StepResult := do
  match ← sessionNs with
  | none => return .locked
  | some (lease, ns) =>
    let head ← vaultHead ns
    -- the keystore is still the (or a) way in
    if head ≠ some .passphrase then return .refused .lastAccess
    match ← effect ticket (some lease) (IdentityPlatform.keystoreRemove .write ns) with
    | none => return .locked
    | some ok => return if ok then .ok else .unavailable

def acceptTerms (version : String) (ticket : Nat) : IdentityProgram StepResult := do
  let session ← here fun _ s =>
    (s.session.bind fun lease => (s.res.holder lease).map fun h => (lease, h), s)
  match session with
  | none => return .locked
  | some (lease, h) =>
    useHolder h
    let current ← here fun _ s =>
      if s.epoch = ticket then (true, s.setDevice fun d => { d with terms := some version })
      else (false, s)
    if current then publish ticket lease else return .locked

end IdentityRuntime

end WebOfTrust
