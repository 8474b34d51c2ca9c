/-
  **Access to an identity, and the code that leaves it alone.**

  The head of a vault says which secret opens it: the passphrase that the user has set last, or the
  one in the keystore.  Most code of the runtime changes neither the vaults nor the keystore, and
  no pending setup and no session.
-/
import Mathlib.Order.Nat
import WebOfTrust.IdentityCommands

namespace WebOfTrust

open Async IdentityPlatform IdentityInventory IdentityRuntime Identity

/-! ## 1. Access -/

/-- The record opens as its head says. -/
def AccessRecord.Opens (nfc : String → String) (s : Identity) (ns : IdentityNs)
    (record : AccessRecord) : Prop :=
  if record.protection = .biometricOnly then s.device.keystore ns = some record.secret
  else ∃ pass, s.passphrases ns = some pass ∧ record.secret = passphraseBytes nfc pass

def AccessSecret.IsRandom : AccessSecret → Prop
  | .random _ => True
  | .passphrase _ => False

def AccessSecret.IsPassphrase : AccessSecret → Prop
  | .random _ => False
  | .passphrase _ => True

namespace LastAccess

def HasPassphrase (s : Identity) (ns : IdentityNs) : Prop := (s.passphrases ns).isSome = true

def BiometricOnly (s : Identity) (ns : IdentityNs) : Prop :=
  s.device.head ns = some .biometricOnly

/-- What the vaults, the keystore, the pending setups and the sessions hold is the same. -/
structure SameAccess (s s' : Identity) : Prop where
  vaults : s'.device.vaults = s.device.vaults
  keystore : s'.device.keystore = s.device.keystore
  spaces : s'.device.spaces = s.device.spaces
  passphrases : s'.passphrases = s.passphrases
  pendings : s'.pendings = s.pendings
  sessions : s'.sessions = s.sessions
  installed : s'.installed = s.installed
  leases : s.res.leases.length ≤ s'.res.leases.length

variable {s s' s'' : Identity} {α β : Type}

namespace SameAccess

theorem of_eq (h : (s'.device.vaults, s'.device.keystore, s'.device.spaces, s'.passphrases,
    s'.pendings, s'.sessions, s'.installed, s'.res.leases) = (s.device.vaults, s.device.keystore,
    s.device.spaces, s.passphrases, s.pendings, s.sessions, s.installed, s.res.leases)) :
    SameAccess s s' := by
  simp only [Prod.mk.injEq] at h
  obtain ⟨hvaults, hkeystore, hspaces, hpassphrases, hpendings, hsessions, hinstalled, hleases⟩ := h
  exact ⟨hvaults, hkeystore, hspaces, hpassphrases, hpendings, hsessions, hinstalled,
    (congrArg List.length hleases).ge⟩

theorem refl (s : Identity) : SameAccess s s := .of_eq rfl

theorem trans (h : SameAccess s s') (h' : SameAccess s' s'') : SameAccess s s'' :=
  ⟨h'.vaults.trans h.vaults, h'.keystore.trans h.keystore, h'.spaces.trans h.spaces,
    h'.passphrases.trans h.passphrases, h'.pendings.trans h.pendings,
    h'.sessions.trans h.sessions, h'.installed.trans h.installed, h.leases.trans h'.leases⟩

theorem register (s : Identity) {res : Resources}
    (hleases : s.res.leases.length ≤ res.leases.length) : SameAccess s { s with res } :=
  ⟨rfl, rfl, rfl, rfl, rfl, rfl, rfl, hleases⟩

theorem ite {p : Prop} [Decidable p] (h : SameAccess s s') (h' : SameAccess s s'') :
    SameAccess s (if p then s' else s'') := by
  split
  · exact h
  · exact h'

variable (s : Identity)

theorem setStatus (status : IdentityStatus) : SameAccess s (s.setStatus status) :=
  .of_eq rfl

theorem lockIfOrphaned (ns : Option IdentityNs) : SameAccess s (s.lockIfOrphaned ns) := by
  cases ns with
  | none => exact .refl s
  | some ns =>
    exact .ite (.ite (.refl s) (.setStatus s _)) (.ite (.setStatus s _) (.refl s))

theorem dropSession : SameAccess s s.dropSession.1 := by
  rw [Identity.dropSession]
  split
  · exact .refl s
  · exact ⟨rfl, rfl, rfl, rfl, rfl, rfl, rfl, length_release.ge⟩

theorem dropPending : SameAccess s s.dropPending.1 := by
  rw [Identity.dropPending]
  split
  · exact .refl s
  · exact ⟨rfl, rfl, rfl, rfl, rfl, rfl, rfl, length_release.ge⟩

theorem sessionLease (source : Option LeaseId) (ns : IdentityNs) :
    SameAccess s (s.sessionLease source ns) := by
  have hnew : s.res.leases.length ≤ (s.newLease ns .session).res.leases.length :=
    (Nat.le_add_right _ _).trans (List.length_append).ge
  cases source with
  | none => exact .register s hnew
  | some source => exact .register s (hnew.trans length_move.ge)

theorem endSession : SameAccess s s.endSession.1 :=
  (dropSession s).trans (lockIfOrphaned _ _)

theorem revoke : SameAccess s s.revoke.1 := by
  have hended : SameAccess s
      { s with epoch := s.epoch + 1, retrieveReport := none, inUse := none } :=
    .of_eq rfl
  exact (hended.trans (dropSession _)).trans (dropPending _)

theorem retry (ns : Option IdentityNs) : SameAccess s (s.retry ns).1 :=
  .register s length_retry.ge

end SameAccess

/-! ## 2. Code that leaves them alone -/

/-- Every step leaves the vaults, the keystore, the pending setups and the sessions alone. -/
abbrev Calm (p : IdentityProgram α) : Prop :=
  Steps (fun _ => True) (fun _ _ s s' => SameAccess s s') p

section

variable {ticket : Nat} {lease : LeaseId} {ns : IdentityNs} {o : OpeningId}

theorem calm_here {f : PlatformAnswer → Identity → α × Identity}
    (h : ∀ i s, SameAccess s (f i s).2) : Calm (here f) := steps_atomic trivial h

variable (f : PlatformAnswer → Identity → α)

theorem calm_reads : Calm (reads f) := by
  apply steps_atomic trivial
  intro i s
  split
  · exact .refl s
  · exact .refl s

variable {t : IdentityPoint}

theorem calm_writes {f : PlatformAnswer → Identity → α × Identity}
    (h : ∀ i s, SameAccess s (f i s).2) : Calm (writes t f) := by
  apply steps_atomic trivial
  intro i s
  split
  · exact .refl s
  · exact h i s

theorem calm_device {f : PlatformAnswer → Device → Device}
    (h : ∀ i s, SameAccess s (s.setDevice (f i))) :
    Calm (writes t fun i s => ((), s.setDevice (f i))) := calm_writes h

theorem calm_deviceIf {f : Device → Device} (h : ∀ s, SameAccess s (s.setDevice f)) :
    Calm (writes t fun i s => ((), if i.effect then s.setDevice f else s)) :=
  calm_writes fun _ s => .ite (h s) (.refl s)

theorem calm_keystoreCall {f : Device → Device}
    (h : ∀ s, SameAccess s (s.setDevice f)) : Calm (keystoreCall t f) := by
  apply steps_atomic trivial
  intro i s
  dsimp only
  split
  · exact .ite (h s) (.refl s)
  · exact .ite (h s) (.refl s)

theorem calm_query : Calm (here fun i s => (f i s, s)) :=
  calm_here fun _ s => .refl s

theorem calm_host {f : PlatformAnswer → Identity → Except Unit α} :
    Calm (atomic .host fun i s => (f i s, s)) := steps_atomic trivial fun _ s => .refl s

theorem calm_wait : Calm wait := calm_host

theorem calm_settle (c : Closing) : Calm (settle c) := by
  cases c with
  | none => trivial
  | some c => exact steps_await trivial fun _ s _ => .refl s

theorem calm_settleAll (cs : List Closing) : Calm (settleAll cs) := by
  induction cs with
  | nil => trivial
  | cons c rest ih =>
    apply steps_bind (calm_settle c)
    intro _
    exact steps_bind ih fun _ => trivial

theorem calm_resRetry (ns : Option IdentityNs) : Calm (resRetry ns) :=
  steps_bind (calm_here fun _ s => .retry s ns) calm_settleAll

section

variable (ns : IdentityNs)

theorem calm_keystoreHas : Calm (keystoreHas ns) :=
  steps_atomic trivial fun _ s => .refl s

theorem calm_setResume (m : Option ResumeMarker) : Calm (setResume m) :=
  calm_device fun _ _ => .of_eq rfl

theorem calm_setBioUnusable (v : Bool) : Calm (setBioUnusable ns v) :=
  calm_device fun _ _ => .of_eq rfl

theorem calm_vaultActivate (m : Option ResumeMarker) :
    Calm (vaultActivate ns m) := calm_device fun _ _ => .of_eq rfl

theorem calm_onlyIf {c : Prop} [Decidable c] {p : IdentityProgram α} {a : α} (h : Calm p) :
    Calm (onlyIf c p a) := by
  rw [onlyIf]
  split
  · exact h
  · trivial

theorem calm_inventory_lockInfo : Calm (IdentityInventory.lockInfo ns) := by
  apply steps_bind (calm_reads _)
  intro vault
  apply steps_bind (calm_onlyIf (calm_reads _))
  intro head
  apply steps_bind (calm_reads _)
  intro biometric
  apply steps_bind (calm_onlyIf (calm_keystoreHas ns))
  intro k
  apply steps_bind (calm_onlyIf (calm_reads _))
  intro bioUnusable
  exact calm_query _

theorem calm_lockInfo : Calm (IdentityRuntime.lockInfo ns) :=
  steps_bind (calm_inventory_lockInfo ns) fun _ =>
    calm_here fun _ _ => .of_eq rfl

end

theorem calm_commit (ticket : Nat) (next : IdentityStatus) : Calm (commit ticket next) :=
  calm_here fun _ s => .ite (.setStatus s next) (.refl s)

theorem calm_lockedFor (ticket : Nat) (ns : IdentityNs) : Calm (lockedFor ticket ns) :=
  steps_bind (calm_lockInfo ns) fun _ =>
    calm_here fun _ s => .ite (.of_eq rfl) (.refl s)

theorem calm_publish (ticket : Nat) (lease : LeaseId) : Calm (publish ticket lease) := by
  apply steps_bind (calm_query _)
  intro first
  rcases first with answer | ns
  · trivial
  apply steps_bind (calm_reads _)
  intro head
  apply steps_bind (calm_reads _)
  intro biometric
  apply calm_here
  intro i s
  split
  · split
    · exact .of_eq rfl
    · exact .refl s
  · exact .refl s

theorem calm_effect {lease : Option LeaseId} {write : IdentityProgram α} (h : Calm write) :
    Calm (IdentityRuntime.effect ticket lease write) := by
  apply steps_bind (calm_query _)
  intro current
  split
  · exact steps_bind h fun _ => trivial
  · trivial

variable (ticket : Nat)

theorem calm_openHolder (lease : LeaseId) (ns : IdentityNs) :
    Calm (openHolder ticket lease ns) := by
  apply steps_bind calm_wait
  intro _
  apply steps_bind (calm_query _)
  intro released
  split
  · trivial
  apply steps_bind
  · apply steps_atomic trivial
    intro i s
    split
    · exact .refl s
    · exact .refl s
  intro r
  cases r with
  | otherWriter => exact steps_bind (calm_commit _ _) fun _ => trivial
  | ok => exact calm_here fun _ s => .register s length_adopt.ge
  | locked | unreadable => trivial

theorem calm_useHolder (o : OpeningId) : Calm (useHolder o) := by
  apply steps_bind (calm_here fun _ s => .register s length_use.ge)
  intro active
  split
  · exact calm_host
  · trivial

theorem calm_phaseHolder (o : OpeningId) (ph : ShutdownPhase) : Calm (phaseHolder o ph) := by
  apply steps_bind (calm_here fun _ s => .register s length_phase.ge)
  intro state
  split
  · exact calm_host
  · trivial

theorem calm_dropPending : Calm IdentityRuntime.dropPending :=
  steps_bind (calm_here fun _ s => .dropPending s) calm_settle

/-! ### Setup and restore -/

theorem calm_verifyNamespace (ns : IdentityNs) : Calm (verifyNamespace ns) := by
  apply steps_bind (calm_reads _)
  intro databases
  apply steps_bind (calm_reads _)
  intro wiped
  apply steps_bind (calm_keystoreHas ns)
  intro k
  apply steps_bind (calm_reads _)
  intro quiet
  exact calm_query _

theorem calm_markBioUnusable (ns : IdentityNs) : Calm (markBioUnusable ns) :=
  steps_bind (calm_setBioUnusable ns true) fun _ => trivial

theorem calm_initHolder (ns : Option IdentityNs) : Calm (initHolder ticket ns) := by
  apply steps_bind (calm_query _)
  rintro (_ | ⟨ns, lease⟩)
  · trivial
  apply steps_bind (calm_reads _)
  intro sealed
  split
  · trivial
  apply steps_bind (calm_query _)
  intro opens
  split
  · trivial
  apply steps_bind (calm_query _)
  intro holder
  apply steps_bind (calm_onlyIf (calm_openHolder ticket lease ns))
  intro o
  cases o with
  | locked | otherWriter | unreadable => trivial
  | ok =>
    apply steps_bind (calm_query _)
    rintro (_ | h)
    · trivial
    apply steps_bind (calm_useHolder h)
    intro _
    apply calm_here
    intro i s
    split
    · exact .of_eq rfl
    · exact .refl s

theorem calm_quiesceAndSeal (o : OpeningId) : Calm (quiesceAndSeal o) := by
  apply steps_bind (calm_phaseHolder o .quiesce)
  intro quiesced
  split
  · exact calm_phaseHolder o .seal
  · trivial

theorem calm_verifyOld : Calm verifyOld := by
  apply steps_bind (calm_reads _)
  intro m
  apply steps_bind (calm_here fun _ _ => .of_eq rfl)
  intro _
  apply steps_bind
  · cases m.bind (·.nsOld) with
    | none => trivial
    | some old => exact calm_verifyNamespace old
  intro survivors
  exact calm_here fun _ _ => .of_eq rfl

theorem calm_finishRestore : Calm (finishRestore ticket) := by
  apply steps_bind (calm_query _)
  rintro (_ | lease)
  · trivial
  apply steps_bind (calm_publish ticket lease)
  intro answer
  cases answer with
  | ok =>
    apply steps_bind (calm_query _)
    intro clean
    split
    · trivial
    apply steps_bind
    · apply steps_tryCatch
      · exact steps_bind (calm_effect (calm_setResume none)) fun _ => trivial
      · exact fun _ => trivial
    rintro (_ | _ | _)
    · trivial
    · trivial
    · trivial
  | _ => trivial

/-! ### Unlock and terms -/

theorem calm_unlockMarkBioUnusable : Calm unlockMarkBioUnusable := by
  apply steps_bind (calm_query _)
  rintro (_ | ns)
  · trivial
  · exact steps_bind (calm_setBioUnusable ns true) fun _ => trivial

theorem calm_unlockOpen : Calm (unlockOpen ticket) := by
  apply steps_bind (calm_query _)
  rintro (_ | ⟨lease, ns, holder⟩)
  · trivial
  apply steps_bind (calm_onlyIf (calm_openHolder ticket lease ns))
  intro o
  cases o with
  | locked | otherWriter | unreadable => trivial
  | ok => exact calm_publish ticket lease

theorem calm_acceptTerms (version : String) (ticket : Nat) : Calm (acceptTerms version ticket) := by
  apply steps_bind (calm_query _)
  rintro (_ | ⟨lease, h⟩)
  · trivial
  apply steps_bind (calm_useHolder h)
  intro _
  apply steps_bind
  · apply calm_here
    intro i s
    split
    · exact .of_eq rfl
    · exact .refl s
  intro current
  split
  · exact calm_publish ticket lease
  · trivial

/-! ### Delete, Gen 2 and lock -/

theorem calm_delMarker (step : ResumeStep) : Calm (delMarker step) := by
  apply steps_bind (calm_query _)
  rintro (_ | ns)
  · trivial
  · exact steps_bind (calm_query _) fun _ => calm_setResume _

theorem calm_delPhase (ph : ShutdownPhase) : Calm (delPhase ph) := by
  apply steps_bind (calm_query _)
  rintro (_ | o)
  · trivial
  · exact calm_phaseHolder o ph

theorem calm_deleteDeregister : Calm deleteDeregister := by
  apply steps_bind (calm_delMarker .deregistering)
  intro _
  apply steps_bind (calm_query _)
  rintro (_ | o)
  · exact calm_here fun _ _ => .of_eq rfl
  apply steps_bind (calm_useHolder o)
  intro _
  exact calm_here fun _ _ => .of_eq rfl

theorem calm_deleteSeal : Calm deleteSeal := by
  apply steps_bind (calm_delPhase .seal)
  intro ok
  split
  · trivial
  · exact steps_bind (calm_delMarker .sealed) fun _ => trivial

theorem calm_deleteClose : Calm deleteClose := by
  apply steps_bind
  · apply calm_here
    intro i s
    exact ((SameAccess.endSession s).trans (.dropPending _)).trans (.retry _ none)
  intro closing
  apply steps_bind (calm_settleAll closing)
  intro ok
  trivial

theorem calm_removeDatabase (ns : IdentityNs) (db : IdentityDb) : Calm (removeDatabase ns db) :=
  calm_deviceIf fun _ => .of_eq rfl

theorem calm_cancelNamespace (ns : IdentityNs) : Calm (cancelNamespace ns) :=
  calm_keystoreCall fun _ => .of_eq rfl

theorem calm_removeDelivered (ns : IdentityNs) : Calm (removeDelivered ns) :=
  calm_keystoreCall fun _ => .of_eq rfl

theorem calm_clipboardBarrier : Calm clipboardBarrier := by
  apply steps_bind (calm_query _)
  intro holds
  split
  · exact calm_deviceIf fun _ => .of_eq rfl
  · trivial

theorem calm_cancelSpaces (spaces : List IdentityNs) : Calm (cancelSpaces spaces) := by
  induction spaces with
  | nil => trivial
  | cons ns rest ih =>
    apply steps_bind (calm_cancelNamespace ns)
    intro cancelled
    apply steps_bind (calm_removeDelivered ns)
    intro _
    exact steps_bind ih fun _ => trivial

theorem calm_wipeGlobal (ns : IdentityNs) : Calm (wipeGlobal ns) := by
  apply steps_finallyDo
  · apply steps_bind (calm_deviceIf fun _ => .of_eq rfl)
    intro _
    apply steps_bind (steps_tryCatch (calm_reads _) fun _ => steps_ret _)
    intro spaces
    apply steps_bind (calm_reads _)
    intro listed
    apply steps_bind (calm_cancelSpaces _)
    intro cancelled
    apply steps_bind (calm_keystoreCall fun _ => .of_eq rfl)
    intro all
    apply steps_bind (calm_keystoreCall fun _ => .of_eq rfl)
    intro removed
    split
    · apply steps_bind (calm_reads _)
      intro clean
      exact calm_here fun _ s => .ite (.of_eq rfl) (.refl s)
    · trivial
  · exact fun _ => calm_clipboardBarrier

theorem calm_verifyAll (ns : IdentityNs) : Calm (verifyAll ns) := by
  apply steps_bind (calm_verifyNamespace ns)
  intro own
  apply steps_bind (calm_query _)
  intro prefs
  apply steps_bind (calm_reads _)
  intro sessionData
  apply steps_bind (calm_reads _)
  intro quiet
  apply steps_bind (calm_query _)
  intro clipboard
  exact steps_bind (calm_reads _) fun _ => trivial

theorem calm_deleteVerify : Calm deleteVerify := by
  apply steps_bind (calm_here fun _ _ => .of_eq rfl)
  rintro (_ | ns)
  · trivial
  apply steps_bind (calm_verifyAll ns)
  intro out
  exact calm_here fun _ _ => .of_eq rfl

theorem calm_deleteFinish : Calm deleteFinish := by
  apply steps_bind (calm_query _)
  intro clean
  apply steps_bind (calm_query _)
  intro report
  split
  · apply steps_bind (calm_setResume none)
    intro _
    exact steps_bind (calm_here fun _ _ => .of_eq rfl) fun _ => trivial
  · trivial

theorem calm_legacyWipe : Calm legacyWipe := by
  apply steps_bind (calm_here fun _ _ => .of_eq rfl)
  intro _
  apply steps_bind (calm_query _)
  intro at'
  apply steps_bind (calm_setResume _)
  intro _
  apply steps_bind (calm_deviceIf fun _ => .of_eq rfl)
  intro _
  exact steps_bind (calm_keystoreCall fun _ => .of_eq rfl) fun _ => trivial

theorem calm_legacyVerify : Calm legacyVerify := by
  apply steps_bind
  · apply steps_bind (calm_reads _)
    intro legacy
    exact steps_bind (steps_atomic trivial fun _ s => .refl s) fun _ => trivial
  intro out
  exact calm_here fun _ _ => .of_eq rfl

theorem calm_lockJoined : Calm lockJoined := by
  apply steps_bind calm_wait
  intro _
  exact steps_bind (calm_resRetry none) fun _ => trivial

theorem calm_lockCleanup (ns : Option IdentityNs) (mine : Nat) (closing : List Closing) :
    Calm (lockCleanup ns mine closing) := by
  apply steps_bind (calm_settleAll closing)
  intro _
  rcases ns with _ | ns
  · trivial
  apply steps_bind
  · apply steps_tryCatch
    · apply steps_bind (calm_reads _)
      intro active
      split
      · trivial
      apply steps_bind (calm_lockInfo ns)
      intro info
      exact calm_here fun _ s => .ite (.of_eq rfl) (.refl s)
    · exact fun _ => trivial
  · exact fun _ => trivial

end

end LastAccess

end WebOfTrust
