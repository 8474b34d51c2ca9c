/-
  **The broker's durable store** (`wot-relay/src/log-store.ts`): the append-only
  document log, the device list, the space registry with its admins and the
  owners of personal documents.

  Every function is one synchronous SQLite transaction, hence one function of
  the store.  A content hash is represented by the payload it hashes.
-/
import WebOfTrust.KeyedTable
import WebOfTrust.LogEntry
import Mathlib.Data.List.Dedup
import Mathlib.Data.List.Sort

namespace WebOfTrust

open KeyedTable Option

/-! ## 1. Tables -/

structure DocLogRow where
  docId : DocId
  deviceId : DeviceId
  seq : Nat
  contentHash : LogEntryPayload
  entryJws : EntryJws
  createdAt : Nat

def DocLogRow.key (r : DocLogRow) : DocId × DeviceId × Nat := (r.docId, r.deviceId, r.seq)

inductive DeviceStatus where
  | active
  | revoked
deriving DecidableEq

structure DeviceRow where
  did : Did
  deviceId : DeviceId
  firstSeenAt : Nat
  lastSeenAt : Nat
  status : DeviceStatus
  revokedAt : Option String

def DeviceRow.seen (now : Nat) (r : DeviceRow) : DeviceRow := { r with lastSeenAt := now }

def DeviceRow.revoke (revokedAt : String) (now : Nat) (r : DeviceRow) : DeviceRow :=
  { r with status := .revoked, revokedAt := some revokedAt, lastSeenAt := now }

structure SpaceRow where
  spaceId : DocId
  verificationKey : String
  generation : Nat
  createdAt : Nat
deriving DecidableEq

def SpaceRow.rotate (verificationKey : String) (generation : Nat) (r : SpaceRow) : SpaceRow :=
  { r with verificationKey := verificationKey, generation := generation }

structure SpaceAdminRow where
  spaceId : DocId
  adminDid : Did

def SpaceAdminRow.key (r : SpaceAdminRow) : DocId × Did := (r.spaceId, r.adminDid)

structure PersonalDocOwnerRow where
  docId : DocId
  ownerDid : Did
  claimedAt : Nat

open DeviceRow

structure BrokerStore where
  docLog : KeyedTable DocLogRow.key
  devices : KeyedTable deviceId
  spaces : KeyedTable SpaceRow.spaceId
  spaceAdmins : KeyedTable SpaceAdminRow.key
  personalDocOwners : KeyedTable PersonalDocOwnerRow.docId

def BrokerStore.fresh : BrokerStore where
  docLog := .empty
  devices := .empty
  spaces := .empty
  spaceAdmins := .empty
  personalDocOwners := .empty

namespace BrokerStore

/-! ## 2. The log -/

inductive AppendDisposition where
  | rejectSeqCollision
  | idempotentRetransmission
  | rejectKeyGenerationStale
  | acceptNewEntry
deriving DecidableEq

def getContentHash (s : BrokerStore) (docId : DocId) (deviceId : DeviceId) (seq : Nat) :
    Option LogEntryPayload :=
  (s.docLog.get? (docId, deviceId, seq)).map (·.contentHash)

def getSpace (s : BrokerStore) (spaceId : DocId) : Option SpaceRow := s.spaces.get? spaceId

/-- `appendEntry`: collision and dedup first, then the generation gate, then
    the insert. -/
def appendEntry (s : BrokerStore) (p : LogEntryPayload) (entryJws : EntryJws) (now : Nat) :
    AppendDisposition × BrokerStore :=
  match s.getContentHash p.docId p.deviceId p.seq with
  | some existing =>
    if existing = p then (.idempotentRetransmission, s) else (.rejectSeqCollision, s)
  | none =>
    if (s.getSpace p.docId).any (fun space => decide (p.keyGeneration < space.generation)) then
      (.rejectKeyGenerationStale, s)
    else
      (.acceptNewEntry, { s with
          docLog := s.docLog.add
            { docId := p.docId, deviceId := p.deviceId, seq := p.seq, contentHash := p
              entryJws := entryJws, createdAt := now } })

def getSinceWithTruncation (s : BrokerStore) (docId : DocId) (heads : List (DeviceId × Nat))
    (limit : Nat) : List EntryJws × Bool :=
  let rows := (s.docLog.rows.filter fun r => decide (r.docId = docId)).insertionSort
    fun a b => a.deviceId < b.deviceId ∨ a.deviceId = b.deviceId ∧ a.seq ≤ b.seq
  let missing := rows.filter fun r => (heads.lookup r.deviceId).all (· < r.seq)
  ((missing.take limit).map (·.entryJws), decide (limit < missing.length))

def getHeads (s : BrokerStore) (docId : DocId) : List (DeviceId × Nat) :=
  let rows := s.docLog.rows.filter fun r => decide (r.docId = docId)
  (rows.map (·.deviceId)).dedup.map fun d =>
    (d, ((rows.filter fun r => decide (r.deviceId = d)).map (·.seq)).foldl max 0)

/-! ## 3. Devices -/

inductive DeviceRegistration where
  | deviceIdConflict
  | deviceRevoked
  | registered (isNewDevice : Bool)

def registerDevice (s : BrokerStore) (did : Did) (deviceId : DeviceId) (now : Nat) :
    DeviceRegistration × BrokerStore :=
  match s.devices.get? deviceId with
  | some existing =>
    if existing.did ≠ did then (.deviceIdConflict, s)
    else if existing.status = .revoked then (.deviceRevoked, s)
    else (.registered false, { s with devices := s.devices.update deviceId (seen now) })
  | none =>
    (.registered true, { s with
        devices := s.devices.add
          { did := did, deviceId := deviceId, firstSeenAt := now, lastSeenAt := now
            status := .active, revokedAt := none } })

def didForDevice (s : BrokerStore) (deviceId : DeviceId) : Option Did :=
  (s.devices.get? deviceId).map (·.did)

def isActive (s : BrokerStore) (did : Did) (deviceId : DeviceId) : Bool :=
  (s.devices.get? deviceId).any fun r => decide (r.did = did) && decide (r.status = .active)

def isRevoked (s : BrokerStore) (deviceId : DeviceId) : Bool :=
  (s.devices.get? deviceId).any fun r => decide (r.status = .revoked)

def effectiveActiveDeviceIdsForDid (s : BrokerStore) (did : Did) (nowMs inactiveMs : Nat) :
    List DeviceId :=
  (s.devices.rows.filter fun r => decide (r.did = did) && decide (r.status = .active) &&
    decide (nowMs - inactiveMs ≤ r.lastSeenAt)).map (·.deviceId)

inductive DeviceRevocation where
  | revoked
  | alreadyRevoked
  | tombstoned
  | didMismatch
deriving DecidableEq

def revokeDevice (s : BrokerStore) (did : Did) (deviceId : DeviceId) (revokedAt : String)
    (now : Nat) :
    DeviceRevocation × BrokerStore :=
  match s.devices.get? deviceId with
  | none =>
    (.tombstoned, { s with
        devices := s.devices.add
          { did := did, deviceId := deviceId, firstSeenAt := now, lastSeenAt := now
            status := .revoked, revokedAt := some revokedAt } })
  | some existing =>
    if existing.did ≠ did then (.didMismatch, s)
    else if existing.status = .revoked then (.alreadyRevoked, s)
    else
      (.revoked, { s with devices := s.devices.update deviceId (revoke revokedAt now) })

/-! ## 4. Spaces and personal documents -/

def isSpaceRegistered (s : BrokerStore) (spaceId : DocId) : Bool := s.spaces.has spaceId

/-- `getSpaceAdmins`, in table order. -/
def getSpaceAdmins (s : BrokerStore) (spaceId : DocId) : List Did :=
  (s.spaceAdmins.rows.filter fun r => decide (r.spaceId = spaceId)).map (·.adminDid)

def getPersonalDocOwner (s : BrokerStore) (docId : DocId) : Option Did :=
  (s.personalDocOwners.get? docId).map (·.ownerDid)

inductive SpaceRegistration where
  | personalOwnerConflict
  | conflict
  | idempotent
  | registered
deriving DecidableEq

def sameStringSet (a b : List String) : Bool :=
  a.all (fun x => b.contains x) && b.all (fun x => a.contains x)

/-- `registerSpace`: first writer wins; the owner of a personal document alone
    may turn it into a space. -/
def registerSpace (s : BrokerStore) (spaceId : DocId) (verificationKey : String)
    (adminDids : List Did) (signerDid : Did) (now : Nat) : SpaceRegistration × BrokerStore :=
  if (s.getPersonalDocOwner spaceId).any (fun owner => decide (owner ≠ signerDid)) then
    (.personalOwnerConflict, s)
  else
    match s.getSpace spaceId with
    | some existing =>
      if existing.verificationKey ≠ verificationKey then (.conflict, s)
      else if !sameStringSet (s.getSpaceAdmins spaceId) adminDids then (.conflict, s)
      else (.idempotent, s)
    | none =>
      (.registered, { s with
          spaces := s.spaces.add
            { spaceId := spaceId, verificationKey := verificationKey, generation := 0
              createdAt := now }
          spaceAdmins := adminDids.foldl
            (fun t adminDid => t.add { spaceId := spaceId, adminDid := adminDid }) s.spaceAdmins
          personalDocOwners := s.personalDocOwners.erase spaceId })

inductive OwnerClaim where
  | idempotent
  | conflict
  | claimed
deriving DecidableEq

def claimPersonalDocOwner (s : BrokerStore) (docId : DocId) (did : Did) (now : Nat) :
    OwnerClaim × BrokerStore :=
  match s.getPersonalDocOwner docId with
  | some owner => if owner = did then (.idempotent, s) else (.conflict, s)
  | none =>
    (.claimed, { s with
        personalDocOwners := s.personalDocOwners.add
          { docId := docId, ownerDid := did, claimedAt := now } })

def rotateSpace (s : BrokerStore) (spaceId : DocId) (newVerificationKey : String)
    (newGeneration : Nat) : BrokerStore :=
  { s with spaces := s.spaces.update spaceId (SpaceRow.rotate newVerificationKey newGeneration) }

def addAdmin (s : BrokerStore) (spaceId : DocId) (adminDid : Did) : BrokerStore :=
  { s with spaceAdmins := s.spaceAdmins.add { spaceId := spaceId, adminDid := adminDid } }

def removeAdmin (s : BrokerStore) (spaceId : DocId) (adminDid : Did) : BrokerStore :=
  { s with spaceAdmins := s.spaceAdmins.erase (spaceId, adminDid) }

/-! ## 5. What the transactions do to the lookups -/

variable {s : BrokerStore} {did : Did} {deviceId deviceId' : DeviceId} {now : Nat}
  {revokedAt : String} {docId : DocId}

theorem isSpaceRegistered_iff {spaceId : DocId} :
    s.isSpaceRegistered spaceId = true ↔ ∃ space, s.getSpace spaceId = some space :=
  isSome_iff_exists

theorem isActive_iff : s.isActive did deviceId = true ↔
      ∃ r, s.devices.get? deviceId = some r ∧ r.did = did ∧ r.status = .active := by
  rw [isActive, any_eq_true]
  simp only [Bool.and_eq_true, decide_eq_true_eq]

theorem isActive_registerDevice {did' : Did} (h : s.isActive did deviceId = true) :
    (s.registerDevice did' deviceId' now).2.isActive did deviceId = true := by
  obtain ⟨r, hr, hdid, hstatus⟩ := isActive_iff.mp h
  simp only [registerDevice]
  split
  · next existing hexisting =>
    split
    · exact h
    split
    · exact h
    refine isActive_iff.mpr ?_
    by_cases hk : deviceId' = deviceId
    · refine ⟨r.seen now, ?_, hdid, hstatus⟩
      rw [s.devices.get?_update deviceId' (seen now) (fun _ => rfl), if_pos hk, hk, hr]
      rfl
    · refine ⟨r, ?_, hdid, hstatus⟩
      rw [s.devices.get?_update deviceId' (seen now) (fun _ => rfl), if_neg hk, hr]
  · exact isActive_iff.mpr ⟨r, get?_add_of_some hr, hdid, hstatus⟩

theorem isActive_revokeDevice {did' : Did} (h : s.isActive did deviceId = true)
    (hne : ¬ (did' = did ∧ deviceId' = deviceId)) :
    (s.revokeDevice did' deviceId' revokedAt now).2.isActive did deviceId = true := by
  obtain ⟨r, hr, hdid, hstatus⟩ := isActive_iff.mp h
  simp only [revokeDevice]
  split
  · exact isActive_iff.mpr ⟨r, get?_add_of_some hr, hdid, hstatus⟩
  next existing hexisting =>
  split
  · exact h
  next howner =>
  split
  · exact h
  have hk : deviceId' ≠ deviceId := by
    intro hk
    rw [hk, hr] at hexisting
    cases hexisting
    exact hne ⟨by simpa using (not_not.mp howner).symm.trans hdid, hk⟩
  refine isActive_iff.mpr ⟨r, ?_, hdid, hstatus⟩
  rw [s.devices.get?_update deviceId' (revoke revokedAt now) (fun _ => rfl), if_neg hk, hr]

theorem isRevoked_revokeDevice (h : (s.revokeDevice did deviceId revokedAt now).1 ≠ .didMismatch) :
    (s.revokeDevice did deviceId revokedAt now).2.isRevoked deviceId = true := by
  simp only [revokeDevice] at h ⊢
  split
  · next hnone =>
    have hfree : s.devices.has deviceId = false := by
      unfold has
      rw [hnone]
      rfl
    show (get? _ deviceId).any _ = true
    rw [get?_add_of_free (by exact hfree)]
    simp
  · next existing hexisting =>
    simp only [hexisting] at h
    split
    · next hother =>
      rw [if_pos hother] at h
      exact absurd rfl h
    split
    · next hrevoked =>
      show (s.devices.get? deviceId).any _ = true
      rw [hexisting]
      simpa using hrevoked
    show (get? _ deviceId).any _ = true
    rw [s.devices.get?_update deviceId (revoke revokedAt now) (fun _ => rfl),
      if_pos rfl, hexisting]
    simp [revoke]

/-- **Revocation is for good**: neither a registration nor another revocation undoes it. -/
theorem isRevoked_registerDevice (h : s.isRevoked deviceId = true) :
    (s.registerDevice did deviceId' now).2.isRevoked deviceId = true := by
  obtain ⟨r, hr, hstatus⟩ := (any_eq_true _ _).mp h
  have keep {s' : BrokerStore} (r' : DeviceRow) (hr' : s'.devices.get? deviceId = some r')
      (hsame : r'.status = r.status) : s'.isRevoked deviceId = true := by
    unfold isRevoked
    rw [hr', any_some, hsame]
    exact hstatus
  simp only [registerDevice]
  split
  · split
    · exact h
    split
    · exact h
    by_cases hk : deviceId' = deviceId
    · refine keep (r.seen now) ?_ rfl
      rw [s.devices.get?_update deviceId' (seen now) (fun _ => rfl), if_pos hk, hk, hr]
      rfl
    · refine keep r ?_ rfl
      rw [s.devices.get?_update deviceId' (seen now) (fun _ => rfl), if_neg hk, hr]
  · exact keep r (get?_add_of_some hr) rfl

theorem isRevoked_revokeDevice_of (h : s.isRevoked deviceId = true) :
    (s.revokeDevice did deviceId' revokedAt now).2.isRevoked deviceId = true := by
  by_cases hk : deviceId' = deviceId
  · subst hk
    by_cases hmismatch : (s.revokeDevice did deviceId' revokedAt now).1 = .didMismatch
    · simp only [revokeDevice] at hmismatch ⊢
      split
      · next hnone =>
        simp only [hnone] at hmismatch
        cases hmismatch
      next existing hexisting =>
      simp only [hexisting] at hmismatch
      split
      · exact h
      next howner =>
      rw [if_neg howner] at hmismatch
      split at hmismatch <;> cases hmismatch
    · exact isRevoked_revokeDevice hmismatch
  · obtain ⟨r, hr, hstatus⟩ := (any_eq_true _ _).mp h
    simp only [revokeDevice]
    split
    · show (get? _ deviceId).any _ = true
      rw [get?_add_of_some hr]
      simpa using hstatus
    split
    · exact h
    split
    · exact h
    show (get? _ deviceId).any _ = true
    rw [s.devices.get?_update deviceId' (revoke revokedAt now) (fun _ => rfl), if_neg hk, hr]
    simpa using hstatus

/-- A registration binds a free space id at generation 0, frees it of its
    personal owner, and touches no other space or owner. -/
theorem registerSpace_registered {spaceId : DocId} {verificationKey : String} {adminDids : List Did}
    {signerDid : Did}
    (h : (s.registerSpace spaceId verificationKey adminDids signerDid now).1 = .registered) :
    s.getSpace spaceId = none ∧
      (∀ d, (s.registerSpace spaceId verificationKey adminDids signerDid now).2.getSpace d =
        if spaceId = d then some ⟨spaceId, verificationKey, 0, now⟩ else s.getSpace d) ∧
      ∀ d, (s.registerSpace spaceId verificationKey adminDids signerDid now).2.getPersonalDocOwner d
        = if spaceId = d then none else s.getPersonalDocOwner d := by
  simp only [registerSpace] at h ⊢
  split at h
  · cases h
  next howner =>
  split at h
  · split at h
    · cases h
    · split at h <;> cases h
  next hnone =>
  rw [if_neg howner]
  simp only [hnone]
  have hfree : s.spaces.has spaceId = false := by
    simp only [has]
    rw [show s.spaces.get? spaceId = none from hnone]
    rfl
  refine ⟨trivial, fun d => ?_, fun d => ?_⟩
  · exact get?_add_of_free (r := (⟨spaceId, verificationKey, 0, now⟩ : SpaceRow)) hfree d
  · simp only [getPersonalDocOwner, get?_erase]
    by_cases hd : spaceId = d <;> simp [hd]

theorem getSpace_rotateSpace (s : BrokerStore) (spaceId : DocId) (key : String)
    (generation : Nat) (d : DocId) :
    (s.rotateSpace spaceId key generation).getSpace d =
      if spaceId = d then (s.getSpace spaceId).map (SpaceRow.rotate key generation)
      else s.getSpace d :=
  s.spaces.get?_update spaceId (SpaceRow.rotate key generation) (fun _ => rfl) d

theorem getPersonalDocOwner_claim_of_some {d : DocId} {owner : Did}
    (h : s.getPersonalDocOwner d = some owner) :
    (s.claimPersonalDocOwner docId did now).2.getPersonalDocOwner d = some owner := by
  simp only [claimPersonalDocOwner]
  split
  · split <;> exact h
  simp only [getPersonalDocOwner, map_eq_some_iff] at h ⊢
  obtain ⟨r, hr, howner⟩ := h
  exact ⟨r, get?_add_of_some hr, howner⟩

theorem getPersonalDocOwner_claim_of_ne {d : DocId} (hne : docId ≠ d) :
    (s.claimPersonalDocOwner docId did now).2.getPersonalDocOwner d = s.getPersonalDocOwner d := by
  simp only [claimPersonalDocOwner]
  split
  · split <;> rfl
  next hnone =>
  have hfree : s.personalDocOwners.has docId = false := by
    simp only [getPersonalDocOwner, map_eq_none_iff] at hnone
    simp [has, hnone]
  simp only [getPersonalDocOwner]
  rw [get?_add_of_free (by exact hfree), if_neg hne]

theorem getPersonalDocOwner_claim_self (h : (s.claimPersonalDocOwner docId did now).1 ≠ .conflict) :
    (s.claimPersonalDocOwner docId did now).2.getPersonalDocOwner docId = some did := by
  simp only [claimPersonalDocOwner] at h ⊢
  split
  · next owner howner =>
    simp only [howner] at h
    split
    · next heq => rw [howner, heq]
    · next hne => simp [hne] at h
  next hnone =>
  have hfree : s.personalDocOwners.has docId = false := by
    simp only [getPersonalDocOwner, map_eq_none_iff] at hnone
    simp [has, hnone]
  simp only [getPersonalDocOwner]
  rw [get?_add_of_free (by exact hfree)]
  simp

theorem registerSpace_frame (spaceId : DocId) (key : String) (adminDids : List Did)
    (signerDid : Did) (now : Nat) :
    ∃ spaces admins owners, (s.registerSpace spaceId key adminDids signerDid now).2 =
      { s with spaces := spaces, spaceAdmins := admins, personalDocOwners := owners } := by
  simp only [registerSpace]
  split
  · exact ⟨s.spaces, s.spaceAdmins, s.personalDocOwners, rfl⟩
  split
  · split
    · exact ⟨s.spaces, s.spaceAdmins, s.personalDocOwners, rfl⟩
    · split <;> exact ⟨s.spaces, s.spaceAdmins, s.personalDocOwners, rfl⟩
  · exact ⟨_, _, _, rfl⟩

theorem registerDevice_frame (did : Did) (deviceId : DeviceId) (now : Nat) :
    ∃ devices, (s.registerDevice did deviceId now).2 = { s with devices := devices } := by
  simp only [registerDevice]
  split
  · split
    · exact ⟨s.devices, rfl⟩
    split
    · exact ⟨s.devices, rfl⟩
    · exact ⟨_, rfl⟩
  · exact ⟨_, rfl⟩

theorem revokeDevice_frame (did : Did) (deviceId : DeviceId) (revokedAt : String) (now : Nat) :
    ∃ devices, (s.revokeDevice did deviceId revokedAt now).2 = { s with devices := devices } := by
  simp only [revokeDevice]
  split
  · exact ⟨_, rfl⟩
  split
  · exact ⟨s.devices, rfl⟩
  split
  · exact ⟨s.devices, rfl⟩
  · exact ⟨_, rfl⟩

theorem claimPersonalDocOwner_frame (docId : DocId) (did : Did) (now : Nat) :
    ∃ owners, (s.claimPersonalDocOwner docId did now).2 =
      { s with personalDocOwners := owners } := by
  simp only [claimPersonalDocOwner]
  split
  · split <;> exact ⟨s.personalDocOwners, rfl⟩
  · exact ⟨_, rfl⟩

/-- **What an accepted append found and did**: a free coordinate, a key
    generation that is not stale, and one new row. -/
theorem appendEntry_accept {p : LogEntryPayload} {jws : EntryJws}
    (h : (s.appendEntry p jws now).1 = .acceptNewEntry) :
    s.docLog.get? (p.docId, p.deviceId, p.seq) = none ∧
      (∀ space, s.getSpace p.docId = some space → space.generation ≤ p.keyGeneration) ∧
      (s.appendEntry p jws now).2 =
        { s with docLog := s.docLog.add ⟨p.docId, p.deviceId, p.seq, p, jws, now⟩ } := by
  simp only [appendEntry] at h ⊢
  split at h
  · split at h <;> cases h
  next hnone =>
  split at h
  · cases h
  next hgate =>
  refine ⟨by simpa [getContentHash] using hnone, ?_, ?_⟩
  · intro space hspace
    simp only [hspace, any_some, decide_eq_true_eq, Nat.not_lt] at hgate
    exact hgate
  · simp only [hgate]
    rfl

theorem appendEntry_other {p : LogEntryPayload} {jws : EntryJws}
    (h : (s.appendEntry p jws now).1 ≠ .acceptNewEntry) : (s.appendEntry p jws now).2 = s := by
  simp only [appendEntry] at h ⊢
  split
  · split <;> rfl
  next hnone =>
  simp only [hnone] at h
  split
  · rfl
  · next hgate => simp [hgate] at h

end BrokerStore

end WebOfTrust
