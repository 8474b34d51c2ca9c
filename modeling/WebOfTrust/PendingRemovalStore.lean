/-
  **The durable records of member removals in progress**
  (`ports/DocLogStore.ts`, `adapters/storage/pending-removal-binding.ts` and the
  pending-removal half of the two `DocLogStore` adapters).

  A record is keyed by space and removed member.  Every productive write states
  which record it expects to find (`WriteExpectation`), every broker confirmation
  which staging and material it covers (`BrokerConfirmationBinding`); the read,
  the check and the write are one atomic section in both adapters.
-/
import WebOfTrust.KeyedTable
import WebOfTrust.LogEntry

namespace WebOfTrust

inductive RemovalPhase where
  | staged
  | brokerConfirmed
  | committed
  | adminRemoved
  | localCleanup
  | complete
deriving DecidableEq

/-- The new key material that the commit of a removal distributes. -/
structure StagedRemovalKeyMaterial where
  contentKey : Bytes
  capSigningSeed : Bytes
  capVerificationKey : Bytes
deriving DecidableEq

structure RemovalFields where
  spaceId : DocId
  removedDid : Did
  homeBrokerSet : List String
  confirmedBrokerUrls : List String
  newGeneration : Nat
  stagedKeyMaterial : StagedRemovalKeyMaterial
  stagingId : Option String
  materialFingerprint : Option String
  createdAt : Nat
  activityEntry : Option String
  /-- `kind: 'canonical-self-removal-rotation'`. -/
  canonicalSelfRemovalRotation : Bool
  committed : Option Bool
  adminRemoveConfirmedBrokerUrls : Option (List String)
deriving DecidableEq

/-- A removal record as it lies in the store; records of the first two layouts
    carry no phase. -/
structure StoredPendingRemoval extends RemovalFields where
  phase : Option RemovalPhase
deriving DecidableEq

structure PendingRemoval extends RemovalFields where
  phase : RemovalPhase
deriving DecidableEq

namespace StoredPendingRemoval

/-- `pendingRemovalKey`: the JSON pair, hence injective. -/
def key (r : StoredPendingRemoval) : DocId × Did := (r.spaceId, r.removedDid)

/-- Read a stored record; a missing phase is inferred as the furthest durable
    boundary (`fromStoredRemoval`, `cloneRemoval`). -/
def load (r : StoredPendingRemoval) : PendingRemoval where
  toRemovalFields := r.toRemovalFields
  phase := r.phase.getD (if r.committed = some true then .committed
     else if r.confirmedBrokerUrls.length > 0 then .brokerConfirmed
     else .staged)

end StoredPendingRemoval

/-- Write a record (`toStoredRemoval`). -/
def PendingRemoval.toStored (r : PendingRemoval) : StoredPendingRemoval where
  toRemovalFields := r.toRemovalFields
  phase := some r.phase

inductive WriteExpectation where
  | absent
  | legacy (newGeneration : Nat) (materialFingerprint : Option String)
      (material : StagedRemovalKeyMaterial)
  | staging (stagingId : String)

def legacyWriteExpectation (r : PendingRemoval) : WriteExpectation :=
  .legacy r.newGeneration r.materialFingerprint r.stagedKeyMaterial

def matchesStagingExpectation (stored : Option PendingRemoval) : Option WriteExpectation → Bool
  | none => true
  | some expect =>
    match stored, expect with
    | none, .absent => true
    | none, _ => false
    | some _, .absent => false
    | some r, .staging id => decide (r.stagingId = some id)
    | some r, .legacy g fp m =>
        decide (r.stagingId = none) && decide (r.newGeneration = g) &&
          decide (r.materialFingerprint = fp) && decide (r.stagedKeyMaterial = m)

structure BrokerConfirmationBinding where
  stagingId : String
  newGeneration : Nat
  materialFingerprint : String

def matchesConfirmationBinding (stored : StoredPendingRemoval) :
    Option BrokerConfirmationBinding → Bool
  | none => true
  | some b =>
      decide (stored.stagingId = some b.stagingId) &&
        decide (stored.materialFingerprint = some b.materialFingerprint) &&
        decide (stored.newGeneration = b.newGeneration)

inductive DeleteOutcome where
  | deleted
  | absent
  | mismatch
deriving DecidableEq

inductive ConfirmationOutcome where
  | recorded
  | alreadyConfirmed
  | absent
  | foreignBroker
  | superseded
deriving DecidableEq

open StoredPendingRemoval

/-- The `pendingRemovals` object store. -/
abbrev PendingRemovals := KeyedTable key

namespace PendingRemovals

variable (t : PendingRemovals) (spaceId : DocId) (removedDid : Did)

def getPendingRemoval : Option PendingRemoval :=
  (t.get? (spaceId, removedDid)).map load

def listPendingRemovals : List PendingRemoval :=
  t.rows.map load

/-- `putPendingRemoval`: the error is the record that holds the key instead. -/
def putPendingRemoval (removal : PendingRemoval)
    (expect : Option WriteExpectation) : Except (Option PendingRemoval) PendingRemovals :=
  let current := t.getPendingRemoval removal.spaceId removal.removedDid
  if matchesStagingExpectation current expect then .ok (t.put removal.toStored)
  else .error current

def confirmationOutcome (stored : Option StoredPendingRemoval) (brokerUrl : String)
    (binding : Option BrokerConfirmationBinding) : ConfirmationOutcome :=
  match stored with
  | none => .absent
  | some r =>
    if !r.homeBrokerSet.contains brokerUrl then .foreignBroker
    else if !matchesConfirmationBinding r binding then .superseded
    else if r.confirmedBrokerUrls.contains brokerUrl then .alreadyConfirmed
    else .recorded

def markBrokerConfirmed (brokerUrl : String) (binding : Option BrokerConfirmationBinding) :
    ConfirmationOutcome × PendingRemovals :=
  match confirmationOutcome (t.get? (spaceId, removedDid)) brokerUrl binding with
  | .recorded =>
      (.recorded, t.update (spaceId, removedDid) fun r =>
        { r with confirmedBrokerUrls := r.confirmedBrokerUrls ++ [brokerUrl] })
  | outcome => (outcome, t)

def deletePendingRemoval (expect : Option WriteExpectation) : DeleteOutcome × PendingRemovals :=
  match t.getPendingRemoval spaceId removedDid with
  | none => (.absent, t)
  | some r =>
    if matchesStagingExpectation (some r) expect then
      (.deleted, t.erase (spaceId, removedDid))
    else (.mismatch, t)

end PendingRemovals

end WebOfTrust
