/-
  **The port of the document log, twice**: every operation of `ports/DocLogStore.ts` as
  `IndexedDBDocLogStore.ts` and as `InMemoryDocLogStore.ts` answer it, one call after the
  other.

  IndexedDB keeps the rows of `DocLogStore` and lists a table in its own order
  (`Listing`).  In memory an entry is found under one string that joins its coordinate
  with NUL characters, and a removal record gets its phase when it is written.
-/
import WebOfTrust.DocLogCursor

namespace WebOfTrust

/-! ## 1. Operations and results -/

/-- `hasEntriesBatch` names entries of one document. -/
structure DocLogEntryKey where
  deviceId : DeviceId
  seq : Nat

/-- A call of the port, with the clock and the random id of its answer. -/
inductive PortOp where
  | appendLocalEntry (docId : DocId) (deviceId : DeviceId)
      (build : Nat → Except String EntryJws) (now : Nat)
  | getOrCreateDeviceId (uuid : String)
  | setDeviceId (deviceId : DeviceId)
  | resolveConnectDeviceId (uuid : String)
  | recordRemoteApplied (entry : RecordRemoteAppliedEntry) (now : Nat)
  | hasEntriesBatch (docId : DocId) (keys : List DocLogEntryKey)
  | recordRemoteAppliedBatch (entries : List RecordRemoteAppliedEntry) (now : Nat)
  | getKnownHeads (docId : DocId)
  | getStrictContiguousHeads (docId : DocId)
  | getSyncRequestHeads (docId : DocId)
  | recordGapObservation (docId : DocId) (device : DeviceId) (firstMissing observedMax : Nat)
      (connectionEpoch : Int) (now : Nat)
  | markGapSoftSkipped (docId : DocId) (device : DeviceId) (firstMissing : Nat)
  | listDueGapRepairs (now : Nat)
  | markGapRepairAttempt (docId : DocId) (device : DeviceId) (firstMissing nextDueAt : Nat)
  | deleteGapRepair (docId : DocId) (device : DeviceId) (firstMissing : Nat)
  | getEntry (docId : DocId) (deviceId : DeviceId) (seq : Nat)
  | getPending
  | markAcked (docId : DocId) (deviceId : DeviceId) (seq : Nat)
  | putPendingRemoval (removal : StoredPendingRemoval) (expect : Option WriteExpectation)
  | getPendingRemoval (spaceId : DocId) (removedDid : Did)
  | markBrokerConfirmed (spaceId : DocId) (removedDid : Did) (brokerUrl : String)
      (binding : Option BrokerConfirmationBinding)
  | deletePendingRemoval (spaceId : DocId) (removedDid : Did) (expect : Option WriteExpectation)
  | listPendingRemovals
  | clear

open DocLogStore

inductive PortResult where
  | done
  | failed (text : String)
  | entry (e : LocalLogEntry)
  | found (e : Option LocalLogEntry)
  | pending (es : List LocalLogEntry)
  | keys (ks : List DocLogEntryKey)
  | heads (h : Heads)
  | gaps (gs : List GapRepair)
  | deviceId (d : DeviceId)
  | orphanedLogRepair (deviceIds : List DeviceId)
  | stagingConflict (existing : Option PendingRemoval)
  | removal (r : Option PendingRemoval)
  | removals (rs : List PendingRemoval)
  | confirmation (outcome : ConfirmationOutcome)
  | deletion (outcome : DeleteOutcome)

def PortResult.Same : PortResult → PortResult → Prop
  | .pending es, .pending es' => es.Perm es'
  | .keys ks, .keys ks' => ks.Perm ks'
  | .gaps gs, .gaps gs' => gs.Perm gs'
  | .orphanedLogRepair ds, .orphanedLogRepair ds' => ds.Perm ds'
  | .removals rs, .removals rs' => rs.Perm rs'
  | r, r' => r = r'

@[simp] theorem PortResult.same_refl (r : PortResult) : r.Same r := by
  cases r with
  | pending es => exact .refl es
  | keys ks => exact .refl ks
  | gaps gs => exact .refl gs
  | orphanedLogRepair ds => exact .refl ds
  | removals rs => exact .refl rs
  | _ => rfl

/-! ## 2. Reading rows

What both adapters compute from the rows they walk over. -/

/-- `getKnownHeads`, of one device. -/
def knownHead (rows : List LocalLogEntry) (docId : DocId) : Heads := fun device =>
  match (rows.filter fun e => decide (e.docId = docId) && decide (e.deviceId = device)).map
    (·.seq) with
  | [] => none
  | seqs => some (seqs.foldl max 0 : Nat)

/-! ## 3. IndexedDB -/

structure Listing where
  list : {α : Type} → List α → List α
  perm : ∀ {α : Type} (rows : List α), (list rows).Perm rows

namespace DocLogStore

variable (s : DocLogStore)

/-- The sequential retry loop of `appendLocalEntry`. -/
def appendEntry (s : DocLogStore) (docId : DocId) (deviceId : DeviceId)
    (build : Nat → Except String EntryJws) (now : Nat) : Nat → PortResult × DocLogStore
  | 0 => (.failed (seqCollisionMessage docId deviceId), s)
  | attempts + 1 =>
    let seq := (s.readMaxSeq docId deviceId + 1).toNat
    match build seq with
    | .error text => (.failed text, s)
    | .ok entryJws =>
      let e : LocalLogEntry := ⟨docId, deviceId, seq, entryJws, .pending, now⟩
      match s.addEntry e with
      | some s' => (.entry e, s')
      | none => s.appendEntry docId deviceId build now attempts

def storedDeviceId : Option DeviceId := s.deviceId.filter fun d => !d.isEmpty

/-- `recordRemoteApplied`: the gaps are looked at in any case. -/
def recordApplied (entry : RecordRemoteAppliedEntry) (now : Nat) : DocLogStore :=
  (s.putRemoteApplied entry now).autoResolveGaps entry.docId entry.deviceId

/-- `recordRemoteAppliedBatch`: all entries first, then the gaps of each. -/
def recordAppliedBatch (entries : List RecordRemoteAppliedEntry) (now : Nat) : DocLogStore :=
  entries.foldl (fun s e => s.autoResolveGaps e.docId e.deviceId)
    (entries.foldl (fun s e => s.putRemoteApplied e now) s)

def listedSyncRequestHeads (L : Listing) (s : DocLogStore) (docId : DocId) : Heads :=
  (((L.list s.gapState.rows).filter fun g =>
    decide (g.docId = docId) && g.softSkipped).insertionSort
    (fun a b => a.firstMissing ≤ b.firstMissing)).foldl (s.advancePastGap docId)
      (s.getStrictContiguousHeads docId)

/-- `putPendingRemoval`, of a record that may lack its phase. -/
def putStoredRemoval (removal : StoredPendingRemoval)
    (expect : Option WriteExpectation) : PortResult × DocLogStore :=
  let current := s.pendingRemovals.getPendingRemoval removal.spaceId removal.removedDid
  if matchesStagingExpectation current expect then
    (.done, { s with pendingRemovals := s.pendingRemovals.put removal })
  else (.stagingConflict current, s)

/-- **The port over IndexedDB.** -/
def perform (L : Listing) (s : DocLogStore) : PortOp → PortResult × DocLogStore
  | .appendLocalEntry docId deviceId build now =>
    s.appendEntry docId deviceId build now maxSeqRetries
  | .getOrCreateDeviceId uuid =>
    match s.storedDeviceId with
    | some existing => (.deviceId existing, s)
    | none => (.deviceId uuid, s.setDeviceId uuid)
  | .setDeviceId deviceId => (.done, s.setDeviceId deviceId)
  | .resolveConnectDeviceId uuid =>
    match s.storedDeviceId with
    | some existing =>
      if s.hasOwnEntries existing then (.deviceId existing, s)
      else (.deviceId uuid, s.setDeviceId uuid)
    | none =>
      match ((L.list (s.entries.rows.filter fun e => decide (e.status = .pending))).map
        (·.deviceId)).dedup with
      | [] => (.deviceId uuid, s.setDeviceId uuid)
      | [recovered] => (.deviceId recovered, s.setDeviceId recovered)
      | devices => (.orphanedLogRepair devices, s)
  | .recordRemoteApplied entry now => (.done, s.recordApplied entry now)
  | .hasEntriesBatch docId keys =>
    (.keys (L.list (keys.filter fun k => s.entries.has (docId, k.deviceId, k.seq))), s)
  | .recordRemoteAppliedBatch entries now => (.done, s.recordAppliedBatch entries now)
  | .getKnownHeads docId => (.heads (knownHead s.entries.rows docId), s)
  | .getStrictContiguousHeads docId => (.heads (s.getStrictContiguousHeads docId), s)
  | .getSyncRequestHeads docId => (.heads (s.listedSyncRequestHeads L docId), s)
  | .recordGapObservation docId device firstMissing observedMax connectionEpoch now =>
    (.done, s.recordGapObservation docId device firstMissing observedMax connectionEpoch now)
  | .markGapSoftSkipped docId device firstMissing =>
    (.done, s.markGapSoftSkipped docId device firstMissing)
  | .listDueGapRepairs now => (.gaps (L.list (s.listDueGapRepairs now)), s)
  | .markGapRepairAttempt docId device firstMissing nextDueAt =>
    (.done, s.markGapRepairAttempt docId device firstMissing nextDueAt)
  | .deleteGapRepair docId device firstMissing =>
    (.done, s.deleteGapRepair docId device firstMissing)
  | .getEntry docId deviceId seq => (.found (s.getEntry docId deviceId seq), s)
  | .getPending =>
    (.pending ((L.list (s.entries.rows.filter fun e => decide (e.status = .pending))).insertionSort
      comparePending), s)
  | .markAcked docId deviceId seq => (.done, s.markAcked docId deviceId seq)
  | .putPendingRemoval removal expect => s.putStoredRemoval removal expect
  | .getPendingRemoval spaceId removedDid =>
    (.removal (s.pendingRemovals.getPendingRemoval spaceId removedDid), s)
  | .markBrokerConfirmed spaceId removedDid brokerUrl binding =>
    let (outcome, pendingRemovals) :=
      s.pendingRemovals.markBrokerConfirmed spaceId removedDid brokerUrl binding
    (.confirmation outcome, { s with pendingRemovals := pendingRemovals })
  | .deletePendingRemoval spaceId removedDid expect =>
    let (outcome, pendingRemovals) :=
      s.pendingRemovals.deletePendingRemoval spaceId removedDid expect
    (.deletion outcome, { s with pendingRemovals := pendingRemovals })
  | .listPendingRemovals => (.removals (L.list s.pendingRemovals.listPendingRemovals), s)
  | .clear => (.done, s.clear)

def performAll (L : Listing) (s : DocLogStore) : List PortOp → List PortResult × DocLogStore
  | [] => ([], s)
  | op :: rest =>
    let (result, s') := s.perform L op
    let (results, s'') := s'.performAll L rest
    (result :: results, s'')

end DocLogStore

/-! ## 4. In memory -/

def joinedKey (docId : DocId) (deviceId : DeviceId) (seq : Nat) : String :=
  docId ++ "\x00" ++ deviceId ++ "\x00" ++ toString seq

def LocalLogEntry.joinedKey (e : LocalLogEntry) : String :=
  WebOfTrust.joinedKey e.docId e.deviceId e.seq

def PendingRemoval.key (r : PendingRemoval) : DocId × Did := (r.spaceId, r.removedDid)

/-- The maps of an `InMemoryDocLogStore`. -/
structure InMemoryLog where
  entries : KeyedTable LocalLogEntry.joinedKey
  deviceId : Option DeviceId
  gapState : KeyedTable GapRepair.key
  pendingRemovals : KeyedTable PendingRemoval.key

namespace InMemoryLog

def fresh : InMemoryLog where
  entries := .empty
  deviceId := none
  gapState := .empty
  pendingRemovals := .empty

variable (m : InMemoryLog)

def maxSeq (docId : DocId) (deviceId : DeviceId) : Int :=
  (m.entries.rows.filter fun e => decide (e.docId = docId) && decide (e.deviceId = deviceId)).foldl
    (fun n e => max n (e.seq : Int)) (-1)

/-- `seqsByDevice`, of one device; a device without entries has no list. -/
def seqsByDevice (docId : DocId) (device : DeviceId) : List Nat :=
  ((m.entries.rows.filter fun e => decide (e.docId = docId) && decide (e.deviceId = device)).map
    (·.seq)).insertionSort (· ≤ ·)

def appendLocalEntry (m : InMemoryLog) (docId : DocId) (deviceId : DeviceId)
    (build : Nat → Except String EntryJws) (now : Nat) : Nat → PortResult × InMemoryLog
  | 0 => (.failed (seqCollisionMessage docId deviceId), m)
  | attempts + 1 =>
    let seq := (m.maxSeq docId deviceId + 1).toNat
    match build seq with
    | .error text => (.failed text, m)
    | .ok entryJws =>
      if m.entries.has (joinedKey docId deviceId seq) then
        m.appendLocalEntry docId deviceId build now attempts
      else
        let e : LocalLogEntry := ⟨docId, deviceId, seq, entryJws, .pending, now⟩
        (.entry e, { m with entries := m.entries.put e })

def setDeviceId (deviceId : DeviceId) : InMemoryLog :=
  { m with deviceId := some deviceId }

def autoResolveGaps (docId : DocId) (device : DeviceId) : InMemoryLog :=
  match m.seqsByDevice docId device with
  | [] => m
  | seqs =>
    { m with
      gapState := m.gapState.filter fun g =>
        !(decide (g.docId = docId) && decide (g.device = device) &&
          decide ((g.firstMissing : Int) ≤ strictContiguousHead seqs)) }

/-- `recordRemoteApplied`: an entry that is there ends the call. -/
def recordRemoteApplied (entry : RecordRemoteAppliedEntry) (now : Nat) : InMemoryLog :=
  if m.entries.has (joinedKey entry.docId entry.deviceId entry.seq) then m
  else
    InMemoryLog.autoResolveGaps { m with
        entries := m.entries.put
          { docId := entry.docId, deviceId := entry.deviceId, seq := entry.seq
            entryJws := entry.entryJws.getD .blank, status := .acked, createdAt := now } }
      entry.docId entry.deviceId

section

variable (docId : DocId)

def getStrictContiguousHeads : Heads := fun device =>
  match m.seqsByDevice docId device with
  | [] => none
  | seqs => some (strictContiguousHead seqs)

/-- Advance the cursor of a gap's device past the hole, if it is the next missing seq. -/
def advancePastGap (heads : Heads) (gap : GapRepair) : Heads :=
  match m.seqsByDevice docId gap.device with
  | [] => heads
  | seqs =>
    let strict := (heads gap.device).getD (strictContiguousHead seqs)
    if (gap.firstMissing : Int) ≠ strict + 1 then heads
    else fun device =>
      if device = gap.device then some (contiguousHeadAbove seqs gap.firstMissing)
      else heads device

def getSyncRequestHeads : Heads :=
  ((m.gapState.rows.filter fun g => decide (g.docId = docId) && g.softSkipped).insertionSort
    (fun a b => a.firstMissing ≤ b.firstMissing)).foldl (m.advancePastGap docId)
      (m.getStrictContiguousHeads docId)

def recordGapObservation (device : DeviceId)
    (firstMissing observedMax : Nat) (connectionEpoch : Int) (now : Nat) : InMemoryLog :=
  let gap := (m.gapState.get? (gapKey docId device firstMissing)).getD
    { docId := docId, device := device, firstMissing := firstMissing, observedMax := observedMax
      observations := 0, observedEpochs := [], lastObservedEpoch := -1, firstSeenAt := now
      softSkipped := false, nextDueAt := 0, attempts := 0 }
  let gap := { gap with
    observations := gap.observations + 1
    observedMax := if observedMax > gap.observedMax then observedMax else gap.observedMax }
  let gap :=
    if gap.lastObservedEpoch ≠ connectionEpoch then
      { gap with
        observedEpochs :=
          if gap.observedEpochs.contains connectionEpoch then gap.observedEpochs
          else gap.observedEpochs ++ [connectionEpoch]
        lastObservedEpoch := connectionEpoch }
    else gap
  { m with gapState := m.gapState.put gap }

end

def pendingDevices : List DeviceId :=
  ((m.entries.rows.filter fun e => decide (e.status = .pending)).map (·.deviceId)).dedup

def getPendingRemoval (spaceId : DocId) (removedDid : Did) : Option PendingRemoval :=
  m.pendingRemovals.get? (spaceId, removedDid)

/-- `putPendingRemoval`: the copy that is stored has a phase. -/
def putPendingRemoval (removal : StoredPendingRemoval)
    (expect : Option WriteExpectation) : PortResult × InMemoryLog :=
  let current := m.getPendingRemoval removal.spaceId removal.removedDid
  if matchesStagingExpectation current expect then
    (.done, { m with pendingRemovals := m.pendingRemovals.put removal.load })
  else (.stagingConflict current, m)

def markBrokerConfirmed (spaceId : DocId) (removedDid : Did)
    (brokerUrl : String) (binding : Option BrokerConfirmationBinding) :
    ConfirmationOutcome × InMemoryLog :=
  match m.getPendingRemoval spaceId removedDid with
  | none => (.absent, m)
  | some removal =>
    if !removal.homeBrokerSet.contains brokerUrl then (.foreignBroker, m)
    else if !matchesConfirmationBinding removal.toStored binding then (.superseded, m)
    else if removal.confirmedBrokerUrls.contains brokerUrl then (.alreadyConfirmed, m)
    else
      (.recorded, { m with
        pendingRemovals := m.pendingRemovals.update (spaceId, removedDid) fun r =>
          { r with confirmedBrokerUrls := r.confirmedBrokerUrls ++ [brokerUrl] } })

def deletePendingRemoval (spaceId : DocId) (removedDid : Did)
    (expect : Option WriteExpectation) : DeleteOutcome × InMemoryLog :=
  match m.getPendingRemoval spaceId removedDid with
  | none => (.absent, m)
  | some stored =>
    if matchesStagingExpectation (some stored) expect then
      (.deleted, { m with pendingRemovals := m.pendingRemovals.erase (spaceId, removedDid) })
    else (.mismatch, m)

def perform : PortOp → PortResult × InMemoryLog
  | .appendLocalEntry docId deviceId build now =>
    m.appendLocalEntry docId deviceId build now maxSeqRetries
  | .getOrCreateDeviceId uuid =>
    match m.deviceId with
    | some existing => (.deviceId existing, m)
    | none => (.deviceId uuid, m.setDeviceId uuid)
  | .setDeviceId deviceId => (.done, m.setDeviceId deviceId)
  | .resolveConnectDeviceId uuid =>
    match m.deviceId with
    | some existing =>
      if m.entries.rows.any fun e => decide (e.deviceId = existing) then (.deviceId existing, m)
      else (.deviceId uuid, m.setDeviceId uuid)
    | none =>
      match m.pendingDevices with
      | [] => (.deviceId uuid, m.setDeviceId uuid)
      | [recovered] => (.deviceId recovered, m.setDeviceId recovered)
      | devices => (.orphanedLogRepair devices, m)
  | .recordRemoteApplied entry now => (.done, m.recordRemoteApplied entry now)
  | .hasEntriesBatch docId keys =>
    (.keys (keys.filter fun k => m.entries.has (joinedKey docId k.deviceId k.seq)), m)
  | .recordRemoteAppliedBatch entries now =>
    (.done, entries.foldl (fun m e => m.recordRemoteApplied e now) m)
  | .getKnownHeads docId => (.heads (knownHead m.entries.rows docId), m)
  | .getStrictContiguousHeads docId => (.heads (m.getStrictContiguousHeads docId), m)
  | .getSyncRequestHeads docId => (.heads (m.getSyncRequestHeads docId), m)
  | .recordGapObservation docId device firstMissing observedMax connectionEpoch now =>
    (.done, m.recordGapObservation docId device firstMissing observedMax connectionEpoch now)
  | .markGapSoftSkipped docId device firstMissing =>
    (.done, { m with
      gapState := m.gapState.update (gapKey docId device firstMissing) fun g =>
        { g with softSkipped := true } })
  | .listDueGapRepairs now =>
    (.gaps (m.gapState.rows.filter fun g => decide (g.nextDueAt ≤ now)), m)
  | .markGapRepairAttempt docId device firstMissing nextDueAt =>
    (.done, { m with
      gapState := m.gapState.update (gapKey docId device firstMissing) fun g =>
        { g with attempts := g.attempts + 1, nextDueAt := nextDueAt } })
  | .deleteGapRepair docId device firstMissing =>
    (.done, { m with gapState := m.gapState.erase (gapKey docId device firstMissing) })
  | .getEntry docId deviceId seq => (.found (m.entries.get? (joinedKey docId deviceId seq)), m)
  | .getPending =>
    (.pending ((m.entries.rows.filter fun e => decide (e.status = .pending)).insertionSort
      comparePending), m)
  | .markAcked docId deviceId seq =>
    (.done, { m with
      entries := m.entries.update (joinedKey docId deviceId seq) LocalLogEntry.ack })
  | .putPendingRemoval removal expect => m.putPendingRemoval removal expect
  | .getPendingRemoval spaceId removedDid => (.removal (m.getPendingRemoval spaceId removedDid), m)
  | .markBrokerConfirmed spaceId removedDid brokerUrl binding =>
    let (outcome, m') := m.markBrokerConfirmed spaceId removedDid brokerUrl binding
    (.confirmation outcome, m')
  | .deletePendingRemoval spaceId removedDid expect =>
    let (outcome, m') := m.deletePendingRemoval spaceId removedDid expect
    (.deletion outcome, m')
  | .listPendingRemovals => (.removals m.pendingRemovals.rows, m)
  | .clear => (.done, fresh)

def performAll (m : InMemoryLog) : List PortOp → List PortResult × InMemoryLog
  | [] => ([], m)
  | op :: rest =>
    let (result, m') := m.perform op
    let (results, m'') := m'.performAll rest
    (result :: results, m'')

end InMemoryLog

end WebOfTrust
