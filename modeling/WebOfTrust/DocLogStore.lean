/-
  **The durable document log of a client** (`ports/DocLogStore.ts`): its
  records, and the atomic sections that its two adapters are made of
  (`InMemoryDocLogStore.ts`, `IndexedDBDocLogStore.ts`).

  The store holds the log entries under `(docId, deviceId, seq)`, the device id
  that authors them, the known sequence gaps and the staged member removals.
  A function below is an IndexedDB transaction or a synchronous block of the
  in-memory adapter; `DocLogPrograms.lean` strings them together.
-/
import Mathlib.Data.List.Sort
import WebOfTrust.PendingRemovalStore

namespace WebOfTrust

/-! ## 1. Records -/

inductive EntryStatus where
  | pending
  | acked
deriving DecidableEq

structure LocalLogEntry where
  docId : DocId
  deviceId : DeviceId
  seq : Nat
  entryJws : EntryJws
  status : EntryStatus
  createdAt : Nat

def LocalLogEntry.key (e : LocalLogEntry) : DocId × DeviceId × Nat := (e.docId, e.deviceId, e.seq)

def LocalLogEntry.ack (e : LocalLogEntry) : LocalLogEntry := { e with status := .acked }

structure RecordRemoteAppliedEntry where
  docId : DocId
  deviceId : DeviceId
  seq : Nat
  entryJws : Option EntryJws

structure GapRepair where
  docId : DocId
  device : DeviceId
  firstMissing : Nat
  observedMax : Nat
  observations : Nat
  observedEpochs : List Int
  lastObservedEpoch : Int
  firstSeenAt : Nat
  softSkipped : Bool
  nextDueAt : Nat
  attempts : Nat

def gapKey (docId : DocId) (device : DeviceId) (firstMissing : Nat) : String :=
  docId ++ "\x00" ++ device ++ "\x00" ++ toString firstMissing

def GapRepair.key (g : GapRepair) : String := gapKey g.docId g.device g.firstMissing

open LocalLogEntry

structure DocLogStore where
  entries : KeyedTable key
  deviceId : Option DeviceId
  gapState : KeyedTable GapRepair.key
  pendingRemovals : PendingRemovals

def DocLogStore.fresh : DocLogStore where
  entries := .empty
  deviceId := none
  gapState := .empty
  pendingRemovals := .empty

namespace DocLogStore

/-! ## 2. Entries -/

variable (s : DocLogStore)

section

variable (docId : DocId) (deviceId : DeviceId)

def namespaceRows : List LocalLogEntry :=
  s.entries.rows.filter fun e => decide (e.docId = docId) && decide (e.deviceId = deviceId)

/-- The highest seq of a namespace, `-1` if it is empty. -/
def readMaxSeq : Int :=
  (s.namespaceRows docId deviceId).foldl (fun m e => max m (e.seq : Int)) (-1)

/-- `add` on the entries store: `none` is the constraint error of an occupied
    key. -/
def addEntry (e : LocalLogEntry) : Option DocLogStore :=
  if s.entries.has e.key then none else some { s with entries := s.entries.add e }

def getEntry (seq : Nat) : Option LocalLogEntry :=
  s.entries.get? (docId, deviceId, seq)

/-- `comparePending(a, b) <= 0`. -/
def comparePending (a b : LocalLogEntry) : Prop :=
  if a.deviceId ≠ b.deviceId then a.deviceId < b.deviceId
  else if a.seq ≠ b.seq then a.seq < b.seq
  else a.createdAt ≤ b.createdAt

instance : DecidableRel comparePending := fun a b =>
  inferInstanceAs (Decidable (if a.deviceId ≠ b.deviceId then a.deviceId < b.deviceId
    else if a.seq ≠ b.seq then a.seq < b.seq else a.createdAt ≤ b.createdAt))

def getPending : List LocalLogEntry :=
  (s.entries.rows.filter fun e => decide (e.status = .pending)).insertionSort comparePending

def markAcked (seq : Nat) : DocLogStore :=
  { s with entries := s.entries.update (docId, deviceId, seq) ack }

end

/-- The write half of `recordRemoteApplied`: an occupied key is left alone. -/
def putRemoteApplied (entry : RecordRemoteAppliedEntry) (now : Nat) : DocLogStore :=
  { s with
    entries := s.entries.add
      { docId := entry.docId, deviceId := entry.deviceId, seq := entry.seq
        entryJws := entry.entryJws.getD .blank, status := .acked, createdAt := now } }

/-! ## 3. Heads and gaps -/

variable (docId : DocId)

def sortedSeqs (device : DeviceId) : List Nat :=
  ((s.namespaceRows docId device).map (·.seq)).insertionSort (· ≤ ·)

/-- The highest seq with no gap below it; `-1` if seq 0 is absent. -/
def strictContiguousHead (sortedSeqs : List Nat) : Int :=
  go (-1) sortedSeqs
where
  go (head : Int) : List Nat → Int
    | [] => head
    | seq :: rest =>
      if (seq : Int) = head + 1 then go seq rest
      else if (seq : Int) > head + 1 then head
      else go head rest

/-- The end of the first run at or above `firstMissing`; `firstMissing - 1` if
    nothing is stored there. -/
def contiguousHeadAbove (sortedSeqs : List Nat) (firstMissing : Nat) : Int :=
  go none sortedSeqs
where
  go (head : Option Nat) : List Nat → Int
    | [] => match head with
      | some h => h
      | none => (firstMissing : Int) - 1
    | seq :: rest =>
      if seq < firstMissing then go head rest
      else match head with
        | none => go (some seq) rest
        | some h =>
          if seq = h + 1 then go (some seq) rest
          else if seq > h + 1 then h
          else go (some h) rest

abbrev Heads := DeviceId → Option Int

def getStrictContiguousHeads : Heads := fun device =>
  match s.sortedSeqs docId device with
  | [] => none
  | seqs => some (strictContiguousHead seqs)

def softGaps : List GapRepair :=
  (s.gapState.rows.filter fun g => decide (g.docId = docId) && g.softSkipped).insertionSort
    (fun a b => a.firstMissing ≤ b.firstMissing)

/-- Advance the cursor of a gap's device past the hole, if it is the next
    missing seq. -/
def advancePastGap (heads : Heads) (gap : GapRepair) : Heads :=
  match s.sortedSeqs docId gap.device with
  | [] => heads
  | seqs =>
    let strict := (heads gap.device).getD (strictContiguousHead seqs)
    if (gap.firstMissing : Int) ≠ strict + 1 then heads
    else fun device =>
      if device = gap.device then some (contiguousHeadAbove seqs gap.firstMissing)
      else heads device

def getSyncRequestHeads : Heads :=
  (s.softGaps docId).foldl (s.advancePastGap docId) (s.getStrictContiguousHeads docId)

variable (device : DeviceId)

def dropGapsUpTo (strict : Int) : DocLogStore :=
  { s with
    gapState := s.gapState.filter fun g =>
      !(decide (g.docId = docId) && decide (g.device = device) &&
        decide ((g.firstMissing : Int) ≤ strict)) }

/-- `autoResolveGaps` in one section. -/
def autoResolveGaps : DocLogStore :=
  match s.sortedSeqs docId device with
  | [] => s
  | seqs => s.dropGapsUpTo docId device (strictContiguousHead seqs)

def recordGapObservation
    (firstMissing observedMax : Nat) (connectionEpoch : Int) (now : Nat) : DocLogStore :=
  let gap := (s.gapState.get? (gapKey docId device firstMissing)).getD
    { docId := docId, device := device, firstMissing := firstMissing, observedMax := observedMax
      observations := 0, observedEpochs := [], lastObservedEpoch := -1, firstSeenAt := now
      softSkipped := false, nextDueAt := 0, attempts := 0 }
  let gap := { gap with
    observations := gap.observations + 1
    observedMax := if observedMax > gap.observedMax then observedMax else gap.observedMax }
  let gap :=
    if gap.lastObservedEpoch ≠ connectionEpoch then
      { gap with
        observedEpochs :=
          if gap.observedEpochs.contains connectionEpoch then gap.observedEpochs
          else gap.observedEpochs ++ [connectionEpoch]
        lastObservedEpoch := connectionEpoch }
    else gap
  { s with gapState := s.gapState.put gap }

def markGapSoftSkipped (firstMissing : Nat) : DocLogStore :=
  { s with
    gapState := s.gapState.update (gapKey docId device firstMissing) fun g =>
      { g with softSkipped := true } }

def markGapRepairAttempt (firstMissing nextDueAt : Nat) : DocLogStore :=
  { s with
    gapState := s.gapState.update (gapKey docId device firstMissing) fun g =>
      { g with attempts := g.attempts + 1, nextDueAt := nextDueAt } }

def deleteGapRepair (firstMissing : Nat) : DocLogStore :=
  { s with gapState := s.gapState.erase (gapKey docId device firstMissing) }

def listDueGapRepairs (now : Nat) : List GapRepair :=
  s.gapState.rows.filter fun g => decide (g.nextDueAt ≤ now)

/-! ## 4. The device id and the wipe -/

variable (deviceId : DeviceId)

def setDeviceId : DocLogStore :=
  { s with deviceId := some deviceId }

def pendingDevices : List DeviceId :=
  ((s.entries.rows.filter fun e => decide (e.status = .pending)).map (·.deviceId)).dedup

def hasOwnEntries : Bool :=
  s.entries.rows.any fun e => decide (e.deviceId = deviceId)

/-- `resolveConnectDeviceId`: the error lists the devices of an ambiguous
    orphaned log.  `present` is what the adapter takes for a stored device id,
    `minted` the fresh one it would draw. -/
def resolveConnectDeviceId (present : Option DeviceId) (minted : DeviceId) :
    Except (List DeviceId) (DeviceId × DocLogStore) :=
  match present with
  | some existing =>
    if s.hasOwnEntries existing then .ok (existing, s)
    else .ok (minted, s.setDeviceId minted)
  | none =>
    match s.pendingDevices with
    | [] => .ok (minted, s.setDeviceId minted)
    | [recovered] => .ok (recovered, s.setDeviceId recovered)
    | devices => .error devices

/-- `clear` empties every object store, the device id included. -/
def clear (_ : DocLogStore) : DocLogStore := fresh

/-! ## 5. What the sections do to the entries -/

@[simp] theorem mem_namespaceRows {s : DocLogStore} {docId : DocId} {deviceId : DeviceId}
    {e : LocalLogEntry} :
    e ∈ s.namespaceRows docId deviceId ↔
      e ∈ s.entries.rows ∧ e.docId = docId ∧ e.deviceId = deviceId := by
  simp [namespaceRows]

theorem foldl_max_le_iff (es : List LocalLogEntry) (m b : Int) :
    es.foldl (fun m e => max m (e.seq : Int)) m ≤ b ↔ m ≤ b ∧ ∀ e ∈ es, (e.seq : Int) ≤ b := by
  induction es generalizing m with
  | nil => simp
  | cons e rest ih =>
    rw [List.foldl_cons, ih]
    simp only [Int.max_le, List.mem_cons, forall_eq_or_imp]
    exact and_assoc

/-- The maximum is a bound of the namespace, and the least one from `-1` up. -/
theorem readMaxSeq_le_iff {s : DocLogStore} {docId : DocId} {deviceId : DeviceId} {b : Int} :
    s.readMaxSeq docId deviceId ≤ b ↔
      -1 ≤ b ∧ ∀ e ∈ s.entries.rows, e.docId = docId → e.deviceId = deviceId →
        (e.seq : Int) ≤ b := by
  rw [readMaxSeq, foldl_max_le_iff]
  simp only [mem_namespaceRows, and_imp]

theorem neg_one_le_readMaxSeq : -1 ≤ s.readMaxSeq docId deviceId :=
  (readMaxSeq_le_iff.mp (Int.le_refl _)).1

theorem addEntry_eq_some {s s' : DocLogStore} {e : LocalLogEntry} (h : s.addEntry e = some s') :
    s.entries.get? e.key = none ∧ s' = { s with entries := s.entries.add e } ∧
      ∀ k, s'.entries.get? k = if e.key = k then some e else s.entries.get? k := by
  simp only [addEntry] at h
  split at h
  · cases h
  next hfree =>
  cases h
  have hfree' : s.entries.has e.key = false := by simpa using hfree
  exact ⟨KeyedTable.get?_eq_none_of_has hfree', rfl, KeyedTable.get?_add_of_free hfree'⟩

theorem get?_markAcked (seq : Nat) (k : DocId × DeviceId × Nat) :
    (s.markAcked docId deviceId seq).entries.get? k = if (docId, deviceId, seq) = k then
        (s.entries.get? (docId, deviceId, seq)).map LocalLogEntry.ack
      else s.entries.get? k :=
  s.entries.get?_update (docId, deviceId, seq) LocalLogEntry.ack (fun _ => rfl) k

theorem get?_putRemoteApplied_of_some {s : DocLogStore} {entry : RecordRemoteAppliedEntry}
    {now : Nat} {k : DocId × DeviceId × Nat} {e : LocalLogEntry} (h : s.entries.get? k = some e) :
    (s.putRemoteApplied entry now).entries.get? k = some e :=
  KeyedTable.get?_add_of_some h

@[simp] theorem entries_autoResolveGaps : (s.autoResolveGaps docId device).entries = s.entries := by
  simp only [autoResolveGaps]
  split <;> rfl

theorem entries_resolveConnectDeviceId {s s' : DocLogStore} {present : Option DeviceId}
    {minted d : DeviceId} (h : s.resolveConnectDeviceId present minted = .ok (d, s')) :
    s'.entries = s.entries := by
  simp only [resolveConnectDeviceId] at h
  split at h
  · split at h <;> cases h <;> rfl
  · split at h <;> cases h <;> rfl

end DocLogStore

end WebOfTrust
