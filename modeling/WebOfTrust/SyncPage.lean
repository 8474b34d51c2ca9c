/-
  **One page of a catch-up** (`log-sync-coordinator.ts`: `processRemoteEntry`,
  `applySyncResponsePage`): the entries of a sync-response go through the read path, and
  the ones that were applied are committed to the store in one batch.

  Nothing is written before the batch.  Its entries are one transaction; the gaps that they
  close are dropped after it, entry by entry, and the marks in memory come last.  An entry of
  the other engine leaves no trace at all.
-/
import WebOfTrust.AsyncSolo
import WebOfTrust.SoftSkip
import WebOfTrust.BrokerStore

namespace WebOfTrust

open Async

/-! ## 1. The coordinator -/

structure BlockedEntry where
  deviceId : DeviceId
  seq : Nat
  entryJws : EntryJws

/-- `blockedKey`. -/
def BlockedEntry.key (e : BlockedEntry) : DeviceId × Nat := (e.deviceId, e.seq)

/-- What a catch-up reads and writes: the durable store with its gap bookkeeping, the
    active device id, the marks and the buffer in memory, and the updates that the CRDT
    engine has taken. -/
structure SyncWorld where
  gap : GapWorld
  deviceId : DeviceId
  applied : List (DeviceId × Nat)
  blockedByKey : KeyedTable BlockedEntry.key
  updates : List Bytes

namespace SyncWorld

def start (store : DocLogStore) (deviceId : DeviceId) : SyncWorld where
  gap := { GapWorld.fresh with store := store }
  deviceId := deviceId
  applied := []
  blockedByKey := .empty
  updates := []

abbrev store (w : SyncWorld) : DocLogStore := w.gap.store

def setStore (store : DocLogStore) (w : SyncWorld) : SyncWorld :=
  { w with gap := { w.gap with store := store } }

variable (deviceId : DeviceId)

def markApplied (seq : Nat) (w : SyncWorld) : SyncWorld :=
  { w with applied := (deviceId, seq) :: w.applied }

def bufferBlockedByKey (seq : Nat) (entryJws : EntryJws) (w : SyncWorld) : SyncWorld :=
  { w with blockedByKey := w.blockedByKey.put ⟨deviceId, seq, entryJws⟩ }

def markRemoteApplied (seq : Nat) (w : SyncWorld) : SyncWorld :=
  { w.markApplied deviceId seq with blockedByKey := w.blockedByKey.erase (deviceId, seq) }

def gapPart : Part SyncWorld GapWorld where
  get := SyncWorld.gap
  set gap w := { w with gap := gap }
  set_get _ := rfl
  get_set _ _ := rfl
  set_set _ _ _ := rfl

end SyncWorld

/-- What the coordinator is configured with.  `applyRemoteUpdate` is the CRDT engine: it
    takes the updates of its own format in any order and throws on foreign bytes. -/
structure SyncConfig where
  docId : DocId
  catchUpPageSize : Option Int
  getContentKeyByGeneration : Nat → Option Bytes
  applyRemoteUpdate : Bytes → Bool

structure SyncResponse where
  entries : List EntryJws
  heads : List (DeviceId × Nat)
  truncated : Bool

inductive SyncError where
  | rejected (text : String)
  | syncNoProgress (docId : DocId)
  /-- The bound of the model on `for (;;)`. -/
  | outOfFuel
deriving DecidableEq

inductive SyncPoint where
  | presentCapability
  | getStrictContiguousHeads
  | getSyncRequestHeads
  | syncRequest (wireHeads : List (DeviceId × Nat)) (limit : Nat)
  | computeRestoreDisposition
  | batchKeys
  | hasEntriesBatch
  | processRemoteEntry
  | markDurablyKnown
  | recordRemoteAppliedBatch
  | autoResolveGaps
  | markRemoteApplied
  | gap (t : GapPoint)
  | openGaps

abbrev SyncProgram := Async SyncPoint Env SyncWorld SyncError

def Env.syncCall {α : Type} (env : Env) (w w' : SyncWorld) (a : α) :
    Except SyncError α × SyncWorld :=
  match env.failure with
  | some text => (.error (.rejected text), w)
  | none => (.ok a, w')

def readStore {α : Type} (t : SyncPoint) (f : DocLogStore → α) : SyncProgram α :=
  atomic t fun env w => env.syncCall w w (f w.store)

/-! ## 2. The read path -/

def decryptLogPayload (spaceContentKey : Bytes) (blob : SealedBlob) : Except String Bytes :=
  if spaceContentKey.length ≠ 32 then .error "Space content key must be 32 bytes"
  else if spaceContentKey = blob.spaceContentKey then .ok blob.plaintext
  else .error "decrypt-failed"

inductive EntryDisposition where
  | rejected (reason : String)
  | idempotentSkip (deviceId : DeviceId) (seq : Nat)
  | blockedByKey (deviceId : DeviceId) (seq keyGeneration : Nat)
  | engineForeignSkip (reason : String)
  | appliedUnrecorded (payload : LogEntryPayload)

section

variable (cfg : SyncConfig)

def SyncConfig.decrypt (p : LogEntryPayload) : Option Bytes :=
  (cfg.getContentKeyByGeneration p.keyGeneration).bind fun contentKey =>
    (decryptLogPayload contentKey p.data).toOption

variable (isDurablyKnown : DeviceId → Nat → Bool)

/-- `processRemoteEntry`, of a verified payload: the marks, the durable probe, the key, the
    engine. -/
def processPayload (p : LogEntryPayload) (w : SyncWorld) : EntryDisposition × SyncWorld :=
  if p.docId ≠ cfg.docId then (.rejected "wrong-doc", w)
  else if (p.deviceId, p.seq) ∈ w.applied then (.idempotentSkip p.deviceId p.seq, w)
  else if isDurablyKnown p.deviceId p.seq then (.idempotentSkip p.deviceId p.seq, w)
  else
    match cfg.decrypt p with
    | none =>
      (.blockedByKey p.deviceId p.seq p.keyGeneration,
        w.bufferBlockedByKey p.deviceId p.seq (.compact p))
    | some plaintext =>
      if cfg.applyRemoteUpdate plaintext then
        (.appliedUnrecorded p, { w with updates := w.updates ++ [plaintext] })
      else (.engineForeignSkip "apply-failed", w)

/-- `processRemoteEntry`.  The key store may reject. -/
def processRemoteEntry (entryJws : EntryJws) : SyncProgram EntryDisposition :=
  atomic .processRemoteEntry fun env w =>
    match entryJws with
    | .blank => (.ok (.rejected "invalid-jws"), w)
    | .compact p =>
      let (disposition, w') := processPayload cfg isDurablyKnown p w
      env.syncCall w w' disposition

structure PageProgress where
  toPersist : List RecordRemoteAppliedEntry
  idempotentSkips : Nat
  buffered : Nat
  lowestSeqByDevice : DeviceId → Option Nat
  highestSeqByDevice : DeviceId → Option Nat

namespace PageProgress

def init : PageProgress where
  toPersist := []
  idempotentSkips := 0
  buffered := 0
  lowestSeqByDevice _ := none
  highestSeqByDevice _ := none

variable (page : PageProgress)

/-- `pendingKeys`: the keys that this page has already computed. -/
def pendingKeys : List (DeviceId × Nat) :=
  page.toPersist.map fun e => (e.deviceId, e.seq)

def noteSeq (deviceId : DeviceId) (seq : Nat) : PageProgress :=
  { page with
    lowestSeqByDevice := fun d =>
      if d = deviceId then some ((page.lowestSeqByDevice d).elim seq (min seq))
      else page.lowestSeqByDevice d
    highestSeqByDevice := fun d =>
      if d = deviceId then some ((page.highestSeqByDevice d).elim seq (max seq))
      else page.highestSeqByDevice d }

def add (entryJws : EntryJws) : EntryDisposition → PageProgress
  | .appliedUnrecorded p =>
    noteSeq
      { page with toPersist := page.toPersist ++ [⟨p.docId, p.deviceId, p.seq, some entryJws⟩] }
      p.deviceId p.seq
  | .idempotentSkip deviceId seq =>
    noteSeq { page with idempotentSkips := page.idempotentSkips + 1 } deviceId seq
  | .blockedByKey deviceId seq _ =>
    noteSeq { page with buffered := page.buffered + 1 } deviceId seq
  | .rejected _ => page
  | .engineForeignSkip _ => page

end PageProgress

/-- `claimLogEntryKey`: the unverified coordinate of an entry of this document. -/
def claimLogEntryKey : EntryJws → Option (DeviceId × Nat)
  | .blank => none
  | .compact p => if p.docId = cfg.docId then some (p.deviceId, p.seq) else none

def computeEntry (durablyKnown : List (DeviceId × Nat)) (page : PageProgress)
    (entryJws : EntryJws) : SyncProgram PageProgress := do
  let disposition ← processRemoteEntry cfg
    (fun deviceId seq => durablyKnown.contains (deviceId, seq) ||
      page.pendingKeys.contains (deviceId, seq)) entryJws
  match disposition with
  | .idempotentSkip deviceId seq =>
    -- a durable hit is committed already, an in-page hit is not
    if durablyKnown.contains (deviceId, seq) then
      mutate .markDurablyKnown fun _ w => w.markApplied deviceId seq
    pure (page.add entryJws disposition)
  | _ => pure (page.add entryJws disposition)

/-- The read batch of a page: one existence probe for the coordinates that are not marked. -/
def probePage (entries : List EntryJws) : SyncProgram (List (DeviceId × Nat)) := do
  let batchKeys ← query .batchKeys fun _ w =>
    ((entries.filterMap (claimLogEntryKey cfg)).filter fun key => decide (key ∉ w.applied)).dedup
  if batchKeys.isEmpty then pure []
  else readStore .hasEntriesBatch fun s =>
    batchKeys.filter fun key => s.entries.has (cfg.docId, key.1, key.2)

/-- `autoResolveGaps`: the head is read in one transaction, the gaps are dropped in the next. -/
def SyncWorld.autoResolveGaps (e : RecordRemoteAppliedEntry) : SyncProgram Unit := do
  let seqs ← readStore .autoResolveGaps fun s => s.sortedSeqs e.docId e.deviceId
  match seqs with
  | [] => pure ()
  | seqs => atomic .autoResolveGaps fun env w => env.syncCall w (w.setStore
      (w.store.dropGapsUpTo e.docId e.deviceId (DocLogStore.strictContiguousHead seqs))) ()

/-- `recordRemoteAppliedBatch`: a failure after the first transaction leaves the entries. -/
def SyncWorld.recordRemoteAppliedBatch (entries : List RecordRemoteAppliedEntry) :
    SyncProgram Unit := do
  atomic .recordRemoteAppliedBatch fun env w => env.syncCall w
    (w.setStore (entries.foldl (fun s e => s.putRemoteApplied e env.now) w.store)) ()
  forEach entries SyncWorld.autoResolveGaps

def commitPage (page : PageProgress) : SyncProgram PageProgress :=
  if page.toPersist.isEmpty then pure page
  else do
    SyncWorld.recordRemoteAppliedBatch page.toPersist
    mutate .markRemoteApplied fun _ w =>
      page.toPersist.foldl (fun w e => w.markRemoteApplied e.deviceId e.seq) w
    pure page

/-- `applySyncResponsePage`.  The trigger for a live gap at its end does nothing while a
    catch-up is running. -/
def applySyncResponsePage (entries : List EntryJws) : SyncProgram PageProgress := do
  let durablyKnown ← probePage cfg entries
  let page ← foldEach (computeEntry cfg durablyKnown) .init entries
  commitPage page

end

end WebOfTrust
