/-
  **The document log in use**: the asynchronous operations of the two
  `DocLogStore` adapters, the store-facing part of the coordinator's write and
  resend paths, and the system of any number of users that interleave them.

  No sequence lock appears: where Web Locks are missing it degrades to a lock
  per context, so every interleaving it would exclude is kept.  In memory the
  insert follows the finished build in one synchronous block; IndexedDB reads,
  builds and inserts in three sections.
-/
import WebOfTrust.AsyncPool
import WebOfTrust.DocLogStore

namespace WebOfTrust

open Async

structure SentEntry where
  docId : DocId
  deviceId : DeviceId
  seq : Nat
  entryJws : EntryJws

/-- The database of one origin and what its users have sent.  `wiped` is a
    history variable: the rows that a wipe has ever removed. -/
structure DocLogWorld where
  store : DocLogStore
  sent : List SentEntry
  wiped : List LocalLogEntry

def DocLogWorld.fresh : DocLogWorld where
  store := .fresh
  sent := []
  wiped := []

structure AppendLocalEntryParams where
  docId : DocId
  deviceId : DeviceId
  build : Nat → Env → Except String EntryJws

inductive DocLogError where
  | message (text : String)
  | orphanedLogRepair (deviceIds : List DeviceId)
  | localAppendFailed (docId : DocId) (deviceId : DeviceId) (reason : DocLogError)

def DocLogError.text : DocLogError → String
  | .message text => text
  | .orphanedLogRepair deviceIds =>
      let listed := ", ".intercalate deviceIds
      s!"orphaned-log repair: pending entries span {deviceIds.length} deviceIds " ++
        s!"({listed}); cannot pick a single recovery deviceId"
  | .localAppendFailed docId deviceId reason =>
      s!"local log-append failed for docId={docId} deviceId={deviceId}: {reason.text}"

inductive DocLogPoint where
  | readMaxSeq (docId : DocId) (deviceId : DeviceId)
  | build (p : AppendLocalEntryParams) (seq : Nat)
  | add (docId : DocId) (deviceId : DeviceId) (seq : Nat)
  | send (entry : SentEntry)
  | clear
  | resolveDevice
  | access

inductive DocLogResult where
  | done
  | entry (e : LocalLogEntry)
  | deviceId (d : DeviceId)

inductive StoreKind where
  | inMemory
  | indexedDb
deriving DecidableEq

abbrev DocLogProgram := Async DocLogPoint Env DocLogWorld DocLogError

def Env.attempt {α : Type} (env : Env) (a : α) : Except DocLogError α :=
  match env.failure with
  | some e => .error (.message e)
  | none => .ok a

def storeTxn (f : Env → DocLogStore → DocLogStore) : DocLogProgram Unit :=
  atomic .access fun env w =>
    match env.failure with
    | some e => (.error (.message e), w)
    | none => (.ok (), { w with store := f env w.store })

/-! ## 1. Appending -/

def maxSeqRetries : Nat := 64

def seqCollisionMessage (docId : DocId) (deviceId : DeviceId) : String :=
  s!"appendLocalEntry: seq reservation kept colliding for ({docId}, {deviceId}) " ++
    s!"after {maxSeqRetries} attempts"

def AppendLocalEntryParams.entry (p : AppendLocalEntryParams) (seq : Nat) (entryJws : EntryJws)
    (now : Nat) : LocalLogEntry where
  docId := p.docId
  deviceId := p.deviceId
  seq := seq
  entryJws := entryJws
  status := .pending
  createdAt := now

/-- Insert an entry; `none` is a lost race for its key. -/
def insertEntry (w : DocLogWorld) (e : LocalLogEntry) : Option LocalLogEntry × DocLogWorld :=
  match w.store.addEntry e with
  | some store => (some e, { w with store := store })
  | none => (none, w)

namespace IndexedDBDocLogStore

/-- `appendLocalEntry` with the given number of attempts left. -/
def appendLocalEntry (p : AppendLocalEntryParams) : Nat → DocLogProgram LocalLogEntry
  | 0 => throw (.message (seqCollisionMessage p.docId p.deviceId))
  | attempts + 1 => do
      let maxSeq ← atomic (.readMaxSeq p.docId p.deviceId) fun env w =>
        (env.attempt (w.store.readMaxSeq p.docId p.deviceId), w)
      let seq := (maxSeq + 1).toNat
      let entryJws ← atomic (.build p seq) fun env w =>
        ((p.build seq env).mapError .message, w)
      let added ← atomic (.add p.docId p.deviceId seq) fun env w =>
        match env.failure with
        | some e => (.error (.message e), w)
        | none =>
          let (added, w) := insertEntry w (p.entry seq entryJws env.now)
          (.ok added, w)
      match added with
      | some entry => pure entry
      | none => appendLocalEntry p attempts

end IndexedDBDocLogStore

namespace InMemoryDocLogStore

/-- `appendLocalEntry` with the given number of attempts left. -/
def appendLocalEntry (p : AppendLocalEntryParams) : Nat → DocLogProgram LocalLogEntry
  | 0 => throw (.message (seqCollisionMessage p.docId p.deviceId))
  | attempts + 1 => do
      let maxSeq ← atomic (.readMaxSeq p.docId p.deviceId) fun _ w =>
        (.ok (w.store.readMaxSeq p.docId p.deviceId), w)
      let seq := (maxSeq + 1).toNat
      let added ← atomic (.build p seq) fun env w =>
        match p.build seq env with
        | .error e => (.error (.message e), w)
        | .ok entryJws =>
          let (added, w) := insertEntry w (p.entry seq entryJws env.now)
          (.ok added, w)
      match added with
      | some entry => pure entry
      | none => appendLocalEntry p attempts

end InMemoryDocLogStore

variable (kind : StoreKind)

def appendLocalEntry (p : AppendLocalEntryParams) : DocLogProgram LocalLogEntry :=
  match kind with
  | .inMemory => InMemoryDocLogStore.appendLocalEntry p maxSeqRetries
  | .indexedDb => IndexedDBDocLogStore.appendLocalEntry p maxSeqRetries

/-- Hand an entry's stored JWS to the transport.  A failed send changes nothing
    here: the entry stays pending. -/
def sendEntry (e : LocalLogEntry) : DocLogProgram Unit :=
  let message : SentEntry :=
    { docId := e.docId, deviceId := e.deviceId, seq := e.seq, entryJws := e.entryJws }
  mutate (.send message) fun _ w => { w with sent := w.sent ++ [message] }

/-- The append of a local write and the send of what was persisted
    (`writeLocalUpdate`, from the append on). -/
def appendAndSend (p : AppendLocalEntryParams) : DocLogProgram DocLogResult := do
  let entry ← tryCatch (appendLocalEntry kind p) fun e =>
    throw (.localAppendFailed p.docId p.deviceId e)
  sendEntry entry
  pure (.entry entry)

/-- `resendPending`: the stored JWS of every pending entry of the active device,
    from one snapshot. -/
def resendPending (docId : DocId) (deviceId : DeviceId) : DocLogProgram DocLogResult := do
  let pending ← query .access fun _ w => w.store.getPending
  forEach (pending.filter fun e => decide (e.docId = docId) && decide (e.deviceId = deviceId))
    sendEntry
  pure .done

/-! ## 2. The other operations -/

def recordRemoteApplied (e : RecordRemoteAppliedEntry) : DocLogProgram Unit :=
  match kind with
  | .inMemory =>
      mutate .access fun env w =>
        if w.store.entries.has (e.docId, e.deviceId, e.seq) then w
        else
          { w with
            store := (w.store.putRemoteApplied e env.now).autoResolveGaps e.docId e.deviceId }
  | .indexedDb => do
      storeTxn fun env s => s.putRemoteApplied e env.now
      autoResolve e.docId e.deviceId
where
  /-- `IndexedDBDocLogStore.autoResolveGaps`: the head is read in one
      transaction, the gaps are dropped in the next. -/
  autoResolve (docId : DocId) (device : DeviceId) : DocLogProgram Unit := do
    let seqs ← query .access fun _ w => w.store.sortedSeqs docId device
    match seqs with
    | [] => pure ()
    | seqs =>
      storeTxn fun _ s => s.dropGapsUpTo docId device (DocLogStore.strictContiguousHead seqs)

def recordRemoteAppliedBatch (es : List RecordRemoteAppliedEntry) : DocLogProgram Unit :=
  match kind with
  | .inMemory => forEach es (recordRemoteApplied .inMemory)
  | .indexedDb => do
      storeTxn fun env s => es.foldl (fun s e => s.putRemoteApplied e env.now) s
      forEach es fun e => recordRemoteApplied.autoResolve e.docId e.deviceId

/-- What an adapter takes for a stored device id: IndexedDB ignores the empty
    string. -/
def presentDeviceId (stored : Option DeviceId) : Option DeviceId :=
  match kind with
  | .inMemory => stored
  | .indexedDb => stored.filter fun d => !d.isEmpty

def getOrCreateDeviceId : DocLogProgram DocLogResult :=
  atomic .access fun env w =>
    match presentDeviceId kind w.store.deviceId with
    | some existing => (.ok (.deviceId existing), w)
    | none => (.ok (.deviceId env.uuid), { w with store := w.store.setDeviceId env.uuid })

def resolveConnectDeviceId : DocLogProgram DocLogResult :=
  atomic .resolveDevice fun env w =>
    match w.store.resolveConnectDeviceId (presentDeviceId kind w.store.deviceId) env.uuid with
    | .ok (d, store) => (.ok (.deviceId d), { w with store := store })
    | .error devices => (.error (.orphanedLogRepair devices), w)

/-- Everything stored is gone; the rows are remembered in `wiped`. -/
def DocLogWorld.wipe (w : DocLogWorld) : DocLogWorld :=
  { w with store := w.store.clear, wiped := w.wiped ++ w.store.entries.rows }

def clear : DocLogProgram Unit := mutate .clear fun _ w => w.wipe

/-! ## 3. The system -/

inductive DocLogCall where
  | write (w : LogWrite)
  | resendPending (docId : DocId) (deviceId : DeviceId)
  | recordRemoteApplied (e : RecordRemoteAppliedEntry)
  | recordRemoteAppliedBatch (es : List RecordRemoteAppliedEntry)
  | markAcked (docId : DocId) (deviceId : DeviceId) (seq : Nat)
  | recordGapObservation (docId : DocId) (device : DeviceId) (firstMissing observedMax : Nat)
      (connectionEpoch : Int)
  | markGapSoftSkipped (docId : DocId) (device : DeviceId) (firstMissing : Nat)
  | markGapRepairAttempt (docId : DocId) (device : DeviceId) (firstMissing nextDueAt : Nat)
  | deleteGapRepair (docId : DocId) (device : DeviceId) (firstMissing : Nat)
  | getOrCreateDeviceId
  | setDeviceId (deviceId : DeviceId)
  | resolveConnectDeviceId
  | clear

variable (sha256 : String → Bytes)

def LogWrite.params (w : LogWrite) : AppendLocalEntryParams where
  docId := w.docId
  deviceId := w.deviceId
  build := buildEntryJws sha256 w

def effect (p : DocLogProgram Unit) : DocLogProgram DocLogResult := do
  p
  pure .done

def DocLogCall.program (kind : StoreKind) : DocLogCall → DocLogProgram DocLogResult
  | .write w => appendAndSend kind (w.params sha256)
  | .resendPending docId deviceId => WebOfTrust.resendPending docId deviceId
  | .recordRemoteApplied e => effect (WebOfTrust.recordRemoteApplied kind e)
  | .recordRemoteAppliedBatch es => effect (WebOfTrust.recordRemoteAppliedBatch kind es)
  | .markAcked docId deviceId seq =>
      effect (storeTxn fun _ s => s.markAcked docId deviceId seq)
  | .recordGapObservation docId device firstMissing observedMax epoch =>
      effect (storeTxn fun env s =>
        s.recordGapObservation docId device firstMissing observedMax epoch env.now)
  | .markGapSoftSkipped docId device firstMissing =>
      effect (storeTxn fun _ s => s.markGapSoftSkipped docId device firstMissing)
  | .markGapRepairAttempt docId device firstMissing nextDueAt =>
      effect (storeTxn fun _ s => s.markGapRepairAttempt docId device firstMissing nextDueAt)
  | .deleteGapRepair docId device firstMissing =>
      effect (storeTxn fun _ s => s.deleteGapRepair docId device firstMissing)
  | .getOrCreateDeviceId => WebOfTrust.getOrCreateDeviceId kind
  | .setDeviceId deviceId => effect (storeTxn fun _ s => s.setDeviceId deviceId)
  | .resolveConnectDeviceId => WebOfTrust.resolveConnectDeviceId kind
  | .clear => effect WebOfTrust.clear

/-- Any number of users over one store.  A restart keeps an IndexedDB database
    and loses an in-memory one. -/
def docLogSystem (kind : StoreKind) :
    System DocLogPoint Env DocLogWorld DocLogError DocLogResult DocLogCall where
  call := DocLogCall.program sha256 kind
  restart w :=
    match kind with
    | .inMemory => w.wipe
    | .indexedDb => w

abbrev DocLogConfig := Config DocLogPoint Env DocLogWorld DocLogError DocLogResult

end WebOfTrust
