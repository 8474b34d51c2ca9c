/-
  **The pagination loop of a catch-up** (`log-sync-coordinator.ts`: `catchUpInternal`,
  `requestSyncPage`, `computeRestoreDisposition`, `openGaps`).

  The loop asks for everything above the wire cursor, applies the page, notes the holes the
  page confirms, and goes on as long as the page was truncated and a head moved.  `for (;;)`
  is a recursion with fuel; running out of it is an error of its own, which the source does
  not have.
-/
import WebOfTrust.SyncPage

namespace WebOfTrust

open Async

/-! ## 1. Heads on the wire -/

/-- A heads record, as `Object.entries` lists it. -/
abbrev HeadsRecord := List (DeviceId × Int)

def DocLogStore.devices (s : DocLogStore) (docId : DocId) : List DeviceId :=
  ((s.entries.rows.filter fun e => decide (e.docId = docId)).map (·.deviceId)).dedup

def DocLogStore.headsRecord (s : DocLogStore) (docId : DocId) (heads : DocLogStore.Heads) :
    HeadsRecord :=
  (s.devices docId).filterMap fun device => (heads device).map fun seq => (device, seq)

def sanitizeWireHeads (localHeads : HeadsRecord) : List (DeviceId × Nat) :=
  localHeads.filterMap fun (device, seq) => if 0 ≤ seq then some (device, seq.toNat) else none

def headsAdvanced (before after : HeadsRecord) : Bool :=
  after.any fun (device, seq) => decide ((before.lookup device).getD (-1) < seq)

def defaultCatchUpPageSize : Nat := 100

def SyncConfig.limit (cfg : SyncConfig) : Nat :=
  match cfg.catchUpPageSize with
  | some size => if 0 < size then size.toNat else defaultCatchUpPageSize
  | none => defaultCatchUpPageSize

/-! ## 2. Results -/

inductive IncompleteReason where
  | gapPending
  | blockedByKey
  | timeout
deriving DecidableEq

structure GapRef where
  docId : DocId
  device : DeviceId
  firstMissing : Int
deriving DecidableEq

structure CatchUpResult where
  restoreCloneRequired : Bool
  complete : Bool
  incomplete : Option IncompleteReason
  pendingGaps : Option (List GapRef)
deriving DecidableEq

section

variable (cfg : SyncConfig)

/-- `classifyLocalBrokerSeqConsistency`. -/
def restoreCloneRequired (localSeq brokerSeq : Nat) : Bool := decide (localSeq < brokerSeq)

/-- The broker's head of the active device against the local one, before anything of the page
    is applied. -/
def restoreDisposition (s : DocLogStore) (deviceId : DeviceId)
    (brokerHeads : List (DeviceId × Nat)) :
    Bool :=
  match brokerHeads.lookup deviceId with
  | none => false
  | some brokerSeq =>
    match knownHead s.entries.rows cfg.docId deviceId with
    | none => true
    | some localSeq => restoreCloneRequired localSeq.toNat brokerSeq

/-- `openGaps`: the devices whose cursor lies below the highest seq they have. -/
def openGapsOf (s : DocLogStore) : List GapRef :=
  (s.headsRecord cfg.docId (knownHead s.entries.rows cfg.docId)).filterMap fun (device, maxSeq) =>
    let cursorHead := (s.getSyncRequestHeads cfg.docId device).getD (-1)
    if cursorHead < maxSeq then some ⟨cfg.docId, device, cursorHead + 1⟩ else none

/-! ## 3. The loop -/

variable (serve : List (DeviceId × Nat) → Nat → SyncResponse)

/-- `requestSyncPage`: no answer in time and a failed send are the same to the caller. -/
def requestSyncPage (localHeads : HeadsRecord) : SyncProgram (Option SyncResponse) :=
  let wireHeads := sanitizeWireHeads localHeads
  query (.syncRequest wireHeads cfg.limit) fun env _ =>
    match env.failure with
    | some _ => none
    | none => some (serve wireHeads cfg.limit)

def recordGaps (response : SyncResponse) (page : PageProgress) (wireHeads : HeadsRecord) :
    SyncProgram Unit :=
  zoom SyncWorld.gapPart .gap .rejected
    (recordGapsFromPage cfg.docId response.heads page.lowestSeqByDevice fun d => wireHeads.lookup d)

def openGaps : SyncProgram (List GapRef) := readStore .openGaps (openGapsOf cfg)

def strictHeads : SyncProgram HeadsRecord :=
  readStore .getStrictContiguousHeads fun s =>
    s.headsRecord cfg.docId (s.getStrictContiguousHeads cfg.docId)

def requestHeads : SyncProgram HeadsRecord :=
  readStore .getSyncRequestHeads fun s =>
    s.headsRecord cfg.docId (s.getSyncRequestHeads cfg.docId)

/-- `computeRestoreDisposition`, once: later pages keep what the first one said. -/
def computeRestoreDisposition (firstPage restoreRequired : Bool) (response : SyncResponse) :
    SyncProgram Bool :=
  if firstPage then
    atomic .computeRestoreDisposition fun env w =>
      env.syncCall w w (restoreDisposition cfg w.store w.deviceId response.heads)
  else pure restoreRequired

def classifyPage (truncated strictAdvanced effectiveCursorAdvanced : Bool) (page : PageProgress)
    (restoreRequired : Bool) (continuePagination : SyncProgram CatchUpResult) :
    SyncProgram CatchUpResult := do
  if !truncated then
    let pendingGaps ← openGaps cfg
    pure ⟨restoreRequired, true, none, some pendingGaps⟩
  else if strictAdvanced || effectiveCursorAdvanced then
    continuePagination
  else if 0 < page.toPersist.length + page.idempotentSkips then
    let pendingGaps ← openGaps cfg
    pure ⟨restoreRequired, false, some .gapPending, some pendingGaps⟩
  else if 0 < page.buffered then
    pure ⟨restoreRequired, false, some .blockedByKey, none⟩
  else
    throw (.syncNoProgress cfg.docId)

/-- The `for (;;)` of `catchUpInternal`. -/
def catchUpPages : Nat → Bool → Bool → SyncProgram CatchUpResult
  | 0, _, _ => throw .outOfFuel
  | fuel + 1, firstPage, restoreRequired => do
    let strictBefore ← strictHeads cfg
    let wireHeads ← requestHeads cfg
    match ← requestSyncPage cfg serve wireHeads with
    | none => pure ⟨restoreRequired, false, some .timeout, none⟩
    | some response =>
      let restoreRequired ← computeRestoreDisposition cfg firstPage restoreRequired response
      let page ← applySyncResponsePage cfg response.entries
      let strictAfter ← strictHeads cfg
      recordGaps cfg response page wireHeads
      let wireAfter ← requestHeads cfg
      classifyPage cfg response.truncated (headsAdvanced strictBefore strictAfter)
        (headsAdvanced wireHeads wireAfter) page restoreRequired
        (catchUpPages fuel false restoreRequired)

def catchUpInternal (presentCapabilityFirst : Bool) (fuel : Nat) : SyncProgram CatchUpResult := do
  if presentCapabilityFirst then
    atomic .presentCapability fun env w => env.syncCall w w ()
  catchUpPages cfg serve fuel true false

end

/-! ## 4. The broker at the other end -/

def BrokerStore.syncResponse (b : BrokerStore) (docId : DocId) (heads : List (DeviceId × Nat))
    (limit : Nat) : SyncResponse :=
  let (entries, truncated) := b.getSinceWithTruncation docId heads limit
  ⟨entries, b.getHeads docId, truncated⟩

def BrokerStore.Honest (b : BrokerStore) : Prop :=
  ∀ r ∈ b.docLog.rows, ∃ p, r.entryJws = .compact p ∧ p.docId = r.docId ∧
    p.deviceId = r.deviceId ∧ p.seq = r.seq

theorem BrokerStore.honest_fresh : BrokerStore.fresh.Honest := by
  intro r hr
  cases hr

theorem BrokerStore.Honest.appendEntry {b : BrokerStore} (hb : b.Honest) (p : LogEntryPayload)
    (now : Nat) : (b.appendEntry p (.compact p) now).2.Honest := by
  intro r hr
  unfold BrokerStore.appendEntry at hr
  split at hr
  · split at hr
    · exact hb r hr
    · exact hb r hr
  split at hr
  · exact hb r hr
  rcases KeyedTable.mem_rows_add hr with hold | rfl
  · exact hb r hold
  · exact ⟨p, rfl, rfl, rfl, rfl⟩

end WebOfTrust
