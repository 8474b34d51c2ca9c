/-
  **The personal document and its two schedulers** (`YjsPersonalDocManager.ts`,
  `VaultPushScheduler.ts`, `YjsReplicationAdapter.recordConfirmedMembershipRemoval`).

  The document is a list of updates that only grows.  A save hands a snapshot of it to the
  compact store, which answers its requests in order.  The save resolves on the success of its
  request; stored it is once the transaction has completed, and until then no other
  transaction begins.  A scheduler has one push in flight and at most one behind it.  What a
  change begins in the background is a call of its own (`compactPush`, `vaultPush`).

  `requests`, `flushed` and `consumed` are history.
-/
import WebOfTrust.AsyncPool
import WebOfTrust.MemberUpdates

namespace WebOfTrust

open Async

/-! ## 1. The document -/

structure MembershipRemovalDoc where
  eventId : String
  spaceId : DocId
  removedDid : Did
  generation : Nat
  ts : String
  byDid : Did
deriving DecidableEq

inductive DocUpdate where
  | change (update : Bytes)
  | removal (entry : MembershipRemovalDoc)
deriving DecidableEq

/-- What the modules around it decide: Yjs, JavaScript's strings, and whether there is a
    vault. -/
structure PersonalDocConfig where
  /-- `getStateVectorString`. -/
  stateVector : List DocUpdate → String
  /-- Is there anything but an empty profile, no contacts and no spaces? -/
  hasData : List DocUpdate → Bool
  localeCompare : String → String → Ordering
  /-- `JSON.stringify(['membership-removal', spaceId, memberDid, generation])`. -/
  removalTuple : DocId → Did → Nat → String
  vault : Bool

namespace PersonalDocConfig

variable (cfg : PersonalDocConfig)

/-- `left.ts.localeCompare(right.ts) || left.eventId.localeCompare(right.eventId)`. -/
def earlier (left right : MembershipRemovalDoc) : Bool :=
  ((cfg.localeCompare left.ts right.ts).then
    (cfg.localeCompare left.eventId right.eventId)).isLE

def retain (removals : List MembershipRemovalDoc) : List MembershipRemovalDoc :=
  let retained := removals.mergeSort cfg.earlier
  retained.drop (retained.length - 50)

def membershipRemovals (doc : List DocUpdate) : List MembershipRemovalDoc :=
  doc.foldl (fun removals update =>
    match update with
    | .change _ => removals
    | .removal entry =>
      if removals.any fun r => decide (r.eventId = entry.eventId) then removals
      else cfg.retain (removals ++ [entry])) []

def removalEntry (signal : MemberUpdateSignal) (now : String) : MembershipRemovalDoc :=
  let tuple := cfg.removalTuple signal.spaceId signal.memberDid signal.effectiveKeyGeneration
  let eventId :=
    if signal.action = .removed ∧ signal.signerDid = signal.memberDid then tuple
    else signal.outerId.getD tuple
  { eventId := eventId, spaceId := signal.spaceId, removedDid := signal.memberDid
    generation := signal.effectiveKeyGeneration, ts := signal.receivedAt.getD now
    byDid := signal.signerDid }

end PersonalDocConfig

/-! ## 2. The scheduler -/

/-- A push in flight: the heads at its start, and what it pushes. -/
structure SchedulerPush (π : Type) where
  currentHeads : String
  job : π
  begun : Bool

structure VaultPushScheduler (π : Type) where
  lastPushedHeads : Option String
  debounceTimer : Bool
  pushing : Option (SchedulerPush π)
  pendingAfterPush : Bool

namespace VaultPushScheduler

variable {π : Type} (s : VaultPushScheduler π)

def fresh : VaultPushScheduler π := ⟨none, false, none, false⟩

/-- `schedulePush`, and whether it calls `pushFn`. -/
def schedulePush (currentHeads : String) (job : π) : Bool × VaultPushScheduler π :=
  if s.pushing.isSome then (false, { s with pendingAfterPush := true })
  else if s.lastPushedHeads = some currentHeads then (false, s)
  else (true, { s with pushing := some ⟨currentHeads, job, false⟩ })

def begin : VaultPushScheduler π :=
  { s with pushing := s.pushing.map fun push => { push with begun := true } }

/-- `.then`: the heads at the start of the push count as pushed. -/
def pushed : VaultPushScheduler π :=
  { s with lastPushedHeads := (s.pushing.map (·.currentHeads)).or s.lastPushedHeads }

/-- `.finally`, up to the next push. -/
def pushEnded : VaultPushScheduler π := { s with pushing := none, pendingAfterPush := false }

def armed : VaultPushScheduler π := { s with debounceTimer := true }

def disarmed : VaultPushScheduler π := { s with debounceTimer := false }

end VaultPushScheduler

/-! ## 3. The manager -/

structure PersonalDocManager where
  /-- Once the manager is closed: what it held. -/
  ydoc : List DocUpdate
  /-- `!compactStore || !ydoc`, from a reset on. -/
  closed : Bool
  compactStore : Option (List DocUpdate)
  /-- Every snapshot that was handed to the store since the start. -/
  requests : List (List DocUpdate)
  /-- The requests that the store has not answered. -/
  saves : List Nat
  /-- The request that has succeeded, and whose transaction has not ended. -/
  committing : Option Nat
  compactScheduler : VaultPushScheduler Nat
  vaultScheduler : VaultPushScheduler (Option (List DocUpdate))
  vaultSeq : Nat
  vault : List (Nat × List DocUpdate)
  memberUpdateStore : List MemberUpdateSignal
  /-- What the document held as a flush was called, of every flush that has resolved. -/
  flushed : List (List DocUpdate)
  /-- The removals whose signal was consumed. -/
  consumed : List MembershipRemovalDoc

structure PersonalDocInput where
  failure : Option String
  now : String

inductive PersonalDocPoint where
  | change
  | debounceTimer
  | schedulerFlush
  | compactSave
  | compactPushed
  | compactPushEnded
  | vaultPush
  | vaultPushed
  | vaultPushEnded
  | encodeState
  | flushSave (request : Nat)
  | encodeVault
  | encryptOneShot
  | putSnapshot
  | transactionEnds
  | reset
  | flushed (request : Option Nat)
  | savePending
  | recordRemoval
  | resolvePending

abbrev PersonalDocProgram := Async PersonalDocPoint PersonalDocInput PersonalDocManager String

namespace PersonalDocManager

def stored (w : PersonalDocManager) : List DocUpdate := w.compactStore.getD []

/-- `compactStore.save(Y.encodeStateAsUpdate(ydoc))`, up to its `await`. -/
def requestSave (w : PersonalDocManager) : PersonalDocManager :=
  { w with requests := w.requests ++ [w.ydoc], saves := w.saves ++ [w.requests.length] }

/-- `req.onsuccess` and `req.onerror` of the next request. -/
def answerSave (failure : Option String) (w : PersonalDocManager) : PersonalDocManager :=
  match w.saves with
  | [] => w
  | request :: rest =>
    { w with saves := rest, committing := if failure.isSome then none else some request }

/-- The transaction of an answered save completes, or is aborted. -/
def transactionEnds (failure : Option String) (w : PersonalDocManager) : PersonalDocManager :=
  { w with
    committing := none
    compactStore :=
      if failure.isSome then w.compactStore
      else (w.committing.bind (w.requests[·]?)).or w.compactStore }

section

variable (cfg : PersonalDocConfig)

section

variable (w : PersonalDocManager)

/-- `schedulePush` of the scheduler of the compact store. -/
def scheduleCompact : PersonalDocManager :=
  let (begins, compactScheduler) :=
    w.compactScheduler.schedulePush (cfg.stateVector w.ydoc) w.requests.length
  let w := { w with compactScheduler := compactScheduler }
  if begins then w.requestSave else w

/-- What `pushToVault` encodes, if it pushes. -/
def vaultSnapshot : Option (List DocUpdate) :=
  if cfg.vault && cfg.hasData w.ydoc && !w.closed then some w.ydoc else none

/-- `schedulePush` of the scheduler of the vault, if there is one. -/
def scheduleVault : PersonalDocManager :=
  if cfg.vault then
    { w with
      vaultScheduler :=
        (w.vaultScheduler.schedulePush (cfg.stateVector w.ydoc) (w.vaultSnapshot cfg)).2 }
  else w

/-- `pushImmediate`, of both. -/
def pushImmediate : PersonalDocManager :=
  scheduleVault cfg (scheduleCompact cfg { w with
      compactScheduler := w.compactScheduler.disarmed, vaultScheduler := w.vaultScheduler.disarmed })

/-- `pushDebounced`, of both. -/
def pushDebounced : PersonalDocManager :=
  { w with
    compactScheduler := w.compactScheduler.armed
    vaultScheduler := if cfg.vault then w.vaultScheduler.armed else w.vaultScheduler }

/-- `changeYjsPersonalDoc`; a mutation that changes nothing leaves no update. -/
def changeYjsPersonalDoc (update : Option DocUpdate) (background : Bool)
    (w : PersonalDocManager) : Except String Unit × PersonalDocManager :=
  if w.closed then
    (.error "Yjs personal doc not initialized. Call initYjsPersonalDoc() first.", w)
  else
    let w := { w with ydoc := w.ydoc ++ update.toList }
    (.ok (), if background then pushDebounced cfg w else pushImmediate cfg w)

def remoteUpdate (update : DocUpdate) (w : PersonalDocManager) : PersonalDocManager :=
  if w.closed then w
  else { w with ydoc := w.ydoc ++ [update], compactScheduler := w.compactScheduler.armed }

/-- `resetYjsPersonalDoc`: saves that were requested are still answered. -/
def reset : PersonalDocManager :=
  { w with
    closed := true
    compactScheduler := w.compactScheduler.disarmed
    vaultScheduler := w.vaultScheduler.disarmed }

def compactTimer : PersonalDocManager :=
  scheduleCompact cfg { w with compactScheduler := w.compactScheduler.disarmed }

def vaultTimer : PersonalDocManager :=
  scheduleVault cfg { w with vaultScheduler := w.vaultScheduler.disarmed }

/-- `flush`, of both schedulers, as the tab is hidden or closed. -/
def schedulerFlush : PersonalDocManager :=
  let w := if w.compactScheduler.debounceTimer then compactTimer cfg w else w
  if w.vaultScheduler.debounceTimer then vaultTimer cfg w else w

/-- The mutation of `recordConfirmedMembershipRemoval`: the first record of an event stays. -/
def removalUpdate (entry : MembershipRemovalDoc) (w : PersonalDocManager) : Option DocUpdate :=
  if (cfg.membershipRemovals w.ydoc).any fun r => decide (r.eventId = entry.eventId) then none
  else some (.removal entry)

def start (compactStore : Option (List DocUpdate)) (vault : List (Nat × List DocUpdate))
    (memberUpdateStore : List MemberUpdateSignal) : PersonalDocManager where
  ydoc := compactStore.getD []
  closed := false
  compactStore := compactStore
  requests := []
  saves := []
  committing := none
  compactScheduler := { VaultPushScheduler.fresh with
    lastPushedHeads := compactStore.map cfg.stateVector }
  vaultScheduler := { VaultPushScheduler.fresh with
    debounceTimer := cfg.vault && compactStore.isSome }
  vaultSeq := 0
  vault := vault
  memberUpdateStore := memberUpdateStore
  flushed := []
  consumed := []

def restart : PersonalDocManager :=
  { start cfg w.compactStore w.vault w.memberUpdateStore with
    flushed := w.flushed, consumed := w.consumed }

/-! ## 4. Pushes -/

def compactReady : Bool :=
  match w.compactScheduler.pushing, w.saves.head? with
  | some push, some request =>
    !push.begun && decide (push.job = request) && w.committing.isNone
  | _, _ => false

end

/-- What the compact scheduler waits for: `pushToCompactStore` reports no error. -/
def compactPush : PersonalDocProgram Unit := do
  await .compactSave compactReady fun i w =>
    (.ok (), answerSave i.failure { w with compactScheduler := w.compactScheduler.begin })
  mutate .compactPushed fun _ w => { w with compactScheduler := w.compactScheduler.pushed }
  mutate .compactPushEnded fun _ w =>
    let again := w.compactScheduler.pendingAfterPush
    let w := { w with compactScheduler := w.compactScheduler.pushEnded }
    if again && !w.closed then scheduleCompact cfg w else w

/-- `pushToVault`, of what it has encoded. -/
def putToVault (docBinary : List DocUpdate) : PersonalDocProgram Unit :=
  tryCatch (do
    let seq ← atomic .encryptOneShot fun i w =>
      match i.failure with
      | some text => (.error text, w)
      | none => (.ok (w.vaultSeq + 1), { w with vaultSeq := w.vaultSeq + 1 })
    atomic .putSnapshot fun i w =>
      match i.failure with
      | some text => (.error text, w)
      | none => (.ok (), { w with vault := w.vault ++ [(seq, docBinary)] })) fun _ => pure ()

def vaultPush : PersonalDocProgram Unit := do
  let docBinary ← await .vaultPush (fun w => w.vaultScheduler.pushing.any fun push => !push.begun)
    fun _ w =>
      (.ok (w.vaultScheduler.pushing.bind (·.job)),
        { w with vaultScheduler := w.vaultScheduler.begin })
  match docBinary with
  | none => pure ()
  | some docBinary => putToVault docBinary
  mutate .vaultPushed fun _ w => { w with vaultScheduler := w.vaultScheduler.pushed }
  mutate .vaultPushEnded fun _ w =>
    let again := w.vaultScheduler.pendingAfterPush
    let w := { w with vaultScheduler := w.vaultScheduler.pushEnded }
    if again && !w.closed then scheduleVault cfg w else w

/-! ## 5. The flush and a caller -/

/-- `pushToCompactStore`: a save that rejects is logged, and no more.  The result is what was
    requested, if anything was, and what the document held. -/
def pushToCompactStore : PersonalDocProgram (Option Nat × List DocUpdate) := do
  let (request, update) ← atomic .encodeState fun _ w =>
    if w.closed then (.ok (none, w.ydoc), w)
    else (.ok (some w.requests.length, w.ydoc), w.requestSave)
  match request with
  | none => pure (none, update)
  | some request =>
    tryCatch (await (.flushSave request)
      (fun w => decide (w.saves.head? = some request) && w.committing.isNone) fun i w =>
        match i.failure with
        | some text => (.error text, answerSave i.failure w)
        | none => (.ok (), answerSave none w)) fun _ => pure ()
    pure (some request, update)

def pushToVault : PersonalDocProgram Unit := do
  let docBinary ← query .encodeVault fun _ w => w.vaultSnapshot cfg
  match docBinary with
  | none => pure ()
  | some docBinary => putToVault docBinary

/-- `flushYjsPersonalDoc`, with what the document held as it was called. -/
def flushYjsPersonalDoc : PersonalDocProgram (List DocUpdate) := do
  let (request, before) ← pushToCompactStore
  pushToVault cfg
  mutate (.flushed request) fun _ w => { w with flushed := w.flushed ++ [before] }
  pure before

/-- The confirmed removal of the local DID in `applyMemberUpdateResolution`: it is recorded in
    the personal document, and then its signal is consumed. -/
def applyConfirmedRemoval (signal : MemberUpdateSignal) : PersonalDocProgram Unit := do
  let entry ← atomic .recordRemoval fun i w =>
    let entry := cfg.removalEntry signal i.now
    let (changed, w) := changeYjsPersonalDoc cfg (removalUpdate cfg entry w) false w
    (changed.map fun _ => entry, w)
  let _ ← flushYjsPersonalDoc cfg
  atomic .resolvePending fun i w =>
    match i.failure with
    | some text => (.error text, w)
    | none =>
      (.ok (), { w with
        memberUpdateStore := w.memberUpdateStore.filter fun s => decide (s.tuple ≠ signal.tuple)
        consumed := w.consumed ++ [entry] })

inductive PersonalDocCall where
  | changeYjsPersonalDoc (update : DocUpdate) (background : Bool)
  | remoteUpdate (update : DocUpdate)
  | compactTimer
  | vaultTimer
  | schedulerFlush
  | compactPush
  | vaultPush
  | transactionEnds
  | resetYjsPersonalDoc
  | flushYjsPersonalDoc
  | savePending (signal : MemberUpdateSignal)
  | applyConfirmedRemoval (signal : MemberUpdateSignal)

inductive PersonalDocResult where
  | done
  | flushed (before : List DocUpdate)

def quietly {α : Type} (p : PersonalDocProgram α) : PersonalDocProgram PersonalDocResult := do
  let _ ← p
  pure .done

def PersonalDocCall.program : PersonalDocCall → PersonalDocProgram PersonalDocResult
  | .changeYjsPersonalDoc update background =>
    quietly (atomic .change fun _ w =>
      PersonalDocManager.changeYjsPersonalDoc cfg (some update) background w)
  | .remoteUpdate update =>
    quietly (mutate .change fun _ w => PersonalDocManager.remoteUpdate update w)
  | .compactTimer =>
    quietly (await .debounceTimer (fun w => w.compactScheduler.debounceTimer) fun _ w =>
      (.ok (), PersonalDocManager.compactTimer cfg w))
  | .vaultTimer =>
    quietly (await .debounceTimer (fun w => w.vaultScheduler.debounceTimer) fun _ w =>
      (.ok (), PersonalDocManager.vaultTimer cfg w))
  | .schedulerFlush =>
    quietly (mutate .schedulerFlush fun _ w => PersonalDocManager.schedulerFlush cfg w)
  | .compactPush => quietly (PersonalDocManager.compactPush cfg)
  | .vaultPush => quietly (PersonalDocManager.vaultPush cfg)
  | .transactionEnds =>
    quietly (await .transactionEnds (fun w => w.committing.isSome) fun i w =>
      (.ok (), PersonalDocManager.transactionEnds i.failure w))
  | .resetYjsPersonalDoc => quietly (mutate .reset fun _ w => w.reset)
  | .flushYjsPersonalDoc => do
    let before ← PersonalDocManager.flushYjsPersonalDoc cfg
    pure (.flushed before)
  | .savePending signal =>
    quietly (mutate .savePending fun _ w =>
      { w with
        memberUpdateStore :=
          if w.memberUpdateStore.any fun s => decide (s.tuple = signal.tuple) then
            w.memberUpdateStore
          else w.memberUpdateStore ++ [signal] })
  | .applyConfirmedRemoval signal =>
    quietly (PersonalDocManager.applyConfirmedRemoval cfg signal)

def personalDocSystem :
    System PersonalDocPoint PersonalDocInput PersonalDocManager String PersonalDocResult
      PersonalDocCall where
  call := PersonalDocCall.program cfg
  restart := restart cfg

end

end PersonalDocManager

abbrev PersonalDocConfiguration :=
  Config PersonalDocPoint PersonalDocInput PersonalDocManager String
    PersonalDocManager.PersonalDocResult

end WebOfTrust
