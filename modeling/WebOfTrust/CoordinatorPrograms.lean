/-
  **The methods of the log-sync coordinator** (`log-sync-coordinator.ts`): publication, the
  write path, catch-up, restore-clone, and what a rejected write leads to.

  The pagination is the loop of `CatchUp` once more, with a broker that answers what it
  likes.  `runFirstPublication` may lead to a restore-clone, and that to a publication of
  its own: `depth` bounds the nesting, as `pages` bounds `for (;;)`.
-/
import Mathlib.Algebra.Group.Nat.Defs
import WebOfTrust.Coordinator

namespace WebOfTrust

open Async

/-! ## 1. Points and outcomes -/

inductive CoordFrame where
  | presentCapability
  | spaceRotate
deriving DecidableEq

inductive AckReason where
  | receipt
  | hardStop (code : BrokerErrorCode)
  | superseded

inductive CoordPoint where
  | getContentKey
  | ensurePublished
  | publishing
  | sendSpaceRegister
  | getCapabilityJws
  | enqueueControlFrame (frame : CoordFrame)
  | sendControlFrame (frame : CoordFrame)
  | controlFrameReceipt (frame : CoordFrame)
  | dispositionForError
  | headAbgleich
  | catchUpInFlight
  | endPublication
  | catchUp
  | endCatchUp
  | sync (t : SyncPoint)
  | docLog (t : DocLogPoint)
  | sendSyncRequest (wireHeads : List (DeviceId × Nat)) (limit : Nat)
  | syncRequestSent
  | syncResponse
  | activeDevice
  | computeRestoreDisposition
  | pageApplied
  | listDueGapRepairs
  | getKnownHeads
  | markGapRepairAttempt
  | pauseGate
  | rebinding (gate : Nat)
  | resolveRecipients
  | sendLogEntry
  | logEntryReceipt
  | getPending
  | getEntry
  | markAcked (reason : AckReason)
  | beginRestoreClone
  | onWriteRejected
  | openWritePauseGate
  | onAfterRestoreClone
  | endRestoreClone
  | onWritePathErrorFrame
  | beginReemit
  | endReemit
  | contentKeyByGeneration
  | awaitKeyGenerationAdvance
  | pendingReemits
  | resetForReconnect
  | connected
  | importContentKey
  | persistDeviceId
  | otherLogEntry

inductive CoordResult where
  | done
  | entry (e : Option LocalLogEntry)
  | caughtUp (r : CatchUpResult)
  | fired (n : Nat)

abbrev CoordProgram := Async CoordPoint CoordInput LogSyncCoordinator CoordError

variable {α : Type}

def CoordInput.call (i : CoordInput) (c c' : LogSyncCoordinator) (a : α) :
    Except CoordError α × LogSyncCoordinator :=
  match i.failure with
  | some failure => (.error failure.error, c)
  | none => (.ok a, c')

namespace LogSyncCoordinator

variable (t : CoordPoint)

def readCall (f : LogSyncCoordinator → α) : CoordProgram α :=
  atomic t fun i c => i.call c c (f c)

def storeCall (f : CoordInput → DocLogStore → DocLogStore) : CoordProgram Unit :=
  atomic t fun i c => i.call c (c.setStore (f i c.log.store)) ()

def awaitPromise (promise : Nat) : CoordProgram Unit :=
  await t (fun c => c.isSettled promise) fun _ c => (c.result promise, c)

def sync (p : SyncProgram α) : CoordProgram α :=
  adapt syncPart CoordInput.env .sync .sync p

section

variable (cfg : CoordConfig)

/-! ## 2. Control frames -/

def hardStopError (code : BrokerErrorCode) (deviceId : DeviceId) : CoordError :=
  if code = .personalDocOwnerMismatch then .personalDocOwnerMismatch cfg.docId deviceId
  else .authorMismatch cfg.docId deviceId cfg.authorKid

/-- `dispositionForError`: a hard stop is thrown as its typed error. -/
def dispositionForError (err : CoordError) : CoordProgram RejectDisposition :=
  atomic .dispositionForError fun _ c =>
    match err with
    | .brokerError code =>
      if classifyRejectDisposition code = .hardStop then
        (.error (hardStopError cfg code c.deviceId), c)
      else (.ok (classifyRejectDisposition code), c)
    | _ => (.ok .unknown, c)

/-- `enqueueControlFrame`: a frame is sent once every earlier one has been answered. -/
def enqueueControlFrame (frame : CoordFrame) : CoordProgram Unit := do
  let (own, before) ← atomic (.enqueueControlFrame frame) fun _ c => (.ok c.enqueue.1, c.enqueue.2)
  let binding ← await (.sendControlFrame frame) (fun c => before.all c.isSettled) fun _ c =>
    (.ok c.binding, c)
  atomic (.controlFrameReceipt frame) fun i c =>
    -- the tail goes on after a rejected frame as well
    let c := c.settle own none
    i.call c (if frame = .presentCapability then c.note (.presented binding) else c) ()

/-- `presentCapabilityWithRetry`, with the attempts left and the last error. -/
def presentCapabilityWithRetry : Nat → CoordError → CoordProgram Unit
  | 0, lastError => throw lastError
  | attempts + 1, _ => do
    readCall .getCapabilityJws fun _ => ()
    tryCatch (enqueueControlFrame .presentCapability) fun err => do
      let disposition ← dispositionForError cfg err
      if disposition = .capabilityRePresent then presentCapabilityWithRetry attempts err
      else throw err

def presentCapability : CoordProgram Unit :=
  presentCapabilityWithRetry cfg 3 (.rejected "present-capability failed")

/-- `sendSpaceRegister`, if it is wired. -/
def spaceRegister : CoordProgram Unit :=
  if cfg.sendSpaceRegister then
    tryCatch (readCall .sendSpaceRegister fun _ => ()) fun err => do
      let _ ← dispositionForError cfg err
      throw err
  else pure ()

/-! ## 3. Sending entries -/

def passPauseGate : CoordProgram Unit := do
  let rebinding ← query .pauseGate fun _ c => c.rebinding
  match rebinding with
  | some gate => await (.rebinding gate) (fun c => decide (gate ∈ c.openGates)) fun _ c =>
    (.ok (), c)
  | none => pure ()

def resolveRecipients : CoordProgram (List Did) :=
  atomic .resolveRecipients fun i c =>
    if cfg.getRecipients then i.call c c (cfg.ownDid :: i.recipients).eraseDups
    else (.ok [cfg.ownDid], c)

/-- `sendLogEntryEnvelope`.  A failed send is no failure: the entry stays pending. -/
def sendLogEntryEnvelope (entryJws : EntryJws) (deviceId : DeviceId) (seq : Nat)
    (encoded : Option Bytes) : CoordProgram Unit := do
  passPauseGate
  let recipients ← resolveRecipients cfg
  let messageId ← atomic .sendLogEntry fun i c =>
    (.ok i.uuid, c.send ⟨i.uuid, cfg.ownDid, recipients, i.now / 1000, cfg.docId, deviceId, seq,
      entryJws⟩ encoded)
  mutate .logEntryReceipt fun i c =>
    match i.failure with
    | some _ => c
    | none => c.markAckedOnReceipt i.receipt messageId deviceId seq

/-- One round of `resendPending`. -/
def resendEntry (entry : LocalLogEntry) : CoordProgram Unit :=
  if entry.docId ≠ cfg.docId then pure ()
  else do
    let deviceId ← query .activeDevice fun _ c => c.deviceId
    if entry.deviceId ≠ deviceId then pure ()
    else
      tryCatch (sendLogEntryEnvelope cfg entry.entryJws entry.deviceId entry.seq none)
        fun _ => pure ()

def resendPending : CoordProgram Unit := do
  let pending ← readCall .getPending fun c => c.log.store.getPending
  forEach pending (resendEntry cfg)

/-! ## 4. Catch-up -/

/-- `requestSyncPage`: the answer, with its `thid`; a failed send and a timeout are the same
    to the caller. -/
def requestSyncPage (localHeads : HeadsRecord) : CoordProgram (Option (Nat × SyncResponse)) := do
  let wireHeads := sanitizeWireHeads localHeads
  let requestId ← atomic (.sendSyncRequest wireHeads cfg.limit) fun _ c =>
    (.ok c.promises, { c with
        promises := c.promises + 1, pendingSyncRequests := c.promises :: c.pendingSyncRequests })
  let sent ← atomic .syncRequestSent fun i c =>
    let dropped := { c with pendingSyncRequests := c.pendingSyncRequests.erase requestId }
    match i.failure, i.response with
    | some _, _ => (.ok (some none), dropped)
    | none, some response =>
      (.ok (some (some (requestId, response))), dropped.note (.syncResponse requestId))
    | none, none => (.ok none, c)
  match sent with
  | some answer => pure answer
  | none =>
    -- a reset has cleared the waiters: then only the timer is left
    atomic .syncResponse fun i c =>
      let dropped := { c with pendingSyncRequests := c.pendingSyncRequests.erase requestId }
      match i.response with
      | some response =>
        if requestId ∈ c.pendingSyncRequests then
          (.ok (some (requestId, response)), dropped.note (.syncResponse requestId))
        else (.ok none, dropped)
      | none => (.ok none, dropped)

/-- `computeRestoreDisposition`, of the first page. -/
def computeRestoreDisposition (firstPage restoreRequired : Bool) (thid : Nat)
    (response : SyncResponse) : CoordProgram Bool :=
  if firstPage then do
    let deviceId ← query .activeDevice fun _ c => c.deviceId
    atomic .computeRestoreDisposition fun i c =>
      i.call c (c.note (.headsCompared thid))
        (restoreDisposition cfg.toSyncConfig c.log.store deviceId response.heads)
  else pure restoreRequired

/-- `applySyncResponsePage`. -/
def applyPage (thid : Nat) (response : SyncResponse) : CoordProgram PageProgress := do
  let page ← sync (applySyncResponsePage cfg.toSyncConfig response.entries)
  mutate .pageApplied fun _ c => c.note (.pageApplied thid)
  pure page

def classifyPage (truncated strictAdvanced effectiveCursorAdvanced : Bool) (page : PageProgress)
    (restoreRequired : Bool) (continuePagination : CoordProgram CatchUpResult) :
    CoordProgram CatchUpResult := do
  if !truncated then
    let pendingGaps ← sync (openGaps cfg.toSyncConfig)
    pure ⟨restoreRequired, true, none, some pendingGaps⟩
  else if strictAdvanced || effectiveCursorAdvanced then
    continuePagination
  else if 0 < page.toPersist.length + page.idempotentSkips then
    let pendingGaps ← sync (openGaps cfg.toSyncConfig)
    pure ⟨restoreRequired, false, some .gapPending, some pendingGaps⟩
  else if 0 < page.buffered then
    pure ⟨restoreRequired, false, some .blockedByKey, none⟩
  else
    throw (.sync (.syncNoProgress cfg.docId))

/-- The `for (;;)` of `catchUpInternal`. -/
def catchUpPages : Nat → Bool → Bool → CoordProgram CatchUpResult
  | 0, _, _ => throw .outOfFuel
  | pages + 1, firstPage, restoreRequired => do
    let strictBefore ← sync (strictHeads cfg.toSyncConfig)
    let wireHeads ← sync (requestHeads cfg.toSyncConfig)
    let answer ← requestSyncPage cfg wireHeads
    match answer with
    | none => pure ⟨restoreRequired, false, some .timeout, none⟩
    | some (thid, response) => do
      let restoreRequired ← computeRestoreDisposition cfg firstPage restoreRequired thid response
      let page ← applyPage cfg thid response
      let strictAfter ← sync (strictHeads cfg.toSyncConfig)
      sync (recordGaps cfg.toSyncConfig response page wireHeads)
      let wireAfter ← sync (requestHeads cfg.toSyncConfig)
      classifyPage cfg response.truncated (headsAdvanced strictBefore strictAfter)
        (headsAdvanced wireHeads wireAfter) page restoreRequired
        (catchUpPages pages false restoreRequired)

def catchUpInternal (presentCapabilityFirst : Bool) (pages : Nat) : CoordProgram CatchUpResult := do
  if presentCapabilityFirst then presentCapability cfg
  catchUpPages cfg pages true false

def gapRepairMaxPages : Nat := 50

/-- `GAP_REPAIR_BASE_BACKOFF_MS` and `GAP_REPAIR_MAX_BACKOFF_MS`. -/
def gapRepairBackoff (attempts : Nat) : Nat := min (5000 * 2 ^ attempts) (5 * 60000)

def raiseHeads (page : PageProgress) (devices : List DeviceId) (heads : HeadsRecord) :
    HeadsRecord :=
  devices.foldl (fun heads device =>
    match page.highestSeqByDevice device with
    | some hi =>
      if (heads.lookup device).getD (-1) < hi then
        (device, (hi : Int)) :: heads.filter fun h => decide (h.1 ≠ device)
      else heads
    | none => heads) heads

def repairPages (gap : GapRepair) : Nat → HeadsRecord → CoordProgram Unit
  | 0, _ => pure ()
  | pages + 1, repairHeads => do
    let answer ← requestSyncPage cfg repairHeads
    match answer with
    | none => pure ()
    | some (thid, response) => do
      let page ← applyPage cfg thid response
      let devices := response.entries.filterMap fun
        | .compact p => some p.deviceId
        | .blank => none
      let raised := raiseHeads page devices repairHeads
      if (page.lowestSeqByDevice gap.device).isSome || !response.truncated ||
          raised = repairHeads then
        pure ()
      else repairPages gap pages raised

/-- One due repair of `driveGapRepairs`. -/
def repairGap (now : Nat) (known : HeadsRecord) (gap : GapRepair) : CoordProgram Unit :=
  if gap.docId ≠ cfg.docId then pure ()
  else do
    repairPages cfg gap gapRepairMaxPages
      ((gap.device, (gap.firstMissing : Int) - 1) :: known.filter fun h =>
        decide (h.1 ≠ gap.device))
    storeCall .markGapRepairAttempt fun _ s =>
      s.markGapRepairAttempt gap.docId gap.device gap.firstMissing
        (now + gapRepairBackoff gap.attempts)

def driveGapRepairs : CoordProgram Unit := do
  let (now, due) ← atomic .listDueGapRepairs fun i c =>
    i.call c c (i.now, c.log.store.listDueGapRepairs i.now)
  let known ← readCall .getKnownHeads fun c =>
    c.log.store.headsRecord cfg.docId (knownHead c.log.store.entries.rows cfg.docId)
  forEach due (repairGap cfg now known)

/-! ## 5. Publication and restore-clone -/

section

variable (pages : Nat)

section

variable (publish : PublicationStart → CoordProgram Unit)

/-- The `try` of `restoreClone`. -/
def rotate (gate : Nat) (oldDeviceId : DeviceId) : CoordProgram Unit :=
  if !cfg.onWriteRejected then pure ()
  else do
    let adopted ← atomic .onWriteRejected fun i c =>
      match i.failure, i.newDeviceId with
      | some failure, _ => (.error failure.error, c)
      | none, none => (.ok none, c)
      | none, some newDeviceId =>
        if newDeviceId = "" ∨ newDeviceId = oldDeviceId then (.ok none, c)
        else (.ok (some (c.adopt newDeviceId).1), (c.adopt newDeviceId).2)
    match adopted with
    | none => pure ()
    | some start => do
      publish start
      mutate .openWritePauseGate fun _ c => c.openWritePauseGate gate
      if cfg.onAfterRestoreClone then readCall .onAfterRestoreClone fun _ => ()
      else resendPending cfg

def restoreClone : CoordProgram Unit := do
  let begun ← atomic .beginRestoreClone fun _ c =>
    (.ok c.beginRestoreClone.1, c.beginRestoreClone.2)
  match begun with
  | none => pure ()
  | some (gate, oldDeviceId) =>
    (rotate cfg publish gate oldDeviceId).finallyDo fun _ =>
      mutate .endRestoreClone fun _ c => c.endRestoreClone gate

def actOnRestoreDisposition (result : CatchUpResult) : CoordProgram Unit :=
  if result.restoreCloneRequired then restoreClone cfg publish else pure ()

def publicationCatchUp (own : Nat) : CoordProgram Unit :=
  (do
    let result ← catchUpInternal cfg false pages
    actOnRestoreDisposition cfg publish result).finallyDo fun error =>
      mutate .endCatchUp fun _ c => c.endCatchUp own error

def runFirstPublication : CoordProgram Unit := do
  spaceRegister cfg
  presentCapability cfg
  let abgleich ← atomic .headAbgleich fun _ c => (.ok c.beginHeadAbgleich.1, c.beginHeadAbgleich.2)
  match abgleich with
  | .restoring => pure ()
  | .joined promise => awaitPromise .catchUpInFlight promise
  | .own promise => publicationCatchUp cfg pages publish promise

end

/-- `ensurePublished`, from its first decision on. -/
def publish : Nat → PublicationStart → CoordProgram Unit
  | 0, _ => throw .outOfFuel
  | depth + 1, start =>
    match start with
    | .published => pure ()
    | .joined promise => awaitPromise .publishing promise
    | .own promise =>
      (runFirstPublication cfg pages (publish depth)).finallyDo fun error =>
        mutate .endPublication fun _ c => c.endPublication promise error

variable (depth : Nat)

def ensurePublished : CoordProgram Unit := do
  let start ← atomic .ensurePublished fun _ c => (.ok c.beginPublication.1, c.beginPublication.2)
  publish cfg pages depth start

/-- The work of `catchUp`: missing keys defer it, every other error is thrown on. -/
def catchUpWork : CoordProgram CatchUpResult := do
  tryCatch (driveGapRepairs cfg) fun _ => pure ()
  let result ← tryCatch (do
      let result ← catchUpInternal cfg true pages
      pure (some result)) fun err =>
    match err with
    | .capabilityKeysUnavailable => pure none
    | err => throw err
  match result with
  | none => pure ⟨false, false, some .blockedByKey, none⟩
  | some result => do
    actOnRestoreDisposition cfg (publish cfg pages depth) result
    pure result

def catchUp : CoordProgram CatchUpResult := do
  let begun ← atomic .catchUp fun _ c => (.ok c.beginCatchUp.1, c.beginCatchUp.2)
  match begun with
  | none => pure ⟨false, false, some .gapPending, some []⟩
  | some own =>
    (catchUpWork cfg pages depth).finallyDo fun error =>
      mutate .endCatchUp fun _ c => c.endCatchUp own error

/-! ## 6. The write path -/

def writeLocalUpdate (update : Bytes) : CoordProgram (Option LocalLogEntry) := do
  let contentKey ← readCall .getContentKey fun c => c.contentKey
  match contentKey with
  | none => pure none
  | some content => do
    ensurePublished cfg pages depth
    let deviceId ← query .activeDevice fun _ c => c.deviceId
    let write : LogWrite :=
      { docId := cfg.docId, deviceId := deviceId, authorKid := cfg.authorKid, content := content
        encoded := cfg.encodeUpdate update }
    let entry ← adapt docLogPart CoordInput.env .docLog (.localAppendFailed cfg.docId deviceId)
      (appendLocalEntry cfg.kind (write.params cfg.sha256))
    sendLogEntryEnvelope cfg entry.entryJws entry.deviceId entry.seq (some write.encoded)
    pure (some entry)

/-! ## 7. Rejected writes -/

def deviceReRegister : CoordProgram Unit :=
  if !cfg.onWriteRejected then pure ()
  else do
    atomic .onWriteRejected fun i c =>
      i.call c (match i.newDeviceId with
        | some newDeviceId =>
          if newDeviceId = "" ∨ newDeviceId = c.deviceId then c else c.rebind newDeviceId
        | none => c) ()
    resendPending cfg

/-- `verifyLogEntryJws`, of a stored entry. -/
def verified : EntryJws → Option LogEntryPayload
  | .blank => none
  | .compact p => some p

section

variable (deviceId : DeviceId)

def readStaleGeneration (seq : Nat) : CoordProgram (Option Nat) :=
  readCall .getEntry fun c =>
    (c.log.store.getEntry cfg.docId deviceId seq).bind fun stale =>
      (verified stale.entryJws).map (·.keyGeneration)

/-- `awaitGenerationAdvance`: the hook may give up, but says yes only when the generation has
    advanced. -/
def awaitGenerationAdvance (rejectedGeneration : Nat) : CoordProgram Bool :=
  let advanced (c : LogSyncCoordinator) : Bool :=
    c.contentKey.any fun content => decide (rejectedGeneration < content.generation)
  if cfg.awaitKeyGenerationAdvance then
    atomic .awaitKeyGenerationAdvance fun i c => i.call c c (i.advanced && advanced c)
  else readCall .getContentKey advanced

def recoverPlaintextFromStaleEntry (stale : LocalLogEntry) (rejectedGeneration : Nat) :
    CoordProgram (Option Bytes) :=
  readCall .contentKeyByGeneration fun _ =>
    (cfg.getContentKeyByGeneration rejectedGeneration).bind fun historicalKey =>
      (verified stale.entryJws).bind fun payload =>
        (decryptLogPayload historicalKey payload.data).toOption

/-- The plaintext that `performReemit` writes again. -/
def reemitPlaintext (seq rejectedGeneration : Nat)
    (retainedEncoded : Option Bytes) : CoordProgram (Option Bytes) :=
  match retainedEncoded with
  | some encoded => pure (some encoded)
  | none => do
    let stale ← readCall .getEntry fun c => c.log.store.getEntry cfg.docId deviceId seq
    match stale with
    | none => pure none
    | some stale => recoverPlaintextFromStaleEntry cfg stale rejectedGeneration

def performReemit (seq rejectedGeneration : Nat)
    (retainedEncoded : Option Bytes) : CoordProgram Bool := do
  let plaintext ← reemitPlaintext cfg deviceId seq rejectedGeneration retainedEncoded
  match plaintext with
  | none => pure false
  | some plaintext => do
    let reemitted ← writeLocalUpdate cfg pages depth plaintext
    match reemitted with
    | none => pure false
    | some _ => do
      storeCall (.markAcked .superseded) fun _ s => s.markAcked cfg.docId deviceId seq
      pure true

def guardReemit (seq : Nat) (p : CoordProgram Bool) : CoordProgram Bool := do
  let running ← atomic .beginReemit fun _ c =>
    if (deviceId, seq) ∈ c.reemitInFlight then (.ok true, c)
    else (.ok false, { c with reemitInFlight := (deviceId, seq) :: c.reemitInFlight })
  if running then pure false
  else
    p.finallyDo fun _ => mutate .endReemit fun _ c =>
      { c with reemitInFlight := c.reemitInFlight.erase (deviceId, seq) }

def catchUpGenerationAndReemit (seq : Nat) (retainedEncoded : Option Bytes) : CoordProgram Bool :=
  guardReemit deviceId seq do
    let generation ← readStaleGeneration cfg deviceId seq
    match generation with
    | none => pure false
    | some rejectedGeneration => do
      let advanced ← awaitGenerationAdvance cfg rejectedGeneration
      if advanced then performReemit cfg pages depth deviceId seq rejectedGeneration retainedEncoded
      else do
        mutate .pendingReemits fun _ c =>
          { c with pendingReemits := c.pendingReemits.put ⟨deviceId, seq, retainedEncoded⟩ }
        pure false

end

/-- One parked re-emit of `replayPendingReemits`. -/
def replayReemit (fired : Nat) (parked : ParkedReemit) : CoordProgram Nat := do
  let unpark := mutate .pendingReemits fun _ c =>
    { c with pendingReemits := c.pendingReemits.erase parked.key }
  let ok ← guardReemit parked.deviceId parked.seq do
    let generation ← readStaleGeneration cfg parked.deviceId parked.seq
    match generation with
    | none => do
      unpark
      pure false
    | some rejectedGeneration => do
      let advanced ← awaitGenerationAdvance cfg rejectedGeneration
      if advanced then do
        let ok ← performReemit cfg pages depth parked.deviceId parked.seq rejectedGeneration
          parked.encoded
        if ok then unpark
        pure ok
      else pure false
  pure (if ok then fired + 1 else fired)

def replayPendingReemits : CoordProgram Nat := do
  let parked ← query .pendingReemits fun _ c => c.pendingReemits.rows
  foldEach (replayReemit cfg pages depth) 0 parked

/-- `handleWriteReject`, of a correlated write. -/
def handleWriteReject (code : BrokerErrorCode) (rejected : InFlightWrite) : CoordProgram Unit :=
  match classifyRejectDisposition code with
  | .hardStop => do
    tryCatch (storeCall (.markAcked (.hardStop code)) fun _ s =>
      s.markAcked cfg.docId rejected.deviceId rejected.seq) fun _ => pure ()
    throw (hardStopError cfg code rejected.deviceId)
  | .restoreClone => do
    let deviceId ← query .activeDevice fun _ c => c.deviceId
    if code = .seqCollisionDetected then
      throw (.seqCollision cfg.docId rejected.deviceId (some rejected.seq))
    else if rejected.deviceId ≠ deviceId then pure ()
    else throw (.deviceRevoked cfg.docId deviceId)
  | .deviceReRegister => deviceReRegister cfg
  | .capabilityRePresent => do
    presentCapability cfg
    resendPending cfg
  | .keyGenerationCatchUpAndReemit => do
    let _ ← catchUpGenerationAndReemit cfg pages depth rejected.deviceId rejected.seq
      rejected.encoded
    pure ()
  | _ => pure ()

/-- `onWritePathErrorFrame`: only an error about an envelope that is in flight counts. -/
def onWritePathErrorFrame (code : BrokerErrorCode) (thid : String) : CoordProgram Unit := do
  let correlated ← atomic .onWritePathErrorFrame fun _ c =>
    (.ok (c.correlate code thid).1, (c.correlate code thid).2)
  match correlated with
  | none => pure ()
  | some rejected => handleWriteReject cfg pages depth code rejected

/-- A call of `markAcked` that nobody waits for. -/
def settleAck : CoordProgram Unit :=
  await (.markAcked .receipt) (fun c => !c.unawaitedAcks.isEmpty) fun i c =>
    match c.unawaitedAcks with
    | [] => (.ok (), c)
    | (deviceId, seq) :: rest =>
      let c := { c with unawaitedAcks := rest }
      match i.failure with
      | some _ => (.ok (), c)
      | none => (.ok (), c.setStore (c.log.store.markAcked cfg.docId deviceId seq))

end

end

/-! ## 8. The system -/

/-- What can be asked of a coordinator, and what can happen around it. -/
inductive CoordCall where
  | writeLocalUpdate (update : Bytes)
  | resendPending
  | catchUp
  | ensurePublished
  | driveGapRepairs
  | replayPendingReemits
  | rePresentCapability
  | sendSpaceRotate
  | handleIncomingError (code : BrokerErrorCode) (thid : String)
  | settleAck
  | resetForReconnect
  /-- The transport opens a fresh socket. -/
  | connected
  /-- The key of a generation becomes current, if it is newer. -/
  | importContentKey (content : ContentKey)
  /-- The adapter stores the device id of the next start. -/
  | persistDeviceId (deviceId : DeviceId)
  /-- A coordinator of another document sends an entry over the same transport. -/
  | otherLogEntry (docId : DocId)

def importContentKey (content : ContentKey) (c : LogSyncCoordinator) : LogSyncCoordinator :=
  if c.contentKey.all fun current => decide (current.generation < content.generation) then
    { c with contentKey := some content }
  else c

def effect (p : CoordProgram α) : CoordProgram CoordResult := do
  let _ ← p
  pure .done

variable (cfg : CoordConfig) (pages depth : Nat)

def CoordCall.program : CoordCall → CoordProgram CoordResult
  | .writeLocalUpdate update => do
    let entry ← LogSyncCoordinator.writeLocalUpdate cfg pages depth update
    pure (.entry entry)
  | .resendPending => effect (LogSyncCoordinator.resendPending cfg)
  | .catchUp => do
    let result ← LogSyncCoordinator.catchUp cfg pages depth
    pure (.caughtUp result)
  | .ensurePublished => effect (LogSyncCoordinator.ensurePublished cfg pages depth)
  | .driveGapRepairs => effect (LogSyncCoordinator.driveGapRepairs cfg)
  | .replayPendingReemits => do
    let n ← LogSyncCoordinator.replayPendingReemits cfg pages depth
    pure (.fired n)
  | .rePresentCapability => effect (presentCapability cfg)
  | .sendSpaceRotate => effect (enqueueControlFrame .spaceRotate)
  | .handleIncomingError code thid => effect (onWritePathErrorFrame cfg pages depth code thid)
  | .settleAck => effect (LogSyncCoordinator.settleAck cfg)
  | .resetForReconnect => effect (mutate .resetForReconnect fun _ c => c.resetForReconnect)
  | .connected => effect (mutate .connected fun _ c => c.connect)
  | .importContentKey content =>
    effect (mutate .importContentKey fun _ c => LogSyncCoordinator.importContentKey content c)
  | .persistDeviceId deviceId =>
    effect (mutate .persistDeviceId fun _ c => c.setStore (c.log.store.setDeviceId deviceId))
  | .otherLogEntry docId => effect (mutate .otherLogEntry fun _ c => c.note (.otherLogEntry docId))

def coordSystem :
    System CoordPoint CoordInput LogSyncCoordinator CoordError CoordResult CoordCall where
  call := CoordCall.program cfg pages depth
  restart := restart

end LogSyncCoordinator

abbrev CoordConfiguration := Config CoordPoint CoordInput LogSyncCoordinator CoordError CoordResult

end WebOfTrust
