/-
  **Every method of the coordinator obeys the pause protocol.**  A program begins outside
  every rotation and send, and is there again when it ends, with a result or an error.

  The publication inside a rotation is the one place where a phase depends on what the
  outside answers: it ends behind an accepted capability that was sent under the new
  binding, or it fails with the gate still closed.
-/
import WebOfTrust.WritePause

namespace WebOfTrust

open Async RotationPhase CoordPoint

namespace LogSyncCoordinator

variable {cfg : CoordConfig}

/-! ## 1. Sends -/

theorem obeys_passPauseGate {r : RotationPhase} (hr : r.closes = none) :
    Obeys pauseProtocol (fun _ q' => q' = ⟨r, .passed⟩) (fun _ _ => False) passPauseGate
      r.idle := by
  apply obeys_bind
  apply obeys_query (nofun : ∀ gate, pauseGate ≠ .rebinding gate)
  intro i c _
  rcases hgate : c.rebinding with _ | gate
  · exact ⟨⟨r, .passed⟩, .gateOpen hr hgate, rfl⟩
  refine ⟨⟨r, .waiting gate⟩, .gateClosed gate hr hgate, ?_⟩
  apply obeys_await (rfl : pauseProtocol.stands ⟨r, .waiting gate⟩ (.rebinding gate))
  intro i c hopen _
  exact ⟨⟨r, .passed⟩, .resume gate (of_decide_eq_true hopen), fun _ _ => rfl,
    fun e he => (by cases he)⟩

theorem obeys_resolveRecipients (r : RotationPhase) :
    Obeys pauseProtocol (fun _ q' => q' = ⟨r, .passed⟩) (fun _ q' => q' = r.idle)
      (resolveRecipients cfg) ⟨r, .passed⟩ := by
  apply obeys_atomic (.inl rfl : pauseProtocol.stands ⟨r, .passed⟩ .resolveRecipients)
  intro i c _
  unfold CoordInput.call
  split
  · cases i.failure with
    | some failure =>
      exact ⟨r.idle, .abandon, fun a ha => (by cases ha), fun _ _ => rfl⟩
    | none =>
      exact ⟨⟨r, .passed⟩, .quiet (.refl c), fun _ _ => rfl, fun e he => (by cases he)⟩
  · exact ⟨⟨r, .passed⟩, .quiet (.refl c), fun _ _ => rfl, fun e he => (by cases he)⟩

theorem quiet_markAckedOnReceipt (c : LogSyncCoordinator) (receipt : Option DeliveryReceipt)
    (messageId : String) (deviceId : DeviceId) (seq : Nat) :
    Quiet c (c.markAckedOnReceipt receipt messageId deviceId seq) := by
  unfold markAckedOnReceipt
  split
  · exact .refl c
  split
  · exact ⟨rfl, rfl, rfl, rfl, Nat.le_refl _, _, rfl, by simp [CoordEvent.quiet]⟩
  · exact .refl c

theorem returns_sendLogEntryEnvelope {r : RotationPhase} (hr : r.closes = none)
    (entryJws : EntryJws) (deviceId : DeviceId) (seq : Nat) (encoded : Option Bytes) :
    Returns r.idle (sendLogEntryEnvelope cfg entryJws deviceId seq encoded) := by
  apply obeys_bind
  apply (obeys_passPauseGate hr).mono ?_ fun _ _ h => h.elim
  rintro _ _ rfl
  apply obeys_bind
  apply (obeys_resolveRecipients r).mono ?_ fun _ _ h => h
  rintro recipients _ rfl
  apply obeys_bind
  apply obeys_atomic (.inr rfl : pauseProtocol.stands ⟨r, .passed⟩ .sendLogEntry)
  intro i c _
  refine ⟨r.idle, .send _ _, fun messageId _ => ?_, fun e he => (by cases he)⟩
  apply obeys_mutate (nofun : ∀ gate, logEntryReceipt ≠ .rebinding gate)
  intro i c _
  refine ⟨r.idle, .quiet ?_, rfl⟩
  split
  · exact .refl c
  · exact quiet_markAckedOnReceipt _ _ _ _ _

theorem returns_resendPending {r : RotationPhase} (hr : r.closes = none) :
    Returns r.idle (resendPending cfg) := by
  apply Returns.seq ((quiet_readCall (by simp) _).returns r)
  intro pending
  apply obeys_forEach (J := fun q' => q' = r.idle) ?_ rfl
  rintro entry _ _ rfl
  unfold resendEntry
  split
  · rfl
  apply Returns.seq ((quiet_query (by simp) _).returns r)
  intro deviceId
  split
  · rfl
  · exact (returns_sendLogEntryEnvelope hr _ _ _ _).tryCatch fun _ => rfl

/-! ## 2. The publication inside a rotation -/

section

variable (gate binding : Nat)

theorem registered_enqueue : Obeys pauseProtocol (fun _ q' => q' = (presented gate).idle)
      (fun _ q' => q' = (registered gate binding).idle)
      (enqueueControlFrame .presentCapability) (registered gate binding).idle := by
  have hstands : ∀ t, (∀ gate, t ≠ CoordPoint.rebinding gate) →
      pauseProtocol.stands (registered gate binding).idle t := fun _ h => h
  apply obeys_bind
  apply obeys_atomic (hstands _ (by simp))
  intro i c _
  refine ⟨_, .quiet ⟨rfl, rfl, rfl, rfl, Nat.le_refl _, [], by simp [enqueue]⟩, ?_,
    fun e he => (by cases he)⟩
  rintro ⟨own, before⟩ _
  apply obeys_bind
  apply obeys_await (hstands _ (by simp))
  intro i c _ hmay
  have hle : binding ≤ c.binding := hmay.2 gate binding rfl
  refine ⟨_, .quiet (.refl c), ?_, fun e he => (by cases he)⟩
  rintro _ ⟨⟩
  apply obeys_atomic (hstands _ (by simp))
  intro i c' _
  have hsettled : Quiet c' (c'.settle own none) :=
    ⟨rfl, rfl, rfl, rfl, Nat.le_refl _, [], by simp [settle]⟩
  unfold CoordInput.call
  cases i.failure with
  | some failure => exact ⟨_, .quiet hsettled, fun a ha => (by cases ha), fun _ _ => rfl⟩
  | none =>
    exact ⟨_, .present hle (hsettled.trans (quiet_note rfl)) rfl, fun _ _ => rfl,
      fun e he => (by cases he)⟩

theorem registered_presentCapability : Obeys pauseProtocol (fun _ q' => q' = (presented gate).idle)
      (fun _ q' => q' = (registered gate binding).idle)
      (presentCapability cfg) (registered gate binding).idle := by
  have hretry : ∀ attempts lastError, Obeys pauseProtocol (fun _ q' => q' = (presented gate).idle)
        (fun _ q' => q' = (registered gate binding).idle)
        (presentCapabilityWithRetry cfg attempts lastError)
        (registered gate binding).idle := by
    intro attempts
    induction attempts with
    | zero => exact fun _ => rfl
    | succ attempts ih =>
      intro lastError
      refine Returns.bind ((quiet_readCall (by simp) _).returns _) (fun _ => rfl) ?_
      intro _
      apply obeys_tryCatch
      apply (registered_enqueue gate binding).mono (fun _ _ h => h)
      rintro err _ rfl
      refine Returns.bind ((quiet_dispositionForError err).returns _) (fun _ => rfl) ?_
      intro disposition
      split
      · exact ih err
      · rfl
  exact hretry 3 _

theorem registered_runFirstPublication (pages : Nat)
    (publish : PublicationStart → CoordProgram Unit) :
    Obeys pauseProtocol (fun _ q' => q' = (presented gate).idle)
      (fun _ q' => q' = (registered gate binding).idle)
      (runFirstPublication cfg pages publish) (registered gate binding).idle := by
  refine Returns.bind (quiet_spaceRegister.returns _) (fun _ => rfl) ?_
  intro _
  apply obeys_bind
  apply (registered_presentCapability gate binding).mono ?_ fun _ _ h => h
  rintro _ _ rfl
  apply obeys_bind
  apply obeys_atomic (nofun : ∀ gate, headAbgleich ≠ .rebinding gate)
  intro i c hmay
  have hflight : c.restoreCloneInFlight = true := hmay.1 nofun
  simp only [beginHeadAbgleich, hflight, if_true]
  refine ⟨_, .quiet (.refl c), ?_, fun e he => (by cases he)⟩
  rintro _ ⟨⟩
  rfl

end

/-! ## 3. Rotations and publications -/

/-- A rotation whose `finally` is still to come. -/
def InRotation (gate : Nat) (q : PausePhase) : Prop :=
  ∃ r : RotationPhase, q = r.idle ∧ (r.closes = some gate ∨ r = .opened gate)

def PublishesNew (publish : PublicationStart → CoordProgram Unit) : Prop :=
  ∀ gate binding promise, Obeys pauseProtocol (fun _ q' => q' = (presented gate).idle)
      (fun _ q' => InRotation gate q') (publish (.own promise))
      (registered gate binding).idle

section

variable {publish : PublicationStart → CoordProgram Unit}

theorem obeys_rotate (hpublish : PublishesNew publish) (gate : Nat) (oldDeviceId : DeviceId) :
    Obeys pauseProtocol (fun _ q' => InRotation gate q') (fun _ q' => InRotation gate q')
      (rotate cfg publish gate oldDeviceId) (begun gate).idle := by
  have hbegun : InRotation gate (begun gate).idle := ⟨_, rfl, .inl rfl⟩
  have hopened : InRotation gate (opened gate).idle := ⟨_, rfl, .inr rfl⟩
  unfold rotate
  split
  · exact hbegun
  apply obeys_bind
  apply obeys_atomic (nofun : ∀ gate, CoordPoint.onWriteRejected ≠ .rebinding gate)
  intro i c _
  split
  · exact ⟨_, .quiet (.refl c), fun a ha => (by cases ha), fun _ _ => hbegun⟩
  · refine ⟨_, .quiet (.refl c), ?_, fun e he => (by cases he)⟩
    rintro _ ⟨⟩
    exact hbegun
  next newDeviceId _ _ =>
  split
  · refine ⟨_, .quiet (.refl c), ?_, fun e he => (by cases he)⟩
    rintro _ ⟨⟩
    exact hbegun
  refine ⟨_, .adopt newDeviceId, ?_, fun e he => (by cases he)⟩
  rintro _ ⟨⟩
  apply obeys_bind
  apply (hpublish gate (c.binding + 1) c.promises).mono ?_ fun _ _ h => h
  rintro _ _ rfl
  apply obeys_bind
  apply obeys_mutate (nofun : ∀ gate, CoordPoint.openWritePauseGate ≠ .rebinding gate)
  intro i c _
  refine ⟨_, .openGate, ?_⟩
  split
  · apply ((quiet_readCall (by simp) _).returns _).mono
    · rintro _ _ rfl
      exact hopened
    · rintro _ _ rfl
      exact hopened
  apply (returns_resendPending rfl).mono
  · rintro _ _ rfl
    exact hopened
  · rintro _ _ rfl
    exact hopened

theorem obeys_endRestoreClone {gate : Nat} {q : PausePhase} (h : InRotation gate q) :
    Obeys pauseProtocol (fun _ q' => q' = outside.idle) (fun _ q' => q' = outside.idle)
      (mutate .endRestoreClone fun _ c => c.endRestoreClone gate : CoordProgram Unit) q := by
  obtain ⟨r, rfl, hgate⟩ := h
  apply obeys_mutate (nofun : ∀ gate, CoordPoint.endRestoreClone ≠ .rebinding gate)
  exact fun i c _ => ⟨_, .ended hgate, rfl⟩

theorem returns_restoreClone (hpublish : PublishesNew publish) :
    Returns outside.idle (restoreClone cfg publish) := by
  apply obeys_bind
  apply obeys_atomic (nofun : ∀ gate, CoordPoint.beginRestoreClone ≠ .rebinding gate)
  intro i c _
  by_cases hflight : c.restoreCloneInFlight = true
  · simp only [beginRestoreClone, hflight, if_true]
    refine ⟨_, .quiet (.refl c), ?_, fun e he => (by cases he)⟩
    rintro _ ⟨⟩
    rfl
  refine ⟨_, .begin (Bool.eq_false_iff.mpr hflight), ?_, fun e he => (by cases he)⟩
  simp only [beginRestoreClone, hflight]
  rintro _ ⟨⟩
  apply obeys_finallyDo
  apply (obeys_rotate hpublish _ _).mono
  · exact fun _ _ h => obeys_endRestoreClone h
  · exact fun _ _ h => obeys_endRestoreClone h

theorem returns_actOnRestoreDisposition (hpublish : PublishesNew publish) (result : CatchUpResult) :
    Returns outside.idle (actOnRestoreDisposition cfg publish result) := by
  unfold actOnRestoreDisposition
  split
  · exact returns_restoreClone hpublish
  · rfl

theorem quiet_endCatchUp (own : Nat) (error : Option CoordError) :
    QuietCode (mutate .endCatchUp fun _ c => c.endCatchUp own error : CoordProgram Unit) := by
  apply steps_mutate nofun
  intro i c
  simp only [endCatchUp]
  split
  · exact ⟨rfl, rfl, rfl, rfl, Nat.le_refl _, [], by simp [settle]⟩
  · exact ⟨rfl, rfl, rfl, rfl, Nat.le_refl _, [], by simp [settle]⟩

theorem quiet_endPublication (own : Nat) (error : Option CoordError) : QuietCode
      (mutate .endPublication fun _ c => c.endPublication own error : CoordProgram Unit) := by
  apply steps_mutate nofun
  intro i c
  simp only [endPublication]
  split
  · exact ⟨rfl, rfl, rfl, rfl, Nat.le_refl _, [], by simp [settle]⟩
  · exact ⟨rfl, rfl, rfl, rfl, Nat.le_refl _, [], by simp [settle]⟩

section

variable (c : LogSyncCoordinator)

theorem quiet_beginHeadAbgleich : Quiet c c.beginHeadAbgleich.2 := by
  unfold beginHeadAbgleich
  split
  · exact .refl c
  split
  · exact .refl c
  · exact ⟨rfl, rfl, rfl, rfl, Nat.le_refl _, [], by simp⟩

theorem quiet_beginPublication : Quiet c c.beginPublication.2 := by
  unfold beginPublication
  split
  · exact .refl c
  split
  · exact .refl c
  · exact ⟨rfl, rfl, rfl, rfl, Nat.le_refl _, [], by simp⟩

theorem quiet_beginCatchUp : Quiet c c.beginCatchUp.2 := by
  unfold beginCatchUp
  split
  · exact .refl c
  · exact ⟨rfl, rfl, rfl, rfl, Nat.le_refl _, [], by simp⟩

end

theorem returns_runFirstPublication (hpublish : PublishesNew publish) (pages : Nat) :
    Returns outside.idle (runFirstPublication cfg pages publish) := by
  apply Returns.seq (quiet_spaceRegister.returns _)
  intro _
  apply Returns.seq (quiet_presentCapability.returns _)
  intro _
  apply Returns.seq
    (QuietCode.returns (steps_atomic (by simp) fun _ c => quiet_beginHeadAbgleich c) _)
  intro abgleich
  cases abgleich with
  | restoring => rfl
  | joined promise => exact (quiet_awaitPromise (by simp) promise).returns _
  | own promise =>
    apply Returns.finallyDo
    · apply Returns.seq ((quiet_catchUpInternal _ _).returns _)
      exact returns_actOnRestoreDisposition hpublish
    · exact fun error => (quiet_endCatchUp promise error).returns _

end

section

variable (pages : Nat)

theorem publishesNew (depth : Nat) : PublishesNew (publish cfg pages depth) := by
  intro gate binding promise
  rcases depth with _ | depth
  · exact ⟨_, rfl, .inl rfl⟩
  apply obeys_finallyDo
  apply (registered_runFirstPublication gate binding pages _).mono
  · rintro _ _ rfl
    apply ((quiet_endPublication promise none).returns _).mono (fun _ _ h => h)
    rintro _ _ rfl
    exact ⟨_, rfl, .inl rfl⟩
  · rintro e _ rfl
    apply ((quiet_endPublication promise (some e)).returns _).mono
    · rintro _ _ rfl
      exact ⟨_, rfl, .inl rfl⟩
    · rintro _ _ rfl
      exact ⟨_, rfl, .inl rfl⟩

theorem returns_publish (depth : Nat) (start : PublicationStart) :
    Returns outside.idle (publish cfg pages depth start) := by
  rcases depth with _ | depth
  · rfl
  cases start with
  | published => rfl
  | joined promise => exact (quiet_awaitPromise (by simp) promise).returns _
  | own promise =>
    exact (returns_runFirstPublication (publishesNew pages depth) pages).finallyDo fun error =>
      (quiet_endPublication promise error).returns _

variable (depth : Nat)

theorem returns_ensurePublished : Returns outside.idle (ensurePublished cfg pages depth) := by
  apply Returns.seq
    (QuietCode.returns (steps_atomic (by simp) fun _ c => quiet_beginPublication c) _)
  exact returns_publish pages depth

theorem returns_catchUp : Returns outside.idle (catchUp cfg pages depth) := by
  apply Returns.seq (QuietCode.returns (steps_atomic (by simp) fun _ c => quiet_beginCatchUp c) _)
  intro begun
  rcases begun with _ | own
  · rfl
  apply Returns.finallyDo
  · apply Returns.seq
    · apply (quiet_driveGapRepairs.returns _).tryCatch
      exact fun _ => rfl
    intro _
    apply Returns.seq
    · apply Returns.tryCatch
      · apply Returns.seq ((quiet_catchUpInternal _ _).returns _)
        exact fun _ => rfl
      intro err
      split
      · rfl
      · rfl
    · intro result
      cases result with
      | none => rfl
      | some result =>
        apply Returns.seq (returns_actOnRestoreDisposition (publishesNew pages depth) result)
        exact fun _ => rfl
  · exact fun error => (quiet_endCatchUp own error).returns _

/-! ## 4. Writes and rejects -/

theorem returns_writeLocalUpdate (update : Bytes) :
    Returns outside.idle (writeLocalUpdate cfg pages depth update) := by
  apply Returns.seq ((quiet_readCall (by simp) _).returns _)
  intro contentKey
  rcases contentKey with _ | content
  · rfl
  apply Returns.seq (returns_ensurePublished pages depth)
  intro _
  apply Returns.seq ((quiet_query (by simp) _).returns _)
  intro deviceId
  apply Returns.seq
  · apply QuietCode.returns
    exact steps_adapt (steps_true _) (fun _ _ _ h => nomatch h) fun _ _ _ _ _ =>
      ⟨rfl, rfl, rfl, rfl, Nat.le_refl _, [], by simp [docLogPart]⟩
  · intro entry
    apply Returns.seq (returns_sendLogEntryEnvelope rfl _ _ _ _)
    exact fun _ => rfl

theorem returns_deviceReRegister : Returns outside.idle (deviceReRegister cfg) := by
  unfold deviceReRegister
  split
  · rfl
  apply Returns.seq
  · apply QuietCode.returns
    apply steps_atomic nofun
    intro i c
    apply quiet_call (.refl c)
    split
    · split
      · exact .refl c
      · exact ⟨rfl, rfl, rfl, rfl, Nat.le_succ _, [], by simp [rebind]⟩
    · exact .refl c
  · exact fun _ => returns_resendPending rfl

theorem returns_awaitGenerationAdvance (rejectedGeneration : Nat) :
    Returns outside.idle (awaitGenerationAdvance cfg rejectedGeneration) := by
  apply QuietCode.returns
  unfold awaitGenerationAdvance
  dsimp only
  split
  · exact steps_atomic nofun fun _ c => quiet_call (.refl c) (.refl c)
  · exact quiet_readCall (by simp) _

theorem returns_performReemit (deviceId : DeviceId) (seq rejectedGeneration : Nat)
    (retainedEncoded : Option Bytes) :
    Returns outside.idle
      (performReemit cfg pages depth deviceId seq rejectedGeneration retainedEncoded) := by
  apply Returns.seq
  · cases retainedEncoded with
    | some encoded => rfl
    | none =>
      apply Returns.seq ((quiet_readCall (by simp) _).returns _)
      intro stale
      cases stale with
      | none => rfl
      | some stale => exact (quiet_readCall (by simp) _).returns _
  · intro plaintext
    rcases plaintext with _ | plaintext
    · rfl
    apply Returns.seq (returns_writeLocalUpdate pages depth plaintext)
    intro reemitted
    cases reemitted with
    | none => rfl
    | some _ =>
      apply Returns.seq ((quiet_storeCall (by simp) _).returns _)
      exact fun _ => rfl

theorem returns_guardReemit (deviceId : DeviceId) (seq : Nat) {p : CoordProgram Bool}
    (hp : Returns outside.idle p) :
    Returns outside.idle (guardReemit deviceId seq p) := by
  apply Returns.seq
  · apply QuietCode.returns
    apply steps_atomic nofun
    intro i c
    split
    · exact .refl c
    · exact ⟨rfl, rfl, rfl, rfl, Nat.le_refl _, [], by simp⟩
  · intro running
    split
    · rfl
    apply hp.finallyDo
    intro _
    apply QuietCode.returns
    exact steps_mutate nofun fun _ c => ⟨rfl, rfl, rfl, rfl, Nat.le_refl _, [], by simp⟩

theorem returns_pendingReemits (f : LogSyncCoordinator → KeyedTable ParkedReemit.key) :
    Returns outside.idle
      (mutate .pendingReemits fun _ c => { c with pendingReemits := f c } : CoordProgram Unit) := by
  apply QuietCode.returns
  exact steps_mutate nofun fun _ c => ⟨rfl, rfl, rfl, rfl, Nat.le_refl _, [], by simp⟩

theorem returns_catchUpGenerationAndReemit (deviceId : DeviceId) (seq : Nat)
    (retainedEncoded : Option Bytes) :
    Returns outside.idle
      (catchUpGenerationAndReemit cfg pages depth deviceId seq retainedEncoded) := by
  apply returns_guardReemit
  apply Returns.seq ((quiet_readCall (by simp) _).returns _)
  intro generation
  rcases generation with _ | rejectedGeneration
  · rfl
  apply Returns.seq (returns_awaitGenerationAdvance rejectedGeneration)
  intro advanced
  split
  · exact returns_performReemit pages depth _ _ _ _
  · apply Returns.seq (returns_pendingReemits _)
    exact fun _ => rfl

theorem returns_replayReemit (fired : Nat) (parked : ParkedReemit) :
    Returns outside.idle (replayReemit cfg pages depth fired parked) := by
  refine Returns.seq ?_ fun _ => rfl
  apply returns_guardReemit
  apply Returns.seq ((quiet_readCall (by simp) _).returns _)
  intro generation
  rcases generation with _ | rejectedGeneration
  · apply Returns.seq (returns_pendingReemits _)
    exact fun _ => rfl
  apply Returns.seq (returns_awaitGenerationAdvance rejectedGeneration)
  intro advanced
  split
  · apply Returns.seq (returns_performReemit pages depth _ _ _ _)
    intro ok
    split
    · apply Returns.seq (returns_pendingReemits _)
      exact fun _ => rfl
    · rfl
  · rfl

theorem returns_replayPendingReemits :
    Returns outside.idle (replayPendingReemits cfg pages depth) := by
  apply Returns.seq ((quiet_query (by simp) _).returns _)
  intro parked
  have hloop : ∀ fired, Returns outside.idle
      (foldEach (replayReemit cfg pages depth) fired parked) := by
    induction parked with
    | nil => exact fun _ => rfl
    | cons x rest ih =>
      intro fired
      exact Returns.seq (returns_replayReemit pages depth fired x) ih
  exact hloop 0

theorem returns_handleWriteReject (code : BrokerErrorCode) (rejected : InFlightWrite) :
    Returns outside.idle (handleWriteReject cfg pages depth code rejected) := by
  unfold handleWriteReject
  split
  · apply Returns.seq
    · apply Returns.tryCatch
      · exact (quiet_storeCall (by simp) _).returns _
      · exact fun _ => rfl
    · exact fun _ => rfl
  · apply Returns.seq ((quiet_query (by simp) _).returns _)
    intro deviceId
    split
    · rfl
    · split <;> rfl
  · exact returns_deviceReRegister
  · exact Returns.seq (quiet_presentCapability.returns _) fun _ => returns_resendPending rfl
  · apply Returns.seq (returns_catchUpGenerationAndReemit pages depth _ _ _)
    exact fun _ => rfl
  · rfl

theorem returns_onWritePathErrorFrame (code : BrokerErrorCode) (thid : String) :
    Returns outside.idle (onWritePathErrorFrame cfg pages depth code thid) := by
  apply Returns.seq
  · apply QuietCode.returns
    apply steps_atomic nofun
    intro i c
    unfold correlate
    split
    · exact .refl c
    · exact ⟨rfl, rfl, rfl, rfl, Nat.le_refl _, _, rfl, by simp [CoordEvent.quiet]⟩
  · intro correlated
    cases correlated with
    | none => rfl
    | some rejected => exact returns_handleWriteReject pages depth code rejected

theorem returns_settleAck : Returns outside.idle (settleAck cfg) := by
  apply QuietCode.returns
  apply steps_await nofun
  intro i c _
  dsimp only
  split
  · exact .refl c
  split
  · exact ⟨rfl, rfl, rfl, rfl, Nat.le_refl _, [], by simp⟩
  · exact ⟨rfl, rfl, rfl, rfl, Nat.le_refl _, [], by simp [setStore]⟩

/-! ## 5. Every call -/

theorem Returns.effect {α : Type} {q : PausePhase} {p : CoordProgram α} (h : Returns q p) :
    Returns q (effect p) :=
  h.seq fun _ => rfl

theorem returns_outside {t : CoordPoint} (ht : ∀ gate, t ≠ .rebinding gate)
    {f : LogSyncCoordinator → LogSyncCoordinator} (hf : ∀ c, Quiet c (f c)) :
    Returns outside.idle (effect (mutate t fun _ c => f c)) :=
  (QuietCode.returns (steps_mutate ht fun _ c => hf c) _).effect

theorem returns_program (call : CoordCall) :
    Returns outside.idle (call.program cfg pages depth) := by
  cases call with
  | writeLocalUpdate update =>
    exact Returns.seq (returns_writeLocalUpdate pages depth update) fun _ => rfl
  | resendPending => exact (returns_resendPending rfl).effect
  | catchUp => exact Returns.seq (returns_catchUp pages depth) fun _ => rfl
  | ensurePublished => exact (returns_ensurePublished pages depth).effect
  | driveGapRepairs => exact (quiet_driveGapRepairs.returns _).effect
  | replayPendingReemits =>
    exact Returns.seq (returns_replayPendingReemits pages depth) fun _ => rfl
  | rePresentCapability => exact (quiet_presentCapability.returns _).effect
  | sendSpaceRotate => exact ((quiet_enqueueControlFrame _).returns _).effect
  | handleIncomingError code thid =>
    exact (returns_onWritePathErrorFrame pages depth code thid).effect
  | settleAck => exact returns_settleAck.effect
  | resetForReconnect =>
    exact returns_outside (by simp) fun c =>
      ⟨rfl, rfl, rfl, rfl, Nat.le_refl _, [], by simp [LogSyncCoordinator.resetForReconnect]⟩
  | connected =>
    exact returns_outside (by simp) fun c =>
      ⟨rfl, rfl, rfl, rfl, Nat.le_refl _, _, rfl, by simp [CoordEvent.quiet]⟩
  | importContentKey content =>
    apply returns_outside (by simp)
    intro c
    unfold LogSyncCoordinator.importContentKey
    split
    · exact ⟨rfl, rfl, rfl, rfl, Nat.le_refl _, [], by simp⟩
    · exact .refl c
  | persistDeviceId deviceId =>
    exact returns_outside (by simp) fun c =>
      ⟨rfl, rfl, rfl, rfl, Nat.le_refl _, [], by simp [setStore]⟩
  | otherLogEntry docId =>
    apply Returns.effect
    apply obeys_mutate (by simp : ∀ gate, otherLogEntry ≠ .rebinding gate)
    exact fun i c _ => ⟨_, .other docId, rfl⟩

end

end LogSyncCoordinator

end WebOfTrust
