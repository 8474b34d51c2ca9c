/-
  **Every method of the coordinator comes back to the runs it began with.**

  A method is followed through its catch-ups: it takes the guard where every run of its own
  is past its pages, asks for a page only while one is not, and gives the guard back with
  its own promise.  A publication ends with the promise with which it began.
-/
import WebOfTrust.SinglePagination

namespace WebOfTrust

open Async LoopState CatchUpRun Stays PlainCode

namespace LogSyncCoordinator

variable {cfg : CoordConfig} {runs : List CatchUpRun}

/-! ## 1. Pages -/

section

variable {cfg : SyncConfig} (isDurablyKnown : DeviceId → Nat → Bool)

theorem epoch_processPayload (p : LogEntryPayload) (w : SyncWorld) :
    (processPayload cfg isDurablyKnown p w).2.gap.connectionEpoch = w.gap.connectionEpoch := by
  unfold processPayload
  split
  · rfl
  split
  · rfl
  split
  · rfl
  split
  · rfl
  · split <;> rfl

theorem epoch_processRemoteEntry (entryJws : EntryJws) : EpochKept
    (processRemoteEntry cfg isDurablyKnown entryJws) := by
  apply steps_atomic trivial
  intro env w
  cases entryJws with
  | blank => rfl
  | compact p => exact epoch_syncCall (epoch_processPayload isDurablyKnown p w)

theorem epoch_computeEntry (durablyKnown : List (DeviceId × Nat))
    (page : PageProgress) (entryJws : EntryJws) :
    EpochKept (computeEntry cfg durablyKnown page entryJws) := by
  refine steps_bind (epoch_processRemoteEntry _ entryJws) ?_
  intro disposition
  cases disposition with
  | idempotentSkip deviceId seq =>
    dsimp only
    split
    · exact steps_bind (steps_mutate trivial fun _ _ => rfl) fun _ => trivial
    · trivial
  | rejected _ | blockedByKey _ _ _ | engineForeignSkip _ | appliedUnrecorded _ => trivial

theorem epoch_markRemoteApplied (entries : List RecordRemoteAppliedEntry) (w : SyncWorld) :
    (entries.foldl (fun w e => w.markRemoteApplied e.deviceId e.seq) w).gap.connectionEpoch =
      w.gap.connectionEpoch := by
  induction entries generalizing w with
  | nil => rfl
  | cons e rest ih => exact ih (w.markRemoteApplied e.deviceId e.seq)

theorem epoch_autoResolveGaps (e : RecordRemoteAppliedEntry) :
    EpochKept (SyncWorld.autoResolveGaps e) := by
  apply steps_bind
  · exact epoch_readStore _ _
  intro seqs
  cases seqs with
  | nil => trivial
  | cons seq rest => exact steps_atomic trivial fun _ _ => epoch_syncCall (by rfl)

theorem epoch_applySyncResponsePage (entries : List EntryJws) :
    EpochKept (applySyncResponsePage cfg entries) := by
  apply steps_bind
  · apply steps_bind (steps_query trivial fun _ _ => rfl)
    intro batchKeys
    split
    · trivial
    · exact epoch_readStore _ _
  intro durablyKnown
  apply steps_bind (steps_foldEach (fun page e _ => epoch_computeEntry durablyKnown page e) _)
  intro page
  unfold commitPage
  split
  · trivial
  apply steps_bind
  · apply steps_bind (steps_atomic trivial fun _ _ => epoch_syncCall (by rfl))
    exact fun _ => steps_forEach fun e _ => epoch_autoResolveGaps e
  intro _
  apply steps_bind (steps_mutate trivial fun _ w => epoch_markRemoteApplied page.toPersist w)
  exact fun _ => trivial

theorem epoch_recordGapsFromPage (docId : DocId) (brokerHeads : List (DeviceId × Nat))
    (lowestSeqByDevice : DeviceId → Option Nat) (requestCursor : DocLogStore.Heads) :
    Steps (fun _ => True) (fun _ _ w w' => w'.connectionEpoch = w.connectionEpoch)
      (recordGapsFromPage docId brokerHeads lowestSeqByDevice requestCursor) := by
  have hcall : ∀ {α : Type} {env : Env} {w w' : GapWorld} {a : α},
      w'.connectionEpoch = w.connectionEpoch →
        (env.storeCall w w' a).2.connectionEpoch = w.connectionEpoch := by
    intro α env w w' a h
    unfold Env.storeCall
    cases env.failure with
    | some text => rfl
    | none => exact h
  apply steps_bind (steps_query trivial fun _ _ => rfl)
  intro receivedOn
  apply steps_bind (steps_atomic trivial fun _ _ => hcall rfl)
  rintro ⟨known, now⟩
  apply steps_forEach
  rintro ⟨device, brokerMax⟩ _
  unfold recordGapOfDevice
  dsimp only
  split
  · trivial
  split
  · trivial
  split
  · trivial
  split
  · trivial
  apply steps_bind (steps_query trivial fun _ _ => rfl)
  intro epoch
  apply steps_bind (steps_atomic trivial fun _ _ => hcall (by rfl))
  intro _
  apply steps_bind (steps_atomic trivial fun _ _ => hcall rfl)
  intro gap
  split
  · exact steps_atomic trivial fun _ _ => hcall (by rfl)
  · trivial

theorem epoch_recordGaps (response : SyncResponse) (page : PageProgress)
    (wireHeads : HeadsRecord) : EpochKept (recordGaps cfg response page wireHeads) :=
  steps_zoom (epoch_recordGapsFromPage _ _ _ _) (fun _ _ => trivial) fun _ _ _ _ h => h

end

/-! ## 2. Plain code -/

theorem plain_enqueueControlFrame (frame : CoordFrame) : PlainCode (enqueueControlFrame frame) := by
  apply steps_bind
  · exact plain_atomic rfl fun _ c => .of_eq rfl rfl rfl rfl rfl (Nat.le_succ _) rfl
  rintro ⟨own, before⟩
  dsimp only
  apply steps_bind (plain_await rfl fun _ c => .refl c)
  intro binding
  apply plain_atomic rfl
  intro i c
  have hsettled : GuardKept c (c.settle own none) := (GuardKept.refl c).settle own none
  apply guardKept_call hsettled
  split
  · exact .of_eq rfl rfl rfl rfl rfl (Nat.le_refl _) rfl
  · exact hsettled

theorem plain_dispositionForError (err : CoordError) : PlainCode (dispositionForError cfg err) := by
  apply plain_atomic rfl
  intro i c
  split
  · split
    · exact .refl c
    · exact .refl c
  · exact .refl c

theorem plain_spaceRegister : PlainCode (spaceRegister cfg) := by
  unfold spaceRegister
  split
  · apply steps_tryCatch (plain_readCall rfl _)
    intro err
    exact steps_bind (plain_dispositionForError err) fun _ => trivial
  · trivial

theorem plain_applyPage (thid : Nat) (response : SyncResponse) :
    PlainCode (applyPage cfg thid response) := by
  apply steps_bind (plain_sync (epoch_applySyncResponsePage _))
  intro page
  apply steps_bind (plain_mutate rfl fun _ c => guardKept_note c _)
  exact fun _ => trivial

theorem plain_computeRestoreDisposition (firstPage restoreRequired : Bool) (thid : Nat)
    (response : SyncResponse) :
    PlainCode (computeRestoreDisposition cfg firstPage restoreRequired thid response) := by
  unfold computeRestoreDisposition
  split
  · apply steps_bind (plain_query rfl _)
    intro deviceId
    exact plain_atomic rfl fun _ c => guardKept_call (.refl c) (guardKept_note c _)
  · trivial

theorem plain_resolveRecipients : PlainCode (resolveRecipients cfg) := by
  apply plain_atomic rfl
  intro i c
  split
  · exact guardKept_call (.refl c) (.refl c)
  · exact .refl c

theorem guardKept_markAckedOnReceipt (c : LogSyncCoordinator) (receipt : Option DeliveryReceipt)
    (messageId : String) (deviceId : DeviceId) (seq : Nat) :
    GuardKept c (c.markAckedOnReceipt receipt messageId deviceId seq) := by
  unfold markAckedOnReceipt
  split
  · exact .refl c
  split
  · exact .of_eq rfl rfl rfl rfl rfl (Nat.le_refl _) rfl
  · exact .refl c

theorem plain_sendLogEntryEnvelope (entryJws : EntryJws) (deviceId : DeviceId) (seq : Nat)
    (encoded : Option Bytes) :
    PlainCode (sendLogEntryEnvelope cfg entryJws deviceId seq encoded) := by
  apply steps_bind
  · apply steps_bind (plain_query rfl _)
    intro rebinding
    cases rebinding with
    | none => trivial
    | some gate => exact plain_await rfl fun _ c => .refl c
  intro _
  apply steps_bind plain_resolveRecipients
  intro recipients
  apply steps_bind
  · exact plain_atomic rfl fun _ c => .of_eq rfl rfl rfl rfl rfl (Nat.le_refl _) rfl
  intro messageId
  apply plain_mutate rfl
  intro i c
  split
  · exact .refl c
  · exact guardKept_markAckedOnReceipt _ _ _ _ _

theorem plain_resendPending : PlainCode (resendPending cfg) := by
  apply steps_bind (plain_readCall rfl _)
  intro pending
  apply steps_forEach
  intro entry _
  unfold resendEntry
  split
  · trivial
  apply steps_bind (plain_query rfl _)
  intro deviceId
  split
  · trivial
  · exact steps_tryCatch (plain_sendLogEntryEnvelope _ _ _ _) fun _ => trivial

theorem plain_awaitGenerationAdvance (rejectedGeneration : Nat) :
    PlainCode (awaitGenerationAdvance cfg rejectedGeneration) := by
  unfold awaitGenerationAdvance
  dsimp only
  split
  · exact plain_atomic rfl fun _ c => guardKept_call (.refl c) (.refl c)
  · exact plain_readCall rfl _

theorem plain_reemitPlaintext (deviceId : DeviceId) (seq rejectedGeneration : Nat)
    (retainedEncoded : Option Bytes) :
    PlainCode (reemitPlaintext cfg deviceId seq rejectedGeneration retainedEncoded) := by
  cases retainedEncoded with
  | some encoded => trivial
  | none =>
    apply steps_bind (plain_readCall rfl _)
    intro stale
    cases stale with
    | none => trivial
    | some stale => exact plain_readCall rfl _

theorem plain_settleAck : PlainCode (settleAck cfg) := by
  apply plain_await rfl
  intro i c
  dsimp only
  split
  · exact .refl c
  split
  · exact .of_eq rfl rfl rfl rfl rfl (Nat.le_refl _) rfl
  · exact .of_eq rfl rfl rfl rfl rfl (Nat.le_refl _) rfl

theorem plain_strictHeads : PlainCode (sync (strictHeads cfg.toSyncConfig)) :=
  plain_sync (epoch_readStore _ _)

theorem plain_requestHeads : PlainCode (sync (requestHeads cfg.toSyncConfig)) :=
  plain_sync (epoch_readStore _ _)

/-! ## 3. Capability and pages -/

theorem presented_presented (runs : List CatchUpRun) :
    (runs.modifyHead presented).modifyHead presented = runs.modifyHead presented := by
  rcases runs with _ | ⟨r, rest⟩
  · rfl
  simp only [List.modifyHead_cons, List.cons.injEq, and_true]
  by_cases hstage : r.stage = .repairing
  · simp [presented, hstage]
  · simp [presented, hstage]

theorem stays_presentCapabilityWithRetry (hruns : runs.modifyHead presented = runs)
    (attempts : Nat) (lastError : CoordError) :
    Stays runs (presentCapabilityWithRetry cfg attempts lastError) := by
  induction attempts generalizing lastError with
  | zero => exact leads_fail rfl
  | succ attempts ih =>
    apply seq
    · apply leads_atomic
      · exact fun history i c _ => guardKept_call (.refl c) (.refl c)
      · rintro s i c a rfl -
        exact hruns
      · rintro s i c e rfl -
        exact hruns
    · intro _
      apply (plain_enqueueControlFrame _).stays.tryCatch
      intro err
      apply (plain_dispositionForError err).stays.seq
      intro disposition
      split
      · exact ih err
      · exact leads_fail rfl

theorem leads_presentCapability (runs : List CatchUpRun) :
    Leads runs (fun _ rs => rs = runs.modifyHead presented)
      (fun _ rs => rs = runs.modifyHead presented) (presentCapability cfg) := by
  apply leads_bind
  apply leads_atomic
  · exact fun history i c _ => guardKept_call (.refl c) (.refl c)
  · rintro s i c _ rfl -
    apply (plain_enqueueControlFrame _).stays.tryCatch
    intro err
    apply (plain_dispositionForError err).stays.seq
    intro disposition
    split
    · exact stays_presentCapabilityWithRetry (presented_presented s.runs) 2 err
    · exact leads_fail rfl
  · rintro s i c e rfl -
    rfl

theorem stays_presentCapability (hruns : runs.modifyHead presented = runs) :
    Stays runs (presentCapability cfg) :=
  stays_presentCapabilityWithRetry hruns 3 _

theorem leads_requestSyncPage (hruns : ∀ r ∈ runs.head?, r.stage ≠ .over)
    (localHeads : HeadsRecord) :
    Leads runs (fun answer rs => rs = pagedRuns (answer.map (·.2)) runs)
      (fun _ _ => False) (requestSyncPage cfg localHeads) := by
  intro history hhistory
  apply traced_bind
  apply traced_atomic
  · intro i c _
    refine ⟨⟨⟨rfl, rfl, rfl, rfl, rfl, Nat.le_succ _, ?_⟩, Nat.lt_succ_self _⟩, ?_⟩
    · intro id hid
      rcases List.mem_cons.mp hid with rfl | hid
      · exact .inr ⟨rfl, Nat.lt_succ_self _⟩
      · exact .inl hid
    · show ∀ r ∈ (loopState history).runs.head?, _
      rw [hhistory]
      exact hruns
  · rintro i c requestId - ⟨⟩
    -- from here on the record knows the request
    have hdropped (c' : LogSyncCoordinator) :
        GuardKept c' { c' with pendingSyncRequests := c'.pendingSyncRequests.erase c.promises } :=
      ⟨rfl, rfl, rfl, rfl, rfl, Nat.le_refl _, fun id hid => .inl (List.mem_of_mem_erase hid)⟩
    apply traced_bind
    apply traced_atomic
    · intro i c' _
      dsimp only
      split
      · exact hdropped c'
      · exact ⟨rfl, rfl, rfl, rfl, rfl, Nat.le_refl _, (hdropped c').pending⟩
      · exact .refl c'
    · intro i' c' sent _ hsent
      dsimp only at hsent
      split at hsent
      · next failure response hfailure =>
        cases hsent
        show (loopState _).runs = _
        simp only [loopState_concat, after, hfailure]
        exact congrArg (pagedRuns none) hhistory
      · next response hfailure hresponse =>
        cases hsent
        show (loopState _).runs = _
        simp only [loopState_concat, after, hfailure, hresponse]
        exact congrArg (pagedRuns (some response)) hhistory
      next hfailure hresponse =>
      cases hsent
      apply traced_atomic
      · intro i c' _
        dsimp only
        split
        · split
          · exact ⟨rfl, rfl, rfl, rfl, rfl, Nat.le_refl _, (hdropped c').pending⟩
          · exact hdropped c'
        · exact hdropped c'
      · intro i'' c'' answer _ hanswer
        simp only [loopState_concat, after, hfailure, hresponse]
        dsimp only at hanswer
        split at hanswer
        · next response hresponse' =>
          split at hanswer
          · next hpending =>
            cases hanswer
            simp [paged, answer, hpending, hresponse', hhistory]
          next hpending =>
          cases hanswer
          simp [paged, answer, hpending, hhistory]
        · next hresponse' =>
          cases hanswer
          simp [paged, answer, hresponse', hhistory]
      · intro i'' c'' e _ he
        dsimp only at he
        split at he
        · split at he <;> cases he
        · cases he
    · intro i' c' e _ he
      dsimp only at he
      split at he
      · cases he
      · cases he
      · cases he
  · rintro i c e - ⟨⟩

/-- Runs of a program that repairs gaps, if it has any. -/
def Repairing (runs : List CatchUpRun) : Prop := ∀ r ∈ runs.head?, r.stage = .repairing

theorem repairing_nil : Repairing [] := by
  intro r hr
  cases hr

theorem pagedRuns_repairing (hruns : Repairing runs) (answer : Option SyncResponse) :
    pagedRuns answer runs = runs := by
  unfold pagedRuns
  split
  · rfl
  cases runs with
  | nil => rfl
  | cons r rest =>
    have hstage : r.stage = .repairing := hruns r rfl
    simp [lastPage, hstage]

theorem stays_repairPages (hruns : Repairing runs) (gap : GapRepair) (pages : Nat)
    (repairHeads : HeadsRecord) : Stays runs (repairPages cfg gap pages repairHeads) := by
  induction pages generalizing repairHeads with
  | zero => exact leads_ret rfl
  | succ pages ih =>
    apply leads_bind
    apply (leads_requestSyncPage (fun r hr => by simp [hruns r hr]) repairHeads).mono ?_
      fun _ _ h => h.elim
    rintro answer _ rfl
    rw [pagedRuns_repairing hruns]
    match answer with
    | none => exact leads_ret rfl
    | some (thid, response) =>
      apply (plain_applyPage _ _).stays.seq
      intro page
      dsimp only
      split
      · exact leads_ret rfl
      · exact ih _

theorem stays_driveGapRepairs (hruns : Repairing runs) : Stays runs (driveGapRepairs cfg) := by
  have hdue : PlainCode (atomic .listDueGapRepairs fun i c =>
      i.call c c (i.now, c.log.store.listDueGapRepairs i.now) : CoordProgram _) :=
    plain_atomic rfl fun _ c => guardKept_call (.refl c) (.refl c)
  apply hdue.stays.seq
  rintro ⟨now, due⟩
  apply (plain_readCall rfl _).stays.seq
  intro known
  apply Stays.forEach
  intro gap _
  unfold repairGap
  split
  · exact leads_ret rfl
  · apply (stays_repairPages hruns _ _ _).seq
    exact fun _ => (plain_storeCall rfl _).stays

def Headed (own epoch : Nat) (rest runs : List CatchUpRun) : Prop :=
  ∃ stage, runs = ⟨own, epoch, stage⟩ :: rest

theorem headed_pagedRuns (own epoch : Nat) (stage : LoopStage) (rest : List CatchUpRun)
    (answer : Option SyncResponse) :
    Headed own epoch rest (pagedRuns answer (⟨own, epoch, stage⟩ :: rest)) := by
  unfold pagedRuns
  split
  · exact ⟨stage, rfl⟩
  simp only [List.modifyHead_cons, lastPage]
  split
  · exact ⟨.over, rfl⟩
  · exact ⟨stage, rfl⟩

section

variable {own epoch : Nat} {rest : List CatchUpRun}

theorem Stays.headed {α : Type} {p : CoordProgram α} (h : Stays runs p)
    (hruns : Headed own epoch rest runs) :
    Leads runs (fun _ => Headed own epoch rest) (fun _ => Headed own epoch rest) p := by
  apply h.mono
  · rintro _ _ rfl
    exact hruns
  · rintro _ _ rfl
    exact hruns

theorem leads_classifyPage {truncated strictAdvanced effectiveCursorAdvanced : Bool}
    {page : PageProgress} {restoreRequired : Bool}
    {continuePagination : CoordProgram CatchUpResult} (hruns : Headed own epoch rest runs)
    (h : truncated = true → Leads runs (fun _ => Headed own epoch rest)
      (fun _ => Headed own epoch rest) continuePagination) :
    Leads runs (fun _ => Headed own epoch rest) (fun _ => Headed own epoch rest)
      (classifyPage cfg truncated strictAdvanced effectiveCursorAdvanced page restoreRequired
        continuePagination) := by
  have hgaps : ∀ f : List GapRef → CatchUpResult,
      Leads runs (fun _ => Headed own epoch rest) (fun _ => Headed own epoch rest) (do
        let pendingGaps ← sync (openGaps cfg.toSyncConfig)
        pure (f pendingGaps) : CoordProgram CatchUpResult) := by
    intro f
    apply (plain_sync (epoch_readStore _ _)).stays.bind (fun _ => hruns)
    exact fun _ => leads_ret hruns
  unfold classifyPage
  split
  · exact hgaps _
  next htruncated =>
  split
  · exact h (by simpa using htruncated)
  split
  · exact hgaps _
  split
  · exact leads_ret hruns
  · exact leads_fail hruns

theorem leads_catchUpPages (pages : Nat) (firstPage restoreRequired : Bool) :
    Leads (⟨own, epoch, .paging⟩ :: rest) (fun _ => Headed own epoch rest)
      (fun _ => Headed own epoch rest) (catchUpPages cfg pages firstPage restoreRequired) := by
  have hpaging : Headed own epoch rest (⟨own, epoch, .paging⟩ :: rest) := ⟨_, rfl⟩
  induction pages generalizing firstPage restoreRequired with
  | zero => exact leads_fail hpaging
  | succ pages ih =>
    apply plain_strictHeads.stays.bind (fun _ => hpaging)
    intro strictBefore
    apply plain_requestHeads.stays.bind (fun _ => hpaging)
    intro wireHeads
    apply leads_bind
    apply (leads_requestSyncPage ?_ _).mono ?_ fun _ _ h => h.elim
    · rintro r ⟨⟩
      exact nofun
    rintro answer runs hruns
    have hheaded : Headed own epoch rest runs := hruns ▸ headed_pagedRuns _ _ _ _ _
    match answer with
    | none => exact leads_ret hheaded
    | some (thid, response) =>
      apply (plain_computeRestoreDisposition _ _ _ _).stays.bind (fun _ => hheaded)
      intro restoreRequired
      apply (plain_applyPage _ _).stays.bind (fun _ => hheaded)
      intro page
      apply plain_strictHeads.stays.bind (fun _ => hheaded)
      intro strictAfter
      apply (plain_sync (epoch_recordGaps _ _ _)).stays.bind (fun _ => hheaded)
      intro _
      apply plain_requestHeads.stays.bind (fun _ => hheaded)
      intro wireAfter
      apply leads_classifyPage hheaded
      intro htruncated
      have hsame : runs = ⟨own, epoch, .paging⟩ :: rest := by
        rw [hruns]
        exact if_pos htruncated
      rw [hsame]
      exact ih false restoreRequired

theorem leads_catchUpInternal (pages : Nat) :
    Leads (⟨own, epoch, .repairing⟩ :: rest) (fun _ => Headed own epoch rest)
      (fun _ => Headed own epoch rest) (catchUpInternal cfg true pages) := by
  apply leads_bind
  apply (leads_presentCapability _).mono
  · rintro _ _ rfl
    exact leads_catchUpPages pages true false
  · rintro _ _ rfl
    exact ⟨.paging, rfl⟩

end

/-! ## 4. Publication and restore-clone -/

theorem allOver_nil : AllOver [] := by
  intro r hr
  cases hr

theorem presented_allOver (h : AllOver runs) : runs.modifyHead presented = runs := by
  cases runs with
  | nil => rfl
  | cons r rest => simp [presented, h r List.mem_cons_self]

theorem allOver_cons {rest : List CatchUpRun} (h : AllOver rest) (own epoch : Nat) :
    AllOver (⟨own, epoch, .over⟩ :: rest) := by
  intro r hr
  rcases List.mem_cons.mp hr with rfl | hr
  · rfl
  · exact h r hr

theorem leads_endCatchUp {own epoch : Nat} {rest : List CatchUpRun}
    (hruns : Headed own epoch rest runs) (error : Option CoordError) :
    Leads runs (fun _ rs => rs = rest) (fun _ rs => rs = rest)
      (mutate .endCatchUp fun _ c => c.endCatchUp own error) := by
  obtain ⟨stage, rfl⟩ := hruns
  apply leads_atomic
  · intro history i c hruns
    exact ⟨⟨own, epoch, stage⟩, rest, error, hruns, rfl⟩
  · intro s i c _ hruns _
    show s.runs.tail = rest
    rw [hruns]
    rfl
  · rintro s i c e - ⟨⟩

def Promised (start : PublicationStart) (s : LoopState) : Prop :=
  ∀ promise, start = .own promise → ∃ p ∈ s.publications, p.own = promise

/-- A publication, wherever it runs, ends with the runs it found. -/
def Publishes (publish : PublicationStart → CoordProgram Unit) : Prop :=
  ∀ start history, AllOver (loopState history).runs → Promised start (loopState history) →
    Traced (fun _ _ => True) LoopFact (fun h _ => (loopState h).runs = (loopState history).runs)
      (fun h _ => (loopState h).runs = (loopState history).runs) history (publish start)

theorem publications_after (s : LoopState) (v : CoordVisit) :
    s.publications ⊆ (s.after v).publications := by
  have hpublish : s.publications ⊆ (s.publish v).publications := by
    unfold LoopState.publish
    split
    · exact List.subset_cons_self _ _
    · exact List.Subset.refl _
  obtain ⟨t, i, c, c'⟩ := v
  cases t with
  | catchUp | headAbgleich =>
    simp only [after]
    split
    · exact List.Subset.refl _
    · exact List.Subset.refl _
  | syncRequestSent =>
    simp only [after]
    split
    · exact List.Subset.refl _
    split
    · exact List.Subset.refl _
    · exact List.Subset.refl _
  | ensurePublished | onWriteRejected => exact hpublish
  | _ => exact List.Subset.refl _

theorem publications_prefix {history history' : List CoordVisit} (h : history <+: history') :
    (loopState history).publications ⊆ (loopState history').publications := by
  obtain ⟨more, rfl⟩ := h
  induction more generalizing history with
  | nil => simp
  | cons v rest ih =>
    rw [List.append_cons]
    have hone : (loopState history).publications ⊆ (loopState (history ++ [v])).publications := by
      rw [loopState_concat]
      exact publications_after _ v
    exact fun p hp => ih (hone hp)

theorem promised_publish {s : LoopState} {v : CoordVisit} {start : PublicationStart}
    (h : ∀ promise, start = .own promise →
      promise = v.before.promises ∧ v.before.promises < v.after.promises) :
    Promised start (s.publish v) := by
  intro promise hstart
  obtain ⟨rfl, hlt⟩ := h promise hstart
  refine ⟨⟨v.before.promises, v.before.connectionEpoch⟩, ?_, rfl⟩
  simp [LoopState.publish, hlt]

theorem beginPublication_own {c : LogSyncCoordinator} {promise : Nat}
    (h : c.beginPublication.1 = .own promise) :
    promise = c.promises ∧ c.promises < c.beginPublication.2.promises := by
  unfold beginPublication at h ⊢
  split at h
  · cases h
  next hpublished =>
  cases hpublishing : c.publishing with
  | some other => simp [hpublishing] at h
  | none =>
    simp only [hpublishing, PublicationStart.own.injEq] at h
    simp [hpublished, h]

@[simp] theorem runs_publish (s : LoopState) (v : CoordVisit) : (s.publish v).runs = s.runs := by
  unfold LoopState.publish
  split <;> rfl

section

variable {publish : PublicationStart → CoordProgram Unit}

theorem stays_rotate (hpublish : Publishes publish) (hruns : AllOver runs)
    (gate : Nat) (oldDeviceId : DeviceId) : Stays runs (rotate cfg publish gate oldDeviceId) := by
  rintro history rfl
  unfold rotate
  split
  · rfl
  apply traced_bind
  apply traced_atomic
  · intro i c _
    show (_ ∨ _ : Prop)
    split
    · exact .inl ⟨.refl c, rfl⟩
    · exact .inl ⟨.refl c, rfl⟩
    split
    · exact .inl ⟨.refl c, rfl⟩
    · exact .inr ⟨_, rfl⟩
  · intro i c adopted _ hadopted
    have hsame : ∀ c' : LogSyncCoordinator,
        (loopState (history ++ [⟨.onWriteRejected, i, c, c'⟩])).runs =
          (loopState history).runs := by
      intro c'
      rw [loopState_concat]
      exact runs_publish _ _
    rcases adopted with _ | start
    · exact hsame _
    apply traced_bind
    apply (hpublish start _ ?_ ?_).mono
    · intro h _ hh
      rw [hsame] at hh
      have hopen : PlainCode (mutate .openWritePauseGate fun _ c =>
          c.openWritePauseGate gate : CoordProgram Unit) := by
        apply plain_mutate rfl
        intro _ c
        unfold openWritePauseGate
        split
        · exact .refl c
        · exact .of_eq rfl rfl rfl rfl rfl (Nat.le_refl _) rfl
      apply (hopen.stays.seq ?_) h hh
      intro _
      split
      · exact (plain_readCall rfl _).stays
      · exact plain_resendPending.stays
    · intro h e hh
      rw [← hsame]
      exact hh
    · rw [hsame]
      exact hruns
    · -- only an adopted device id makes it here
      rw [loopState_concat]
      apply promised_publish
      intro promise hown
      dsimp only at hadopted ⊢
      split at hadopted
      · cases hadopted
      · cases hadopted
      next newDeviceId hfailure hnew =>
      split at hadopted
      · cases hadopted
      next hchanged =>
      cases hadopted
      rw [if_neg hchanged]
      exact beginPublication_own hown
  · intro i c e _ _
    rw [loopState_concat]
    exact runs_publish _ _

section

variable {own epoch : Nat} {rest runs : List CatchUpRun}

section

variable (hpublish : Publishes publish)
include hpublish

theorem leads_restoreClone (hrest : AllOver rest) (hruns : Headed own epoch rest runs) :
    Leads runs (fun _ => Headed own epoch rest) (fun _ => Headed own epoch rest)
      (restoreClone cfg publish) := by
  obtain ⟨stage, rfl⟩ := hruns
  have hover : Headed own epoch rest (⟨own, epoch, .over⟩ :: rest) := ⟨_, rfl⟩
  apply leads_bind
  apply leads_atomic
  · intro history i c _
    show GuardKept c c.beginRestoreClone.2
    unfold beginRestoreClone
    split
    · exact .refl c
    · exact .of_eq rfl rfl rfl rfl rfl (Nat.le_refl _) rfl
  · intro s i c begun hs _
    have hafter : (s.onHead .finished).runs = ⟨own, epoch, .over⟩ :: rest := by
      show s.runs.modifyHead _ = _
      rw [hs]
      rfl
    show Leads (s.onHead .finished).runs _ _ _
    rw [hafter]
    rcases begun with _ | b
    · exact leads_ret hover
    obtain ⟨gate, oldDeviceId⟩ := b
    have hend : PlainCode (mutate .endRestoreClone fun _ c =>
        c.endRestoreClone gate : CoordProgram Unit) := by
      apply plain_mutate rfl
      intro _ c
      unfold endRestoreClone openWritePauseGate
      split
      · exact .of_eq rfl rfl rfl rfl rfl (Nat.le_refl _) rfl
      · exact .of_eq rfl rfl rfl rfl rfl (Nat.le_refl _) rfl
    apply Stays.headed ?_ hover
    apply (stays_rotate hpublish (allOver_cons hrest own epoch) gate oldDeviceId).finallyDo
    exact fun _ => hend.stays
  · rintro s i c e - ⟨⟩

theorem leads_actOnRestoreDisposition (hrest : AllOver rest)
    (hruns : Headed own epoch rest runs) (result : CatchUpResult) :
    Leads runs (fun _ => Headed own epoch rest) (fun _ => Headed own epoch rest)
      (actOnRestoreDisposition cfg publish result) := by
  unfold actOnRestoreDisposition
  split
  · exact leads_restoreClone hpublish hrest hruns
  · exact leads_ret hruns

theorem leads_publicationCatchUp (hrest : AllOver rest) (pages : Nat) :
    Leads (⟨own, epoch, .paging⟩ :: rest) (fun _ rs => rs = rest) (fun _ rs => rs = rest)
      (publicationCatchUp cfg pages publish own) := by
  have hwork : Leads (⟨own, epoch, .paging⟩ :: rest) (fun _ => Headed own epoch rest)
      (fun _ => Headed own epoch rest) (do
        let result ← catchUpInternal cfg false pages
        actOnRestoreDisposition cfg publish result : CoordProgram Unit) := by
    apply leads_bind
    apply (leads_catchUpPages pages true false).mono
    · exact fun result _ hruns => leads_actOnRestoreDisposition hpublish hrest hruns result
    · exact fun _ _ h => h
  apply leads_finallyDo
  apply hwork.mono
  · exact fun _ _ hruns => leads_endCatchUp hruns none
  · exact fun e _ hruns => leads_endCatchUp hruns (some e)

theorem stays_runFirstPublication (hruns : AllOver runs)
    (pages : Nat) : Stays runs (runFirstPublication cfg pages publish) := by
  apply plain_spaceRegister.stays.seq
  intro _
  apply (stays_presentCapability (presented_allOver hruns)).seq
  intro _
  apply leads_bind
  apply leads_atomic
  · rintro history i c rfl
    exact ⟨hruns, rfl⟩
  · rintro s i c abgleich rfl habgleich
    have hbegin : c.beginHeadAbgleich.1 = abgleich := by
      injection habgleich
    simp only [after, hbegin]
    cases abgleich with
    | restoring => exact leads_ret rfl
    | joined promise => exact (plain_awaitPromise rfl promise).stays
    | own promise => exact leads_publicationCatchUp hpublish hruns pages
  · rintro s i c e - ⟨⟩

end

end

end

section

variable (pages : Nat)

theorem publishes (depth : Nat) : Publishes (publish cfg pages depth) := by
  induction depth with
  | zero => exact fun start history hover hpromised => rfl
  | succ depth ih =>
    intro start history hover hpromised
    cases start with
    | published => rfl
    | joined promise => exact (plain_awaitPromise rfl promise).stays history rfl
    | own promise =>
      obtain ⟨p, hp, rfl⟩ := hpromised promise rfl
      have hend : ∀ h error, history <+: h →
          (loopState h).runs = (loopState history).runs → Traced (fun _ _ => True) LoopFact
              (fun h' _ => (loopState h').runs = (loopState history).runs)
              (fun h' _ => (loopState h').runs = (loopState history).runs) h
              (mutate .endPublication fun _ c => c.endPublication p.own error :
                CoordProgram Unit) := by
        intro h error hprefix hruns
        apply traced_atomic
        · intro i c _
          exact ⟨p, publications_prefix hprefix hp, error, rfl⟩
        · intro i c _ _ _
          rw [loopState_concat]
          exact hruns
        · rintro i c e - ⟨⟩
      apply traced_finallyDo
      apply (stays_runFirstPublication ih hover pages history rfl).extends.mono
      · exact fun h _ hh => hend h none hh.1 hh.2
      · exact fun h e hh => hend h (some e) hh.1 hh.2

variable (depth : Nat) {runs : List CatchUpRun}

theorem stays_ensurePublished (hruns : AllOver runs) :
    Stays runs (ensurePublished cfg pages depth) := by
  rintro history rfl
  apply traced_bind
  apply traced_atomic
  · exact fun i c _ => rfl
  · rintro i c start - ⟨⟩
    have hsame (c' : LogSyncCoordinator) :
        (loopState (history ++ [⟨.ensurePublished, i, c, c'⟩])).runs =
          (loopState history).runs := by
      rw [loopState_concat]
      exact runs_publish _ _
    apply (publishes pages depth _ _ ?_ ?_).mono
    · exact fun h _ hh => hh.trans (hsame _)
    · exact fun h _ hh => hh.trans (hsame _)
    · rw [hsame]
      exact hruns
    · rw [loopState_concat]
      apply promised_publish
      exact fun promise hown => beginPublication_own hown
  · rintro i c e - ⟨⟩

/-- The repairs come first, then the pages behind a capability, then the restore-clone. -/
theorem leads_catchUpWork {own epoch : Nat} {rest : List CatchUpRun} (hrest : AllOver rest) :
    Leads (⟨own, epoch, .repairing⟩ :: rest) (fun _ => Headed own epoch rest)
      (fun _ => Headed own epoch rest) (catchUpWork cfg pages depth) := by
  have hrepairing : Repairing (⟨own, epoch, .repairing⟩ :: rest) := by
    rintro r ⟨⟩
    rfl
  apply Stays.bind ?_ (fun _ => ⟨_, rfl⟩)
  · intro _
    apply leads_bind
    apply leads_tryCatch
    apply leads_bind
    apply (leads_catchUpInternal pages).mono
    · intro result rs hrs
      apply leads_ret
      apply leads_bind
      apply (leads_actOnRestoreDisposition (publishes pages depth) hrest hrs result).mono
      · exact fun _ _ h => leads_ret h
      · exact fun _ _ h => h
    · intro err rs hrs
      split
      · exact leads_ret (leads_ret hrs)
      · exact leads_fail hrs
  · apply (stays_driveGapRepairs hrepairing).tryCatch
    exact fun _ => leads_ret rfl

theorem stays_catchUp (hruns : AllOver runs) : Stays runs (catchUp cfg pages depth) := by
  apply leads_bind
  apply leads_atomic
  · rintro history i c rfl
    exact ⟨hruns, rfl⟩
  · rintro s i c begun rfl hbegun
    have hbegin : c.beginCatchUp.1 = begun := by
      injection hbegun
    simp only [after, hbegin]
    rcases begun with _ | own
    · exact leads_ret rfl
    apply leads_finallyDo
    apply (leads_catchUpWork pages depth hruns).mono
    · exact fun _ _ hrs => leads_endCatchUp hrs none
    · exact fun e _ hrs => leads_endCatchUp hrs (some e)
  · rintro s i c e - ⟨⟩

/-! ## 5. Every call -/

theorem plain_appendLocalEntry (write : LogWrite) (deviceId : DeviceId) :
    PlainCode (adapt docLogPart CoordInput.env .docLog (.localAppendFailed cfg.docId deviceId)
      (appendLocalEntry cfg.kind (write.params cfg.sha256)) : CoordProgram LocalLogEntry) :=
  steps_adapt (steps_true _) (fun _ _ => rfl) fun _ _ _ _ _ =>
    .of_eq rfl rfl rfl rfl rfl (Nat.le_refl _) rfl

theorem stays_writeLocalUpdate (update : Bytes) :
    Stays [] (writeLocalUpdate cfg pages depth update) := by
  apply (plain_readCall rfl _).stays.seq
  intro contentKey
  rcases contentKey with _ | content
  · exact leads_ret rfl
  apply (stays_ensurePublished pages depth allOver_nil).seq
  intro _
  apply (plain_query rfl _).stays.seq
  intro deviceId
  apply (plain_appendLocalEntry _ deviceId).stays.seq
  intro entry
  apply (plain_sendLogEntryEnvelope _ _ _ _).stays.seq
  exact fun _ => leads_ret rfl

theorem stays_deviceReRegister : Stays [] (deviceReRegister cfg) := by
  unfold deviceReRegister
  split
  · exact leads_ret rfl
  apply seq
  · apply leads_atomic
    · intro history i c _
      left
      unfold CoordInput.call
      cases i.failure with
      | some failure => exact ⟨.refl c, rfl⟩
      | none =>
        dsimp only
        split
        · split
          · exact ⟨.refl c, rfl⟩
          · exact ⟨.of_eq rfl rfl rfl rfl rfl (Nat.le_refl _) rfl, rfl⟩
        · exact ⟨.refl c, rfl⟩
    · exact fun s i c a hs _ => (runs_publish s _).trans hs
    · exact fun s i c e hs _ => (runs_publish s _).trans hs
  · exact fun _ => plain_resendPending.stays

theorem stays_performReemit (deviceId : DeviceId) (seq rejectedGeneration : Nat)
    (retainedEncoded : Option Bytes) :
    Stays [] (performReemit cfg pages depth deviceId seq rejectedGeneration retainedEncoded) := by
  apply (plain_reemitPlaintext _ _ _ _).stays.seq
  intro plaintext
  rcases plaintext with _ | plaintext
  · exact leads_ret rfl
  apply (stays_writeLocalUpdate pages depth plaintext).seq
  intro reemitted
  cases reemitted with
  | none => exact leads_ret rfl
  | some _ =>
    apply (plain_storeCall rfl _).stays.seq
    exact fun _ => leads_ret rfl

theorem stays_guardReemit (deviceId : DeviceId) (seq : Nat) {p : CoordProgram Bool}
    (hp : Stays [] p) : Stays [] (guardReemit deviceId seq p) := by
  apply Stays.seq
  · apply stays
    apply plain_atomic rfl
    intro i c
    split
    · exact .refl c
    · exact .of_eq rfl rfl rfl rfl rfl (Nat.le_refl _) rfl
  · intro running
    split
    · exact leads_ret rfl
    apply hp.finallyDo
    intro _
    apply stays
    exact plain_mutate rfl fun _ c => .of_eq rfl rfl rfl rfl rfl (Nat.le_refl _) rfl

theorem stays_pendingReemits (f : LogSyncCoordinator → KeyedTable ParkedReemit.key) :
    Stays [] (mutate .pendingReemits fun _ c => { c with pendingReemits := f c } :
      CoordProgram Unit) := by
  apply stays
  exact plain_mutate rfl fun _ c => .of_eq rfl rfl rfl rfl rfl (Nat.le_refl _) rfl

theorem stays_catchUpGenerationAndReemit (deviceId : DeviceId) (seq : Nat)
    (retainedEncoded : Option Bytes) :
    Stays [] (catchUpGenerationAndReemit cfg pages depth deviceId seq retainedEncoded) := by
  apply stays_guardReemit
  apply (plain_readCall rfl _).stays.seq
  intro generation
  rcases generation with _ | rejectedGeneration
  · exact leads_ret rfl
  apply (plain_awaitGenerationAdvance rejectedGeneration).stays.seq
  intro advanced
  split
  · exact stays_performReemit pages depth _ _ _ _
  · apply (stays_pendingReemits _).seq
    exact fun _ => leads_ret rfl

theorem stays_replayReemit (fired : Nat) (parked : ParkedReemit) :
    Stays [] (replayReemit cfg pages depth fired parked) := by
  refine seq ?_ fun _ => leads_ret rfl
  apply stays_guardReemit
  apply (plain_readCall rfl _).stays.seq
  intro generation
  rcases generation with _ | rejectedGeneration
  · apply (stays_pendingReemits _).seq
    exact fun _ => leads_ret rfl
  apply (plain_awaitGenerationAdvance rejectedGeneration).stays.seq
  intro advanced
  split
  · apply (stays_performReemit pages depth _ _ _ _).seq
    intro ok
    split
    · apply (stays_pendingReemits _).seq
      exact fun _ => leads_ret rfl
    · exact leads_ret rfl
  · exact leads_ret rfl

theorem stays_replayPendingReemits : Stays [] (replayPendingReemits cfg pages depth) := by
  apply (plain_query rfl _).stays.seq
  intro parked
  have hloop : ∀ fired, Stays [] (foldEach (replayReemit cfg pages depth) fired parked) := by
    induction parked with
    | nil => exact fun _ => leads_ret rfl
    | cons x rest ih =>
      intro fired
      exact (stays_replayReemit pages depth fired x).seq ih
  exact hloop 0

theorem stays_handleWriteReject (code : BrokerErrorCode) (rejected : InFlightWrite) :
    Stays [] (handleWriteReject cfg pages depth code rejected) := by
  unfold handleWriteReject
  split
  · apply seq
    · apply Stays.tryCatch
      · exact (plain_storeCall rfl _).stays
      · exact fun _ => leads_ret rfl
    · exact fun _ => leads_fail rfl
  · apply (plain_query rfl _).stays.seq
    intro deviceId
    split
    · exact leads_fail rfl
    split
    · exact leads_ret rfl
    · exact leads_fail rfl
  · exact stays_deviceReRegister
  · apply (stays_presentCapability (presented_allOver allOver_nil)).seq
    exact fun _ => plain_resendPending.stays
  · apply (stays_catchUpGenerationAndReemit pages depth _ _ _).seq
    exact fun _ => leads_ret rfl
  · exact leads_ret rfl

theorem stays_onWritePathErrorFrame (code : BrokerErrorCode) (thid : String) :
    Stays [] (onWritePathErrorFrame cfg pages depth code thid) := by
  apply seq
  · apply stays
    apply plain_atomic rfl
    intro i c
    unfold correlate
    split
    · exact .refl c
    · exact .of_eq rfl rfl rfl rfl rfl (Nat.le_refl _) rfl
  · intro correlated
    cases correlated with
    | none => exact leads_ret rfl
    | some rejected => exact stays_handleWriteReject pages depth code rejected

theorem stays_effect {α : Type} {p : CoordProgram α} (h : Stays runs p) : Stays runs (effect p) :=
  h.seq fun _ => leads_ret rfl

theorem stays_outside {t : CoordPoint} (ht : t.plain = true)
    {f : LogSyncCoordinator → LogSyncCoordinator} (hf : ∀ c, GuardKept c (f c)) :
    Stays [] (effect (mutate t fun _ c => f c)) :=
  stays_effect (stays (plain_mutate ht fun _ c => hf c))

theorem stays_program (call : CoordCall) : Stays [] (call.program cfg pages depth) := by
  cases call with
  | writeLocalUpdate update =>
    exact (stays_writeLocalUpdate pages depth update).seq fun _ => leads_ret rfl
  | resendPending => exact stays_effect plain_resendPending.stays
  | catchUp => exact (stays_catchUp pages depth allOver_nil).seq fun _ => leads_ret rfl
  | ensurePublished => exact stays_effect (stays_ensurePublished pages depth allOver_nil)
  | driveGapRepairs => exact stays_effect (stays_driveGapRepairs repairing_nil)
  | replayPendingReemits =>
    exact (stays_replayPendingReemits pages depth).seq fun _ => leads_ret rfl
  | rePresentCapability =>
    exact stays_effect (stays_presentCapability (presented_allOver allOver_nil))
  | sendSpaceRotate => exact stays_effect (plain_enqueueControlFrame _).stays
  | handleIncomingError code thid =>
    exact stays_effect (stays_onWritePathErrorFrame pages depth code thid)
  | settleAck => exact stays_effect plain_settleAck.stays
  | resetForReconnect =>
    apply stays_effect
    apply leads_atomic
    · exact fun history i c _ => rfl
    · exact fun s i c _ hs _ => hs
    · rintro s i c e - ⟨⟩
  | connected | persistDeviceId deviceId =>
    exact stays_outside rfl fun c => .of_eq rfl rfl rfl rfl rfl (Nat.le_refl _) rfl
  | importContentKey content =>
    apply stays_outside rfl
    intro c
    unfold LogSyncCoordinator.importContentKey
    split
    · exact .of_eq rfl rfl rfl rfl rfl (Nat.le_refl _) rfl
    · exact .refl c
  | otherLogEntry docId =>
    exact stays_outside rfl fun c => guardKept_note c _

end

end LogSyncCoordinator

end WebOfTrust
