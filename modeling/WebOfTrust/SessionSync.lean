/-
  **The take-over of received messages** (`adapters/rltp/session.ts`: `queue`, `sync`,
  `syncOnce`, `publishFromDb`).

  The library holds the inbox, the app its history; a sync run reads the library between two
  reads of its commit sequence, writes that into the history, publishes a bundle, and only
  then has the library drop the entries.  Commits may land between any two reads, and the
  process may die between any two steps (`takeOver_lossless`).

  `arrived` and `history` are history.
-/
import WebOfTrust.Ingest
import WebOfTrust.Machine

namespace WebOfTrust

open KeyedTable List

/-! ## 1. The library -/

structure HolderState where
  commitSeq : Nat
  contacts : List ContactView
  prompts : List PromptView
  profile : String
  inbox : List InboxMessageView
  delivery : String → List DeliveryItemView

structure LibraryViews where
  commitSeq : Nat
  contacts : List ContactView
  prompts : List PromptView
  profile : String

def HolderState.views (h : HolderState) : LibraryViews :=
  ⟨h.commitSeq, h.contacts, h.prompts, h.profile⟩

/-- `takeMessages`: a commit that removes the named entries. -/
def HolderState.takeMessages (h : HolderState) (ids : List String) : HolderState :=
  { h with
    commitSeq := h.commitSeq + 1
    inbox := h.inbox.filter fun m => !ids.contains m.id }

/-- Any other commit: the sequence goes on, the inbox keeps its messages, and what is new in
    it has an id of its own; the contact of an entry may depart. -/
def HolderState.commits (h next : HolderState) (arrived : List InboxMessage) : Bool :=
  decide (h.commitSeq < next.commitSeq) &&
    decide ((next.inbox.take h.inbox.length).map (·.toInboxMessage) =
      h.inbox.map (·.toInboxMessage)) &&
    decide (((next.inbox.drop h.inbox.length).map (·.id)).Nodup) &&
    (next.inbox.drop h.inbox.length).all fun m => arrived.all fun m' => decide (m'.id ≠ m.id)

/-! ## 2. The app-db -/

structure OrderKey where
  time : Nat
  rank : Nat
  tie : String

structure ReadMark where
  contactId : ContactId
  mark : OrderKey

def LogLine.contactId : LogLine → ContactId
  | .system contactId _ _ _ _ => contactId
  | .decision _ contactId _ _ => contactId
  | .message line => line.contactId

section

-- The text of an id.
variable (text : LineId → String)

def orderKey : LogLine → OrderKey
  | .system contactId commitSeq kind time _ => ⟨time, 0, text (.system contactId commitSeq kind)⟩
  | .decision promptId _ time _ => ⟨time, 1, text (.decision promptId)⟩
  | .message line => ⟨line.at_, 2, line.mid.getD (text line.id)⟩

end

/-- `compareOrder` is negative. -/
def OrderKey.before (a b : OrderKey) : Bool :=
  if a.time ≠ b.time then decide (a.time < b.time)
  else if a.rank ≠ b.rank then decide (a.rank < b.rank)
  else decide (a.tie < b.tie)

structure AppDb where
  log : LogStore
  encounters : EncounterCache
  ledger : Ledger
  applied : Nat
  reads : KeyedTable ReadMark.contactId

def AppDb.empty : AppDb := ⟨.empty, .empty, .empty, 0, .empty⟩

def LogLine.pendingOut : LogLine → Option MessageLine
  | .message line =>
    if line.dir = .outgoing ∧ line.digest.isSome ∧ statusFinal line.status = false then some line
    else none
  | _ => none

/-! ## 3. Openings -/

/-- What was read of the library so far, between the two reads of the commit sequence. -/
structure FenceReads where
  contacts : Option (List ContactView)
  prompts : Option (List PromptView)
  inbox : Option (List InboxMessageView)
  statuses : Option (List StatusView)

def FenceReads.none : FenceReads := ⟨.none, .none, .none, .none⟩

structure Fenced where
  views : LibraryViews
  inbox : List InboxMessageView
  statuses : List StatusView
  events : List HolderEvent

inductive SyncStage where
  | quiet
  | attempt (n : Nat)
  | profileBefore (n : Nat) (pendingOut : List MessageLine)
  | reading (n : Nat) (a : Nat) (pendingOut : List MessageLine) (reads : FenceReads)
  | profileAfter (n : Nat) (a : Nat) (contacts : List ContactView) (prompts : List PromptView)
      (inbox : List InboxMessageView) (statuses : List StatusView)
  | quietAgain (n : Nat)
  | encounters (f : Fenced)
  | ledger (f : Fenced) (encounters : EncounterCache)
  | write (f : Fenced) (out : IngestOutput)
  | publish (take : List String)
  | takeMessages (ids : List String)

inductive SessionJob where
  | sync (stage : SyncStage)
  | markRead (contactId : ContactId) (upTo : LineId)

structure SessionOpening where
  stopped : Bool
  /-- The fault of the tests: the process dies before the take. -/
  killBeforeTake : Bool
  pending : List HolderEvent
  seen : List String
  lastViews : Option LibraryViews
  appSeq : Nat
  /-- A sync is queued that has not started. -/
  nextSync : Bool
  /-- The serial queue; its head runs. -/
  jobs : List SessionJob

/-- What `project` is given for a bundle. -/
structure ProjectionInput where
  views : LibraryViews
  appSeq : Nat
  log : LogStore
  encounters : EncounterCache
  ledger : Ledger
  reads : KeyedTable ReadMark.contactId

structure SessionWorld where
  holder : HolderState
  app : AppDb
  published : List ProjectionInput
  arrived : List InboxMessage
  /-- Every state the library was in. -/
  history : List HolderState

structure SessionSystem extends SessionWorld where
  openings : List SessionOpening

namespace SessionOpening

def fresh (killBeforeTake : Bool) : SessionOpening where
  stopped := false
  killBeforeTake := killBeforeTake
  pending := []
  seen := []
  lastViews := none
  appSeq := 0
  nextSync := false
  jobs := [.sync (.attempt 0)]

/-- `sync`: every caller joins the run that has not started. -/
def sync (o : SessionOpening) : SessionOpening :=
  if o.nextSync then o else { o with nextSync := true, jobs := o.jobs ++ [.sync .quiet] }

def notified (o : SessionOpening) (events : List HolderEvent) : SessionOpening :=
  if o.stopped then o
  else
    let new := events.filter fun e => !o.seen.contains e.eventId
    SessionOpening.sync { o with
      pending := o.pending ++ new
      seen := o.seen ++ new.map HolderEvent.eventId }

end SessionOpening

/-! ## 4. A step of the run at the head -/

inductive FenceRead where
  | contacts
  | prompts
  | inbox
  | statuses

def FenceReads.take (reads : FenceReads) (h : HolderState) (pendingOut : List MessageLine) :
    FenceRead → FenceReads
  | .contacts => { reads with contacts := some h.contacts }
  | .prompts => { reads with prompts := some h.prompts }
  | .inbox => { reads with inbox := some h.inbox }
  | .statuses => { reads with
      statuses := some (pendingOut.map fun line => ⟨line, h.delivery (line.digest.getD "")⟩) }

def FenceReads.stage (reads : FenceReads) (n a : Nat) (pendingOut : List MessageLine) : SyncStage :=
  match reads.contacts, reads.prompts, reads.inbox, reads.statuses with
  | some contacts, some prompts, some inbox, some statuses =>
    .profileAfter n a contacts prompts inbox statuses
  | _, _, _, _ => .reading n a pendingOut reads

/-- `markRead`: the mark only goes on, and a new one is published. -/
def SessionWorld.markRead (text : LineId → String) (w : SessionWorld) (contactId : ContactId)
    (upTo : LineId) : Option SessionWorld :=
  match w.app.log.get? upTo with
  | none => none
  | some line =>
    if line.contactId ≠ contactId then none
    else
      let mark := orderKey text line
      let marked := { w with app := { w.app with reads := w.app.reads.put ⟨contactId, mark⟩ } }
      match w.app.reads.get? contactId with
      | none => some marked
      | some cur => if cur.mark.before mark then some marked else none

/-! ## 5. Steps -/

def SessionSystem.notify (s : SessionSystem) (events : List HolderEvent) : SessionSystem :=
  { s with openings := s.openings.map (·.notified events) }

def SessionOpening.setHead (o : SessionOpening) (stage : Option SyncStage) : SessionOpening :=
  match stage with
  | some stage => { o with jobs := .sync stage :: o.jobs.tail }
  | none => { o with jobs := o.jobs.tail }

open SessionSystem

def SessionSystem.fresh (holder : HolderState) : SessionSystem where
  holder := { holder with inbox := [] }
  app := .empty
  published := []
  arrived := []
  history := [{ holder with inbox := [] }]
  openings := []

/-! ## 6. What a run relies on -/

/-- The line of a message, whatever its contact was when it was written. -/
def LineOf (m : InboxMessage) (line : LogLine) : Prop :=
  ∃ contactId, line = .message (receivedLine { toInboxMessage := m, contactId })

/-- What holds of library and app between any two steps. -/
structure TakeOverInv (w : SessionWorld) : Prop where
  ids : ∀ m ∈ w.arrived, ∀ m' ∈ w.arrived, m.id = m'.id → m = m'
  inbox : ∀ v ∈ w.holder.inbox, v.toInboxMessage ∈ w.arrived
  lines : ∀ id line, w.app.log.get? (.received id) = some line →
    ∃ m ∈ w.arrived, m.id = id ∧ LineOf m line
  kept : ∀ m ∈ w.arrived, (∃ v ∈ w.holder.inbox, v.toInboxMessage = m) ∨
    w.app.log.has (.received m.id) = true
  current : w.holder ∈ w.history
  published : ∀ b ∈ w.published, ∃ h ∈ w.history, b.views = h.views

structure WorldGrows (w w' : SessionWorld) : Prop where
  arrived : ∀ m ∈ w.arrived, m ∈ w'.arrived
  history : ∀ h ∈ w.history, h ∈ w'.history
  log : ∀ id, w.app.log.has id = true → w'.app.log.has id = true
  holder : w'.holder = w.holder ∨ w.holder.commitSeq < w'.holder.commitSeq

def OwnLines (lines : List MessageLine) : Prop := ∀ line ∈ lines, ∀ id, line.id ≠ .received id

def OwnStatuses (statuses : List StatusView) : Prop :=
  ∀ v ∈ statuses, ∀ id, v.line.id ≠ .received id

section

variable (w : SessionWorld)

def Arrived (inbox : List InboxMessageView) : Prop :=
  ∀ v ∈ inbox, v.toInboxMessage ∈ w.arrived

/-- As long as no commit has landed, what was read is what the library has. -/
def ReadAt (a : Nat) {α : Type} (read : Option α) (now : α) : Prop :=
  w.holder.commitSeq = a → ∀ x ∈ read, x = now

def LinesStored (ids : List String) : Prop :=
  ∀ id ∈ ids, w.app.log.has (.received id) = true

def OfOneCommit (views : LibraryViews) : Prop :=
  ∃ h ∈ w.history, views = h.views

def StageSound : SyncStage → Prop
  | .profileBefore _ pendingOut => OwnLines pendingOut
  | .reading _ a pendingOut reads =>
    OwnLines pendingOut ∧ a ≤ w.holder.commitSeq ∧
      ReadAt w a reads.contacts w.holder.contacts ∧ ReadAt w a reads.prompts w.holder.prompts ∧
      (∀ inbox ∈ reads.inbox, Arrived w inbox) ∧ ∀ statuses ∈ reads.statuses, OwnStatuses statuses
  | .profileAfter _ a contacts prompts inbox statuses =>
    a ≤ w.holder.commitSeq ∧
      (w.holder.commitSeq = a → contacts = w.holder.contacts ∧ prompts = w.holder.prompts) ∧
      Arrived w inbox ∧ OwnStatuses statuses
  | .encounters f => OfOneCommit w f.views ∧ Arrived w f.inbox ∧ OwnStatuses f.statuses
  | .ledger f _ => OfOneCommit w f.views ∧ Arrived w f.inbox ∧ OwnStatuses f.statuses
  | .write f out =>
    OfOneCommit w f.views ∧ (∀ line ∈ out.lines, ∀ id, line.id = .received id →
        ∃ m ∈ w.arrived, m.id = id ∧ LineOf m line) ∧
      ∀ id ∈ out.take, ∃ line ∈ out.lines, line.id = .received id
  | .publish take => LinesStored w take
  | .takeMessages ids => LinesStored w ids
  | _ => True

def OpeningSound (o : SessionOpening) : Prop :=
  (∀ stage, .sync stage ∈ o.jobs → StageSound w stage) ∧ ∀ views ∈ o.lastViews, OfOneCommit w views

end

structure SessionInv (s : SessionSystem) : Prop where
  world : TakeOverInv s.toSessionWorld
  openings : ∀ o ∈ s.openings, OpeningSound s.toSessionWorld o

variable {cfg : IngestConfig} {text : LineId → String} {w w' w'' : SessionWorld}
  {s s' : SessionSystem} {o o' : SessionOpening} {stage : SyncStage} {next : Option SyncStage}

/-! ## 7. Growing worlds -/

theorem WorldGrows.refl (w : SessionWorld) : WorldGrows w w :=
  ⟨fun _ h => h, fun _ h => h, fun _ h => h, .inl rfl⟩

open HolderState

theorem WorldGrows.commitSeq_le (h : WorldGrows w w') :
    w.holder.commitSeq ≤ w'.holder.commitSeq := by
  rcases h.holder with heq | hlt
  · exact Nat.le_of_eq (congrArg commitSeq heq.symm)
  · exact Nat.le_of_lt hlt

theorem WorldGrows.holder_eq {a : Nat} (h : WorldGrows w w') (ha : a ≤ w.holder.commitSeq)
    (hsame : w'.holder.commitSeq = a) : w'.holder = w.holder ∧ w.holder.commitSeq = a := by
  rcases h.holder with heq | hlt
  · exact ⟨heq, heq ▸ hsame⟩
  · omega

theorem ReadAt.grow {a : Nat} {α : Type} {read : Option α} {f : HolderState → α}
    (hread : ReadAt w a read (f w.holder)) (ha : a ≤ w.holder.commitSeq) (h : WorldGrows w w') :
    ReadAt w' a read (f w'.holder) := by
  intro hsame x hx
  obtain ⟨hholder, hat⟩ := h.holder_eq ha hsame
  rw [hholder]
  exact hread hat x hx

theorem Arrived.grow {inbox : List InboxMessageView} (h : Arrived w inbox)
    (hg : WorldGrows w w') : Arrived w' inbox :=
  fun v hv => hg.arrived _ (h v hv)

theorem LinesStored.grow {ids : List String} (h : LinesStored w ids) (hg : WorldGrows w w') :
    LinesStored w' ids :=
  fun id hid => hg.log _ (h id hid)

theorem OfOneCommit.grow {views : LibraryViews} (h : OfOneCommit w views)
    (hg : WorldGrows w w') : OfOneCommit w' views := by
  obtain ⟨h, hmem, hviews⟩ := h
  exact ⟨h, hg.history h hmem, hviews⟩

theorem StageSound.grow (h : StageSound w stage) (hg : WorldGrows w w') : StageSound w' stage := by
  cases stage with
  | reading n a pendingOut reads =>
    obtain ⟨hown, ha, hcontacts, hprompts, hinbox, hstatuses⟩ := h
    exact ⟨hown, Nat.le_trans ha hg.commitSeq_le, ReadAt.grow (f := (·.contacts)) hcontacts ha hg,
      ReadAt.grow (f := (·.prompts)) hprompts ha hg,
      fun inbox hi => (hinbox inbox hi).grow hg, hstatuses⟩
  | profileAfter n a contacts prompts inbox statuses =>
    obtain ⟨ha, hviews, hinbox, hstatuses⟩ := h
    refine ⟨Nat.le_trans ha hg.commitSeq_le, fun hsame => ?_, hinbox.grow hg, hstatuses⟩
    obtain ⟨hholder, hat⟩ := hg.holder_eq ha hsame
    rw [hholder]
    exact hviews hat
  | encounters f | ledger f encounters => exact ⟨h.1.grow hg, h.2.1.grow hg, h.2.2⟩
  | write f out =>
    obtain ⟨hviews, hlines, htake⟩ := h
    refine ⟨hviews.grow hg, fun line hline id hid => ?_, htake⟩
    obtain ⟨m, hm, hrest⟩ := hlines line hline id hid
    exact ⟨m, hg.arrived m hm, hrest⟩
  | publish take | takeMessages ids => exact LinesStored.grow h hg
  | profileBefore n pendingOut => exact h
  | quiet | attempt n | quietAgain n => trivial

theorem OpeningSound.grow (h : OpeningSound w o) (hg : WorldGrows w w') : OpeningSound w' o :=
  ⟨fun stage hstage => (h.1 stage hstage).grow hg, fun views hviews => (h.2 views hviews).grow hg⟩

/-! ## 8. Commits -/

theorem TakeOverInv.takeMessages (h : TakeOverInv w) {ids : List String}
    (hids : LinesStored w ids) :
    let holder := w.holder.takeMessages ids
    TakeOverInv { w with holder, history := w.history ++ [holder] } where
  ids := h.ids
  inbox v hv := h.inbox v (mem_filter.mp hv).1
  lines := h.lines
  kept m hm := by
    rcases h.kept m hm with ⟨v, hv, rfl⟩ | hline
    · by_cases hid : v.id ∈ ids
      · exact .inr (hids v.id hid)
      · exact .inl ⟨v, mem_filter.mpr ⟨hv, by simpa using hid⟩, rfl⟩
    · exact .inr hline
  current := mem_append_right _ (mem_singleton.mpr rfl)
  published b hb := by
    obtain ⟨old, hold, hviews⟩ := h.published b hb
    exact ⟨old, mem_append_left _ hold, hviews⟩

def SessionWorld.commit (w : SessionWorld) (next : HolderState) : SessionWorld :=
  { w with
    holder := next
    history := w.history ++ [next]
    arrived := w.arrived ++ (next.inbox.drop w.holder.inbox.length).map (·.toInboxMessage) }

theorem inbox_of_commits {next : HolderState} {arrived : List InboxMessage}
    (h : w.holder.commits next arrived = true) :
    next.inbox.map (·.toInboxMessage) = w.holder.inbox.map (·.toInboxMessage) ++
      (next.inbox.drop w.holder.inbox.length).map (·.toInboxMessage) := by
  simp only [HolderState.commits, Bool.and_eq_true, decide_eq_true_eq] at h
  rw [← h.1.1.2, ← map_append, take_append_drop]

theorem TakeOverInv.commit (h : TakeOverInv w) {next : HolderState}
    (hc : w.holder.commits next w.arrived = true) : TakeOverInv (w.commit next) := by
  have hinbox := inbox_of_commits hc
  simp only [HolderState.commits, Bool.and_eq_true, decide_eq_true_eq, all_eq_true] at hc
  obtain ⟨⟨⟨-, -⟩, hnodup⟩, hfresh⟩ := hc
  constructor
  case ids =>
    intro m hm m' hm' hid
    rcases mem_append.mp hm with hold | hnew
    · rcases mem_append.mp hm' with hold' | hnew'
      · exact h.ids m hold m' hold' hid
      · obtain ⟨v', hv', rfl⟩ := mem_map.mp hnew'
        exact absurd hid (hfresh v' hv' m hold)
    obtain ⟨v, hv, rfl⟩ := mem_map.mp hnew
    rcases mem_append.mp hm' with hold' | hnew'
    · exact absurd hid.symm (hfresh v hv m' hold')
    · obtain ⟨v', hv', rfl⟩ := mem_map.mp hnew'
      rw [inj_on_of_nodup_map hnodup hv hv' hid]
  case inbox =>
    intro v hv
    have hmem : v.toInboxMessage ∈ next.inbox.map (·.toInboxMessage) := mem_map_of_mem hv
    rw [hinbox] at hmem
    rcases mem_append.mp hmem with hold | hnew
    · obtain ⟨v₀, hv₀, heq⟩ := mem_map.mp hold
      exact mem_append_left _ (heq ▸ h.inbox v₀ hv₀)
    · exact mem_append_right _ hnew
  case lines =>
    intro id line hline
    obtain ⟨m, hm, hrest⟩ := h.lines id line hline
    exact ⟨m, mem_append_left _ hm, hrest⟩
  case kept =>
    intro m hm
    have inInbox : m ∈ next.inbox.map (·.toInboxMessage) →
        ∃ v ∈ next.inbox, v.toInboxMessage = m := fun hmem => mem_map.mp hmem
    rcases mem_append.mp hm with hold | hnew
    · rcases h.kept m hold with ⟨v, hv, hvm⟩ | hline
      · left
        apply inInbox
        rw [hinbox]
        exact mem_append_left _ (hvm ▸ mem_map_of_mem hv)
      · exact .inr hline
    · left
      apply inInbox
      rw [hinbox]
      exact mem_append_right _ hnew
  case current => exact mem_append_right _ (mem_singleton.mpr rfl)
  case published =>
    intro b hb
    obtain ⟨old, hold, hviews⟩ := h.published b hb
    exact ⟨old, mem_append_left _ hold, hviews⟩

/-! ## 9. Writes -/

def SessionWorld.writeApp (w : SessionWorld) (app : AppDb) : SessionWorld := { w with app }

/-- Lines of a write that are of received messages are of messages that have arrived. -/
def LinesArrived (w : SessionWorld) (lines : List LogLine) : Prop :=
  ∀ line ∈ lines, ∀ id, line.id = .received id → ∃ m ∈ w.arrived, m.id = id ∧ LineOf m line

theorem grows_writeApp {app : AppDb} {lines : List LogLine}
    (hlog : app.log = w.app.log.writeLines lines) : WorldGrows w (w.writeApp app) := by
  refine ⟨fun _ h => h, fun _ h => h, fun id h => ?_, .inl rfl⟩
  change app.log.has id = true
  rw [hlog]
  exact has_writeLines h

theorem TakeOverInv.writeApp (h : TakeOverInv w) {app : AppDb} {lines : List LogLine}
    (hlog : app.log = w.app.log.writeLines lines) (hlines : LinesArrived w lines) :
    TakeOverInv (w.writeApp app) where
  ids := h.ids
  inbox := h.inbox
  lines id line hline := by
    change app.log.get? (.received id) = some line at hline
    rw [hlog] at hline
    rcases get?_writeLines_cases w.app.log lines (.received id) with
      ⟨new, hnew, hid, hget⟩ | ⟨-, hget⟩
    · cases hget.symm.trans hline
      exact hlines _ hnew id hid
    · exact h.lines id line (hget.symm.trans hline)
  kept m hm := by
    rcases h.kept m hm with hinbox | hline
    · exact .inl hinbox
    · exact .inr ((grows_writeApp hlog).log _ hline)
  current := h.current
  published := h.published

theorem TakeOverInv.publish (h : TakeOverInv w) {b : ProjectionInput}
    (hb : OfOneCommit w b.views) : TakeOverInv { w with published := w.published ++ [b] } where
  ids := h.ids
  inbox := h.inbox
  lines := h.lines
  kept := h.kept
  current := h.current
  published b' hb' := by
    rcases mem_append.mp hb' with hold | hnew
    · exact h.published b' hold
    · cases mem_singleton.mp hnew
      exact hb

/-! ## 10. A step of a run -/

theorem OpeningSound.sync (h : OpeningSound w o) : OpeningSound w o.sync := by
  unfold SessionOpening.sync
  split
  · exact h
  refine ⟨fun stage hstage => ?_, h.2⟩
  rcases mem_append.mp hstage with hold | hnew
  · exact h.1 stage hold
  · cases mem_singleton.mp hnew
    trivial

theorem OpeningSound.notified (h : OpeningSound w o) (events : List HolderEvent) :
    OpeningSound w (o.notified events) := by
  unfold SessionOpening.notified
  split
  · exact h
  · exact OpeningSound.sync ⟨h.1, h.2⟩

theorem OpeningSound.setHead (h : OpeningSound w o)
    (hnext : ∀ stage ∈ next, StageSound w stage) : OpeningSound w (o.setHead next) := by
  rcases next with _ | stage
  · exact ⟨fun stage hstage => h.1 stage (mem_of_mem_tail hstage), h.2⟩
  refine ⟨fun stage' hstage' => ?_, h.2⟩
  rcases mem_cons.mp hstage' with heq | htail
  · cases heq
    exact hnext _ rfl
  · exact h.1 stage' (mem_of_mem_tail htail)

theorem SessionInv.set (h : SessionInv s) {k : Nat} (ho : OpeningSound s.toSessionWorld o) :
    SessionInv { s with openings := s.openings.set k o } := by
  refine ⟨h.world, fun o' ho' => ?_⟩
  rcases mem_or_eq_of_mem_set ho' with hold | rfl
  · exact h.openings o' hold
  · exact ho

theorem SessionInv.notify (h : SessionInv s) (events : List HolderEvent) :
    SessionInv (s.notify events) := by
  refine ⟨h.world, fun o ho => ?_⟩
  obtain ⟨before, hbefore, rfl⟩ := mem_map.mp ho
  exact (h.openings before hbefore).notified events

theorem SessionInv.grow (h : SessionInv s) (hg : WorldGrows s.toSessionWorld w)
    (hw : TakeOverInv w) : SessionInv { toSessionWorld := w, openings := s.openings } :=
  ⟨hw, fun o ho => (h.openings o ho).grow hg⟩

theorem SessionInv.markRead (h : SessionInv s) {contactId : ContactId} {upTo : LineId}
    (hm : s.toSessionWorld.markRead text contactId upTo = some w) :
    SessionInv { toSessionWorld := w, openings := s.openings } := by
  have hmarked : ∃ reads, w = s.toSessionWorld.writeApp { s.app with reads } := by
    simp only [SessionWorld.markRead] at hm
    split at hm
    · cases hm
    split at hm
    · cases hm
    split at hm
    · exact ⟨_, (Option.some.inj hm).symm⟩
    split at hm
    · exact ⟨_, (Option.some.inj hm).symm⟩
    · cases hm
  obtain ⟨reads, rfl⟩ := hmarked
  exact h.grow (@grows_writeApp _ { s.app with reads } [] rfl)
    (@TakeOverInv.writeApp _ h.world { s.app with reads } [] rfl (by rintro line ⟨⟩))

end WebOfTrust
