/-
  **What a session settles stays settled.**

  The paths that write a record from a copy read before an `await` look at it once more in the
  serial queue (`expire`, the write of a refusal), hold it in `executions` meanwhile, or do
  neither (`discardIntent`, the limit of `confirmIntent` and `retryIntent`, `recover`; the start
  of an execution).  Where a second look would have found the record still open in the last
  cases, no settled record is written again, and no line loses its digest (`settled_kept`).
  `settled_overwritten` is a run in which it would not.
-/
import WebOfTrust.ContactOrder
import WebOfTrust.SessionIntents

namespace WebOfTrust

open KeyedTable IntentRecord SessionRecord OwnLog List

/-! ## 1. Copies that are still good -/

namespace SessionIntents

def stillOpen (s : SessionIntents) (actId : ActId) : Bool :=
  (s.journal.get? actId).any (·.isOpen)

def held (s : SessionIntents) (actId : ActId) : Bool :=
  s.executions.any fun e => decide (e.record.actId = actId)

end SessionIntents

namespace SessionTask

def started (horizonMs : Nat) (s : SessionIntents) : SessionTask → Option SessionRecord
  | .call _ r fresh => if s.canExecute r fresh then some r else none
  | .settle r => if canSettle s r && s.canExecute r false then some r else none
  | .due (r :: _) _ => if s.executing r.actId then none else some r
  | .replayFound (r :: _) => if looksUp horizonMs s r then some r else none
  | _ => none

def overwritten : SessionTask → List SessionRecord
  | .limitWrite _ r _ | .discardWrite r => [r]
  | .recoverWrite _ records => records
  | _ => []

def overwrittenLine : SessionTask → Option MessageLine
  | .limitWrite _ _ line => line
  | _ => none

def current (horizonMs : Nat) (s : SessionIntents) (task : SessionTask) : Bool :=
  (task.started horizonMs s).all (fun r => s.stillOpen r.actId && !s.knownAnswer r.actId) &&
    task.overwritten.all (fun r => s.stillOpen r.actId && !s.held r.actId) &&
    task.overwrittenLine.all fun l => !s.log.hasDigest l.id

end SessionTask

def CopiesCurrent (horizonMs : Nat) (s : SessionIntents) : IntentInput → Prop
  | .goOn k .ok => (s.tasks[k]?).all (·.current horizonMs s) = true
  | _ => True

instance CopiesCurrent.decidable (horizonMs : Nat) : ∀ s i, Decidable (CopiesCurrent horizonMs s i)
  | _, .goOn _ .ok => inferInstanceAs (Decidable (_ = true))
  | _, .goOn _ .fail | _, .goOn _ (.views _) => .isTrue trivial
  | _, .gesture _ _ | _, .find _ _ | _, .expireOpen _ | _, .recover | _, .replayOpen | _, .sync
  | _, .run _ _ | _, .resume | _, .forget _ | _, .tick _ | _, .stop | _, .crash | _, .reopen =>
    .isTrue trivial

/-! ## 2. What only grows -/

open SessionIntents

section

variable {s s' s'' : SessionIntents} {r x : SessionRecord} {l : MessageLine}
  {line : Option MessageLine} {log : OwnLog} {id : LineId} {actId : ActId}

/-- A record of a gesture that was taken; an open one has its inputs. -/
def Journaled (s : SessionIntents) (r : SessionRecord) : Prop :=
  s.taken[r.actId]? = some r.gesture ∧ r.policy = r.gesture.policy ∧
    (r.isOpen = true → r.hasInput = true)

/-- A settled record: it is stored, or its retention is over. -/
def SettledIntent (s : SessionIntents) (r : SessionRecord) : Prop :=
  r.isOpen = false ∧ r.actId < s.taken.length ∧
    (s.journal.get? r.actId = some r ∨ s.journal.get? r.actId = none ∧ doneUntil r < s.now)

structure IntentGrowth (s s' : SessionIntents) : Prop where
  now : s.now ≤ s'.now
  taken : s.taken <+: s'.taken
  settled : ∀ r, SettledIntent s r → SettledIntent s' r
  digest : ∀ id, s.log.hasDigest id = true → s'.log.hasDigest id = true

theorem IntentGrowth.refl : IntentGrowth s s :=
  ⟨Nat.le_refl _, prefix_rfl, fun _ h => h, fun _ h => h⟩

theorem IntentGrowth.trans (h : IntentGrowth s s') (h' : IntentGrowth s' s'') :
    IntentGrowth s s'' where
  now := h.now.trans h'.now
  taken := h.taken.trans h'.taken
  settled r hr := h'.settled r (h.settled r hr)
  digest id hid := h'.digest id (h.digest id hid)

theorem Journaled.mono (hr : Journaled s r) (h : s.taken <+: s'.taken) : Journaled s' r := by
  obtain ⟨hgesture, hrest⟩ := hr
  obtain ⟨more, hmore⟩ := h
  refine ⟨?_, hrest⟩
  rw [← hmore, List.getElem?_append_left (List.getElem?_eq_some_iff.mp hgesture).1]
  exact hgesture

theorem Journaled.lt (hr : Journaled s r) : r.actId < s.taken.length :=
  (List.getElem?_eq_some_iff.mp hr.1).1

theorem Journaled.with_state (hr : Journaled s r) (hid : x.actId = r.actId)
    (hgesture : x.gesture = r.gesture) (hpolicy : x.policy = r.policy)
    (hinput : x.isOpen = true → x.hasInput = true) : Journaled s x :=
  ⟨by rw [hid, hgesture]; exact hr.1, by rw [hpolicy, hgesture]; exact hr.2.1, hinput⟩

theorem hasDigest_put :
    hasDigest (log.put l) id = if l.id = id then l.digest.isSome else log.hasDigest id := by
  rw [hasDigest, get?_put]
  split
  · rfl
  · rfl

theorem mem_unlessSent (hl : l ∈ unlessSent log line) : l ∈ line ∧ log.hasDigest l.id = false := by
  obtain ⟨hmem, hno⟩ := Option.mem_filter_iff.mp hl
  exact ⟨hmem, by simpa using hno⟩

theorem stillOpen_iff : s.stillOpen actId = true ↔
    ∃ r, s.journal.get? actId = some r ∧ r.isOpen = true := by
  rw [stillOpen, Option.any_eq_true]

theorem SettledIntent.ne (hx : SettledIntent s x) (hopen : s.stillOpen actId = true) :
    x.actId ≠ actId := by
  rintro rfl
  obtain ⟨r, hget, hr⟩ := stillOpen_iff.mp hopen
  obtain ⟨hclosed, -, hstored | ⟨hgone, -⟩⟩ := hx
  · rw [hstored] at hget
    cases hget
    rw [hclosed] at hr
    cases hr
  · rw [hgone] at hget
    cases hget

theorem SettledIntent.of_get? (hx : SettledIntent s x) (htaken : s.taken <+: s'.taken)
    (hnow : s.now ≤ s'.now) (hget : s'.journal.get? x.actId = s.journal.get? x.actId) :
    SettledIntent s' x := by
  obtain ⟨hclosed, hlt, hstored⟩ := hx
  refine ⟨hclosed, hlt.trans_le htaken.length_le, ?_⟩
  rw [hget]
  exact hstored.imp_right fun ⟨hgone, hdone⟩ => ⟨hgone, hdone.trans_le hnow⟩

/-! ## 3. Writes -/

variable {rs : List SessionRecord} {lines : List MessageLine} {kept : ActId → Prop}

structure IntentsStored (s : SessionIntents) : Prop where
  journaled : ∀ r ∈ s.journal.rows, Journaled s r
  digests : ∀ l ∈ s.log.rows, l.digest.isSome = true → l.status ≠ some .expired

/-- What a step leaves to the others; the records of `kept` stay open. -/
structure IntentsKept (s s' : SessionIntents) (kept : ActId → Prop) : Prop where
  grows : IntentGrowth s s'
  stored : IntentsStored s'
  opens : ∀ actId, kept actId → s.stillOpen actId = true → s'.stillOpen actId = true
  opened : ∀ actId < s.taken.length, s'.stillOpen actId = true → s.stillOpen actId = true
  quiet : s.queueFree = true ∨ ∀ id, s'.log.hasDigest id = s.log.hasDigest id

theorem IntentsKept.refl (h : IntentsStored s) : IntentsKept s s kept :=
  ⟨.refl, h, fun _ _ ho => ho, fun _ _ ho => ho, .inr fun _ => rfl⟩

/-- A line is written that has a digest, in the queue, or where there is none. -/
def LineSound (s : SessionIntents) (l : MessageLine) : Prop :=
  (l.digest.isSome = true ∧ l.status ≠ some .expired ∧ s.queueFree = true) ∨
    (l.digest = none ∧ s.log.hasDigest l.id = false)

theorem hasDigest_write (hline : ∀ l ∈ line, LineSound s l)
    (hid : s.log.hasDigest id = true) : (s.write r line).log.hasDigest id = true := by
  rcases line with _ | l
  · exact hid
  refine hasDigest_put.trans ?_
  split
  · next heq =>
    rcases hline l rfl with ⟨hdigest, -⟩ | ⟨-, hno⟩
    · exact hdigest
    · rw [heq, hid] at hno
      cases hno
  · exact hid

theorem digests_put (h : ∀ l ∈ log.rows, l.digest.isSome = true → l.status ≠ some .expired)
    (hl : l.digest.isSome = true → l.status ≠ some .expired) :
    ∀ x ∈ (put log l).rows, x.digest.isSome = true → x.status ≠ some .expired := by
  intro x hx
  have hget := mem_rows_iff.mp hx
  rw [get?_put] at hget
  split at hget
  · cases hget
    exact hl
  · exact h x (mem_of_get? hget)

theorem get?_write (line : Option MessageLine) : (s.write r line).journal.get? actId =
      if r.actId = actId then some r else s.journal.get? actId := get?_put ..

/-- What is made of a record: nothing, the next state of an open one, or the end of one whose
    retention is over. -/
def Rewritten (s s' : SessionIntents) (kept : ActId → Prop) (actId : ActId) : Prop :=
  s'.journal.get? actId = s.journal.get? actId ∨
    (s.stillOpen actId = true ∧ ∃ r, s'.journal.get? actId = some r ∧ Journaled s r ∧
      (kept actId → r.isOpen = true)) ∨
    (s'.journal.get? actId = none ∧
      ∀ r ∈ s.journal.get? actId, r.isOpen = false ∧ doneUntil r < s.now)

theorem settled_of_rewritten (hx : SettledIntent s x) (htaken : s.taken = s'.taken)
    (hnow : s.now = s'.now) (hrw : Rewritten s s' kept x.actId) : SettledIntent s' x := by
  rcases hrw with hsame | ⟨hopen, -⟩ | ⟨hgone, hdone⟩
  · exact hx.of_get? (htaken ▸ prefix_rfl) (Nat.le_of_eq hnow) hsame
  · exact absurd rfl (hx.ne hopen)
  obtain ⟨hclosed, hlt, hstored⟩ := hx
  refine ⟨hclosed, htaken ▸ hlt, .inr ⟨hgone, hnow ▸ ?_⟩⟩
  rcases hstored with hstored | ⟨-, hpast⟩
  · exact (hdone x hstored).2
  · exact hpast

theorem keeps_of_rewritten (h : IntentsStored s) (htaken : s.taken = s'.taken)
    (hnow : s.now = s'.now)
    (hrw : ∀ actId, Rewritten s s' kept actId)
    (hdigests : ∀ l ∈ s'.log.rows, l.digest.isSome = true → l.status ≠ some .expired)
    (hgrow : ∀ id, s.log.hasDigest id = true → s'.log.hasDigest id = true)
    (hquiet : s.queueFree = true ∨ ∀ id, s'.log.hasDigest id = s.log.hasDigest id) :
    IntentsKept s s' kept where
  grows := ⟨Nat.le_of_eq hnow, htaken ▸ prefix_rfl,
    fun x hx => settled_of_rewritten hx htaken hnow (hrw x.actId), hgrow⟩
  stored := by
    refine ⟨fun x hx => ?_, hdigests⟩
    have hget := mem_rows_iff.mp hx
    rcases hrw x.actId with hsame | ⟨-, r, hr, hjournaled, -⟩ | ⟨hgone, -⟩
    · rw [hsame] at hget
      exact (h.journaled x (mem_of_get? hget)).mono (htaken ▸ prefix_rfl)
    · rw [hr] at hget
      cases hget
      exact hjournaled.mono (htaken ▸ prefix_rfl)
    · rw [hgone] at hget
      cases hget
  opens actId hk ho := by
    rcases hrw actId with hsame | ⟨-, r, hr, -, hopen⟩ | ⟨-, hdone⟩
    · rwa [stillOpen, hsame]
    · exact stillOpen_iff.mpr ⟨r, hr, hopen hk⟩
    obtain ⟨r, hget, hr⟩ := stillOpen_iff.mp ho
    rw [(hdone r hget).1] at hr
    cases hr
  opened actId _ ho := by
    rcases hrw actId with hsame | ⟨hopen, -⟩ | ⟨hgone, -⟩
    · rwa [stillOpen, hsame] at ho
    · exact hopen
    · rw [stillOpen, hgone] at ho
      cases ho
  quiet := hquiet

theorem keeps_write (h : IntentsStored s) (hopen : s.stillOpen r.actId = true) (hr : Journaled s r)
    (hkept : kept r.actId → r.isOpen = true) (hline : ∀ l ∈ line, LineSound s l) :
    IntentsKept s (s.write r line) kept := by
  refine keeps_of_rewritten h rfl rfl (fun actId => ?_) ?_ (fun id => hasDigest_write hline) ?_
  · by_cases hid : r.actId = actId
    · subst hid
      exact .inr (.inl ⟨hopen, r, (get?_write line).trans (if_pos rfl), hr, hkept⟩)
    · exact .inl ((get?_write line).trans (if_neg hid))
  · rcases line with _ | l
    · exact h.digests
    refine digests_put h.digests fun hdigest => ?_
    rcases hline l rfl with ⟨-, hstatus, -⟩ | ⟨hno, -⟩
    · exact hstatus
    · rw [hno] at hdigest
      cases hdigest
  · rcases line with _ | l
    · exact .inr fun _ => rfl
    rcases hline l rfl with ⟨-, -, hfree⟩ | ⟨hno, hlog⟩
    · exact .inl hfree
    refine .inr fun id => hasDigest_put.trans ?_
    split
    · next heq => rw [← heq, hlog, hno]; rfl
    · rfl

theorem stillOpen_write (line : Option MessageLine) (hne : r.actId ≠ actId) :
    (s.write r line).stillOpen actId = s.stillOpen actId := by
  rw [stillOpen, get?_write, if_neg hne, stillOpen]

theorem keeps_journal {command : SessionCommand} (h : IntentsStored s)
    (hr : r.actId = s.taken.length) (hgesture : r.gesture = command)
    (hpolicy : r.policy = command.policy) (hinput : r.isOpen = true → r.hasInput = true) :
    IntentsKept s { s.write r none with taken := s.taken ++ [command] } kept where
  grows := by
    refine ⟨Nat.le_refl _, prefix_append _ _, fun x hx => ?_, fun _ hid => hid⟩
    have hne : r.actId ≠ x.actId := by
      rw [hr]
      exact (Nat.ne_of_lt hx.2.1).symm
    refine hx.of_get? (prefix_append _ _) (Nat.le_refl _) ?_
    rw [write, get?_put, if_neg hne]
  stored := by
    refine ⟨fun x hx => ?_, h.digests⟩
    have hget := mem_rows_iff.mp hx
    rw [write, get?_put] at hget
    split at hget
    · cases hget
      refine ⟨?_, by rw [hpolicy, hgesture], hinput⟩
      rw [hr, hgesture, getElem?_append_right (Nat.le_refl _), Nat.sub_self]
      rfl
    · exact (h.journaled x (mem_of_get? hget)).mono (prefix_append _ _)
  opens actId _ ho := by
    obtain ⟨x, hget, hx⟩ := stillOpen_iff.mp ho
    have hlt : x.actId < s.taken.length := (h.journaled x (mem_of_get? hget)).lt
    have hne : r.actId ≠ actId := by
      rw [hr, ← key_of_get? hget]
      exact (Nat.ne_of_lt hlt).symm
    exact (stillOpen_write none hne).trans ho
  opened actId hlt ho := by
    have hne : r.actId ≠ actId := by
      rw [hr]
      exact (Nat.ne_of_lt hlt).symm
    exact (stillOpen_write none hne).symm.trans ho
  quiet := .inr fun _ => rfl

theorem get?_eraseRecords {journal : IntentStore SessionCommand} :
    (rs.foldl (fun journal r => journal.erase r.actId) journal).get? actId =
      if actId ∈ rs.map (·.actId) then none else journal.get? actId := by
  induction rs generalizing journal with
  | nil => rfl
  | cons r rs ih =>
    rw [foldl_cons, ih, get?_erase, map_cons]
    simp only [mem_cons]
    by_cases hid : r.actId = actId
    · simp [hid]
    · simp only [if_neg hid, Ne.symm hid, false_or]

theorem keeps_recover {gone : List SessionRecord} (h : IntentsStored s)
    (hgone : ∀ r ∈ gone, SettledIntent s r ∧ doneUntil r < s.now)
    (hrs : ∀ r ∈ rs, s.stillOpen r.actId = true ∧ Journaled s r ∧ ¬kept r.actId) :
    IntentsKept s { s with
      journal := rs.foldl put
        (gone.foldl (fun journal r => journal.erase r.actId) s.journal) } kept := by
  refine keeps_of_rewritten h rfl rfl (fun actId => ?_) h.digests (fun _ hid => hid)
    (.inr fun _ => rfl)
  rcases get?_foldl_put
    (gone.foldl (fun journal r => journal.erase r.actId) s.journal) rs actId with
    ⟨r, hr, rfl, hget⟩ | ⟨-, hsame⟩
  · obtain ⟨hopen, hjournaled, hnot⟩ := hrs r hr
    exact .inr (.inl ⟨hopen, r, hget, hjournaled, fun hk => absurd hk hnot⟩)
  rw [get?_eraseRecords] at hsame
  split at hsame
  · next hmem =>
    refine .inr (.inr ⟨hsame, fun x hx => ?_⟩)
    obtain ⟨r, hr, rfl⟩ := mem_map.mp hmem
    obtain ⟨⟨hclosed, -, hstored | ⟨hnone, -⟩⟩, hdone⟩ := hgone r hr
    · rw [hstored] at hx
      cases hx
      exact ⟨hclosed, hdone⟩
    · rw [hnone] at hx
      cases hx
  · exact .inl hsame

theorem keeps_sync (h : IntentsStored s)
    (hlines : ∀ l ∈ lines, l.digest.isSome = true ∧ l.status ≠ some .expired ∧
      s.log.hasDigest l.id = true) :
    IntentsKept s { s with log := lines.foldl put s.log } kept := by
  have hlog : ∀ id, hasDigest (lines.foldl put s.log) id = s.log.hasDigest id ∧
      ∀ l ∈ (lines.foldl put s.log).rows, l.digest.isSome = true → l.status ≠ some .expired := by
    have hdigests := h.digests
    revert hlines hdigests
    generalize s.log = log
    intro hlines hdigests id
    induction lines generalizing log with
    | nil => exact ⟨rfl, hdigests⟩
    | cons l lines ih =>
      obtain ⟨hdigest, hstatus, hhas⟩ := hlines l mem_cons_self
      have hsame : ∀ id, hasDigest (log.put l) id = log.hasDigest id := by
        intro id
        rw [hasDigest_put]
        split
        · next heq => rw [hdigest, ← heq, hhas]
        · rfl
      obtain ⟨hid, hrows⟩ := ih (log.put l) (fun x hx => by
          obtain ⟨hd, hs, hh⟩ := hlines x (mem_cons_of_mem _ hx)
          exact ⟨hd, hs, (hsame x.id).trans hh⟩)
        (digests_put hdigests fun _ => hstatus)
      exact ⟨hid.trans (hsame id), hrows⟩
  refine keeps_of_rewritten h rfl rfl (fun actId => .inl rfl) (hlog (.own "")).2
    (fun id hid => (hlog id).1.trans hid) (.inr fun id => (hlog id).1)

/-! ## 4. Executions -/

def ExecutionStage.Sound (s : SessionIntents) (r : SessionRecord) : ExecutionStage → Prop
  | .expireLog cur => Journaled s cur ∧ cur.actId = r.actId ∧ cur.isOpen = true
  | .expireWrite cur line =>
    (Journaled s cur ∧ cur.actId = r.actId ∧ cur.isOpen = true) ∧
      ∃ log : OwnLog, line = unlessSent log (expiredLine cur) ∧
        ∀ id, s.log.hasDigest id = log.hasDigest id
  | .refuseWrite held line =>
    ∃ log : OwnLog, line = unlessSent log (refusedLine r held) ∧
      ∀ id, s.log.hasDigest id = log.hasDigest id
  | _ => True

structure Execution.Sound (s : SessionIntents) (e : Execution) : Prop where
  journaled : Journaled s e.record
  isOpen : e.record.isOpen = true
  opens : e.stage ≠ .sync → s.stillOpen e.record.actId = true
  stage : e.stage.Sound s e.record

structure ExecutionSound (s : SessionIntents) (e : Execution)
    (did : SessionIntents × Option Execution) : Prop where
  keeps : IntentsKept s did.1 (· ≠ e.record.actId)
  tasks : did.1.tasks = s.tasks
  execution : ∀ e' ∈ did.2, e'.record.actId = e.record.actId ∧ e'.Sound did.1

variable {horizonMs : Nat} {e e' : Execution} {cur : SessionRecord} {answer : ExecutionAnswer}
  {did : SessionIntents × Option Execution} {act : Option CommittedAct} {next : Option Execution}
  {sent : SentDocument}

theorem Execution.Sound.input (he : e.Sound s) : e.record.hasInput = true :=
  he.journaled.2.2 he.isOpen

theorem Execution.Sound.mono (he : e.Sound s) (htaken : s.taken <+: s'.taken)
    (hopen : s.stillOpen e.record.actId = true → s'.stillOpen e.record.actId = true)
    (hlog : e.stage.inQueue = true → ∀ id, s'.log.hasDigest id = s.log.hasDigest id) :
    e.Sound s' where
  journaled := he.journaled.mono htaken
  isOpen := he.isOpen
  opens hne := hopen (he.opens hne)
  stage := by
    have hstage := he.stage
    cases h : e.stage with
    | expireLog cur =>
      rw [h] at hstage
      exact ⟨hstage.1.mono htaken, hstage.2⟩
    | expireWrite cur line =>
      rw [h] at hstage hlog
      obtain ⟨⟨hcur, hid, hopen⟩, log, hline, hsame⟩ := hstage
      exact ⟨⟨hcur.mono htaken, hid, hopen⟩, log, hline, fun id => (hlog rfl id).trans (hsame id)⟩
    | refuseWrite held line =>
      rw [h] at hstage hlog
      obtain ⟨log, hline, hsame⟩ := hstage
      exact ⟨log, hline, fun id => (hlog rfl id).trans (hsame id)⟩
    | _ => trivial

theorem Execution.Sound.of_keeps (he : e.Sound s) (hmem : e ∈ s.executions)
    (h : IntentsKept s s' kept) (hkept : kept e.record.actId) : e.Sound s' := by
  refine he.mono h.grows.taken (h.opens _ hkept) fun hqueue => ?_
  rcases h.quiet with hfree | hsame
  · rw [queueFree, Bool.and_eq_true, all_eq_true] at hfree
    have hnot := hfree.1 e hmem
    rw [hqueue] at hnot
    cases hnot
  · exact hsame

section

variable (hline : line = expiredLine r ∨ ∃ held, line = refusedLine r held)
include hline

theorem digest_ownMessageLine : ∀ l ∈ line, l.digest = none := by
  intro l hl
  rcases hline with rfl | ⟨held, rfl⟩
  · rw [expiredLine] at hl
    split at hl
    · split at hl
      · cases hl
        rfl
      · cases hl
    · cases hl
  · rw [refusedLine] at hl
    split at hl
    · cases hl
      split <;> rfl
    · cases hl

theorem lineSound_unlessSent (hsame : ∀ id, s.log.hasDigest id = log.hasDigest id) :
    ∀ l ∈ unlessSent log line, LineSound s l := by
  intro l hl
  obtain ⟨hmem, hno⟩ := mem_unlessSent hl
  exact .inr ⟨digest_ownMessageLine hline l hmem, (hsame l.id).trans hno⟩

end

theorem lineSound_sentLine (hfree : s.queueFree = true) : ∀ l ∈ sentLine r sent, LineSound s l := by
  intro l hl
  rw [sentLine] at hl
  split at hl
  · cases hl
    exact .inl ⟨rfl, by simp, hfree⟩
  · cases hl

theorem executionSound_end (h : IntentsStored s) : ExecutionSound s e (s, none) :=
  ⟨.refl h, rfl, by simp⟩

theorem executionSound_stay (h : IntentsStored s) (hid : e'.record.actId = e.record.actId)
    (he' : e'.Sound s) : ExecutionSound s e (s, some e') := by
  refine ⟨.refl h, rfl, fun x hx => ?_⟩
  cases hx
  exact ⟨hid, he'⟩

theorem Execution.Sound.at (he : e.Sound s) (hstage : e.stage ≠ .sync) (stage : ExecutionStage)
    (hnew : stage.Sound s e.record) : Execution.Sound s { e with stage } :=
  ⟨he.journaled, he.isOpen, fun _ => he.opens hstage, hnew⟩

theorem sound_written (he : e.Sound s) (htaken : s.taken <+: s'.taken) :
    ∀ e' ∈ e.written, e'.record.actId = e.record.actId ∧ e'.Sound s' := by
  intro e' hwritten
  rw [Execution.written] at hwritten
  split at hwritten
  · cases hwritten
  · cases hwritten
    exact ⟨rfl, he.journaled.mono htaken, he.isOpen, fun hne => absurd rfl hne, trivial⟩

section

variable (h : IntentsStored s) (he : e.Sound s)
include h he

theorem executionSound_written : ExecutionSound s e (s, e.written) :=
  ⟨.refl h, rfl, sound_written he prefix_rfl⟩

theorem executionSound_write (hstage : e.stage ≠ .sync)
    (hr : Journaled s r) (hid : r.actId = e.record.actId) (hline : ∀ l ∈ line, LineSound s l)
    (hnext : ∀ e' ∈ next, e'.record.actId = e.record.actId ∧ e'.Sound (s.write r line)) :
    ExecutionSound s e (s.write r line, next) := by
  refine ⟨keeps_write h ?_ hr (fun hne => absurd hid hne) hline, rfl, hnext⟩
  rw [hid]
  exact he.opens hstage

-- The equations of the step are derived here, before proofs that run beside each other need them.
attribute [local simp] Execution.goOn in
theorem executionSound_begin (hstage : e.stage = .begin)
    (hgo : e.goOn horizonMs s answer = some did) : ExecutionSound s e did := by
  have hne : e.stage ≠ .sync := by simp [hstage]
  have hattempt : Journaled s e.record.attempt :=
    he.journaled.with_state rfl rfl rfl fun _ => he.input
  cases answer <;> simp only [Execution.goOn, hstage, Option.some.injEq, reduceCtorEq] at hgo <;>
    subst hgo
  · refine executionSound_write h he hne hattempt rfl (by simp) fun e' he' => ?_
    cases he'
    refine ⟨rfl, hattempt.mono prefix_rfl, rfl, fun _ => ?_, ?_⟩
    · exact stillOpen_iff.mpr ⟨_, (get?_write none).trans (if_pos rfl), rfl⟩
    · dsimp only [Execution.attempted]
      split_ifs <;> trivial
  · exact executionSound_stay h rfl (he.at hne .notStarted trivial)
  · exact executionSound_end h

theorem executionSound_settled (hne : e.stage ≠ .sync)
    (hnext : ∀ e' ∈ next, e'.record.actId = e.record.actId ∧ e'.Sound s) :
    ExecutionSound s e (s, e.settled act next) := by
  refine ⟨.refl h, rfl, fun e' he' => ?_⟩
  rcases act with _ | c
  · exact hnext e' he'
  cases he'
  exact ⟨rfl, he.journaled.with_state rfl rfl rfl fun _ => he.input, rfl,
    fun _ => he.opens hne, trivial⟩

theorem executionSound_commit (hne : e.stage ≠ .sync)
    {stage : ExecutionStage} (hstage : ∀ s, stage.Sound s e.record) :
    ExecutionSound s e (s.commit e.record sent, some { e with stage }) := by
  rw [commit]
  split
  · exact executionSound_stay h rfl (he.at hne stage (hstage s))
  refine ⟨⟨⟨Nat.le_refl _, prefix_rfl, fun _ hr => hr, fun _ hid => hid⟩,
    ⟨h.journaled, h.digests⟩, fun _ _ ho => ho, fun _ _ ho => ho, .inr fun _ => rfl⟩, rfl,
    fun e' he' => ?_⟩
  cases he'
  exact ⟨rfl, he.journaled, he.isOpen, fun _ => he.opens hne, hstage _⟩

theorem executionSound_asked
    (hstage : e.stage = .act ∨ e.stage = .replay ∨ e.stage = .limit ∨ e.stage = .lookUp)
    (hgo : e.goOn horizonMs s answer = some did) : ExecutionSound s e did := by
  have hne : e.stage ≠ .sync := by
    rcases hstage with hstage | hstage | hstage | hstage <;> simp [hstage]
  have hunknown : ExecutionSound s e (s, some { e with stage := .unknownOutcome }) :=
    executionSound_stay h rfl (he.at hne .unknownOutcome trivial)
  have hexpire : ∀ e' ∈ some { e with stage := ExecutionStage.expire },
      e'.record.actId = e.record.actId ∧ e'.Sound s := by
    intro e' he'
    cases he'
    exact ⟨rfl, he.at hne .expire trivial⟩
  rcases hstage with hstage | hstage | hstage | hstage <;> cases answer <;>
    simp only [Execution.goOn, hstage, Option.some.injEq, reduceCtorEq] at hgo
  · subst hgo
    exact hunknown
  · subst hgo
    exact executionSound_end h
  · subst hgo
    exact executionSound_commit h he hne fun _ => trivial
  · subst hgo
    exact executionSound_commit h he hne fun _ => trivial
  · next held =>
    split at hgo
    · cases hgo
    · cases hgo
      exact executionSound_stay h rfl (he.at hne (.refuse held) trivial)
  · subst hgo
    exact executionSound_settled h he hne hexpire
  · subst hgo
    exact hunknown
  · subst hgo
    exact executionSound_end h
  · subst hgo
    exact executionSound_settled h he hne hexpire
  · subst hgo
    exact executionSound_end h
  · subst hgo
    exact executionSound_settled h he hne (by simp)
  · subst hgo
    exact executionSound_end h

theorem executionSound_open (hstage : e.stage = .notStarted ∨ e.stage = .unknownOutcome)
    (hgo : e.goOn horizonMs s answer = some did) : ExecutionSound s e did := by
  have hne : e.stage ≠ .sync := by
    rcases hstage with hstage | hstage <;> simp [hstage]
  rcases hstage with hstage | hstage <;> cases answer <;>
    simp only [Execution.goOn, hstage, Option.some.injEq, reduceCtorEq] at hgo <;> subst hgo
  · exact executionSound_write h he hne (he.journaled.with_state rfl rfl rfl fun _ => he.input) rfl
      (by simp) (by simp)
  · exact executionSound_end h
  · refine executionSound_write h he hne ?_ ?_ (by simp) (by simp)
    · refine he.journaled.with_state ?_ ?_ ?_ fun hopen => ?_
      all_goals
        rw [unknownOutcome] at *
        split at * <;> first | rfl | exact he.input | cases hopen
    · rw [unknownOutcome]
      split <;> rfl
  · exact executionSound_end h

theorem executionSound_finish (hstage : e.stage = .finish sent)
    (hgo : e.goOn horizonMs s answer = some did) :
    ExecutionSound s e did := by
  have hne : e.stage ≠ .sync := by simp [hstage]
  cases answer <;> simp only [Execution.goOn, hstage, Option.some.injEq, reduceCtorEq] at hgo
  · split at hgo
    · next hfree =>
      cases hgo
      exact executionSound_write h he hne (he.journaled.with_state rfl rfl rfl nofun) rfl
        (lineSound_sentLine hfree) (sound_written he prefix_rfl)
    · cases hgo
  · subst hgo
    exact executionSound_stay h rfl (he.at hne .unknownOutcome trivial)

theorem executionSound_expire (hstage : e.stage = .expire ∨ (∃ cur, e.stage = .expireLog cur) ∨
      ∃ cur line, e.stage = .expireWrite cur line)
    (hgo : e.goOn horizonMs s answer = some did) : ExecutionSound s e did := by
  have hsound := he.stage
  rcases hstage with hstage | ⟨cur, hstage⟩ | ⟨cur, line, hstage⟩
  · have hne : e.stage ≠ .sync := by simp [hstage]
    obtain ⟨cur, hget, hopen⟩ := stillOpen_iff.mp (he.opens hne)
    cases answer <;> simp only [Execution.goOn, hstage, hget, hopen, if_true, Option.some.injEq,
        reduceCtorEq] at hgo
    · split at hgo
      · cases hgo
        refine executionSound_stay h rfl (he.at hne (.expireLog cur) ⟨?_, ?_, hopen⟩)
        · exact h.journaled cur (mem_of_get? hget)
        · exact key_of_get? hget
      · cases hgo
    · subst hgo
      exact executionSound_end h
  · have hne : e.stage ≠ .sync := by simp [hstage]
    rw [hstage] at hsound
    cases answer <;> simp only [Execution.goOn, hstage, Option.some.injEq, reduceCtorEq] at hgo <;>
      subst hgo
    · exact executionSound_stay h rfl
        (he.at hne (.expireWrite cur _) ⟨hsound, s.log, rfl, fun _ => rfl⟩)
    · exact executionSound_end h
  · have hne : e.stage ≠ .sync := by simp [hstage]
    rw [hstage] at hsound
    obtain ⟨⟨hcur, hid, -⟩, log, rfl, hsame⟩ := hsound
    cases answer <;> simp only [Execution.goOn, hstage, Option.some.injEq, reduceCtorEq] at hgo <;>
      subst hgo
    · exact executionSound_write h he hne (hcur.with_state rfl rfl rfl nofun) hid
        (lineSound_unlessSent (.inl rfl) hsame) (sound_written he prefix_rfl)
    · exact executionSound_end h

end

theorem executionSound_refuse {held : Option HeldReason} (h : IntentsStored s) (he : e.Sound s)
    (hstage : e.stage = .refuse held ∨ e.stage = .refuseLine held ∨
      (∃ line, e.stage = .refuseWrite held line) ∨ e.stage = .later held)
    (hgo : e.goOn horizonMs s answer = some did) : ExecutionSound s e did := by
  have hne : e.stage ≠ .sync := by
    rcases hstage with hstage | hstage | ⟨line, hstage⟩ | hstage <;> simp [hstage]
  have hsound := he.stage
  have hlater : ExecutionSound s e (s, some (e.later held)) :=
    executionSound_stay h rfl ⟨he.journaled, he.isOpen, fun _ => he.opens hne, trivial⟩
  rcases hstage with hstage | hstage | ⟨line, hstage⟩ | hstage <;> cases answer <;>
    simp only [Execution.goOn, hstage, Option.some.injEq, reduceCtorEq] at hgo
  · split at hgo
    · split at hgo
      · cases hgo
        split
        · exact executionSound_written h he
        · exact executionSound_stay h rfl (he.at hne (.refuseLine held) trivial)
      · cases hgo
        exact executionSound_stay h rfl (he.at hne (.refuseLine held) trivial)
    · cases hgo
  · subst hgo
    exact hlater
  · subst hgo
    exact executionSound_stay h rfl (he.at hne (.refuseWrite held _) ⟨s.log, rfl, fun _ => rfl⟩)
  · subst hgo
    exact hlater
  · subst hgo
    rw [hstage] at hsound
    obtain ⟨log, rfl, hsame⟩ := hsound
    exact executionSound_write h he hne (he.journaled.with_state rfl rfl rfl nofun) rfl
      (lineSound_unlessSent (.inr ⟨held, rfl⟩) hsame) (sound_written he prefix_rfl)
  · subst hgo
    exact hlater
  · subst hgo
    split
    · exact executionSound_stay h rfl (he.at hne (.refuse held) trivial)
    · exact executionSound_end h

theorem executionSound_goOn (h : IntentsStored s) (he : e.Sound s)
    (hgo : e.goOn horizonMs s answer = some did) : ExecutionSound s e did := by
  cases hstage : e.stage with
  | begin => exact executionSound_begin h he hstage hgo
  | notStarted => exact executionSound_open h he (.inl hstage) hgo
  | unknownOutcome => exact executionSound_open h he (.inr hstage) hgo
  | act => exact executionSound_asked h he (.inl hstage) hgo
  | replay => exact executionSound_asked h he (.inr (.inl hstage)) hgo
  | limit => exact executionSound_asked h he (.inr (.inr (.inl hstage))) hgo
  | lookUp => exact executionSound_asked h he (.inr (.inr (.inr hstage))) hgo
  | finish sent => exact executionSound_finish h he hstage hgo
  | expire => exact executionSound_expire h he (.inl hstage) hgo
  | expireLog cur => exact executionSound_expire h he (.inr (.inl ⟨cur, hstage⟩)) hgo
  | expireWrite cur line =>
    exact executionSound_expire h he (.inr (.inr ⟨cur, line, hstage⟩)) hgo
  | refuse held => exact executionSound_refuse h he (.inl hstage) hgo
  | refuseLine held => exact executionSound_refuse h he (.inr (.inl hstage)) hgo
  | refuseWrite held line =>
    exact executionSound_refuse h he (.inr (.inr (.inl ⟨line, hstage⟩))) hgo
  | later held => exact executionSound_refuse h he (.inr (.inr (.inr hstage))) hgo
  | sync =>
    cases answer <;> simp only [Execution.goOn, hstage, Option.some.injEq, reduceCtorEq] at hgo
    subst hgo
    exact executionSound_end h

/-! ## 5. Tasks -/

/-- A record as it has been read: a settled one is still what is stored. -/
def Copy (s : SessionIntents) (r : SessionRecord) : Prop :=
  Journaled s r ∧ (r.isOpen = false → SettledIntent s r)

namespace SessionTask

def copies : SessionTask → List SessionRecord
  | .same _ records | .expireFound _ records | .recoverFound records | .replayFound records
  | .purge records | .recoverWrite records _ => records
  | .call _ r _ | .settle r | .limitLog _ r | .limitWrite _ r _ | .discardWrite r => [r]
  | .found _ _ r => r.toList
  | .due records finished | .dueWait _ records finished => records ++ finished
  | _ => []

def Holds (s : SessionIntents) : SessionTask → Prop
  | .call _ r _ | .settle r | .limitLog _ r | .discardWrite r => r.isOpen = true
  | .limitWrite _ r line =>
    r.isOpen = true ∧ ∃ log : OwnLog, line = unlessSent log (expiredLine r) ∧
      ∀ id, log.hasDigest id = true → s.log.hasDigest id = true
  | .due records finished | .dueWait _ records finished =>
    (∀ r ∈ records, r.isOpen = true) ∧ ∀ r ∈ finished, r.isOpen = false
  | .purge records => ∀ r ∈ records, r.isOpen = false ∧ doneUntil r < s.now
  | .recoverWrite gone records =>
    (∀ r ∈ gone, r.isOpen = false ∧ doneUntil r < s.now) ∧
      ∀ r ∈ records, Journaled s r ∧ r.policy ≠ .replay
  | .syncWrite lines => ∀ l ∈ lines, l.digest.isSome = true ∧ l.status ≠ some .expired ∧
      s.log.hasDigest l.id = true
  | _ => True

structure Sound (s : SessionIntents) (task : SessionTask) : Prop where
  copies : ∀ r ∈ task.copies, Copy s r
  holds : task.Holds s

end SessionTask

structure IntentTaskSound (s : SessionIntents) (did : TaskStep) : Prop where
  keeps : IntentsKept s did.session fun actId => s.held actId = true
  executions : did.session.executions = s.executions
  otherTasks : did.session.tasks = s.tasks
  tasks : ∀ t ∈ did.tasks, t.Sound did.session
  execution : ∀ e ∈ did.execution, e.Sound did.session ∧ s.held e.record.actId = false

open SessionTask

variable {t : SessionTask} {d : Draft} {finished : List SessionRecord} {answer : TaskAnswer}
  {did : TaskStep} {key : InflightKey} {finding : Finding}

theorem Copy.mono (hr : Copy s r) (h : IntentGrowth s s') : Copy s' r :=
  ⟨hr.1.mono h.taken, fun hclosed => h.settled r (hr.2 hclosed)⟩

theorem Copy.input (hr : Copy s r) (hopen : r.isOpen = true) : r.hasInput = true := hr.1.2.2 hopen

theorem copy_of_mem (h : IntentsStored s) (hr : r ∈ s.journal.rows) : Copy s r :=
  ⟨h.journaled r hr, fun hclosed =>
    ⟨hclosed, (h.journaled r hr).lt, .inl (mem_rows_iff.mp hr)⟩⟩

theorem SessionTask.Sound.mono (ht : t.Sound s) (h : IntentGrowth s s') : t.Sound s' where
  copies r hr := (ht.copies r hr).mono h
  holds := by
    have hholds := ht.holds
    cases t with
    | limitWrite key r line =>
      obtain ⟨hopen, log, hline, hlog⟩ := hholds
      exact ⟨hopen, log, hline, fun id hid => h.digest id (hlog id hid)⟩
    | purge records => exact fun r hr => ⟨(hholds r hr).1, (hholds r hr).2.trans_le h.now⟩
    | recoverWrite gone records =>
      exact ⟨fun r hr => ⟨(hholds.1 r hr).1, (hholds.1 r hr).2.trans_le h.now⟩,
        fun r hr => ⟨(hholds.2 r hr).1.mono h.taken, (hholds.2 r hr).2⟩⟩
    | syncWrite lines =>
      exact fun l hl => ⟨(hholds l hl).1, (hholds l hl).2.1, h.digest _ (hholds l hl).2.2⟩
    | _ => exact hholds

theorem held_eq : s.held actId = (s.executing actId || s.knownAnswer actId) := by
  rw [held, executing, knownAnswer]
  induction s.executions with
  | nil => rfl
  | cons e rest ih =>
    rw [any_cons, any_cons, any_cons, ih]
    cases e.known <;> simp [Bool.or_assoc, Bool.or_left_comm]

theorem taskSound_leave (h : IntentsStored s) : IntentTaskSound s ⟨s, [], none⟩ :=
  ⟨.refl h, rfl, rfl, by simp, by simp⟩

theorem taskSound_next (h : IntentsStored s) (ht : t.Sound s) :
    IntentTaskSound s ⟨s, [t], none⟩ := by
  refine ⟨.refl h, rfl, rfl, fun x hx => ?_, by simp⟩
  rw [mem_singleton.mp hx]
  exact ht

theorem sound_nil (hcopies : t.copies = []) (hholds : t.Holds s) : t.Sound s :=
  ⟨by simp [hcopies], hholds⟩

theorem sound_one (hcopies : t.copies = [r]) (hr : Copy s r) (hholds : t.Holds s) : t.Sound s := by
  refine ⟨fun x hx => ?_, hholds⟩
  rw [hcopies, mem_singleton] at hx
  rw [hx]
  exact hr

theorem taskSound_start {tasks : List SessionTask} {stage : ExecutionStage} (h : IntentsStored s)
    (hr : Copy s r) (hopen : r.isOpen = true) (hstill : s.stillOpen r.actId = true)
    (hheld : s.held r.actId = false) (hstage : stage.Sound s r) (ht : ∀ t ∈ tasks, t.Sound s) :
    IntentTaskSound s ⟨s, tasks, some ⟨r, stage, false⟩⟩ := by
  refine ⟨.refl h, rfl, rfl, ht, fun e he => ?_⟩
  cases he
  exact ⟨⟨hr.1, hopen, fun _ => hstill, hstage⟩, hheld⟩

theorem held_of_canExecute {fresh : Bool} (hcan : s.canExecute r fresh = true) :
    s.held r.actId = false := by
  rw [canExecute, Bool.and_eq_true, Bool.and_eq_true] at hcan
  rw [held_eq]
  simpa using hcan.1

theorem taskSound_execute {fresh : Bool} (h : IntentsStored s) (hr : Copy s r)
    (hopen : r.isOpen = true)
    (hcurrent : s.canExecute r fresh = true → s.stillOpen r.actId = true)
    (hgo : execute s key r fresh = some did) : IntentTaskSound s did := by
  rw [execute] at hgo
  split at hgo
  · next hcan =>
    cases hgo
    refine taskSound_start h hr hopen (hcurrent hcan) (held_of_canExecute hcan) trivial ?_
    intro t ht
    rw [mem_singleton.mp ht]
    exact sound_nil rfl trivial
  · split at hgo <;> cases hgo
    · exact taskSound_next h (sound_nil rfl trivial)
    · exact taskSound_leave h

theorem current_iff : t.current horizonMs s = true ↔
    (∀ r ∈ t.started horizonMs s, s.stillOpen r.actId = true ∧ s.knownAnswer r.actId = false) ∧
    (∀ r ∈ t.overwritten, s.stillOpen r.actId = true ∧ s.held r.actId = false) ∧
    ∀ l ∈ t.overwrittenLine, s.log.hasDigest l.id = false := by
  rw [current, Bool.and_eq_true, Bool.and_eq_true, and_assoc, Option.all_eq_true,
    all_eq_true, Option.all_eq_true]
  simp only [Bool.and_eq_true, Bool.not_eq_true', Option.mem_def]

section

variable (h : IntentsStored s)
include h

theorem taskSound_again (hr : Copy s r) (hopen : r.isOpen = true)
    (hgo : afterSame.again horizonMs s d r = some did) : IntentTaskSound s did := by
  rw [afterSame.again] at hgo
  split at hgo
  · cases hgo
    exact taskSound_leave h
  split at hgo
  · split at hgo <;> cases hgo
    · exact taskSound_next h (sound_one rfl hr hopen)
    · exact taskSound_leave h
  split at hgo <;> cases hgo
  · exact taskSound_leave h
  · exact taskSound_next h (sound_one rfl hr hopen)

theorem taskSound_afterSame (hcopies : ∀ r ∈ rs, Copy s r)
    (hgo : afterSame horizonMs s d rs = some did) : IntentTaskSound s did := by
  have hfound : ∀ r, rs.find? (·.isOpen) = some r → Copy s r ∧ r.isOpen = true :=
    fun r hr => ⟨hcopies r (mem_of_find?_eq_some hr), find?_some hr⟩
  rw [afterSame] at hgo
  split at hgo
  · split at hgo
    · cases hgo
      exact taskSound_leave h
    split at hgo
    · next r hr => exact taskSound_again h (hfound r hr).1 (hfound r hr).2 hgo
    · cases hgo
      exact taskSound_next h (sound_nil rfl trivial)
  · split at hgo
    · next r hr => exact taskSound_again h (hfound r hr).1 (hfound r hr).2 hgo
    · cases hgo
      exact taskSound_next h (sound_nil rfl trivial)

theorem taskSound_journal : IntentTaskSound s
    ⟨{ s.write (d.record s.taken.length) none with taken := s.taken ++ [d.command] },
      [.call (.gesture d.command.dedupe) (d.record s.taken.length) true], none⟩ := by
  have hkeeps : IntentsKept s
      { s.write (d.record s.taken.length) none with taken := s.taken ++ [d.command] }
      fun actId => s.held actId = true := keeps_journal h rfl rfl rfl fun _ => rfl
  have hget : (s.write (d.record s.taken.length) none).journal.get? s.taken.length =
      some (d.record s.taken.length) := (get?_write none).trans (if_pos rfl)
  refine ⟨hkeeps, rfl, rfl, fun t ht => ?_, by simp⟩
  rw [mem_singleton.mp ht]
  exact sound_one rfl (copy_of_mem hkeeps.stored (mem_of_get? hget)) rfl

attribute [local simp] SessionTask.goOn in
theorem taskSound_gesture (ht : t.Sound s) (hkind : match t with
      | .read _ | .same _ _ | .readLine _ | .lineRead _ _ | .journal _ => True
      | _ => False)
    (hgo : t.goOn horizonMs s answer = some did) : IntentTaskSound s did := by
  cases t with
  | read d =>
    cases answer <;> cases hgo
    · refine taskSound_next h ⟨fun r hr => ?_, trivial⟩
      exact copy_of_mem h (mem_filter.mp hr).1
    · exact taskSound_leave h
  | same d records =>
    cases answer <;> simp only [goOn, reduceCtorEq] at hgo
    exact taskSound_afterSame h ht.copies hgo
  | readLine d =>
    cases answer <;> simp only [goOn, reduceCtorEq] at hgo
    · split at hgo <;> cases hgo
      exact taskSound_next h (sound_nil rfl trivial)
    · cases hgo
      exact taskSound_leave h
  | lineRead d line =>
    cases answer <;> simp only [goOn, reduceCtorEq] at hgo
    rw [afterLine] at hgo
    split at hgo <;> cases hgo
    · exact taskSound_leave h
    · exact taskSound_next h (sound_nil rfl trivial)
  | journal d =>
    cases answer <;> cases hgo
    · exact taskSound_journal h
    · exact taskSound_leave h
  | _ => cases hkind

end

theorem open_of_replayable (hr : s.replayable r = true) : r.isOpen = true := by
  rw [replayable, Bool.and_eq_true, decide_eq_true_eq] at hr
  rcases hr.2 with hstate | hstate | hstate <;> simp [isOpen, hstate]

section

variable (h : IntentsStored s)
include h

theorem taskSound_afterFind (hr : Copy s r)
    (hgo : afterFind horizonMs s actId r finding = some did) :
    IntentTaskSound s did := by
  have hleave := taskSound_leave h
  cases finding <;> rw [afterFind] at hgo
  · split at hgo
    · cases hgo
      exact hleave
    next hstate =>
    have hopen : r.isOpen = true := by
      simp only [ne_eq, Decidable.not_not] at hstate
      simp [isOpen, hstate]
    split at hgo <;> cases hgo
    · exact taskSound_next h (sound_one rfl hr hopen)
    · exact taskSound_next h (sound_one rfl hr hopen)
  · split at hgo
    · cases hgo
      exact hleave
    split at hgo
    · cases hgo
      exact hleave
    next hstate =>
    have hopen : r.isOpen = true := by
      simp only [not_or, not_and_or, ne_eq, Decidable.not_not] at hstate
      rcases hstate.2 with hstate | hstate <;> simp [isOpen, hstate]
    split at hgo <;> cases hgo
    · exact taskSound_next h (sound_one rfl hr hopen)
    · exact taskSound_next h (sound_one rfl hr hopen)
  · split at hgo <;> cases hgo
    · next hopen => exact taskSound_next h (sound_one rfl hr hopen)
    · exact hleave
  · split at hgo <;> cases hgo
    · next hcan => exact taskSound_next h (sound_one rfl hr (open_of_replayable hcan.1))
    · exact hleave

theorem taskSound_expired (hr : Copy s r)
    (hcurrent : s.stillOpen r.actId = true ∧ s.held r.actId = false)
    (hline : ∀ l ∈ line, LineSound s l) :
    IntentTaskSound s ⟨s.write (r.expired s.now) line, [], none⟩ := by
  have hjournaled : Journaled s (r.expired s.now) := hr.1.with_state rfl rfl rfl nofun
  have hkeeps : IntentsKept s (s.write (r.expired s.now) line)
      fun actId => s.held actId = true := by
    refine keeps_write h hcurrent.1 hjournaled (fun hheld => ?_) hline
    rw [show (r.expired s.now).actId = r.actId from rfl, hcurrent.2] at hheld
    cases hheld
  exact ⟨hkeeps, rfl, rfl, by simp, by simp⟩

theorem taskSound_overwrite (ht : t.Sound s)
    (hcurrent : answer = .ok → t.current horizonMs s = true)
    (hkind : match t with
      | .limitLog _ _ | .limitWrite _ _ _ | .discardWrite _ | .recover | .recoverFound _
      | .recoverWrite _ _ => True
      | _ => False)
    (hgo : t.goOn horizonMs s answer = some did) : IntentTaskSound s did := by
  have hleave := taskSound_leave h
  cases t with
  | limitLog key r =>
    cases answer <;> cases hgo
    · refine taskSound_next h (sound_one rfl (ht.copies r mem_cons_self) ⟨ht.holds, ?_⟩)
      exact ⟨s.log, rfl, fun _ hid => hid⟩
    · exact hleave
  | limitWrite key r line =>
    cases answer <;> cases hgo
    · obtain ⟨-, log, hread, -⟩ := ht.holds
      obtain ⟨-, hopen, hline⟩ := current_iff.mp (hcurrent rfl)
      refine taskSound_expired h (ht.copies r mem_cons_self) (hopen r mem_cons_self)
        fun l hl => .inr ⟨?_, hline l hl⟩
      exact digest_ownMessageLine (.inl rfl) l (mem_unlessSent (hread ▸ hl)).1
    · exact hleave
  | discardWrite r =>
    cases answer <;> simp only [goOn, reduceCtorEq] at hgo
    · split at hgo <;> cases hgo
      obtain ⟨-, hopen, -⟩ := current_iff.mp (hcurrent rfl)
      exact taskSound_expired h (ht.copies r mem_cons_self) (hopen r mem_cons_self) (by simp)
    · cases hgo
      exact hleave
  | recover =>
    cases answer <;> cases hgo
    · exact taskSound_next h ⟨fun r hr => copy_of_mem h hr, trivial⟩
    · exact hleave
  | recoverFound records =>
    cases answer <;> simp only [goOn, reduceCtorEq] at hgo
    cases hgo
    refine taskSound_next h ⟨fun r hr => ht.copies r (mem_filter.mp hr).1, ?_, ?_⟩
    · intro r hr
      have hdone := (mem_filter.mp hr).2
      simpa using hdone
    · intro x hx
      obtain ⟨r, hr, hrecovered⟩ := mem_filterMap.mp hx
      have hcopy := ht.copies r hr
      rw [recovered] at hrecovered
      split at hrecovered
      · cases hrecovered
      next hopen =>
      have hinput : r.hasInput = true := hcopy.input (by
        rw [not_or] at hopen
        simpa using hopen.1)
      split at hrecovered
      · next hpolicy =>
        cases hrecovered
        exact ⟨hcopy.1.with_state rfl rfl rfl nofun, by simp [expired, hpolicy]⟩
      · next hpolicy =>
        split at hrecovered <;> cases hrecovered
        exact ⟨hcopy.1.with_state rfl rfl rfl fun _ => hinput,
          by simp [needsConfirmation, hpolicy]⟩
      · cases hrecovered
  | recoverWrite gone records =>
    cases answer <;> cases hgo
    · obtain ⟨-, hopen, -⟩ := current_iff.mp (hcurrent rfl)
      refine ⟨keeps_recover h (fun r hr => ?_) fun r hr => ?_, rfl, rfl, by simp, by simp⟩
      · obtain ⟨hclosed, hdone⟩ := ht.holds.1 r hr
        exact ⟨(ht.copies r hr).2 hclosed, hdone⟩
      refine ⟨(hopen r hr).1, (ht.holds.2 r hr).1, fun hheld => ?_⟩
      rw [(hopen r hr).2] at hheld
      cases hheld
    · exact hleave
  | _ => cases hkind

theorem taskSound_expireOpen (ht : t.Sound s)
    (hcurrent : answer = .ok → t.current horizonMs s = true)
    (hkind : match t with
      | .expireOpen _ | .expireFound _ _ | .due _ _ | .dueWait _ _ _ | .purge _ => True
      | _ => False)
    (hgo : t.goOn horizonMs s answer = some did) : IntentTaskSound s did := by
  have hleave := taskSound_leave h
  cases t with
  | expireOpen purgeOnly =>
    cases answer <;> cases hgo
    · exact taskSound_next h ⟨fun r hr => copy_of_mem h hr, trivial⟩
    · exact hleave
  | expireFound purgeOnly records =>
    cases answer <;> simp only [goOn, reduceCtorEq] at hgo
    cases hgo
    have hdue : ∀ r ∈ if purgeOnly then [] else dueRecords horizonMs s records,
        r ∈ records ∧ r.isOpen = true := by
      intro r hr
      cases purgeOnly with
      | true => cases hr
      | false =>
        obtain ⟨hmem, hopen⟩ := mem_filter.mp hr
        simp only [Bool.and_eq_true] at hopen
        exact ⟨hmem, hopen.1.1.1⟩
    refine taskSound_next h ⟨fun r hr => ?_, fun r hr => (hdue r hr).2, fun r hr => ?_⟩
    · rcases mem_append.mp hr with hr | hr
      · exact ht.copies r (hdue r hr).1
      · exact ht.copies r (mem_filter.mp hr).1
    · simpa using (mem_filter.mp hr).2
  | due records finished =>
    obtain ⟨hopen, hclosed⟩ := ht.holds
    cases records with
    | nil =>
      cases answer <;> simp only [goOn, reduceCtorEq] at hgo
      cases hgo
      refine taskSound_next h ⟨fun r hr => ht.copies r (mem_filter.mp hr).1, fun r hr => ?_⟩
      obtain ⟨hmem, hdone⟩ := mem_filter.mp hr
      exact ⟨hclosed r hmem, of_decide_eq_true hdone⟩
    | cons r rest =>
      have hrest : ∀ x ∈ rest ++ finished, Copy s x := fun x hx =>
        ht.copies x (mem_cons_of_mem _ hx)
      cases answer <;> simp only [goOn, reduceCtorEq] at hgo
      split at hgo <;> cases hgo
      · exact taskSound_next h ⟨hrest, fun x hx => hopen x (mem_cons_of_mem _ hx), hclosed⟩
      next hnot =>
      obtain ⟨hstill, hknown⟩ :=
        (current_iff.mp (hcurrent rfl)).1 r (by simp [started, hnot])
      refine taskSound_start h (ht.copies r mem_cons_self) (hopen r mem_cons_self)
        hstill ?_ ?_ fun x hx => ?_
      · rw [held_eq, hknown, Bool.or_false]
        simpa using hnot
      · split <;> trivial
      · rw [mem_singleton.mp hx]
        exact ⟨hrest, fun x hx => hopen x (mem_cons_of_mem _ hx), hclosed⟩
  | dueWait actId records finished =>
    cases answer <;> simp only [goOn, reduceCtorEq] at hgo
    split at hgo <;> cases hgo
    exact taskSound_next h ⟨ht.copies, ht.holds⟩
  | purge records =>
    cases answer <;> cases records <;> simp only [goOn, reduceCtorEq] at hgo
    · cases hgo
      exact hleave
    · next r rest =>
      split at hgo <;> cases hgo
      have hkeeps : IntentsKept s { s with
          journal := (r :: rest).foldl (fun journal r => journal.erase r.actId) s.journal }
          fun actId => s.held actId = true := by
        refine @keeps_recover s [] (fun actId => s.held actId = true) (r :: rest) h
          (fun x hx => ?_) (by simp)
        exact ⟨(ht.copies x hx).2 (ht.holds x hx).1, (ht.holds x hx).2⟩
      exact ⟨hkeeps, rfl, rfl, by simp, by simp⟩
    · cases hgo
      exact hleave
    · cases hgo
      exact hleave
  | _ => cases hkind

end

theorem mem_statusLines {items : List (List DeliveryItemView)} (hl : l ∈ statusLines lines items) :
    ∃ v : StatusView, v.line ∈ lines ∧ statusLine v = some l := by
  obtain ⟨⟨line, k⟩, hmem, hline⟩ := mem_filterMap.mp hl
  exact ⟨_, (mem_zipIdx' hmem).2 ▸ getElem_mem _, hline⟩

theorem deliveryOf_ne_expired (items : List DeliveryItemView) :
    deliveryOf items ≠ some .expired := by
  rw [deliveryOf]
  split
  · simp
  split
  · simp
  · simp
  · simp
  · split <;> simp

theorem statusLine_kept {v : StatusView} (hl : statusLine v = some l) :
    v.line.id = l.id ∧ v.line.digest = l.digest ∧
      (v.line.status ≠ some .expired → l.status ≠ some .expired) := by
  simp only [statusLine] at hl
  split at hl <;> cases hl
  refine ⟨rfl, rfl, fun hstatus => ?_⟩
  cases hdelivery : deliveryOf v.items with
  | none => exact hstatus
  | some status =>
    rw [Option.some_or]
    exact hdelivery ▸ deliveryOf_ne_expired v.items

theorem taskSound_rest (h : IntentsStored s) (ht : t.Sound s)
    (hcurrent : answer = .ok → t.current horizonMs s = true)
    (hkind : match t with
      | .call _ _ _ | .wait _ _ | .settle _ | .find _ _ | .found _ _ _ | .replayOpen
      | .replayFound _ | .sync | .syncWrite _ => True
      | _ => False)
    (hgo : t.goOn horizonMs s answer = some did) : IntentTaskSound s did := by
  have hleave := taskSound_leave h
  cases t with
  | call key r fresh =>
    cases answer <;> simp only [goOn, reduceCtorEq] at hgo
    refine taskSound_execute h (ht.copies r mem_cons_self) ht.holds (fun hcan => ?_) hgo
    exact ((current_iff.mp (hcurrent rfl)).1 r (by simp [started, hcan])).1
  | wait key actId =>
    cases answer <;> simp only [goOn, reduceCtorEq] at hgo
    split at hgo <;> cases hgo
    exact hleave
  | settle r =>
    cases answer <;> simp only [goOn, reduceCtorEq] at hgo
    split at hgo
    · next hsettle =>
      refine taskSound_execute h (ht.copies r mem_cons_self) ht.holds (fun hcan => ?_) hgo
      exact ((current_iff.mp (hcurrent rfl)).1 r (by simp [started, hsettle, hcan])).1
    · cases hgo
      exact hleave
  | find finding actId =>
    cases answer <;> cases hgo
    · refine taskSound_next h ⟨fun r hr => ?_, trivial⟩
      exact copy_of_mem h (mem_of_get? (Option.mem_toList.mp hr))
    · exact hleave
  | found finding actId r =>
    cases answer <;> cases r <;> simp only [goOn, reduceCtorEq] at hgo
    · cases hgo
      exact hleave
    · exact taskSound_afterFind h (ht.copies _ mem_cons_self) hgo
  | replayOpen =>
    cases answer <;> cases hgo
    · exact taskSound_next h ⟨fun r hr => copy_of_mem h hr, trivial⟩
    · exact hleave
  | replayFound records =>
    cases answer <;> cases records <;> simp only [goOn, reduceCtorEq] at hgo
    · cases hgo
      exact hleave
    next r rest =>
    have hrest : Sound s (.replayFound rest) :=
      ⟨fun x hx => ht.copies x (mem_cons_of_mem _ hx), trivial⟩
    have hr := ht.copies r mem_cons_self
    split at hgo
    · next hlook =>
      cases hgo
      obtain ⟨hstill, hknown⟩ :=
        (current_iff.mp (hcurrent rfl)).1 r (by simp [started, hlook])
      simp only [looksUp, Bool.and_eq_true, decide_eq_true_eq, Bool.not_eq_true'] at hlook
      obtain ⟨⟨-, hstate⟩, hexecuting⟩ := hlook
      have hopen : r.isOpen = true := by
        rcases hstate with hstate | hstate | hstate <;> simp [isOpen, hstate]
      refine taskSound_start h hr hopen hstill ?_ trivial fun x hx => ?_
      · rw [held_eq, hknown, hexecuting]
        rfl
      · rw [mem_singleton.mp hx]
        exact hrest
    · split at hgo
      · next hreplay =>
        cases hgo
        refine ⟨.refl h, rfl, rfl, fun x hx => ?_, by simp⟩
        rcases mem_cons.mp hx with rfl | hx
        · exact hrest
        · rw [mem_singleton.mp hx]
          exact sound_one rfl hr (open_of_replayable hreplay.2.2)
      · cases hgo
        exact taskSound_next h hrest
  | sync =>
    cases answer <;> simp only [goOn, reduceCtorEq] at hgo
    · split at hgo <;> cases hgo
      refine taskSound_next h (sound_nil rfl fun l hl => ?_)
      obtain ⟨hmem, hpending⟩ := mem_filter.mp hl
      simp only [Bool.and_eq_true] at hpending
      refine ⟨hpending.1.2, h.digests l hmem hpending.1.2, ?_⟩
      rw [hasDigest, mem_rows_iff.mp hmem, Option.any_some]
      exact hpending.1.2
    · cases hgo
      exact hleave
  | syncWrite lines =>
    cases answer <;> simp only [goOn, reduceCtorEq] at hgo
    · cases hgo
      exact hleave
    next items =>
    cases hgo
    refine ⟨keeps_sync h fun l hl => ?_, rfl, rfl, by simp, by simp⟩
    obtain ⟨v, hv, hline⟩ := mem_statusLines hl
    obtain ⟨hdigest, hstatus, hlog⟩ := ht.holds v.line hv
    obtain ⟨hid, hdigest', hstatus'⟩ := statusLine_kept hline
    exact ⟨hdigest' ▸ hdigest, hstatus' hstatus, hid ▸ hlog⟩
  | _ => cases hkind

theorem taskSound_goOn (h : IntentsStored s) (ht : t.Sound s)
    (hcurrent : answer = .ok → t.current horizonMs s = true)
    (hgo : t.goOn horizonMs s answer = some did) : IntentTaskSound s did := by
  cases t with
  | read | same | readLine | lineRead | journal => exact taskSound_gesture h ht trivial hgo
  | limitLog | limitWrite | discardWrite | recover | recoverFound | recoverWrite =>
    exact taskSound_overwrite h ht hcurrent trivial hgo
  | expireOpen | expireFound | due | dueWait | purge =>
    exact taskSound_expireOpen h ht hcurrent trivial hgo
  | call | wait | settle | find | found | replayOpen | replayFound | sync | syncWrite =>
    exact taskSound_rest h ht hcurrent trivial hgo

/-! ## 6. Runs -/

structure IntentInv (s : SessionIntents) : Prop where
  stored : IntentsStored s
  executions : ∀ e ∈ s.executions, e.Sound s
  nodup : (s.executions.map (·.record.actId)).Nodup
  tasks : ∀ t ∈ s.tasks, t.Sound s

variable {i : IntentInput} {k : Nat}

theorem intentInv_start : IntentInv .start := by
  refine ⟨⟨?_, ?_⟩, ?_, ?_, ?_⟩ <;> simp [start]

theorem IntentsKept.with_calls (h : IntentsKept s s' kept)
    (tasks : List SessionTask) (executions : List Execution) :
    IntentsKept s { s' with tasks, executions } kept :=
  ⟨⟨h.grows.now, h.grows.taken, h.grows.settled, h.grows.digest⟩,
    ⟨h.stored.journaled, h.stored.digests⟩, h.opens, h.opened, h.quiet⟩

theorem SessionTask.Sound.with_calls (ht : t.Sound s) (tasks : List SessionTask)
    (executions : List Execution) : t.Sound { s with tasks, executions } :=
  ht.mono ⟨Nat.le_refl _, prefix_rfl, fun _ hr => hr, fun _ hid => hid⟩

theorem Execution.Sound.with_calls (he : e.Sound s) (tasks : List SessionTask)
    (executions : List Execution) : e.Sound { s with tasks, executions } :=
  he.mono prefix_rfl (fun ho => ho) fun _ _ => rfl

section

variable (h : IntentInv s)
include h

theorem intentInv_goOn (hcurrent : CopiesCurrent horizonMs s (.goOn k answer))
    (hs : intentStep horizonMs s (.goOn k answer) = some s') :
    IntentInv s' ∧ IntentGrowth s s' := by
  rw [intentStep] at hs
  split at hs
  · cases hs
  next task hk =>
  obtain ⟨did, hgo, rfl⟩ := Option.map_eq_some_iff.mp hs
  have hmem : task ∈ s.tasks := mem_of_getElem? hk
  have hok : answer = .ok → task.current horizonMs s = true := by
    rintro rfl
    rw [CopiesCurrent, hk] at hcurrent
    exact hcurrent
  have hsound := taskSound_goOn h.stored (h.tasks task hmem) hok hgo
  have hkeeps := hsound.keeps.with_calls (s.tasks.eraseIdx k ++ did.tasks)
    (s.executions ++ did.execution.toList)
  refine ⟨⟨hkeeps.stored, fun e he => ?_, ?_, fun t ht => ?_⟩, hkeeps.grows⟩
  · rcases mem_append.mp he with he | he
    · refine (h.executions e he).of_keeps he hkeeps ?_
      exact any_eq_true.mpr ⟨e, he, decide_eq_true rfl⟩
    · exact (hsound.execution e (Option.mem_toList.mp he)).1.with_calls _ _
  · show ((s.executions ++ did.execution.toList).map (·.record.actId)).Nodup
    rw [map_append, nodup_append]
    refine ⟨h.nodup, by cases did.execution <;> simp, fun a ha b hb => ?_⟩
    obtain ⟨e, he, rfl⟩ := mem_map.mp hb
    obtain ⟨x, hx, rfl⟩ := mem_map.mp ha
    have hfree := (hsound.execution e (Option.mem_toList.mp he)).2
    intro hid
    rw [held, any_eq_false] at hfree
    exact hfree x hx (decide_eq_true hid)
  · rcases mem_append.mp ht with ht | ht
    · exact (h.tasks t (mem_of_mem_eraseIdx ht)).mono hkeeps.grows
    · exact (hsound.tasks t ht).with_calls _ _

omit h in
theorem others_of_nodup (h : (s.executions.map (·.record.actId)).Nodup)
    (hk : s.executions[k]? = some e) :
    ∀ x ∈ s.executions.eraseIdx k, x.record.actId ≠ e.record.actId := by
  intro x hx hid
  obtain ⟨j, hne, hj⟩ := mem_eraseIdx_iff_getElem?.mp hx
  have hsame : (s.executions.map (·.record.actId))[j]? =
      (s.executions.map (·.record.actId))[k]? := by
    rw [getElem?_map, getElem?_map, hj, hk, Option.map_some, Option.map_some, hid]
  have hlt : j < (s.executions.map (·.record.actId)).length := by
    rw [length_map]
    exact (List.getElem?_eq_some_iff.mp hj).1
  exact hne ((getElem?_inj hlt h).mp hsame)

theorem intentInv_run {answer : ExecutionAnswer}
    (hs : intentStep horizonMs s (.run k answer) = some s') : IntentInv s' ∧ IntentGrowth s s' := by
  rw [intentStep] at hs
  split at hs
  · cases hs
  next e hk =>
  obtain ⟨did, hgo, rfl⟩ := Option.map_eq_some_iff.mp hs
  have hmem : e ∈ s.executions := mem_of_getElem? hk
  have hsound := executionSound_goOn h.stored (h.executions e hmem) hgo
  have hkeeps := hsound.keeps.with_calls did.1.tasks (s.executions.eraseIdx k ++ did.2.toList)
  have hothers := others_of_nodup h.nodup hk
  refine ⟨⟨hkeeps.stored, fun x hx => ?_, ?_, fun t ht => ?_⟩, hkeeps.grows⟩
  · rcases mem_append.mp hx with hx | hx
    · exact (h.executions x (mem_of_mem_eraseIdx hx)).of_keeps
        (mem_of_mem_eraseIdx hx) hkeeps (hothers x hx)
    · exact (hsound.execution x (Option.mem_toList.mp hx)).2.with_calls _ _
  · show ((s.executions.eraseIdx k ++ did.2.toList).map (·.record.actId)).Nodup
    rw [map_append, nodup_append]
    refine ⟨h.nodup.sublist ((eraseIdx_sublist _ _).map _), by cases did.2 <;> simp,
      fun a ha b hb => ?_⟩
    obtain ⟨x, hx, rfl⟩ := mem_map.mp ha
    obtain ⟨e', he', rfl⟩ := mem_map.mp hb
    rw [(hsound.execution e' (Option.mem_toList.mp he')).1]
    exact hothers x hx
  · have ht' : t ∈ s.tasks := hsound.tasks ▸ ht
    exact (h.tasks t ht').mono hkeeps.grows

theorem intentInv_spawn (ht : t.Sound s) (hs : s.spawn t = some s') :
    IntentInv s' ∧ IntentGrowth s s' := by
  rw [spawn] at hs
  split at hs <;> cases hs
  · exact ⟨h, .refl⟩
  have hkeeps := (@IntentsKept.refl s (fun _ => True) h.stored).with_calls
    (s.tasks ++ [t]) s.executions
  refine ⟨⟨hkeeps.stored, fun e he => (h.executions e he).with_calls _ _, h.nodup,
    fun x hx => ?_⟩, hkeeps.grows⟩
  rcases mem_append.mp hx with hx | hx
  · exact (h.tasks x hx).with_calls _ _
  · rw [mem_singleton.mp hx]
    exact ht.with_calls _ _

theorem intentInv_of_same (hjournal : s'.journal = s.journal)
    (hlog : s'.log = s.log) (htaken : s'.taken = s.taken) (hnow : s.now ≤ s'.now)
    (hexecutions : s'.executions = s.executions ∨ s'.executions = [])
    (htasks : s'.tasks = s.tasks ∨ s'.tasks = []) : IntentInv s' ∧ IntentGrowth s s' := by
  have htaken' : s.taken <+: s'.taken := htaken ▸ prefix_rfl
  have hgrows : IntentGrowth s s' :=
    ⟨hnow, htaken', fun r hr => hr.of_get? htaken' hnow (by rw [hjournal]),
      fun id hid => by rwa [hlog]⟩
  refine ⟨⟨⟨fun r hr => ?_, by rw [hlog]; exact h.stored.digests⟩, fun e he => ?_, ?_,
    fun t ht => ?_⟩, hgrows⟩
  · rw [hjournal] at hr
    exact (h.stored.journaled r hr).mono htaken'
  · rcases hexecutions with hsame | hnone
    · rw [hsame] at he
      refine (h.executions e he).mono htaken' (fun ho => ?_) fun _ id => by rw [hlog]
      rwa [stillOpen, hjournal]
    · rw [hnone] at he
      cases he
  · rcases hexecutions with hsame | hnone
    · rw [hsame]
      exact h.nodup
    · rw [hnone]
      exact nodup_nil
  · rcases htasks with hsame | hnone
    · rw [hsame] at ht
      exact (h.tasks t ht).mono hgrows
    · rw [hnone] at ht
      cases ht

theorem intentInv_step (hcurrent : CopiesCurrent horizonMs s i)
    (hs : intentStep horizonMs s i = some s') : IntentInv s' ∧ IntentGrowth s s' := by
  have hplain : ∀ t : SessionTask, t.copies = [] → t.Holds s → s.spawn t = some s' →
      IntentInv s' ∧ IntentGrowth s s' :=
    fun t hcopies hholds hspawn => intentInv_spawn h (sound_nil hcopies hholds) hspawn
  cases i with
  | goOn k answer => exact intentInv_goOn h hcurrent hs
  | run k answer => exact intentInv_run h hs
  | gesture command auto => exact hplain (.read ⟨command, s.now, auto⟩) rfl trivial hs
  | find finding actId => exact hplain (.find finding actId) rfl trivial hs
  | expireOpen purgeOnly => exact hplain (.expireOpen purgeOnly) rfl trivial hs
  | recover => exact hplain .recover rfl trivial hs
  | sync => exact hplain .sync rfl trivial hs
  | replayOpen =>
    rw [intentStep] at hs
    split at hs
    · exact hplain .replayOpen rfl trivial hs
    · cases hs
      exact ⟨h, .refl⟩
  | resume | forget | stop =>
    cases hs
    exact intentInv_of_same h rfl rfl rfl (Nat.le_refl _) (.inl rfl) (.inl rfl)
  | tick ms =>
    cases hs
    exact intentInv_of_same h rfl rfl rfl (Nat.le_add_right _ _) (.inl rfl) (.inl rfl)
  | crash =>
    cases hs
    exact intentInv_of_same h rfl rfl rfl (Nat.le_refl _) (.inr rfl) (.inr rfl)
  | reopen =>
    rw [intentStep] at hs
    split at hs <;> cases hs
    exact intentInv_of_same h rfl rfl rfl (Nat.le_refl _) (.inl rfl) (.inl rfl)

theorem IntentInv.reaches
    (hreach : Machine.Reaches (intentStep horizonMs) (CopiesCurrent horizonMs) s s') :
    IntentInv s' ∧ IntentGrowth s s' := by
  induction hreach with
  | start => exact ⟨h, .refl⟩
  | step _ ha hs ih =>
    obtain ⟨hinv, hgrows⟩ := ih
    obtain ⟨hinv', hgrows'⟩ := intentInv_step hinv ha hs
    exact ⟨hinv', hgrows.trans hgrows'⟩

end

end

/-! ## 7. The records of the contact order -/

section

variable {ν : Type} {library : ContactLibrary ν} {s s' s'' : ContactOrder ν}
  {lanes₀ : ContactLane → ν} {first : OrderSection} {rest : List OrderSection}
  {r x : OrderedRecord} {records : List OrderedRecord} {stage : OrderStage} {answer : OrderAnswer}
  {command : OrderedCommand} {actId : ActId} {i : OrderInput}

/-- A settled record of the contact order; its actId is not drawn again. -/
def SettledOrder (s : ContactOrder ν) (r : OrderedRecord) : Prop :=
  r.isOpen = false ∧ (r.actId < s.nextActId ∧ r.actId ∉ newIds s.sections) ∧
    (s.journal.get? r.actId = some r ∨ s.journal.get? r.actId = none ∧ doneUntil r < s.now)

/-- No actId is drawn, and no time passes. -/
structure DrawsNone (s s' : ContactOrder ν) : Prop where
  next : s'.nextActId = s.nextActId
  now : s'.now = s.now
  ids : ∀ a ∈ newIds s'.sections, a ∈ newIds s.sections

theorem DrawsNone.refl : DrawsNone s s := ⟨rfl, rfl, fun _ ha => ha⟩

theorem drawsNone_advance (hs : s.sections = first :: rest)
    (hstage : ∀ a, stage.newId? = some a → first.stage.newId? = some a) :
    DrawsNone s (s.advance stage) := by
  rw [advance_eq hs]
  refine ⟨rfl, rfl, fun a ha => ?_⟩
  obtain ⟨x, hx, hid⟩ := mem_filterMap.mp ha
  rw [hs]
  rcases mem_cons.mp hx with rfl | hx
  · exact mem_filterMap.mpr ⟨first, mem_cons_self, hstage a hid⟩
  · exact mem_filterMap.mpr ⟨x, mem_cons_of_mem _ hx, hid⟩

section

variable (h : DrawsNone s s')
include h

theorem DrawsNone.advance (hstage : stage.newId? = none) : DrawsNone s (s'.advance stage) := by
  rw [ContactOrder.advance]
  split
  · exact h
  next first rest hs =>
  refine ⟨h.next, h.now, fun a ha => h.ids a ?_⟩
  obtain ⟨x, hx, hid⟩ := mem_filterMap.mp ha
  rw [hs]
  rcases mem_cons.mp hx with rfl | hx
  · rw [hstage] at hid
    cases hid
  · exact mem_filterMap.mpr ⟨x, mem_cons_of_mem _ hx, hid⟩

theorem DrawsNone.leave : DrawsNone s s'.leave := by
  rw [ContactOrder.leave]
  split
  · exact h
  next first rest hs =>
  refine ⟨h.next, h.now, fun a ha => h.ids a ?_⟩
  obtain ⟨x, hx, hid⟩ := mem_filterMap.mp ha
  rw [hs]
  exact mem_filterMap.mpr ⟨x, mem_cons_of_mem _ hx, hid⟩

theorem DrawsNone.stayOpen : DrawsNone s s'.stayOpen := by
  rw [ContactOrder.stayOpen, planOrdered_eq]
  exact DrawsNone.leave ⟨h.next, h.now, h.ids⟩

theorem DrawsNone.runQueue : DrawsNone s (s'.runQueue records) := by
  cases records with
  | nil => exact h.leave
  | cons record rest => exact h.advance rfl

end

theorem DrawsNone.commit {act : PartSuffix × LibraryAct} (h : DrawsNone s s') :
    DrawsNone s (s'.commit library actId act) := by
  rw [ContactOrder.commit]
  split
  · exact h
  · exact ⟨h.next, h.now, h.ids⟩

theorem DrawsNone.recoverOrdered (h : DrawsNone s s') : DrawsNone s s'.recoverOrdered := by
  rw [ContactOrder.recoverOrdered]
  split
  · exact h
  refine ⟨h.next, h.now, fun a ha => h.ids a ?_⟩
  obtain ⟨x, hx, hid⟩ := mem_filterMap.mp ha
  rcases mem_append.mp hx with hx | hx
  · exact mem_filterMap.mpr ⟨x, hx, hid⟩
  · rw [mem_singleton.mp hx] at hid
    cases hid

theorem drawsNone_goOn (hs : s.sections = first :: rest)
    (hgo : s.goOn library first.stage answer = some s') : DrawsNone s s' := by
  cases hstage : first.stage with
  | taken actId command =>
    rw [hstage] at hgo
    cases answer <;> simp only [ContactOrder.goOn, reduceCtorEq] at hgo
    · split at hgo <;> cases hgo
      · refine drawsNone_advance hs fun a ha => ?_
        rw [hstage]
        exact ha
      · exact DrawsNone.refl.leave
    · cases hgo
      exact DrawsNone.refl.leave
  | journal actId command records =>
    rw [hstage] at hgo
    cases answer <;> cases hgo
    · exact DrawsNone.runQueue ⟨rfl, rfl, fun _ ha => ha⟩
    · exact DrawsNone.refl.leave
  | recover =>
    rw [hstage] at hgo
    cases answer <;> simp only [ContactOrder.goOn, reduceCtorEq] at hgo
    split at hgo <;> cases hgo
    · exact DrawsNone.advance ⟨rfl, rfl, fun _ ha => ha⟩ rfl
    · exact DrawsNone.leave ⟨rfl, rfl, fun _ ha => ha⟩
  | recovering =>
    rw [hstage] at hgo
    cases answer <;> cases hgo
    · exact DrawsNone.refl.advance rfl
    · exact DrawsNone.refl.stayOpen
  | recovered records | finish record outcome rest =>
    rw [hstage] at hgo
    cases answer <;> cases hgo
    · exact DrawsNone.runQueue ⟨rfl, rfl, fun _ ha => ha⟩
    · exact DrawsNone.refl.stayOpen
  | attempt record rest =>
    rw [hstage] at hgo
    cases answer <;> simp only [ContactOrder.goOn, reduceCtorEq] at hgo
    split at hgo
    · split at hgo <;> cases hgo <;> exact DrawsNone.refl.advance rfl
    · cases hgo
      exact DrawsNone.refl.leave
  | part record act acts partly rest =>
    rw [hstage] at hgo
    cases answer with
    | ok => cases acts <;> cases hgo <;> exact DrawsNone.refl.commit.advance rfl
    | fail =>
      cases hgo
      exact DrawsNone.refl.advance rfl
    | failCommitted =>
      cases hgo
      exact DrawsNone.refl.commit.advance rfl
    | refuse transient =>
      rw [ContactOrder.goOn] at hgo
      split at hgo
      · cases hgo
      · split at hgo <;> cases hgo <;> exact DrawsNone.refl.advance rfl
  | markOpen record =>
    rw [hstage] at hgo
    cases answer <;> cases hgo
    · exact DrawsNone.stayOpen ⟨rfl, rfl, fun _ ha => ha⟩
    · exact DrawsNone.refl.stayOpen

section

variable (hr : SettledOrder s r)
include hr

theorem SettledOrder.ne (hx : x ∈ openRecords s.journal) : x.actId ≠ r.actId := by
  intro hid
  obtain ⟨hmem, hopen⟩ := mem_openRecords.mp hx
  have hget := mem_rows_iff.mp hmem
  obtain ⟨hclosed, -, hstored | ⟨hgone, -⟩⟩ := hr
  · rw [hid, hstored] at hget
    cases hget
    rw [hclosed] at hopen
    cases hopen
  · rw [hid, hgone] at hget
    cases hget

theorem SettledOrder.mono (h : DrawsNone s s')
    (hget : s'.journal.get? r.actId = s.journal.get? r.actId) : SettledOrder s' r := by
  obtain ⟨hclosed, ⟨hlt, hnew⟩, hstored⟩ := hr
  refine ⟨hclosed, ⟨h.next ▸ hlt, fun hmem => hnew (h.ids _ hmem)⟩, ?_⟩
  rw [hget, h.now]
  exact hstored

theorem get?_put_of_open (hx : x ∈ openRecords s.journal)
    {written : OrderedRecord} (hid : written.actId = x.actId) :
    (s.journal.put written).get? r.actId = s.journal.get? r.actId := by
  rw [get?_put, if_neg]
  rw [hid]
  exact hr.ne hx

theorem get?_dedupe_write (hnew : actId ∈ newIds s.sections) {d : Dedupe}
    (hd : dedupe actId command s.now (openRecords s.journal) = d) :
    (d.write s.now s.journal).get? r.actId = s.journal.get? r.actId := by
  have hended : (endSuperseded s.now d.superseded s.journal).get? r.actId =
      s.journal.get? r.actId := by
    have hfold : endSuperseded s.now d.superseded s.journal =
        (d.superseded.map (supersededWrite s.now)).foldl put s.journal := by
      rw [foldl_map]
      rfl
    rw [hfold]
    rcases get?_foldl_put s.journal (d.superseded.map (supersededWrite s.now)) r.actId
      with ⟨y, hy, hid, -⟩ | ⟨-, hsame⟩
    · obtain ⟨x, hx, rfl⟩ := mem_map.mp hy
      rw [← hd] at hx
      exact absurd hid (hr.ne (x := x) (mem_filter.mp hx).1)
    · exact hsame
  rw [Dedupe.write]
  split
  · exact hended
  next hsame =>
  have hrecord : d.record.actId = actId := by
    rw [← hd] at hsame ⊢
    have hnone := Option.not_isSome_iff_eq_none.mp hsame
    show ((sameGesture command (openRecords s.journal)).getD _).actId = actId
    rw [show sameGesture command (openRecords s.journal) = none from hnone]
    rfl
  refine (get?_put ..).trans ((if_neg ?_).trans hended)
  rw [hrecord]
  rintro rfl
  exact hr.2.1.2 hnew

end

theorem settledOrder_goOn (h : OrderInv library lanes₀ s) (hs : s.sections = first :: rest)
    (hgo : s.goOn library first.stage answer = some s') (hr : SettledOrder s r) :
    SettledOrder s' r := by
  refine hr.mono (drawsNone_goOn hs hgo) ?_
  have hheld := h.sections.held first (by rw [hs]; rfl)
  cases hstage : first.stage with
  | journal actId command records =>
    rw [hstage] at hheld hgo
    have hnew : actId ∈ newIds s.sections := by
      rw [hs, newIds, filterMap_cons, hstage]
      exact mem_cons_self
    cases answer <;> cases hgo
    · rw [runQueue_journal]
      have hrecords : records = openRecords s.journal := hheld
      subst hrecords
      exact get?_dedupe_write hr hnew rfl
    · rw [leave_journal]
  | recovered records =>
    rw [hstage] at hheld hgo
    have hrecords : records = openRecords s.journal := hheld
    cases answer <;> cases hgo
    · rw [runQueue_journal, hrecords, undecidable_eq_nil h.queue]
      rfl
    · rw [stayOpen_journal]
  | markOpen record =>
    rw [hstage] at hheld hgo
    obtain ⟨rest, hopen⟩ := hheld
    cases answer <;> cases hgo
    · rw [stayOpen_journal]
      exact get?_put_of_open (x := record) hr (hopen ▸ mem_cons_self) rfl
    · rw [stayOpen_journal]
  | finish record outcome rest =>
    rw [hstage] at hheld hgo
    obtain ⟨hopen, -⟩ := hheld
    cases answer <;> cases hgo
    · rw [runQueue_journal]
      exact get?_put_of_open (x := record) hr (hopen ▸ mem_cons_self) rfl
    · rw [stayOpen_journal]
  | _ =>
    rw [hstage] at hgo
    rw [goOn_journal hgo trivial]

theorem settledOrder_step (h : OrderInv library lanes₀ s)
    (hs : orderStep library s i = some s') (hr : SettledOrder s r) : SettledOrder s' r := by
  have hsame (hdraws : DrawsNone s s') (hjournal : s'.journal = s.journal) : SettledOrder s' r :=
    hr.mono hdraws (by rw [hjournal])
  cases i with
  | goOn answer =>
    rw [orderStep] at hs
    split at hs
    · cases hs
    · next hsections => exact settledOrder_goOn h hsections hs hr
  | gesture command =>
    rw [orderStep] at hs
    split at hs <;> cases hs
    · exact hr
    obtain ⟨hclosed, ⟨hlt, hnew⟩, hstored⟩ := hr
    refine ⟨hclosed, ⟨Nat.lt_succ_of_lt hlt, fun hmem => ?_⟩, hstored⟩
    obtain ⟨x, hx, hid⟩ := mem_filterMap.mp hmem
    rcases mem_append.mp hx with hx | hx
    · exact hnew (mem_filterMap.mpr ⟨x, hx, hid⟩)
    rw [mem_singleton.mp hx] at hid
    have heq : s.nextActId = r.actId := Option.some.inj hid
    exact absurd heq (Nat.ne_of_gt hlt)
  | purge actId =>
    rw [orderStep] at hs
    split at hs
    · cases hs
    next x hget =>
    split at hs
    · next hfinished =>
      cases hs
      obtain ⟨hclosed, hnew, hstored⟩ := hr
      have herase := get?_erase s.journal actId r.actId
      by_cases hid : actId = r.actId
      · refine ⟨hclosed, hnew, .inr ⟨herase.trans (if_pos hid), ?_⟩⟩
        rcases hstored with hstored | ⟨-, hdone⟩
        · rw [hid, hstored] at hget
          cases hget
          exact hfinished.2
        · exact hdone
      · exact SettledOrder.mono ⟨hclosed, hnew, hstored⟩ ⟨rfl, rfl, fun _ ha => ha⟩
          (herase.trans (if_neg hid))
    · cases hs
  | tick ms =>
    cases hs
    exact ⟨hr.1, hr.2.1, hr.2.2.imp_right fun hdone =>
      ⟨hdone.1, hdone.2.trans_le (Nat.le_add_right _ _)⟩⟩
  | reopen =>
    rw [orderStep] at hs
    split at hs <;> cases hs
    refine hsame ⟨rfl, rfl, fun _ ha => ha⟩ ?_
    show dropInvalid s.journal (undecidable (openOrdered s.journal)) = s.journal
    rw [openOrdered_eq h.queue, undecidable_eq_nil h.queue]
    rfl
  | timer =>
    rw [orderStep] at hs
    split at hs <;> cases hs
    exact hsame (DrawsNone.recoverOrdered ⟨rfl, rfl, fun _ ha => ha⟩) recoverOrdered_journal
  | retry =>
    cases hs
    exact hsame DrawsNone.refl.recoverOrdered recoverOrdered_journal
  | due ok =>
    rw [orderStep] at hs
    split at hs
    · cases hs
    · split at hs <;> cases hs <;> exact hr
  | replayOpen =>
    rw [orderStep] at hs
    split at hs <;> cases hs
    exact hr
  | replay k =>
    rw [orderStep] at hs
    split at hs
    · cases hs
    next met hk =>
    cases hs
    cases met with
    | true =>
      exact hsame (DrawsNone.recoverOrdered ⟨rfl, rfl, fun _ ha => ha⟩) recoverOrdered_journal
    | false => exact hr
  | stop =>
    cases hs
    exact hr
  | crash =>
    cases hs
    exact hsame ⟨rfl, rfl, fun _ ha => absurd ha List.not_mem_nil⟩ rfl

theorem settledOrder_reaches
    (h : Machine.Reaches (orderStep library) (fun _ _ => True) (.start lanes₀) s)
    (h' : Machine.Reaches (orderStep library) (fun _ _ => True) s s') (hr : SettledOrder s r) :
    SettledOrder s' r := by
  have hinv : OrderInv library lanes₀ s :=
    h.invariant orderInv_start fun _ _ _ hinv _ hs => orderInv_step hinv hs
  have hboth : OrderInv library lanes₀ s' ∧ SettledOrder s' r :=
    h'.invariant (P := fun s => OrderInv library lanes₀ s ∧ SettledOrder s r) ⟨hinv, hr⟩
      fun _ _ _ hinv _ hs => ⟨orderInv_step hinv.1 hs, settledOrder_step hinv.1 hs hinv.2⟩
  exact hboth.2

end

/-! ## 8. Settled records and lines -/

section

variable {horizonMs : Nat} {s s' : SessionIntents} {ν : Type} {library : ContactLibrary ν}
  {lanes₀ : ContactLane → ν} {o o' : ContactOrder ν}

/-- **What is settled stays settled**: a finished record is stored as it is until its retention is
    over, a line that has a digest keeps one and is not that of an expired message, and the
    finished records of the contact order stay as they are, too. -/
theorem settled_kept (h : Machine.Reaches (intentStep horizonMs) (CopiesCurrent horizonMs) .start s)
    (h' : Machine.Reaches (intentStep horizonMs) (CopiesCurrent horizonMs) s s')
    (ho : Machine.Reaches (orderStep library) (fun _ _ => True) (.start lanes₀) o)
    (ho' : Machine.Reaches (orderStep library) (fun _ _ => True) o o') :
    (∀ r ∈ s.journal.rows, r.isOpen = false → s'.journal.get? r.actId = some r ∨
      s'.journal.get? r.actId = none ∧ doneUntil r < s'.now) ∧
    (∀ l ∈ s.log.rows, l.digest.isSome = true → ∃ l', s'.log.get? l.id = some l' ∧
      l'.digest.isSome = true ∧ l'.status ≠ some .expired) ∧
    (∀ r ∈ o.journal.rows, r.isOpen = false → o'.journal.get? r.actId = some r ∨
      o'.journal.get? r.actId = none ∧ doneUntil r < o'.now) := by
  obtain ⟨hinv, -⟩ := intentInv_start.reaches h
  obtain ⟨hinv', hgrows⟩ := hinv.reaches h'
  refine ⟨fun r hr hclosed => ?_, fun l hl hdigest => ?_, fun r hr hclosed => ?_⟩
  · have hsettled : SettledIntent s r := (copy_of_mem hinv.stored hr).2 hclosed
    exact (hgrows.settled r hsettled).2.2
  · have hhas : s.log.hasDigest l.id = true := by
      rw [hasDigest, mem_rows_iff.mp hl, Option.any_some]
      exact hdigest
    obtain ⟨l', hget, hdigest'⟩ := (Option.any_eq_true ..).mp (hgrows.digest _ hhas)
    exact ⟨l', hget, hdigest', hinv'.stored.digests l' (mem_of_get? hget) hdigest'⟩
  · have horder : OrderInv library lanes₀ o :=
      ho.invariant orderInv_start fun _ _ _ hinv _ hs => orderInv_step hinv hs
    have hid : r.actId ∈ journaledIds o.journal := mem_map_of_mem hr
    have hsettled : SettledOrder o r := by
      refine ⟨hclosed, ⟨horder.sections.fresh _ (mem_append_left _ hid), fun hnew => ?_⟩,
        .inl (mem_rows_iff.mp hr)⟩
      exact (nodup_append.mp horder.sections.nodup).2.2 _ hid _ hnew rfl
    exact (settledOrder_reaches ho ho' hsettled).2.2

/-- A message that goes out, is looked at again by a retry, a discard and a sync, and is still
    there after all of them; and a block that was done. -/
theorem settled_kept_run : ∃ s s' : SessionIntents, ∃ o : ContactOrder ClassSetting,
    (∃ r ∈ s.journal.rows, r.state = .done ∧ r ∈ s'.journal.rows) ∧
      (∃ l ∈ s.log.rows, l.digest = some "d" ∧ ∃ l', s'.log.get? l.id = some l' ∧
        l'.digest.isSome = true ∧ l'.status ≠ some .expired) ∧
      ∃ r ∈ o.journal.rows, r.state = .done := by
  obtain ⟨s, s', hs, hs', hp⟩ := Machine.Reaches.of_exec_append (intentStep RETRY_HORIZON_MS)
    (CopiesCurrent RETRY_HORIZON_MS) .start
    (flatten [[.reopen, .gesture (.send ⟨"c", "hello", "k", none⟩) false],
      replicate 6 (.goOn 0 .ok),
      [.run 0 .ok, .find .retry 0, .run 0 (.committed ⟨"m", "d"⟩), .run 0 .ok]])
    [.goOn 1 .ok, .find .discard 0, .goOn 2 .ok, .goOn 2 .ok, .goOn 1 .ok, .sync, .goOn 1 .ok,
      .goOn 1 (.views []), .tick 1000]
    (fun s s' => decide ((∃ r ∈ s.journal.rows, r.state = .done) ∧
      (∃ l ∈ s.log.rows, l.digest = some "d") ∧ s'.now = 1000 ∧
      ∀ r ∈ s.journal.rows, s'.now ≤ doneUntil r))
    (by decide +kernel)
  obtain ⟨o, ho, hq⟩ := Machine.Reaches.of_exec (orderStep plainLibrary) (fun _ _ => True)
    (.start fun _ => .default)
    ([.reopen, .due true, .gesture .block] ++ replicate 6 (.goOn .ok))
    (fun o => decide (∃ r ∈ o.journal.rows, r.state = .done)) (by decide +kernel)
  obtain ⟨⟨r, hr, hdone⟩, ⟨l, hl, hdigest⟩, -, hkept⟩ := of_decide_eq_true hp
  have hsettled := settled_kept hs hs' ho .start
  refine ⟨s, s', o, ⟨r, hr, hdone, ?_⟩, ⟨l, hl, hdigest, ?_⟩, of_decide_eq_true hq⟩
  · rcases hsettled.1 r hr (by simp [isOpen, hdone]) with hstored | ⟨-, hpast⟩
    · exact mem_of_get? hstored
    · exact absurd hpast (Nat.not_lt.mpr (hkept r hr))
  · exact hsettled.2.1 l hl (by rw [hdigest]; rfl)

/-- A discard that has read the open record is written after the act has committed and its record
    is done: the message went out, and the record says that it has expired. -/
theorem settled_overwritten : ∃ s s' : SessionIntents,
    Machine.Reaches (intentStep RETRY_HORIZON_MS) (fun _ _ => True) .start s ∧
      Machine.Reaches (intentStep RETRY_HORIZON_MS) (fun _ _ => True) s s' ∧
      (∃ r ∈ s.journal.rows, r.actId = 0 ∧ r.state = .done) ∧
      ∃ r ∈ s'.journal.rows, r.actId = 0 ∧ r.state = .expired := by
  obtain ⟨s, s', hs, hs', hp⟩ := Machine.Reaches.of_exec_append (intentStep RETRY_HORIZON_MS)
    (fun _ _ => True) .start
    (flatten [[.reopen, .gesture (.send ⟨"c", "hello", "k", none⟩) false],
      replicate 6 (.goOn 0 .ok),
      [.run 0 .ok, .find .discard 0, .goOn 1 .ok, .run 0 (.committed ⟨"m", "d"⟩), .goOn 1 .ok,
        .run 0 .ok]])
    [.goOn 1 .ok]
    (fun s s' => decide ((∃ r ∈ s.journal.rows, r.actId = 0 ∧ r.state = .done) ∧
      ∃ r ∈ s'.journal.rows, r.actId = 0 ∧ r.state = .expired))
    (by decide +kernel)
  obtain ⟨hdone, hexpired⟩ := of_decide_eq_true hp
  exact ⟨s, s', hs, hs', hdone, hexpired⟩

end

end WebOfTrust
