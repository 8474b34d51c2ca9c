/-
  **A draft is sent at most once.**

  What keeps a draft key from a second act is its open record, and later the digest or the
  `expired` of its line.  A gesture that has found neither holds its key in flight until its
  own record is written.  So of one draft key a single actId commits (`single_send`), where
  copies are looked at again (`CopiesCurrent`), no message whose act has committed is discarded,
  and no act comes to the library after its commit was forgotten.  `sent_twice` is a run with a
  discard.
-/
import Mathlib.Data.List.Perm.Basic
import WebOfTrust.SettledIntents

namespace WebOfTrust

open KeyedTable List

/-! ## 1. What keeps a draft key -/

namespace SessionIntents

variable (s : SessionIntents)

def committed (actId : ActId) : Bool :=
  s.commits.any fun c => decide (c.actId = actId)

def keyOf (actId : ActId) : Option DedupeKey :=
  (s.taken[actId]?).map (·.dedupe)

/-- The line of a draft key says that its message went out, or that it has expired. -/
def Spent (draftKey : String) : Prop :=
  ∃ l, s.log.get? (.own draftKey) = some l ∧ (l.digest.isSome = true ∨ l.status = some .expired)

def SentKey (draftKey : String) : Prop :=
  ∃ c ∈ s.commits, ∃ input, c.command = .send input ∧ input.draftKey = draftKey

def NoneOpen (key : DedupeKey) : Prop :=
  ∀ actId, s.stillOpen actId = true → s.keyOf actId ≠ some key

end SessionIntents

def SessionTask.discardsUnsent (s : SessionIntents) : SessionTask → Bool
  | .discardWrite r =>
    match r.gesture with
    | .send _ => !s.committed r.actId
    | .plain _ _ _ => true
  | _ => true

def Execution.remembered (s : SessionIntents) (e : Execution) : Bool :=
  decide (e.stage ≠ .act) || !s.committed e.record.actId || (s.replay e.record.actId).isSome

/-- The tasks that go on have a good copy, and what has committed is neither discarded nor
    forgotten. -/
def CommitsCurrent (horizonMs : Nat) (s : SessionIntents) : IntentInput → Prop
  | .goOn k .ok =>
    (s.tasks[k]?).all (fun task => task.current horizonMs s && task.discardsUnsent s) = true
  | .run k _ => (s.executions[k]?).all (·.remembered s) = true
  | _ => True

instance CommitsCurrent.decidable (horizonMs : Nat) :
    ∀ s i, Decidable (CommitsCurrent horizonMs s i)
  | _, .goOn _ .ok | _, .run _ _ => inferInstanceAs (Decidable (_ = true))
  | _, .goOn _ .fail | _, .goOn _ (.views _) => .isTrue trivial
  | _, .gesture _ _ | _, .find _ _ | _, .expireOpen _ | _, .recover | _, .replayOpen | _, .sync
  | _, .resume | _, .forget _ | _, .tick _ | _, .stop | _, .crash | _, .reopen => .isTrue trivial

def ExecutionStage.refused : ExecutionStage → Bool
  | .refuse _ | .refuseLine _ | .refuseWrite _ _ | .later _ => true
  | _ => false

def SessionTask.Clear (s : SessionIntents) : SessionTask → Prop
  | .same d records => (∀ r ∈ records, r.isOpen = false) → s.NoneOpen d.command.dedupe
  | .readLine d => s.NoneOpen d.command.dedupe
  | .lineRead d line => s.NoneOpen d.command.dedupe ∧ ∀ input, d.command = .send input →
      s.SentKey input.draftKey → ∃ l ∈ line, l.digest.isSome = true ∨ l.status = some .expired
  | .journal d => s.NoneOpen d.command.dedupe ∧ ∀ input, d.command = .send input →
      ¬s.SentKey input.draftKey
  | _ => True

/-- The commits of the library, and what keeps their draft keys. -/
structure CommitInv (s : SessionIntents) : Prop where
  taken : ∀ c ∈ s.commits, s.taken[c.actId]? = some c.command
  kept : ∀ c ∈ s.commits, ∀ input, c.command = .send input →
    s.stillOpen c.actId = true ∨ s.Spent input.draftKey
  one : ∀ a b, s.stillOpen a = true → s.stillOpen b = true → s.keyOf a = s.keyOf b → a = b
  own : ∀ c ∈ s.commits, ∀ input, c.command = .send input → ∀ a, s.stillOpen a = true →
    s.keyOf a = some (.send input.draftKey) → a = c.actId
  single : ∀ c ∈ s.commits, ∀ c' ∈ s.commits, ∀ input input', c.command = .send input →
    c'.command = .send input' → input.draftKey = input'.draftKey → c.actId = c'.actId

structure SendInv (s : SessionIntents) : Prop where
  commits : CommitInv s
  refused : ∀ e ∈ s.executions, e.stage.refused = true → s.committed e.record.actId = false
  keys : (s.tasks.filterMap (·.key?)).Nodup
  tasks : ∀ t ∈ s.tasks, t.Clear s

/-! ## 2. What a write leaves -/

open SessionIntents SessionTask

section

variable {horizonMs : Nat} {s s' : SessionIntents} {r x : SessionRecord} {l : MessageLine}
  {line : Option MessageLine} {log : OwnLog} {actId : ActId} {key : String} {t : SessionTask}
  {c : CommittedAct} {input : SendInput} {dedupeKey : DedupeKey}

theorem stillOpen_lt (h : IntentsStored s) (hopen : s.stillOpen actId = true) :
    actId < s.taken.length := by
  obtain ⟨r, hget, -⟩ := stillOpen_iff.mp hopen
  rw [← key_of_get? hget]
  exact (h.journaled r (mem_of_get? hget)).lt

theorem keyOf_mono (htaken : s.taken <+: s'.taken) (hlt : actId < s.taken.length) :
    s'.keyOf actId = s.keyOf actId := by
  obtain ⟨more, hmore⟩ := htaken
  rw [keyOf, ← hmore, getElem?_append_left hlt, keyOf]

theorem Journaled.keyOf (hr : Journaled s r) : s.keyOf r.actId = some r.gesture.dedupe := by
  rw [SessionIntents.keyOf, hr.1, Option.map_some]

theorem CommitInv.keyOf (h : CommitInv s) (hc : c ∈ s.commits) (hsend : c.command = .send input) :
    s.keyOf c.actId = some (.send input.draftKey) := by
  rw [SessionIntents.keyOf, h.taken c hc, Option.map_some, hsend, SessionCommand.dedupe]

theorem CommitInv.gesture (h : CommitInv s) (hc : c ∈ s.commits) (hr : Journaled s r)
    (hid : c.actId = r.actId) : r.gesture = c.command := by
  have htaken := h.taken c hc
  rw [hid, hr.1] at htaken
  exact Option.some.inj htaken

/-- A step that neither commits nor journals a new record. -/
structure SendsKept (s s' : SessionIntents) : Prop where
  taken : s'.taken = s.taken
  commits : s'.commits = s.commits
  opened : ∀ actId, s'.stillOpen actId = true → s.stillOpen actId = true
  kept : ∀ c ∈ s.commits, ∀ input, c.command = .send input → s.stillOpen c.actId = true →
    s'.stillOpen c.actId = true ∨ s'.Spent input.draftKey
  spent : ∀ key, s.SentKey key → s.Spent key → s'.Spent key

theorem SendsKept.refl : SendsKept s s :=
  ⟨rfl, rfl, fun _ ho => ho, fun _ _ _ _ ho => .inl ho, fun _ _ hs => hs⟩

theorem SendsKept.sentKey_iff (h : SendsKept s s') : s'.SentKey key ↔ s.SentKey key := by
  rw [SentKey, h.commits, SentKey]

theorem SendsKept.noneOpen (h : SendsKept s s') (hnone : s.NoneOpen dedupeKey) :
    s'.NoneOpen dedupeKey := by
  intro a ho
  rw [keyOf, h.taken]
  exact hnone a (h.opened a ho)

theorem SessionTask.Clear.mono (ht : t.Clear s)
    (hnone : ∀ d, t.key? = some (.gesture d) → s.NoneOpen d → s'.NoneOpen d)
    (hsent : ∀ k, t.key? = some (.gesture (.send k)) → s.NoneOpen (.send k) →
      s'.SentKey k → s.SentKey k) : t.Clear s' := by
  have hkey : ∀ {d : Draft} {input : SendInput}, d.command = .send input →
      t.key? = some (.gesture d.command.dedupe) →
      t.key? = some (.gesture (.send input.draftKey)) ∧
        d.command.dedupe = .send input.draftKey := by
    intro d input hsend hkey
    rw [hsend] at hkey
    exact ⟨hkey, by rw [hsend]; rfl⟩
  cases t with
  | same d records => exact fun hclosed => hnone _ rfl (ht hclosed)
  | readLine d => exact hnone _ rfl ht
  | lineRead d line | journal d =>
    refine ⟨hnone _ rfl ht.1, fun input hsend hs => ?_⟩
    obtain ⟨hheld, hdedupe⟩ := hkey hsend rfl
    exact ht.2 input hsend (hsent _ hheld (hdedupe ▸ ht.1) hs)
  | _ => trivial

theorem CommitInv.of_kept (h : CommitInv s) (hk : SendsKept s s') : CommitInv s' := by
  have hkeyOf : ∀ a, s'.keyOf a = s.keyOf a := fun a => by
    rw [SessionIntents.keyOf, hk.taken, SessionIntents.keyOf]
  refine ⟨fun c hc => ?_, fun c hc input hsend => ?_, fun a b ha hb hab => ?_,
    fun c hc input hsend a ha hkey => ?_, fun c hc c' hc' => ?_⟩
  · rw [hk.commits] at hc
    rw [hk.taken]
    exact h.taken c hc
  · rw [hk.commits] at hc
    rcases h.kept c hc input hsend with hopen | hspent
    · exact hk.kept c hc input hsend hopen
    · exact .inr (hk.spent _ ⟨c, hc, input, hsend, rfl⟩ hspent)
  · rw [hkeyOf, hkeyOf] at hab
    exact h.one a b (hk.opened a ha) (hk.opened b hb) hab
  · rw [hk.commits] at hc
    rw [hkeyOf] at hkey
    exact h.own c hc input hsend a (hk.opened a ha) hkey
  · rw [hk.commits] at hc hc'
    exact h.single c hc c' hc'

theorem spent_write (hspent : s.Spent key)
    (hline : ∀ l ∈ line, l.id = .own key → l.digest.isSome = true ∨ l.status = some .expired) :
    (s.write r line).Spent key := by
  rcases line with _ | l
  · exact hspent
  have hget : (s.write r (some l)).log.get? (.own key) =
      if l.id = .own key then some l else s.log.get? (.own key) := get?_put ..
  by_cases hid : l.id = .own key
  · exact ⟨l, hget.trans (if_pos hid), hline l rfl hid⟩
  · obtain ⟨old, hold, hsays⟩ := hspent
    exact ⟨old, hget.trans ((if_neg hid).trans hold), hsays⟩

theorem spent_write_self (hid : l.id = .own key)
    (hline : l.digest.isSome = true ∨ l.status = some .expired) :
    (s.write r (some l)).Spent key :=
  ⟨l, (get?_put ..).trans (if_pos hid), hline⟩

theorem sendsKept_write (hopen : s.stillOpen r.actId = true)
    (hkeep : ∀ c ∈ s.commits, ∀ input, c.command = .send input → c.actId = r.actId →
      r.isOpen = true ∨ (s.write r line).Spent input.draftKey)
    (hline : ∀ key, s.SentKey key → ∀ l ∈ line, l.id = .own key →
      l.digest.isSome = true ∨ l.status = some .expired) : SendsKept s (s.write r line) where
  taken := rfl
  commits := rfl
  opened a ho := by
    by_cases hid : r.actId = a
    · exact hid ▸ hopen
    · rwa [stillOpen_write line hid] at ho
  kept c hc input hsend ho := by
    by_cases hid : r.actId = c.actId
    · refine (hkeep c hc input hsend hid.symm).imp_left fun hr => ?_
      exact stillOpen_iff.mpr ⟨r, (get?_write line).trans (if_pos hid), hr⟩
    · exact .inl ((stillOpen_write line hid).trans ho)
  spent key hsent hs := spent_write hs (hline key hsent)

theorem spent_expired (hr : r.hasInput = true) (hsend : r.gesture = .send input)
    (hlog : ∀ id, log.hasDigest id = true → s.log.hasDigest id = true) :
    (s.write x (unlessSent log (expiredLine r))).Spent input.draftKey := by
  rw [expiredLine, hsend]
  simp only [hr, if_true]
  rw [unlessSent, Option.filter_some]
  split
  · exact spent_write_self rfl (.inr rfl)
  next hdigest =>
  have hhas : log.hasDigest (ownMessageLine input (wholeSeconds r.createdAt)).id = true := by
    simpa using hdigest
  obtain ⟨l, hget, hsome⟩ := (Option.any_eq_true ..).mp (hlog _ hhas)
  exact ⟨l, hget, .inl hsome⟩

theorem expired_unlessSent (hl : l ∈ unlessSent log (expiredLine r)) :
    l.status = some .expired := by
  obtain ⟨hmem, -⟩ := mem_unlessSent hl
  rw [expiredLine] at hmem
  split at hmem
  · split at hmem <;> cases hmem
    rfl
  · cases hmem

/-! ## 3. Executions -/

variable {e : Execution} {answer : ExecutionAnswer} {did : SessionIntents × Option Execution}

/-- The act of a known refusal has not committed. -/
def RefusedUncommitted (s : SessionIntents) (next : Option Execution) : Prop :=
  ∀ e ∈ next, e.stage.refused = true → s.committed e.record.actId = false

theorem not_committed (h : s.committed e.record.actId = false) (hc : c ∈ s.commits) :
    c.actId ≠ e.record.actId := by
  intro hid
  rw [committed, any_eq_false] at h
  exact h c hc (decide_eq_true hid)

section

variable (h : CommitInv s)
include h

theorem CommitInv.of_sentKey (hr : Journaled s r)
    (hopen : s.stillOpen r.actId = true) (hsend : r.gesture = .send input)
    (hkey : s.SentKey input.draftKey) : ∃ c ∈ s.commits, c.actId = r.actId := by
  obtain ⟨c, hc, input', hsend', hsame⟩ := hkey
  refine ⟨c, hc, (h.own c hc input' hsend' r.actId hopen ?_).symm⟩
  rw [hr.keyOf, hsend, hsame]
  rfl

section

variable (he : e.Sound s)
include he

section

variable (hne : e.stage ≠ .sync)
include hne

theorem sendsKept_execution (hid : r.actId = e.record.actId)
    (hkeep : ∀ c ∈ s.commits, ∀ input, c.command = .send input → c.actId = e.record.actId →
      e.record.gesture = .send input → r.isOpen = true ∨ (s.write r line).Spent input.draftKey)
    (hline : ∀ key, s.SentKey key → ∀ l ∈ line, l.id = .own key →
      l.digest.isSome = true ∨ l.status = some .expired) : SendsKept s (s.write r line) := by
  refine sendsKept_write (hid ▸ he.opens hne) (fun c hc input hsend hactId => ?_) hline
  have hgesture := h.gesture hc he.journaled (hactId.trans hid)
  exact hkeep c hc input hsend (hactId.trans hid) (hgesture.trans hsend)

theorem sendsKept_open (hid : r.actId = e.record.actId)
    (hopen : ∀ input, e.record.gesture = .send input → r.isOpen = true) :
    SendsKept s (s.write r none) :=
  sendsKept_execution h he hne hid (fun _ _ input _ _ hsend => .inl (hopen input hsend)) (by simp)

theorem sendsKept_finish {sent : SentDocument} (hid : r.actId = e.record.actId)
    (hgesture : x = e.record) :
    SendsKept s (s.write r (sentLine x sent)) := by
  subst hgesture
  refine sendsKept_execution h he hne hid (fun c _ input _ _ hsend => .inr ?_)
    fun key _ l hl _ => ?_
  · rw [sentLine, hsend]
    exact spent_write_self rfl (.inl rfl)
  rw [sentLine] at hl
  split at hl <;> cases hl
  exact .inl rfl

theorem sendsKept_expire {cur : SessionRecord} (hcur : Journaled s cur)
    (hid : cur.actId = e.record.actId)
    (hopen : cur.isOpen = true) (hsame : ∀ id, s.log.hasDigest id = log.hasDigest id)
    (hr : r.actId = cur.actId) :
    SendsKept s (s.write r (unlessSent log (expiredLine cur))) := by
  refine sendsKept_execution h he hne (hr.trans hid) (fun c hc input hsend hactId _ => .inr ?_)
    fun key _ l hl _ => .inr (expired_unlessSent hl)
  have hgesture := h.gesture hc hcur (hactId.trans hid.symm)
  exact spent_expired (hcur.2.2 hopen) (hgesture.trans hsend) fun id hid => (hsame id).trans hid

theorem sendsKept_refuse {held : Option HeldReason} (hrefused : s.committed e.record.actId = false)
    (hid : r.actId = e.record.actId) :
    SendsKept s (s.write r (unlessSent log (refusedLine e.record held))) := by
  refine sendsKept_execution h he hne hid (fun c hc _ _ hactId _ =>
    absurd hactId (not_committed hrefused hc)) fun key hkey l hl hown => ?_
  obtain ⟨hmem, -⟩ := mem_unlessSent hl
  rw [refusedLine] at hmem
  split at hmem
  · next input hsend =>
    have hdraft : input.draftKey = key := by
      cases hmem
      split at hown <;> exact LineId.own.inj hown
    obtain ⟨c, hc, hactId⟩ :=
      h.of_sentKey he.journaled (he.opens hne) hsend (hdraft ▸ hkey)
    exact absurd hactId (not_committed hrefused hc)
  · cases hmem

end

end

end

theorem refusedUncommitted_none : RefusedUncommitted s none := by simp [RefusedUncommitted]

theorem refusedUncommitted_plain (hstage : e.stage.refused = false) :
    RefusedUncommitted s (some e) := by
  intro x hx href
  cases hx
  rw [hstage] at href
  cases href

theorem refusedUncommitted_written : RefusedUncommitted s e.written := by
  rw [Execution.written]
  split
  · exact refusedUncommitted_none
  · exact refusedUncommitted_plain rfl

theorem refusedUncommitted_settled {act : Option CommittedAct} {next : Option Execution}
    (hnext : RefusedUncommitted s next) : RefusedUncommitted s (e.settled act next) := by
  cases act with
  | some c => exact refusedUncommitted_plain rfl
  | none => exact hnext

section

variable (h : CommitInv s)
include h

theorem send_goOn_open (he : e.Sound s) (hkind : match e.stage with
      | .begin | .notStarted | .replay | .limit | .lookUp | .unknownOutcome | .sync => True
      | _ => False)
    (hgo : e.goOn horizonMs s answer = some did) :
    SendsKept s did.1 ∧ RefusedUncommitted s did.2 := by
  have hend : SendsKept s s ∧ RefusedUncommitted s none := ⟨.refl, refusedUncommitted_none⟩
  have hunknown : SendsKept s s ∧ RefusedUncommitted s (some { e with stage := .unknownOutcome }) :=
    ⟨.refl, refusedUncommitted_plain rfl⟩
  have hexpire : RefusedUncommitted s (some { e with stage := .expire }) :=
    refusedUncommitted_plain rfl
  cases hstage : e.stage <;> rw [hstage] at hkind <;> try cases hkind
  all_goals
    cases answer <;> simp only [Execution.goOn, hstage, Option.some.injEq, reduceCtorEq] at hgo <;>
      subst hgo
  · refine ⟨sendsKept_open h he (by simp [hstage]) rfl fun _ _ => rfl, refusedUncommitted_plain ?_⟩
    dsimp only [Execution.attempted]
    split_ifs <;> rfl
  · exact ⟨.refl, refusedUncommitted_plain rfl⟩
  · exact hend
  · exact ⟨sendsKept_open h he (by simp [hstage]) rfl fun _ _ => he.isOpen, refusedUncommitted_none⟩
  · exact hend
  · exact ⟨.refl, refusedUncommitted_settled hexpire⟩
  · exact hunknown
  · exact hend
  · exact ⟨.refl, refusedUncommitted_settled hexpire⟩
  · exact hend
  · exact ⟨.refl, refusedUncommitted_settled refusedUncommitted_none⟩
  · exact hend
  · refine ⟨sendsKept_open h he (by simp [hstage]) ?_ fun input hsend => ?_,
      refusedUncommitted_none⟩
    · rw [SessionRecord.unknownOutcome]
      split <;> rfl
    have hpolicy : e.record.policy = .replay := by
      rw [he.journaled.2.1, hsend]
      rfl
    rw [SessionRecord.unknownOutcome, hpolicy]
    rfl
  · exact hend
  · exact hend

theorem send_goOn_settle (he : e.Sound s) (hkind : match e.stage with
      | .finish _ | .expire | .expireLog _ | .expireWrite _ _ => True
      | _ => False)
    (hgo : e.goOn horizonMs s answer = some did) :
    SendsKept s did.1 ∧ RefusedUncommitted s did.2 := by
  have hend : SendsKept s s ∧ RefusedUncommitted s none := ⟨.refl, refusedUncommitted_none⟩
  have hstay : ∀ stage : ExecutionStage, stage.refused = false →
      SendsKept s s ∧ RefusedUncommitted s (some { e with stage }) :=
    fun _ hstage => ⟨.refl, refusedUncommitted_plain hstage⟩
  have hsound := he.stage
  cases hstage : e.stage with
  | finish sent =>
    cases answer <;> simp only [Execution.goOn, hstage, Option.some.injEq, reduceCtorEq] at hgo
    · split at hgo <;> cases hgo
      exact ⟨sendsKept_finish h he (by simp [hstage]) rfl rfl, refusedUncommitted_written⟩
    · subst hgo
      exact hstay .unknownOutcome rfl
  | expire =>
    cases answer <;> simp only [Execution.goOn, hstage, Option.some.injEq, reduceCtorEq] at hgo
    · split at hgo
      · split at hgo
        · next cur _ =>
          cases hgo
          refine ⟨.refl, ?_⟩
          split
          · exact refusedUncommitted_plain rfl
          · exact refusedUncommitted_written
        · cases hgo
          exact hstay (.expireLog e.record) rfl
      · cases hgo
    · subst hgo
      exact hend
  | expireLog cur =>
    cases answer <;> simp only [Execution.goOn, hstage, Option.some.injEq, reduceCtorEq] at hgo <;>
      subst hgo
    · exact hstay (.expireWrite cur _) rfl
    · exact hend
  | expireWrite cur line =>
    rw [hstage] at hsound
    obtain ⟨⟨hcur, hid, hopen⟩, log, rfl, hsame⟩ := hsound
    cases answer <;> simp only [Execution.goOn, hstage, Option.some.injEq, reduceCtorEq] at hgo <;>
      subst hgo
    · exact ⟨sendsKept_expire h he (by simp [hstage]) hcur hid hopen hsame rfl,
        refusedUncommitted_written⟩
    · exact hend
  | _ =>
    rw [hstage] at hkind
    cases hkind

theorem send_goOn_refuse (he : e.Sound s) (href : e.stage.refused = true)
    (hrefused : s.committed e.record.actId = false)
    (hgo : e.goOn horizonMs s answer = some did) :
    SendsKept s did.1 ∧ RefusedUncommitted s did.2 := by
  have hstay : ∀ e' : Execution, e'.record = e.record →
      SendsKept s s ∧ RefusedUncommitted s (some e') := by
    refine fun e' hrecord => ⟨.refl, fun x hx _ => ?_⟩
    cases hx
    rw [hrecord]
    exact hrefused
  have hsound := he.stage
  cases hstage : e.stage with
  | refuse held =>
    cases answer <;> simp only [Execution.goOn, hstage, Option.some.injEq, reduceCtorEq] at hgo
    · split at hgo
      · split at hgo
        · cases hgo
          split
          · exact ⟨.refl, refusedUncommitted_written⟩
          · exact hstay _ rfl
        · cases hgo
          exact hstay _ rfl
      · cases hgo
    · subst hgo
      exact hstay _ rfl
  | refuseLine held =>
    cases answer <;> simp only [Execution.goOn, hstage, Option.some.injEq, reduceCtorEq] at hgo <;>
      subst hgo <;> exact hstay _ rfl
  | refuseWrite held line =>
    rw [hstage] at hsound
    obtain ⟨log, rfl, -⟩ := hsound
    cases answer <;> simp only [Execution.goOn, hstage, Option.some.injEq, reduceCtorEq] at hgo <;>
      subst hgo
    · exact ⟨sendsKept_refuse h he (by simp [hstage]) hrefused rfl, refusedUncommitted_written⟩
    · exact hstay _ rfl
  | later held =>
    cases answer <;> simp only [Execution.goOn, hstage, Option.some.injEq, reduceCtorEq] at hgo
    subst hgo
    split
    · exact hstay _ rfl
    · exact ⟨.refl, refusedUncommitted_none⟩
  | _ =>
    rw [hstage] at href
    cases href

theorem send_goOn (he : e.Sound s) (hact : e.stage ≠ .act)
    (hrefused : e.stage.refused = true → s.committed e.record.actId = false)
    (hgo : e.goOn horizonMs s answer = some did) :
    SendsKept s did.1 ∧ RefusedUncommitted s did.2 := by
  cases hstage : e.stage with
  | act => exact absurd hstage hact
  | begin | notStarted | replay | limit | lookUp | unknownOutcome | sync =>
    exact send_goOn_open h he (by simp [hstage]) hgo
  | finish | expire | expireLog | expireWrite =>
    exact send_goOn_settle h he (by simp [hstage]) hgo
  | refuse | refuseLine | refuseWrite | later =>
    have href : e.stage.refused = true := by simp [hstage, ExecutionStage.refused]
    exact send_goOn_refuse h he href (hrefused href) hgo

/-! ### The act -/

theorem CommitInv.commit {sent : SentDocument} {acts : List CommittedAct}
    (hr : Journaled s r) (hopen : s.stillOpen r.actId = true) :
    CommitInv { s with acts, commits := s.commits ++ [⟨r.actId, r.gesture, sent, s.now⟩] } := by
  have hown : ∀ c ∈ s.commits, ∀ input input', c.command = .send input →
      r.gesture = .send input' → input.draftKey = input'.draftKey → r.actId = c.actId := by
    intro c hc input input' hsend hgesture hsame
    refine h.own c hc input hsend r.actId hopen ?_
    rw [hr.keyOf, hgesture, hsame]
    rfl
  refine ⟨fun c hc => ?_, fun c hc input hsend => ?_, h.one, fun c hc input hsend a ha hkey => ?_,
    fun c hc c' hc' input input' hsend hsend' hsame => ?_⟩
  · rcases mem_append.mp hc with hc | hc
    · exact h.taken c hc
    · cases mem_singleton.mp hc
      exact hr.1
  · rcases mem_append.mp hc with hc | hc
    · exact h.kept c hc input hsend
    · cases mem_singleton.mp hc
      exact .inl hopen
  · rcases mem_append.mp hc with hc | hc
    · exact h.own c hc input hsend a ha hkey
    cases mem_singleton.mp hc
    refine h.one a r.actId ha hopen (hkey.trans ?_)
    rw [hr.keyOf]
    exact congrArg (fun command : SessionCommand => some command.dedupe) hsend.symm
  · rcases mem_append.mp hc with hc | hc <;> rcases mem_append.mp hc' with hc' | hc'
    · exact h.single c hc c' hc' input input' hsend hsend' hsame
    · cases mem_singleton.mp hc'
      exact (hown c hc input input' hsend hsend' hsame).symm
    · cases mem_singleton.mp hc
      exact hown c' hc' input' input hsend' hsend hsame.symm
    · cases mem_singleton.mp hc
      cases mem_singleton.mp hc'
      rfl

structure SendExecutionSound (s : SessionIntents) (actId : ActId)
    (did : SessionIntents × Option Execution) : Prop where
  commits : CommitInv did.1
  others : ∀ a ≠ actId, did.1.committed a = s.committed a
  execution : RefusedUncommitted did.1 did.2
  noneOpen : ∀ key, s.NoneOpen key → did.1.NoneOpen key
  sent : ∀ key, s.NoneOpen (.send key) → did.1.SentKey key → s.SentKey key

omit h in
theorem committed_of_commits (h : s'.commits = s.commits) (a : ActId) :
    s'.committed a = s.committed a := by
  rw [committed, h, committed]

theorem sendExecution_of_kept {next : Option Execution} (hk : SendsKept s s')
    (hnext : RefusedUncommitted s next) : SendExecutionSound s e.record.actId (s', next) where
  commits := h.of_kept hk
  others a _ := committed_of_commits hk.commits a
  execution x hx href := (committed_of_commits hk.commits _).trans (hnext x hx href)
  noneOpen _ := hk.noneOpen
  sent _ _ := hk.sentKey_iff.mp

theorem sendExecution_commit {sent : SentDocument} (he : e.Sound s)
    (hne : e.stage ≠ .sync) {stage : ExecutionStage} (hstage : stage.refused = false) :
    SendExecutionSound s e.record.actId (s.commit e.record sent, some { e with stage }) := by
  rw [commit]
  split
  · exact sendExecution_of_kept h .refl (refusedUncommitted_plain hstage)
  refine ⟨h.commit he.journaled (he.opens hne), fun a ha => ?_,
    refusedUncommitted_plain hstage, fun _ hnone => hnone, fun key hnone hkey => ?_⟩
  · rw [committed, any_append, any_cons, any_nil,
      decide_eq_false (Ne.symm ha), Bool.or_false, Bool.or_false]
    rfl
  obtain ⟨c, hc, input, hsend, hsame⟩ := hkey
  rcases mem_append.mp hc with hc | hc
  · exact ⟨c, hc, input, hsend, hsame⟩
  cases mem_singleton.mp hc
  refine absurd ?_ (hnone _ (he.opens hne))
  rw [he.journaled.keyOf, show e.record.gesture = .send input from hsend, ← hsame]
  rfl

theorem sendExecution_goOn (he : e.Sound s) (hremembered : e.remembered s = true)
    (hrefused : e.stage.refused = true → s.committed e.record.actId = false)
    (hgo : e.goOn horizonMs s answer = some did) :
    SendExecutionSound s e.record.actId did := by
  by_cases hstage : e.stage = .act
  · have hne : e.stage ≠ .sync := by simp [hstage]
    cases answer <;> simp only [Execution.goOn, hstage, Option.some.injEq, reduceCtorEq] at hgo
    · subst hgo
      exact sendExecution_of_kept h .refl (refusedUncommitted_plain rfl)
    · subst hgo
      exact sendExecution_of_kept h .refl refusedUncommitted_none
    · subst hgo
      exact sendExecution_commit h he hne rfl
    · subst hgo
      exact sendExecution_commit h he hne rfl
    · split at hgo
      · cases hgo
      next hnot =>
      cases hgo
      refine sendExecution_of_kept h .refl fun x hx _ => ?_
      cases hx
      rw [Execution.remembered, hstage] at hremembered
      simpa [hnot] using hremembered
  · obtain ⟨hk, hnext⟩ := send_goOn h he hstage hrefused hgo
    refine ⟨h.of_kept hk, fun a _ => committed_of_commits hk.commits a, fun x hx href => ?_,
      fun _ => hk.noneOpen, fun _ _ => hk.sentKey_iff.mp⟩
    exact (committed_of_commits hk.commits _).trans (hnext x hx href)

end

/-! ## 4. Tasks -/

variable {t' : SessionTask} {d : Draft} {rs finished : List SessionRecord} {answer : TaskAnswer}
  {did : TaskStep} {key : InflightKey} {finding : Finding}

structure SendTaskSound (s : SessionIntents) (t : SessionTask) (did : TaskStep) : Prop where
  kept : SendsKept s did.session
  keys : ∃ key, did.tasks.filterMap (·.key?) = Option.toList key ∧
    (key = t.key? ∨ key.all (fun key => !s.inflight key) = true)
  tasks : ∀ t' ∈ did.tasks, t'.Clear did.session
  execution : ∀ e ∈ did.execution, e.stage.refused = false

theorem sendTask_leave (hk : SendsKept s s') : SendTaskSound s t ⟨s', [], none⟩ :=
  ⟨hk, ⟨none, rfl, .inr rfl⟩, by simp, by simp⟩

theorem sendTask_next (hkey : t'.key? = none ∨ t'.key? = t.key?) (hclear : t'.Clear s) :
    SendTaskSound s t ⟨s, [t'], none⟩ := by
  refine ⟨.refl, ⟨t'.key?, ?_, ?_⟩, fun x hx => ?_, by simp⟩
  · cases hheld : t'.key? <;> simp [hheld]
  · rcases hkey with hnone | hsame
    · exact .inr (by rw [hnone]; rfl)
    · exact .inl hsame
  · rw [mem_singleton.mp hx]
    exact hclear

theorem sendTask_execute {fresh : Bool} (hkey : t.key? = some key ∨ s.inflight key = false)
    (hgo : execute s key r fresh = some did) : SendTaskSound s t did := by
  have hwait : ∃ held, [SessionTask.wait key r.actId].filterMap (·.key?) = Option.toList held ∧
      (held = t.key? ∨ held.all (fun key => !s.inflight key) = true) := by
    refine ⟨some key, rfl, hkey.imp Eq.symm fun hfree => ?_⟩
    rw [Option.all_some, hfree]
    rfl
  rw [execute] at hgo
  split at hgo
  · cases hgo
    refine ⟨.refl, hwait, fun x hx => ?_, fun e he => ?_⟩
    · rw [mem_singleton.mp hx]
      trivial
    · cases he
      rfl
  · split at hgo <;> cases hgo
    · refine ⟨.refl, hwait, fun x hx => ?_, by simp⟩
      rw [mem_singleton.mp hx]
      trivial
    · exact sendTask_leave .refl

theorem noneOpen_of_closed (h : IntentsStored s)
    (hclosed : ∀ r ∈ s.journal.rows, r.gesture.dedupe = d.command.dedupe → r.isOpen = false) :
    s.NoneOpen d.command.dedupe := by
  intro a hopen hkey
  obtain ⟨r, hget, hr⟩ := stillOpen_iff.mp hopen
  have hmem := mem_of_get? hget
  rw [← key_of_get? hget] at hkey
  rw [(h.journaled r hmem).keyOf] at hkey
  rw [hclosed r hmem (Option.some.inj hkey)] at hr
  cases hr

theorem sendTask_again (hkey : t.key? = some (.gesture d.command.dedupe))
    (hgo : afterSame.again horizonMs s d r = some did) : SendTaskSound s t did := by
  rw [afterSame.again] at hgo
  split at hgo
  · cases hgo
    exact sendTask_leave .refl
  split at hgo
  · split at hgo <;> cases hgo
    · exact sendTask_next (.inl rfl) trivial
    · exact sendTask_leave .refl
  split at hgo <;> cases hgo
  · exact sendTask_leave .refl
  · exact sendTask_next (.inr hkey.symm) trivial

theorem sendTask_afterSame (ht : Clear s (.same d rs))
    (hgo : afterSame horizonMs s d rs = some did) :
    SendTaskSound s (.same d rs) did := by
  have hnone : rs.find? (·.isOpen) = none → s.NoneOpen d.command.dedupe := by
    refine fun hfind => ht fun r hr => ?_
    simpa using find?_eq_none.mp hfind r hr
  rw [afterSame] at hgo
  split at hgo
  · split at hgo
    · cases hgo
      exact sendTask_leave .refl
    split at hgo
    · exact sendTask_again rfl hgo
    next hfind =>
    cases hgo
    exact sendTask_next (.inr rfl) (hnone hfind)
  · next hplain =>
    split at hgo
    · exact sendTask_again rfl hgo
    next hfind =>
    cases hgo
    refine sendTask_next (.inr rfl) ⟨hnone hfind, fun input hsend => ?_⟩
    rw [hplain] at hsend
    cases hsend

theorem sendTask_gesture (h : IntentsStored s) (hc : CommitInv s) (ht : t.Clear s)
    (hkind : match t with
      | .read _ | .same _ _ | .readLine _ | .lineRead _ _ => True
      | _ => False)
    (hgo : t.goOn horizonMs s answer = some did) : SendTaskSound s t did := by
  cases t with
  | read d =>
    cases answer <;> cases hgo
    · refine sendTask_next (.inr rfl) fun hclosed => noneOpen_of_closed h fun r hr hsame => ?_
      exact hclosed r (mem_filter.mpr ⟨hr, decide_eq_true hsame⟩)
    · exact sendTask_leave .refl
  | same d records =>
    cases answer <;> simp only [goOn, reduceCtorEq] at hgo
    exact sendTask_afterSame ht hgo
  | readLine d =>
    cases answer <;> simp only [goOn, reduceCtorEq] at hgo
    · split at hgo <;> cases hgo
      next input hsend =>
      refine sendTask_next (.inr rfl) ⟨ht, fun input' hsend' hkey => ?_⟩
      rw [hsend] at hsend'
      cases hsend'
      obtain ⟨c, hmem, input', hsend', hsame⟩ := hkey
      rcases hc.kept c hmem input' hsend' with hopen | ⟨l, hget, hsays⟩
      · refine absurd (hc.keyOf hmem hsend') (hsame ▸ ?_)
        have hnone := ht c.actId hopen
        rwa [hsend] at hnone
      · exact ⟨l, hsame ▸ hget, hsays⟩
    · cases hgo
      exact sendTask_leave .refl
  | lineRead d line =>
    cases answer <;> simp only [goOn, reduceCtorEq] at hgo
    rw [afterLine] at hgo
    split at hgo <;> cases hgo
    · exact sendTask_leave .refl
    next hline =>
    refine sendTask_next (.inr rfl) ⟨ht.1, fun input hsend hkey => hline ?_⟩
    obtain ⟨l, hl, hsays⟩ := ht.2 input hsend hkey
    rw [Option.any_eq_true]
    refine ⟨l, hl, ?_⟩
    rw [Bool.or_eq_true, decide_eq_true_eq]
    exact hsays
  | _ => cases hkind

theorem sendTask_afterFind (ht : t.key? = finding.key? actId)
    (hgo : afterFind horizonMs s actId r finding = some did) :
    SendTaskSound s t did := by
  have hleave : SendTaskSound s t ⟨s, [], none⟩ := sendTask_leave .refl
  cases finding <;> rw [afterFind] at hgo
  · split at hgo
    · cases hgo
      exact hleave
    split at hgo <;> cases hgo
    · exact sendTask_next (.inr ht.symm) trivial
    · exact sendTask_next (.inr ht.symm) trivial
  · split at hgo
    · cases hgo
      exact hleave
    split at hgo
    · cases hgo
      exact hleave
    split at hgo <;> cases hgo
    · exact sendTask_next (.inr ht.symm) trivial
    · exact sendTask_next (.inr ht.symm) trivial
  · split at hgo <;> cases hgo
    · exact sendTask_next (.inl rfl) trivial
    · exact hleave
  · split at hgo <;> cases hgo
    · exact sendTask_next (.inl rfl) trivial
    · exact hleave

def SentAct (s : SessionIntents) (actId : ActId) : Prop :=
  ∃ c ∈ s.commits, c.actId = actId ∧ ∃ input, c.command = .send input

theorem SendsKept.of_keeps (hk : IntentsKept s s' (SentAct s))
    (htaken : s'.taken = s.taken) (hcommits : s'.commits = s.commits) (hlog : s'.log = s.log) :
    SendsKept s s' where
  taken := htaken
  commits := hcommits
  opened a ho := hk.opened a (htaken ▸ stillOpen_lt hk.stored ho) ho
  kept c hc input hsend ho := .inl (hk.opens c.actId ⟨c, hc, rfl, input, hsend⟩ ho)
  spent key _ hs := by
    rw [Spent, hlog]
    exact hs

theorem not_sentAct (hc : CommitInv s) (hr : Journaled s r) (hpolicy : r.policy ≠ .replay) :
    ¬SentAct s r.actId := by
  rintro ⟨c, hmem, hid, input, hsend⟩
  refine hpolicy ?_
  rw [hr.2.1, hc.gesture hmem hr hid, hsend]
  rfl

theorem sendsKept_expired (hc : CommitInv s) (hcopy : Copy s r) (hr : r.isOpen = true)
    (hopen : s.stillOpen r.actId = true)
    (hkeep : ∀ c ∈ s.commits, ∀ input, c.actId = r.actId → r.gesture = .send input →
      r.hasInput = true → (s.write (r.expired s.now) line).Spent input.draftKey)
    (hline : ∀ l ∈ line, l.status = some .expired) :
    SendsKept s (s.write (r.expired s.now) line) := by
  refine sendsKept_write hopen (fun c hmem input hsend hid => .inr ?_)
    fun _ _ l hl _ => .inr (hline l hl)
  have hgesture := hc.gesture hmem hcopy.1 hid
  exact hkeep c hmem input hid (hgesture.trans hsend) (hcopy.input hr)

theorem sendTask_overwrite (h : IntentsStored s) (hc : CommitInv s) (hsound : t.Sound s)
    (hcurrent : answer = .ok → t.current horizonMs s = true)
    (hunsent : answer = .ok → t.discardsUnsent s = true)
    (hkind : match t with
      | .limitLog _ _ | .limitWrite _ _ _ | .discardWrite _ | .recover | .recoverFound _
      | .recoverWrite _ _ => True
      | _ => False)
    (hgo : t.goOn horizonMs s answer = some did) : SendTaskSound s t did := by
  have hleave : SendTaskSound s t ⟨s, [], none⟩ := sendTask_leave .refl
  cases t with
  | limitLog key r | recover =>
    cases answer <;> cases hgo
    · exact sendTask_next (.inr rfl) trivial
    · exact hleave
  | limitWrite key r line =>
    cases answer <;> cases hgo
    · obtain ⟨hr, log, rfl, hlog⟩ := hsound.holds
      obtain ⟨-, hopen, -⟩ := current_iff.mp (hcurrent rfl)
      refine sendTask_leave (sendsKept_expired hc (hsound.copies r mem_cons_self) hr
        (hopen r mem_cons_self).1 (fun _ _ input _ hsend hinput => ?_)
        fun l hl => expired_unlessSent hl)
      exact spent_expired hinput hsend hlog
    · exact hleave
  | discardWrite r =>
    cases answer <;> simp only [goOn, reduceCtorEq] at hgo
    · split at hgo <;> cases hgo
      obtain ⟨-, hopen, -⟩ := current_iff.mp (hcurrent rfl)
      refine sendTask_leave (sendsKept_expired hc (hsound.copies r mem_cons_self)
        hsound.holds (hopen r mem_cons_self).1 (fun c hmem input hid hsend _ => ?_) (by simp))
      have hnot := hunsent rfl
      simp only [discardsUnsent, hsend, Bool.not_eq_true', committed, any_eq_false] at hnot
      exact absurd (decide_eq_true hid) (hnot c hmem)
    · cases hgo
      exact hleave
  | recoverFound records =>
    cases answer <;> simp only [goOn, reduceCtorEq] at hgo
    cases hgo
    exact sendTask_next (.inr rfl) trivial
  | recoverWrite gone records =>
    cases answer <;> cases hgo
    · obtain ⟨-, hopen, -⟩ := current_iff.mp (hcurrent rfl)
      refine sendTask_leave (.of_keeps (keeps_recover h (fun r hr => ?_) fun r hr => ?_)
        rfl rfl rfl)
      · obtain ⟨hclosed, hdone⟩ := hsound.holds.1 r hr
        exact ⟨(hsound.copies r hr).2 hclosed, hdone⟩
      · obtain ⟨hjournaled, hpolicy⟩ := hsound.holds.2 r hr
        exact ⟨(hopen r hr).1, hjournaled, not_sentAct hc hjournaled hpolicy⟩
    · exact hleave
  | _ => cases hkind

theorem sendTask_expireOpen (h : IntentsStored s) (hsound : t.Sound s) (hkind : match t with
      | .expireOpen _ | .expireFound _ _ | .due _ _ | .dueWait _ _ _ | .purge _ => True
      | _ => False)
    (hgo : t.goOn horizonMs s answer = some did) : SendTaskSound s t did := by
  have hleave : SendTaskSound s t ⟨s, [], none⟩ := sendTask_leave .refl
  cases t with
  | expireOpen purgeOnly =>
    cases answer <;> cases hgo
    · exact sendTask_next (.inr rfl) trivial
    · exact hleave
  | expireFound purgeOnly records =>
    cases answer <;> simp only [goOn, reduceCtorEq] at hgo
    cases hgo
    exact sendTask_next (.inr rfl) trivial
  | due records finished =>
    cases answer <;> cases records <;> simp only [goOn, reduceCtorEq] at hgo
    · cases hgo
      exact sendTask_next (.inr rfl) trivial
    split at hgo <;> cases hgo
    · exact sendTask_next (.inr rfl) trivial
    refine ⟨.refl, ⟨none, rfl, .inl rfl⟩, fun x hx => ?_, fun e he => ?_⟩
    · rw [mem_singleton.mp hx]
      trivial
    cases he
    dsimp only [atLimit]
    split <;> rfl
  | dueWait actId records finished =>
    cases answer <;> simp only [goOn, reduceCtorEq] at hgo
    split at hgo <;> cases hgo
    exact sendTask_next (.inr rfl) trivial
  | purge records =>
    cases answer <;> cases records <;> simp only [goOn, reduceCtorEq] at hgo
    · cases hgo
      exact hleave
    · next r rest =>
      split at hgo <;> cases hgo
      refine sendTask_leave (.of_keeps (@keeps_recover s [] (SentAct s) (r :: rest) h
        (fun x hx => ?_) (by simp)) rfl rfl rfl)
      exact ⟨(hsound.copies x hx).2 (hsound.holds x hx).1, (hsound.holds x hx).2⟩
    · cases hgo
      exact hleave
    · cases hgo
      exact hleave
  | _ => cases hkind

theorem sendsKept_sync {lines : List MessageLine} (hlines : ∀ l ∈ lines, l.digest.isSome = true) :
    SendsKept s { s with log := lines.foldl put s.log } where
  taken := rfl
  commits := rfl
  opened _ ho := ho
  kept _ _ _ _ ho := .inl ho
  spent key _ hs := by
    rcases get?_foldl_put s.log lines (.own key) with ⟨l, hl, -, hget⟩ | ⟨-, hsame⟩
    · exact ⟨l, hget, .inl (hlines l hl)⟩
    · obtain ⟨l, hget, hsays⟩ := hs
      exact ⟨l, hsame.trans hget, hsays⟩

theorem sendTask_rest (hsound : t.Sound s) (hkind : match t with
      | .call _ _ _ | .wait _ _ | .settle _ | .find _ _ | .found _ _ _ | .replayOpen
      | .replayFound _ | .sync | .syncWrite _ => True
      | _ => False)
    (hgo : t.goOn horizonMs s answer = some did) : SendTaskSound s t did := by
  have hleave : SendTaskSound s t ⟨s, [], none⟩ := sendTask_leave .refl
  cases t with
  | call key r fresh =>
    cases answer <;> simp only [goOn, reduceCtorEq] at hgo
    exact sendTask_execute (.inl rfl) hgo
  | wait key actId =>
    cases answer <;> simp only [goOn, reduceCtorEq] at hgo
    split at hgo <;> cases hgo
    exact hleave
  | settle r =>
    cases answer <;> simp only [goOn, reduceCtorEq] at hgo
    split at hgo
    · next hsettle =>
      rw [canSettle, Bool.and_eq_true, Bool.not_eq_true'] at hsettle
      exact sendTask_execute (.inr hsettle.2) hgo
    · cases hgo
      exact hleave
  | find finding actId | replayOpen =>
    cases answer <;> cases hgo
    · exact sendTask_next (.inr rfl) trivial
    · exact hleave
  | found finding actId r =>
    cases answer <;> cases r <;> simp only [goOn, reduceCtorEq] at hgo
    · cases hgo
      exact hleave
    · exact sendTask_afterFind rfl hgo
  | replayFound records =>
    cases answer <;> cases records <;> simp only [goOn, reduceCtorEq] at hgo
    · cases hgo
      exact hleave
    split at hgo
    · cases hgo
      refine ⟨.refl, ⟨none, rfl, .inl rfl⟩, fun x hx => ?_, fun e he => ?_⟩
      · rw [mem_singleton.mp hx]
        trivial
      · cases he
        rfl
    · split at hgo <;> cases hgo
      · refine ⟨.refl, ⟨none, rfl, .inl rfl⟩, fun x hx => ?_, by simp⟩
        rcases mem_cons.mp hx with rfl | hx
        · trivial
        · rw [mem_singleton.mp hx]
          trivial
      · exact sendTask_next (.inr rfl) trivial
  | sync =>
    cases answer <;> simp only [goOn, reduceCtorEq] at hgo
    · split at hgo <;> cases hgo
      exact sendTask_next (.inr rfl) trivial
    · cases hgo
      exact hleave
  | syncWrite lines =>
    cases answer <;> simp only [goOn, reduceCtorEq] at hgo
    · cases hgo
      exact hleave
    cases hgo
    refine sendTask_leave (sendsKept_sync fun l hl => ?_)
    obtain ⟨v, hv, hline⟩ := mem_statusLines hl
    rw [← (statusLine_kept hline).2.1]
    exact (hsound.holds v.line hv).1
  | _ => cases hkind

theorem sendTask_goOn (h : IntentsStored s) (hc : CommitInv s) (hsound : t.Sound s)
    (ht : t.Clear s) (hcurrent : answer = .ok → t.current horizonMs s = true)
    (hunsent : answer = .ok → t.discardsUnsent s = true)
    (hjournal : ∀ d, t = .journal d → answer ≠ .ok)
    (hgo : t.goOn horizonMs s answer = some did) : SendTaskSound s t did := by
  cases t with
  | journal d =>
    cases answer <;> cases hgo
    · exact absurd rfl (hjournal d rfl)
    · exact sendTask_leave .refl
  | read | same | readLine | lineRead => exact sendTask_gesture h hc ht trivial hgo
  | limitLog | limitWrite | discardWrite | recover | recoverFound | recoverWrite =>
    exact sendTask_overwrite h hc hsound hcurrent hunsent trivial hgo
  | expireOpen | expireFound | due | dueWait | purge =>
    exact sendTask_expireOpen h hsound trivial hgo
  | call | wait | settle | find | found | replayOpen | replayFound | sync | syncWrite =>
    exact sendTask_rest hsound trivial hgo

end

/-! ## 5. Runs -/

section

variable {horizonMs : Nat} {s s' : SessionIntents} {i : IntentInput} {d : Draft} {t : SessionTask}
  {k : Nat} {tasks : List SessionTask} {executions : List Execution}

theorem CommitInv.with_calls (h : CommitInv s) (tasks : List SessionTask)
    (executions : List Execution) : CommitInv { s with tasks, executions } :=
  ⟨h.taken, h.kept, h.one, h.own, h.single⟩

theorem SessionTask.Clear.with_calls (ht : t.Clear s) (tasks : List SessionTask)
    (executions : List Execution) : t.Clear { s with tasks, executions } :=
  ht.mono (fun _ _ hnone => hnone) fun _ _ _ hsent => hsent

theorem CopiesCurrent.of_commits (h : CommitsCurrent horizonMs s i) :
    CopiesCurrent horizonMs s i := by
  cases i with
  | goOn k answer =>
    cases answer with
    | ok =>
      rw [CommitsCurrent, Option.all_eq_true] at h
      rw [CopiesCurrent, Option.all_eq_true]
      exact fun t ht => (Bool.and_eq_true_iff.mp (h t ht)).1
    | _ => trivial
  | _ => trivial

theorem key?_ne_of_nodup {key : InflightKey} (h : (s.tasks.filterMap (·.key?)).Nodup)
    (hk : s.tasks[k]? = some t) (hkey : t.key? = some key) :
    ∀ x ∈ s.tasks.eraseIdx k, x.key? ≠ some key := by
  obtain ⟨hlt, rfl⟩ := List.getElem?_eq_some_iff.mp hk
  have hperm := (List.getElem_cons_eraseIdx_perm hlt).filterMap (·.key?)
  have hnodup := hperm.nodup_iff.mpr h
  rw [filterMap_cons, hkey, nodup_cons] at hnodup
  exact fun x hx hsame => hnodup.1 (mem_filterMap.mpr ⟨x, hx, hsame⟩)

theorem keys_goOn {did : List SessionTask} (h : (s.tasks.filterMap (·.key?)).Nodup)
    (hk : s.tasks[k]? = some t)
    (hkeys : ∃ key, did.filterMap (·.key?) = Option.toList key ∧
      (key = t.key? ∨ key.all (fun key => !s.inflight key) = true)) :
    ((s.tasks.eraseIdx k ++ did).filterMap (·.key?)).Nodup := by
  obtain ⟨key, hdid, hheld⟩ := hkeys
  have hrest : ((s.tasks.eraseIdx k).filterMap (·.key?)).Nodup :=
    h.sublist ((eraseIdx_sublist _ _).filterMap _)
  rw [filterMap_append, hdid]
  rcases key with _ | key
  · simpa using hrest
  refine nodup_append.mpr ⟨hrest, by simp, fun a ha b hb => ?_⟩
  rw [Option.toList_some, mem_singleton] at hb
  obtain ⟨x, hx, hkey⟩ := mem_filterMap.mp ha
  rintro rfl
  rcases hheld with hown | hfree
  · exact key?_ne_of_nodup h hk hown.symm x hx (hb ▸ hkey)
  · rw [Option.all_some, Bool.not_eq_true', inflight, any_eq_false] at hfree
    exact hfree x (mem_of_mem_eraseIdx hx) (decide_eq_true (hb ▸ hkey))

def SessionIntents.journaled (s : SessionIntents) (d : Draft) : SessionIntents :=
  { s.write (d.record s.taken.length) none with taken := s.taken ++ [d.command] }

theorem stillOpen_journaled {a : ActId} (hopen : (s.journaled d).stillOpen a = true) :
    a = s.taken.length ∨ s.stillOpen a = true := by
  by_cases ha : s.taken.length = a
  · exact .inl ha.symm
  · exact .inr ((stillOpen_write none ha).symm.trans hopen)

theorem keyOf_journaled_self : (s.journaled d).keyOf s.taken.length = some d.command.dedupe := by
  rw [keyOf, journaled, getElem?_append_right (Nat.le_refl _), Nat.sub_self]
  rfl

section

variable (h : IntentsStored s)
include h

theorem keyOf_journaled {a : ActId} (hopen : s.stillOpen a = true) :
    (s.journaled d).keyOf a = s.keyOf a :=
  keyOf_mono (prefix_append _ _) (stillOpen_lt h hopen)

theorem noneOpen_journaled {key : DedupeKey} (hne : d.command.dedupe ≠ key)
    (hnone : s.NoneOpen key) : (s.journaled d).NoneOpen key := by
  intro a hopen hkey
  rcases stillOpen_journaled hopen with rfl | hopen
  · rw [keyOf_journaled_self] at hkey
    exact hne (Option.some.inj hkey)
  · rw [keyOf_journaled h hopen] at hkey
    exact hnone a hopen hkey

theorem CommitInv.journaled (hc : CommitInv s)
    (hclear : Clear s (.journal d)) : CommitInv (s.journaled d) := by
  obtain ⟨hnone, hunsent⟩ := hclear
  have hlt : ∀ c ∈ s.commits, c.actId < s.taken.length := fun c hmem =>
    (List.getElem?_eq_some_iff.mp (hc.taken c hmem)).1
  have hnew : ∀ b, s.stillOpen b = true →
      (s.journaled d).keyOf s.taken.length ≠ (s.journaled d).keyOf b := by
    intro b hb
    rw [keyOf_journaled_self, keyOf_journaled h hb]
    exact (hnone b hb).symm
  refine ⟨fun c hmem => ?_, fun c hmem input hsend => ?_, fun a b ha hb hab => ?_,
    fun c hmem input hsend a ha hkey => ?_, hc.single⟩
  · exact (getElem?_append_left (hlt c hmem)).trans (hc.taken c hmem)
  · refine (hc.kept c hmem input hsend).imp_left fun hopen => ?_
    exact (stillOpen_write none (Nat.ne_of_gt (hlt c hmem))).trans hopen
  · rcases stillOpen_journaled ha with rfl | ha <;> rcases stillOpen_journaled hb with rfl | hb
    · rfl
    · exact absurd hab (hnew b hb)
    · exact absurd hab.symm (hnew a ha)
    · rw [keyOf_journaled h ha, keyOf_journaled h hb] at hab
      exact hc.one a b ha hb hab
  · rcases stillOpen_journaled ha with rfl | ha
    · rw [keyOf_journaled_self] at hkey
      cases hcommand : d.command with
      | send input' =>
        rw [hcommand] at hkey
        exact absurd ⟨c, hmem, input, hsend, (DedupeKey.send.inj (Option.some.inj hkey)).symm⟩
          (hunsent input' hcommand)
      | plain command key input' =>
        rw [hcommand] at hkey
        cases hkey
    · rw [keyOf_journaled h ha] at hkey
      exact hc.own c hmem input hsend a ha hkey

theorem sendInv_journal (hs : SendInv s) (hk : s.tasks[k]? = some (.journal d)) :
    SendInv { s.journaled d with
      tasks := s.tasks.eraseIdx k ++
        [.call (.gesture d.command.dedupe) (d.record s.taken.length) true]
      executions } ↔ ∀ e ∈ executions, e.stage.refused = true →
        s.committed e.record.actId = false := by
  have hclear := hs.tasks _ (mem_of_getElem? hk)
  refine ⟨fun hinv => hinv.refused, fun hrefused => ⟨?_, hrefused, ?_, fun x hx => ?_⟩⟩
  · exact (hs.commits.journaled h hclear).with_calls _ _
  · exact keys_goOn hs.keys hk ⟨_, rfl, .inl rfl⟩
  rcases mem_append.mp hx with hx | hx
  · have hne := key?_ne_of_nodup hs.keys hk rfl x hx
    refine Clear.with_calls ((hs.tasks x (mem_of_mem_eraseIdx hx)).mono
      (fun key hkey hnone => noneOpen_journaled h ?_ hnone) fun _ _ _ hsent => hsent) _ _
    rintro rfl
    exact hne hkey
  · rw [mem_singleton.mp hx]
    trivial

end

theorem sendInv_goOn {answer : TaskAnswer} (h : IntentInv s) (hs : SendInv s)
    (hadmits : CommitsCurrent horizonMs s (.goOn k answer))
    (hstep : intentStep horizonMs s (.goOn k answer) = some s') : SendInv s' := by
  rw [intentStep] at hstep
  split at hstep
  · cases hstep
  next task hk =>
  obtain ⟨did, hgo, rfl⟩ := Option.map_eq_some_iff.mp hstep
  have hmem : task ∈ s.tasks := mem_of_getElem? hk
  have hok : answer = .ok → task.current horizonMs s = true ∧ task.discardsUnsent s = true := by
    rintro rfl
    rw [CommitsCurrent, hk] at hadmits
    exact Bool.and_eq_true_iff.mp hadmits
  by_cases hjournal : ∃ d, task = .journal d ∧ answer = .ok
  · obtain ⟨d, rfl, rfl⟩ := hjournal
    cases hgo
    refine (sendInv_journal h.stored hs hk).mpr ?_
    simpa using hs.refused
  have hsound := sendTask_goOn h.stored hs.commits (h.tasks task hmem) (hs.tasks task hmem)
    (fun ha => (hok ha).1) (fun ha => (hok ha).2)
    (fun d hd ha => hjournal ⟨d, hd, ha⟩) hgo
  have hk' := hsound.kept
  refine ⟨(hs.commits.of_kept hk').with_calls _ _, fun e he href => ?_,
    keys_goOn hs.keys hk hsound.keys, fun x hx => ?_⟩
  · refine (committed_of_commits hk'.commits _).trans ?_
    rcases mem_append.mp he with he | he
    · exact hs.refused e he href
    · rw [hsound.execution e (Option.mem_toList.mp he)] at href
      cases href
  · rcases mem_append.mp hx with hx | hx
    · exact Clear.with_calls ((hs.tasks x (mem_of_mem_eraseIdx hx)).mono
        (fun _ _ => hk'.noneOpen) fun _ _ _ => hk'.sentKey_iff.mp) _ _
    · exact (hsound.tasks x hx).with_calls _ _

theorem sendInv_run {answer : ExecutionAnswer} (h : IntentInv s) (hs : SendInv s)
    (hadmits : CommitsCurrent horizonMs s (.run k answer))
    (hstep : intentStep horizonMs s (.run k answer) = some s') : SendInv s' := by
  rw [intentStep] at hstep
  split at hstep
  · cases hstep
  next e hk =>
  obtain ⟨did, hgo, rfl⟩ := Option.map_eq_some_iff.mp hstep
  have hmem : e ∈ s.executions := mem_of_getElem? hk
  rw [CommitsCurrent, hk] at hadmits
  have hsound := sendExecution_goOn hs.commits (h.executions e hmem) hadmits
    (hs.refused e hmem) hgo
  have htasks := (executionSound_goOn h.stored (h.executions e hmem) hgo).tasks
  refine ⟨hsound.commits.with_calls _ _, fun x hx href => ?_, ?_, fun x hx => ?_⟩
  · rcases mem_append.mp hx with hx | hx
    · refine (hsound.others _ (others_of_nodup h.nodup hk x hx)).trans ?_
      exact hs.refused x (mem_of_mem_eraseIdx hx) href
    · exact hsound.execution x (Option.mem_toList.mp hx) href
  · rw [htasks]
    exact hs.keys
  · refine Clear.with_calls ((hs.tasks x (htasks ▸ hx)).mono
      (fun key _ => hsound.noneOpen key) fun key _ => hsound.sent key) _ _

theorem sendInv_spawn (hs : SendInv s) (ht : t.Clear s) (hspawn : s.spawn t = some s') :
    SendInv s' := by
  rw [spawn] at hspawn
  split at hspawn <;> cases hspawn
  · exact hs
  next hfree =>
  refine ⟨hs.commits.with_calls _ _, hs.refused, ?_, fun x hx => ?_⟩
  · show ((s.tasks ++ [t]).filterMap (·.key?)).Nodup
    rw [filterMap_append, nodup_append]
    refine ⟨hs.keys, by cases hkey : t.key? <;> simp [hkey], fun a ha b hb => ?_⟩
    obtain ⟨x, hx, hxkey⟩ := mem_filterMap.mp ha
    obtain ⟨y, hy, hykey⟩ := mem_filterMap.mp hb
    rintro rfl
    rw [mem_singleton.mp hy] at hykey
    refine hfree (.inr ?_)
    rw [hykey, Option.any_some]
    exact any_eq_true.mpr ⟨x, hx, decide_eq_true hxkey⟩
  · rcases mem_append.mp hx with hx | hx
    · exact (hs.tasks x hx).with_calls _ _
    · rw [mem_singleton.mp hx]
      exact ht.with_calls _ _

theorem sendInv_of_same (hs : SendInv s) (hjournal : s'.journal = s.journal)
    (hlog : s'.log = s.log) (htaken : s'.taken = s.taken) (hcommits : s'.commits = s.commits)
    (hexecutions : s'.executions = s.executions ∨ s'.executions = [])
    (htasks : s'.tasks = s.tasks ∨ s'.tasks = []) : SendInv s' := by
  have hopen : ∀ a, s'.stillOpen a = s.stillOpen a := fun a => by
    rw [stillOpen, hjournal, stillOpen]
  have hk : SendsKept s s' := by
    refine ⟨htaken, hcommits, fun a ho => (hopen a).symm.trans ho,
      fun c _ _ _ ho => .inl ((hopen c.actId).trans ho), fun key _ hspent => ?_⟩
    rw [Spent, hlog]
    exact hspent
  refine ⟨hs.commits.of_kept hk, fun e he href => ?_, ?_, fun x hx => ?_⟩
  · rcases hexecutions with hsame | hnone
    · exact (committed_of_commits hcommits _).trans (hs.refused e (hsame ▸ he) href)
    · rw [hnone] at he
      cases he
  · rcases htasks with hsame | hnone
    · rw [hsame]
      exact hs.keys
    · rw [hnone]
      exact nodup_nil
  · rcases htasks with hsame | hnone
    · exact (hs.tasks x (hsame ▸ hx)).mono (fun _ _ => hk.noneOpen) fun _ _ _ => hk.sentKey_iff.mp
    · rw [hnone] at hx
      cases hx

theorem sendInv_step (h : IntentInv s) (hs : SendInv s) (hadmits : CommitsCurrent horizonMs s i)
    (hstep : intentStep horizonMs s i = some s') : SendInv s' := by
  cases i with
  | goOn k answer => exact sendInv_goOn h hs hadmits hstep
  | run k answer => exact sendInv_run h hs hadmits hstep
  | gesture command auto => exact sendInv_spawn (t := .read ⟨command, s.now, auto⟩) hs trivial hstep
  | find finding actId => exact sendInv_spawn (t := .find finding actId) hs trivial hstep
  | expireOpen purgeOnly => exact sendInv_spawn (t := .expireOpen purgeOnly) hs trivial hstep
  | recover => exact sendInv_spawn (t := .recover) hs trivial hstep
  | sync => exact sendInv_spawn (t := .sync) hs trivial hstep
  | replayOpen =>
    rw [intentStep] at hstep
    split at hstep
    · exact sendInv_spawn (t := .replayOpen) hs trivial hstep
    · cases hstep
      exact hs
  | resume | forget | stop | tick =>
    cases hstep
    exact sendInv_of_same hs rfl rfl rfl rfl (.inl rfl) (.inl rfl)
  | crash =>
    cases hstep
    exact sendInv_of_same hs rfl rfl rfl rfl (.inr rfl) (.inr rfl)
  | reopen =>
    rw [intentStep] at hstep
    split at hstep <;> cases hstep
    exact sendInv_of_same hs rfl rfl rfl rfl (.inl rfl) (.inl rfl)

theorem sendInv_start : SendInv .start := by
  refine ⟨⟨?_, ?_, fun a _ ha => ?_, ?_, ?_⟩, ?_, ?_, ?_⟩ <;> simp [start]
  cases ha

section

variable (h : Machine.Reaches (intentStep horizonMs) (CommitsCurrent horizonMs) .start s)
include h

theorem sendInv_reaches : SendInv s := by
  have hboth : IntentInv s ∧ SendInv s :=
    h.invariant (P := fun s => IntentInv s ∧ SendInv s) ⟨intentInv_start, sendInv_start⟩
      fun _ _ _ hinv ha hs =>
        ⟨(intentInv_step hinv.1 (.of_commits ha) hs).1, sendInv_step hinv.1 hinv.2 ha hs⟩
  exact hboth.2

/-- **A draft is sent at most once**: of all commits of the library, those of one draft key have
    one actId. -/
theorem single_send : ∀ c ∈ s.commits, ∀ c' ∈ s.commits, ∀ input input', c.command = .send input →
      c'.command = .send input' → input.draftKey = input'.draftKey → c.actId = c'.actId :=
  (sendInv_reaches h).commits.single

end

/-- The write of the outcome fails, a repeat answers from the act journal of the library, and the
    same draft is not sent once more: the act was asked for twice, and committed once. -/
theorem single_send_retried : ∃ s : SessionIntents, ∃ c ∈ s.commits, ∃ input,
    c.command = .send input ∧ (∃ r ∈ s.journal.rows, r.state = .done ∧ r.attempts = 2) ∧
      ∀ c' ∈ s.commits, ∀ input', c'.command = .send input' →
        input.draftKey = input'.draftKey → c.actId = c'.actId := by
  obtain ⟨s, hs, hp⟩ := Machine.Reaches.of_exec (intentStep RETRY_HORIZON_MS)
    (CommitsCurrent RETRY_HORIZON_MS) .start
    (flatten [[.reopen, .resume, .gesture (.send ⟨"c", "hello", "k", none⟩) false],
      replicate 6 (.goOn 0 .ok),
      [.run 0 .ok, .run 0 (.committed ⟨"m", "d"⟩), .run 0 .fail, .run 0 .ok, .goOn 0 .ok,
        .find .retry 0], replicate 3 (.goOn 0 .ok),
      [.run 0 .ok, .run 0 .ok, .run 0 .ok, .run 0 .ok, .goOn 0 .ok,
        .gesture (.send ⟨"c", "hello", "k", none⟩) false], replicate 4 (.goOn 0 .ok)])
    (fun s => decide ((∃ r ∈ s.journal.rows, r.state = .done ∧ r.attempts = 2) ∧ s.tasks = [] ∧
      ∃ c ∈ s.commits, c.command = .send ⟨"c", "hello", "k", none⟩))
    (by decide +kernel)
  obtain ⟨hdone, -, c, hc, hsend⟩ := of_decide_eq_true hp
  exact ⟨s, c, hc, _, hsend, hdone, fun c' hc' input' hsend' =>
    single_send hs c hc c' hc' _ input' hsend hsend'⟩

/-- The outcome of a committed message is unknown, the message is discarded, and a purge takes its
    record: nothing keeps the draft key, and the same draft commits under a second actId. -/
theorem sent_twice : ∃ s : SessionIntents,
    Machine.Reaches (intentStep RETRY_HORIZON_MS) (fun _ _ => True) .start s ∧
      ∃ c ∈ s.commits, ∃ c' ∈ s.commits, ∃ input input', c.command = .send input ∧
        c'.command = .send input' ∧ input.draftKey = input'.draftKey ∧ c.actId ≠ c'.actId := by
  obtain ⟨s, hs, hp⟩ := Machine.Reaches.of_exec (intentStep RETRY_HORIZON_MS)
    (fun _ _ => True) .start
    (flatten [[.reopen, .gesture (.send ⟨"c", "hello", "k", none⟩) false],
      replicate 6 (.goOn 0 .ok),
      [.run 0 .ok, .run 0 (.committed ⟨"m", "d"⟩), .run 0 .fail, .run 0 .ok, .goOn 0 .ok,
        .find .discard 0], replicate 3 (.goOn 0 .ok),
      [.tick (8 * DAY), .expireOpen false], replicate 4 (.goOn 0 .ok),
      [.gesture (.send ⟨"c", "hello", "k", none⟩) false], replicate 6 (.goOn 0 .ok),
      [.run 0 .ok, .run 0 (.committed ⟨"m2", "d2"⟩)]])
    (fun s => decide (∃ c ∈ s.commits, ∃ c' ∈ s.commits,
      c.command = .send ⟨"c", "hello", "k", none⟩ ∧ c'.command = .send ⟨"c", "hello", "k", none⟩ ∧
        c.actId ≠ c'.actId))
    (by decide +kernel)
  obtain ⟨c, hc, c', hc', hsend, hsend', hne⟩ := of_decide_eq_true hp
  exact ⟨s, hs, c, hc, c', hc', _, _, hsend, hsend', rfl, hne⟩

end

end WebOfTrust
