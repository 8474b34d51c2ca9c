/-
  **Replay protection of the inbox.**  An id stays in the history for the retention, counted
  from the time that was read when it was recorded.  Up to then every look-up finds it
  (`HistoryInv.held`), and a look-up finds nothing that was not recorded.

  The retention is as long as a message can stay fresh after it was recorded
  (`fresh_in_time`).  But a reception reads the clock once for the age and once more, later,
  for the look-up: a message that passes the first at the last moment is not held any more
  at the second (`replay_after_second_reading`).
-/
import WebOfTrust.InboxReception

namespace WebOfTrust

open Async KeyedTable List

/-! ## 1. The runs -/

variable (kind : HistoryKind)

def readsHistory : InboxPoint → Option String
  | .has id => if kind = .inMemory then some id else none
  | .getRecord id => some id
  | _ => none

def InboxEvent.retained (now : Nat) (id : String) : InboxEvent → Bool
  | .recorded id' _ stamp => decide (id' = id → now ≤ stamp + messageIdRetentionMs)
  | _ => true

def InTime (w : InboxWorld) (t : InboxPoint) (i : InboxInput) : Prop :=
  (readsHistory kind t).all (fun id => w.events.all (·.retained i.now id)) = true

instance (kind : HistoryKind) (w : InboxWorld) (t : InboxPoint) (i : InboxInput) :
    Decidable (InTime kind w t i) := inferInstanceAs (Decidable (_ = true))

def Forward (cfg : InboxConfig) (cc : InboxConfiguration) : Action InboxInput InboxCall → Prop
  | .run _ i => cc.world.clock ≤ i.now
  | .restart => cfg.kind = .indexedDB
  | _ => True

instance (cfg : InboxConfig) (cc : InboxConfiguration) (a : Action InboxInput InboxCall) :
    Decidable (Forward cfg cc a) := by
  cases a <;> simp only [Forward] <;> infer_instance

def Timely (cfg : InboxConfig) (cc : InboxConfiguration) (a : Action InboxInput InboxCall) : Prop :=
  Forward cfg cc a ∧ match a with
    | .run n i => (cc.pointAt n).all (fun t => decide (InTime cfg.kind cc.world t i)) = true
    | _ => True

instance (cfg : InboxConfig) (cc : InboxConfiguration) (a : Action InboxInput InboxCall) :
    Decidable (Timely cfg cc a) := by
  cases a <;> simp only [Timely] <;> infer_instance

/-! ## 2. What may happen -/

section

variable (events : List InboxEvent)

/-- After a recording of an id, no reception that begins is accepted under it. -/
def NoReplay : Prop :=
  ∀ (i j k n : Nat) (id : String) (c c' s : Nat), events[i]? = some (.recorded id c s) →
    events[j]? = some (.received n) → events[k]? = some (.accepted n id c') → i < j → ¬ j < k

def OnlyReplays : Prop :=
  ∀ (k n : Nat) (id : String), events[k]? = some (.replayed n id) →
    ∃ j c s, j < k ∧ events[j]? = some (.recorded id c s)

def Unreplayed : Prop :=
  events.Pairwise fun e e' => ∀ id c s n c', e = .recorded id c s → e' ≠ .accepted n id c'

end

variable {events : List InboxEvent} {e : InboxEvent} {id outerType outerId : String}
  {c s nowMs n : Nat} {payload : InboxInnerJwsPayload} {t : InboxPoint} {i : InboxInput}

theorem Unreplayed.noReplay (h : Unreplayed events) : NoReplay events := by
  intro i j k n id c c' s hi _ hk hij hjk
  obtain ⟨hilt, hi⟩ := List.getElem?_eq_some_iff.mp hi
  obtain ⟨hklt, hk⟩ := List.getElem?_eq_some_iff.mp hk
  exact List.pairwise_iff_getElem.mp h i k hilt hklt (Nat.lt_trans hij hjk) id c s n c' hi hk

theorem Unreplayed.snoc (h : Unreplayed events)
    (he : ∀ n id c', e = .accepted n id c' → ∀ c s, .recorded id c s ∉ events) :
    Unreplayed (events ++ [e]) := by
  refine pairwise_append.mpr ⟨h, pairwise_singleton _ _, ?_⟩
  rintro e' he' e'' he'' id c s n c' rfl
  rw [mem_singleton.mp he'']
  exact fun haccepted => he n id c' haccepted c s he'

theorem OnlyReplays.snoc (h : OnlyReplays events)
    (he : ∀ n id, e = .replayed n id → ∃ c s, .recorded id c s ∈ events) :
    OnlyReplays (events ++ [e]) := by
  intro k n id hk
  rcases Nat.lt_or_ge k events.length with hlt | hge
  · rw [getElem?_append_left hlt] at hk
    obtain ⟨j, c, s, hjk, hj⟩ := h k n id hk
    exact ⟨j, c, s, hjk, by rw [getElem?_append_left (Nat.lt_trans hjk hlt)]; exact hj⟩
  rw [getElem?_append_right hge, getElem?_singleton] at hk
  split at hk
  · next hzero =>
    injection hk with hk
    obtain ⟨c, s, hmem⟩ := he n id hk
    obtain ⟨j, hj⟩ := mem_iff_getElem?.mp hmem
    have hlt := (List.getElem?_eq_some_iff.mp hj).1
    exact ⟨j, c, s, by omega, by rw [getElem?_append_left hlt]; exact hj⟩
  · cases hk

/-! ## 3. The invariant -/

structure HistoryInv (w : InboxWorld) : Prop where
  held : ∀ id c s, .recorded id c s ∈ w.events →
    (∃ r c', w.history.get? id = some r ∧ .recorded id c' r.seenAtMs ∈ w.events) ∨
      ∃ c' s', .recorded id c' s' ∈ w.events ∧ s' + messageIdRetentionMs < w.clock
  known : ∀ r ∈ w.history.rows, ∃ c, .recorded r.id c r.seenAtMs ∈ w.events
  stamped : ∀ id c s, .recorded id c s ∈ w.events →
    s ≤ w.clock ∧ c * 1000 ≤ s + innerJwsMaxClockSkewMs
  accepted : ∀ n id c, .accepted n id c ∈ w.events → c * 1000 ≤ w.clock + innerJwsMaxClockSkewMs
  replays : OnlyReplays w.events

variable {w : InboxWorld} {now : Nat}

theorem historyInv_fresh : HistoryInv .fresh where
  held _ _ _ h := by cases h
  known _ h := by cases h
  stamped _ _ _ h := by cases h
  accepted _ _ _ h := by cases h
  replays k n id h := by cases h

section

variable (h : HistoryInv w)
include h

theorem HistoryInv.tick (hnow : w.clock ≤ now) : HistoryInv (w.tick now) where
  held id c s hmem := by
    rcases h.held id c s hmem with hheld | ⟨c', s', hmem', hlt⟩
    · exact .inl hheld
    · exact .inr ⟨c', s', hmem', Nat.lt_of_lt_of_le hlt hnow⟩
  known := h.known
  stamped id c s hmem := 
    ⟨Nat.le_trans (h.stamped id c s hmem).1 hnow, (h.stamped id c s hmem).2⟩
  accepted n id c hmem := by
    have := h.accepted n id c hmem
    show c * 1000 ≤ now + innerJwsMaxClockSkewMs
    omega
  replays := h.replays

theorem HistoryInv.note (hrecord : ∀ id c s, e ≠ .recorded id c s)
    (haccept : ∀ n id c, e = .accepted n id c → c * 1000 ≤ w.clock + innerJwsMaxClockSkewMs)
    (hreplay : ∀ n id, e = .replayed n id → ∃ c s, .recorded id c s ∈ w.events) :
    HistoryInv (w.note e) := by
  have hold : ∀ id c s, .recorded id c s ∈ (w.note e).events → .recorded id c s ∈ w.events := by
    intro id c s hmem
    rcases mem_append.mp hmem with hmem | hmem
    · exact hmem
    · exact absurd (mem_singleton.mp hmem).symm (hrecord id c s)
  have hnew : ∀ e', e' ∈ w.events → e' ∈ (w.note e).events := fun e' he' =>
    mem_append_left _ he'
  constructor
  · intro id c s hmem
    rcases h.held id c s (hold id c s hmem) with ⟨r, c', hr, hmem'⟩ | ⟨c', s', hmem', hlt⟩
    · exact .inl ⟨r, c', hr, hnew _ hmem'⟩
    · exact .inr ⟨c', s', hnew _ hmem', hlt⟩
  · intro r hr
    obtain ⟨c, hmem⟩ := h.known r hr
    exact ⟨c, hnew _ hmem⟩
  · exact fun id c s hmem => h.stamped id c s (hold id c s hmem)
  · intro n id c hmem
    rcases mem_append.mp hmem with hmem | hmem
    · exact h.accepted n id c hmem
    · exact haccept n id c (mem_singleton.mp hmem).symm
  · exact h.replays.snoc hreplay

theorem HistoryInv.seen_of_recorded (hmem : .recorded id c s ∈ w.events) (hnow : nowMs ≤ w.clock)
    (htime : ∀ c s, .recorded id c s ∈ w.events → w.clock ≤ s + messageIdRetentionMs) :
    w.history.seen id nowMs = true := by
  rcases h.held id c s hmem with ⟨r, c', hr, hmem'⟩ | ⟨c', s', hmem', hlt⟩
  · have := htime c' r.seenAtMs hmem'
    rw [MessageIdHistory.seen, hr, Option.any_some, decide_eq_true_eq]
    omega
  · have := htime c' s' hmem'
    omega

theorem HistoryInv.recorded_of_seen (hseen : w.history.seen id nowMs = true) :
    ∃ c s, .recorded id c s ∈ w.events := by
  obtain ⟨r, hr, -⟩ := (Option.any_eq_true _ _).mp hseen
  obtain ⟨hmem, rfl⟩ := get?_eq_some_iff.mp hr
  obtain ⟨c, hrecorded⟩ := h.known r hmem
  exact ⟨c, r.seenAtMs, hrecorded⟩

theorem HistoryInv.judge
    (hcreated : payload.createdTime * 1000 ≤ w.clock + innerJwsMaxClockSkewMs) :
    HistoryInv (w.judge n payload nowMs).2 := by
  unfold InboxWorld.judge
  split
  · next hseen =>
    apply h.note
    · exact fun _ _ _ he => by cases he
    · exact fun _ _ _ he => by cases he
    · rintro n' id ⟨⟩
      exact h.recorded_of_seen hseen
  · apply h.note
    · exact fun _ _ _ he => by cases he
    · rintro n' id c ⟨⟩
      exact hcreated
    · exact fun _ _ he => by cases he

theorem HistoryInv.judge_unreplayed (hevents : Unreplayed w.events) (hnow : nowMs ≤ w.clock)
    (htime : ∀ c s, .recorded payload.id c s ∈ w.events → w.clock ≤ s + messageIdRetentionMs) :
    Unreplayed (w.judge n payload nowMs).2.events := by
  unfold InboxWorld.judge
  split
  · exact hevents.snoc fun _ _ _ he => by cases he
  next hseen =>
  apply hevents.snoc
  rintro n' id c' ⟨⟩ c s hmem
  exact hseen (h.seen_of_recorded hmem hnow htime)

theorem HistoryInv.record (hs : s ≤ w.clock)
    (hcreated : c * 1000 ≤ s + innerJwsMaxClockSkewMs) : HistoryInv (w.record id c s) := by
  have hold : ∀ e', e' ∈ w.events → e' ∈ (w.record id c s).events := fun e' he' =>
    mem_append_left _ he'
  have hself : .recorded id c s ∈ (w.record id c s).events :=
    mem_append_right _ (mem_singleton_self _)
  have hcases : ∀ id' c' s', .recorded id' c' s' ∈ (w.record id c s).events →
      .recorded id' c' s' ∈ w.events ∨ id' = id ∧ c' = c ∧ s' = s := by
    intro id' c' s' hmem
    rcases mem_append.mp hmem with hmem | hmem
    · exact .inl hmem
    · cases mem_singleton.mp hmem
      exact .inr ⟨rfl, rfl, rfl⟩
  -- an entry that was there is kept, or its retention is over
  have hkept : ∀ id' r c', w.history.get? id' = some r → .recorded id' c' r.seenAtMs ∈ w.events →
      (∃ r c', (w.record id c s).history.get? id' = some r ∧
        .recorded id' c' r.seenAtMs ∈ (w.record id c s).events) ∨
      ∃ c' s', .recorded id' c' s' ∈ (w.record id c s).events ∧
        s' + messageIdRetentionMs < w.clock := by
    intro id' r c' hr hmem
    by_cases hin : (s : Int) - messageIdRetentionMs ≤ r.seenAtMs
    · refine .inl ⟨r, c', ?_, hold _ hmem⟩
      apply get?_add_of_some
      exact get?_filter_eq_some.mpr ⟨hr, by simpa using hin⟩
    · exact .inr ⟨c', r.seenAtMs, hold _ hmem, by omega⟩
  constructor
  · intro id' c' s' hmem
    rcases hcases id' c' s' hmem with hmem | ⟨rfl, rfl, rfl⟩
    · rcases h.held id' c' s' hmem with ⟨r, c'', hr, hmem'⟩ | ⟨c'', s'', hmem', hlt⟩
      · exact hkept id' r c'' hr hmem'
      · exact .inr ⟨c'', s'', hold _ hmem', hlt⟩
    cases hpruned : (w.history.prune s').get? id' with
    | none =>
      refine .inl ⟨⟨id', s'⟩, c', ?_, hself⟩
      show ((w.history.prune s').add ⟨id', s'⟩).get? id' = some ⟨id', s'⟩
      rw [get?_add_of_free (by simp [has, hpruned]), if_pos rfl]
    | some r =>
      obtain ⟨hr, -⟩ := get?_filter_eq_some.mp hpruned
      obtain ⟨hrow, hid⟩ := get?_eq_some_iff.mp hr
      obtain ⟨c'', hknown⟩ := h.known r hrow
      rw [hid] at hknown
      exact hkept id' r c'' hr hknown
  · intro r hr
    rcases mem_rows_add hr with hr | rfl
    · obtain ⟨c', hmem⟩ := h.known r (mem_rows_filter.mp hr).1
      exact ⟨c', hold _ hmem⟩
    · exact ⟨c, hself⟩
  · intro id' c' s' hmem
    rcases hcases id' c' s' hmem with hmem | ⟨rfl, rfl, rfl⟩
    · exact h.stamped id' c' s' hmem
    · exact ⟨hs, hcreated⟩
  · intro n id' c' hmem
    rcases mem_append.mp hmem with hmem | hmem
    · exact h.accepted n id' c' hmem
    · cases mem_singleton.mp hmem
  · exact h.replays.snoc fun _ _ he => by cases he

end

theorem unreplayed_record (h : Unreplayed w.events) : Unreplayed (w.record id c s).events :=
  h.snoc fun _ _ _ he => by cases he

/-! ## 4. The programs -/

/-- While a program waits the clock moves on.  `strict` is a run in which the history is read
    in time. -/
def inboxContract (strict : Prop) : Contract InboxPoint InboxInput InboxWorld where
  inv w := HistoryInv w ∧ (strict → Unreplayed w.events)
  rely _ w w' := w.clock ≤ w'.clock
  may t i w := w.clock ≤ i.now ∧ (strict → InTime kind w t i)
  guar _ _ w w' := w.clock ≤ w'.clock

variable {cfg : InboxConfig} {strict : Prop}

abbrev InboxMeets (cfg : InboxConfig) (strict : Prop) {α : Type} (Q : α → InboxWorld → Prop)
    (p : InboxProgram α) (w : InboxWorld) : Prop :=
  Meets (inboxContract cfg.kind strict) Q (fun _ _ => True) p w

theorem clock_le_of_rely {w' : InboxWorld}
    (h : Relation.ReflTransGen ((inboxContract cfg.kind strict).rely t) w w') :
    w.clock ≤ w'.clock :=
  relies_of_star (r := (inboxContract cfg.kind strict).rely t) (fun _ => Nat.le_refl _)
    (fun _ _ _ => Nat.le_trans) h

theorem meets_tick {α : Type} {f : InboxInput → InboxWorld → Except String α}
    {Q : α → InboxWorld → Prop}
    (hQ : ∀ w', w.clock ≤ w'.clock → ∀ i a, w'.clock ≤ i.now → f i w' = .ok a →
      Q a (w'.tick i.now)) :
    InboxMeets cfg strict Q (atomic t fun i w => (f i w, w.tick i.now)) w := by
  apply meets_atomic
  intro w' hrely hinv i hmay
  refine ⟨⟨hinv.1.tick hmay.1, hinv.2⟩, hmay.1, fun a ha => ?_, fun _ _ => trivial⟩
  exact hQ w' (clock_le_of_rely hrely) i a hmay.1 ha

theorem checkInnerPayload_ok {ownDid kidDid : Did} {shaped : InboxInnerJwsPayload}
    (h : checkInnerPayload ownDid outerType outerId nowMs kidDid shaped = .ok payload) :
    payload.createdTime * 1000 ≤ nowMs + innerJwsMaxClockSkewMs := by
  unfold checkInnerPayload at h
  split_ifs at h with _ _ _ _ hold hfuture
  cases h
  omega

theorem checkInnerJws_ok {innerJws : InnerJws} {kidDid : Did} {kid : String}
    (h : checkInnerJws cfg.ownDid outerType outerId nowMs innerJws = .ok (payload, kidDid, kid)) :
    payload.createdTime * 1000 ≤ nowMs + innerJwsMaxClockSkewMs := by
  unfold checkInnerJws at h
  split at h
  · cases h
  split at h
  · cases h
  split at h
  · cases h
  split at h
  · cases h
  next kid' _ _ =>
  rcases hshape : assertInboxInnerJwsPayloadShape _ with text | shaped
  · rw [hshape] at h
    cases h
  rw [hshape] at h
  change (checkInnerPayload cfg.ownDid outerType outerId nowMs (didOrKidToDid kid')
    shaped).bind _ = _ at h
  cases hchecked : checkInnerPayload cfg.ownDid outerType outerId nowMs
      (didOrKidToDid kid') shaped with
  | error text =>
    rw [hchecked] at h
    cases h
  | ok checked =>
    rw [hchecked] at h
    cases h
    exact checkInnerPayload_ok hchecked

theorem meets_verify {innerJws : InnerJws} (hnow : nowMs ≤ w.clock) : InboxMeets cfg strict
      (fun payload w => payload.createdTime * 1000 ≤ w.clock + innerJwsMaxClockSkewMs)
      (verifyInboxInnerJws cfg innerJws outerType outerId nowMs) w := by
  apply meets_bind
  refine meets_ofExcept.mpr ⟨fun checked hchecked => ?_, fun _ _ => trivial⟩
  obtain ⟨payload, kidDid, kid⟩ := checked
  have hcreated := checkInnerJws_ok hchecked
  apply meets_bind
  apply meets_tick
  intro w₁ hw₁ i₁ document hi₁ _
  apply meets_bind
  refine meets_ofExcept.mpr ⟨fun publicKey _ => ?_, fun _ _ => trivial⟩
  apply meets_bind
  apply meets_tick
  intro w₂ hw₂ i₂ valid hi₂ _
  split
  · show payload.createdTime * 1000 ≤ i₂.now + innerJwsMaxClockSkewMs
    change i₁.now ≤ w₂.clock at hw₂
    omega
  · trivial

theorem InTime.retained {kind : HistoryKind} (h : InTime kind w t i)
    (hid : readsHistory kind t = some id) (hmem : .recorded id c s ∈ w.events) :
    i.now ≤ s + messageIdRetentionMs := by
  unfold InTime at h
  rw [hid, Option.all_some, all_eq_true] at h
  have := h _ hmem
  simpa [InboxEvent.retained] using this

theorem judge_step (hinv : (inboxContract cfg.kind strict).inv w)
    (hmay : (inboxContract cfg.kind strict).may t i w)
    (hreads : readsHistory cfg.kind t = some payload.id) (hnow : nowMs ≤ i.now)
    (hcreated : payload.createdTime * 1000 ≤ i.now + innerJwsMaxClockSkewMs) :
    (inboxContract cfg.kind strict).inv ((w.tick i.now).judge n payload nowMs).2 := by
  have hticked := hinv.1.tick hmay.1
  refine ⟨hticked.judge hcreated, fun hstrict => ?_⟩
  apply hticked.judge_unreplayed (hinv.2 hstrict) hnow
  intro c s hmem
  exact (hmay.2 hstrict).retained hreads hmem

theorem clock_judge (n nowMs : Nat) (payload : InboxInnerJwsPayload) :
    (w.judge n payload nowMs).2.clock = w.clock := by
  unfold InboxWorld.judge
  split <;> rfl

theorem meets_lookUp (hcreated : payload.createdTime * 1000 ≤ w.clock + innerJwsMaxClockSkewMs) :
    InboxMeets cfg strict (fun _ _ => True) (lookUp cfg n payload) w := by
  unfold lookUp
  split
  · next hkind =>
    apply meets_atomic
    intro w' hrely hinv i hmay
    have hclock := clock_le_of_rely hrely
    have hlater := hmay.1
    refine ⟨judge_step hinv hmay ?_ (Nat.le_refl _) (by omega), ?_, fun _ _ => trivial,
      fun _ _ => trivial⟩
    · simp [readsHistory, hkind]
    show w'.clock ≤ _
    rw [clock_judge]
    exact hlater
  · next hkind =>
    apply meets_bind
    apply meets_tick
    intro w' hw' i nowMs hi hok
    cases hok
    apply meets_atomic
    intro w'' hrely hinv i' hmay
    have hclock : i.now ≤ w''.clock := clock_le_of_rely hrely
    have hlater := hmay.1
    split
    · exact ⟨⟨hinv.1.tick hlater, hinv.2⟩, hlater, fun _ _ => trivial, fun _ _ => trivial⟩
    refine ⟨judge_step hinv hmay rfl (by omega) (by omega), ?_, fun _ _ => trivial,
      fun _ _ => trivial⟩
    show w''.clock ≤ _
    rw [clock_judge]
    exact hlater

theorem meets_receive (message : WireMessage) :
    InboxMeets cfg strict (fun _ _ => True) (receiveInboxMessage cfg message) w := by
  apply meets_bind
  apply meets_atomic
  intro w' hrely hinv i hmay
  have hreceived : ∀ n, HistoryInv ((w'.tick i.now).note (.received n)) := fun n =>
    (hinv.1.tick hmay.1).note (fun _ _ _ he => by cases he) (fun _ _ _ he => by cases he)
      fun _ _ he => by cases he
  refine ⟨⟨⟨(hreceived _).held, (hreceived _).known, (hreceived _).stamped, (hreceived _).accepted,
    (hreceived _).replays⟩, fun hstrict => (hinv.2 hstrict).snoc fun _ _ _ he => by cases he⟩,
    hmay.1, fun n _ => ?_, fun _ _ => trivial⟩
  dsimp only
  split
  · trivial
  next envelope _ _ =>
  apply meets_bind
  apply meets_tick
  intro w₁ _ i₁ decrypted _ hdecrypted
  split
  · trivial
  next innerJws nowMs =>
  -- the clock was read in the piece in which the plaintext arrived
  have hnow : nowMs ≤ i₁.now := by
    injection hdecrypted with hdecrypted
    split at hdecrypted
    · cases hdecrypted
    · cases hdecrypted
      exact Nat.le_refl _
  apply meets_bind
  apply meets_tryCatch
  apply meets_bind
  apply (meets_verify hnow).mono
  · intro payload w₂ hcreated
    apply meets_bind
    apply (meets_lookUp hcreated).mono
    · intro replay w₃ _
      cases replay <;> trivial
    · exact fun _ _ _ => trivial
  · exact fun _ _ _ => trivial

theorem acceptedAs_mem (h : w.acceptedAs n = some (id, c)) : .accepted n id c ∈ w.events := by
  obtain ⟨e, he, hfound⟩ := exists_of_findSome?_eq_some h
  cases e with
  | accepted n' id' c' =>
    dsimp only at hfound
    split at hfound
    · next hn =>
      cases hfound
      exact hn ▸ he
    · cases hfound
  | received _ | replayed _ _ | recorded _ _ _ => cases hfound

theorem record_step (hinv : (inboxContract cfg.kind strict).inv w) (hlater : w.clock ≤ i.now)
    (hs : s ≤ i.now) (hcreated : c * 1000 ≤ s + innerJwsMaxClockSkewMs) :
    (inboxContract cfg.kind strict).inv ((w.tick i.now).record id c s) := by
  refine ⟨(hinv.1.tick hlater).record hs hcreated, fun hstrict => ?_⟩
  exact unreplayed_record (hinv.2 hstrict)

theorem meets_recordProcessed (n : Nat) :
    InboxMeets cfg strict (fun _ _ => True) (recordProcessed cfg n) w := by
  unfold recordProcessed
  split
  · apply meets_mutate
    intro w' _ hinv i hmay
    have hlater := hmay.1
    split
    · exact ⟨⟨hinv.1.tick hlater, hinv.2⟩, hlater, trivial⟩
    next id c haccepted =>
    have hcreated := hinv.1.accepted n id c (acceptedAs_mem haccepted)
    exact ⟨record_step hinv hlater (Nat.le_refl _) (by omega), hlater, trivial⟩
  · apply meets_bind
    apply meets_atomic
    intro w' _ hinv i hmay
    have hlater := hmay.1
    refine ⟨⟨hinv.1.tick hlater, hinv.2⟩, hlater, fun target htarget => ?_, fun _ _ => trivial⟩
    cases htarget
    dsimp only
    split
    · trivial
    next id c haccepted =>
    have hcreated := hinv.1.accepted n id c (acceptedAs_mem haccepted)
    apply meets_atomic
    intro w'' hrely hinv' i' hmay'
    have hclock : i.now ≤ w''.clock := clock_le_of_rely hrely
    have hlater' := hmay'.1
    split
    · exact ⟨⟨hinv'.1.tick hlater', hinv'.2⟩, hlater', fun _ _ => trivial, fun _ _ => trivial⟩
    · exact ⟨record_step hinv' hlater' (by omega) (by omega), hlater', fun _ _ => trivial,
        fun _ _ => trivial⟩

/-! ## 5. Replay protection -/

theorem inbox_verified (cfg : InboxConfig) (strict : Prop)
    (admits : InboxConfiguration → Action InboxInput InboxCall → Prop)
    (hforward : ∀ cc a, admits cc a → Forward cfg cc a)
    (hstrict : strict → ∀ cc a, admits cc a → Timely cfg cc a) :
    Verified (inboxSystem cfg) admits .fresh (inboxContract cfg.kind strict) (fun _ _ => True)
      (fun _ _ => True) where
  init := ⟨historyInv_fresh, fun _ => Pairwise.nil⟩
  call cc k _ _ := by
    cases k with
    | receive message =>
      apply meets_bind
      exact (meets_receive message).mono (fun _ _ _ => trivial) fun _ _ _ => trivial
    | recordProcessed n =>
      apply meets_bind
      exact (meets_recordProcessed n).mono (fun _ _ _ => trivial) fun _ _ _ => trivial
  may cc n i t ha ht _ := by
    refine ⟨hforward cc _ ha, fun hs => ?_⟩
    have htimely : (cc.pointAt n).all (fun t => decide (InTime cfg.kind cc.world t i)) = true :=
      (hstrict hs cc _ ha).2
    rw [ht] at htimely
    exact of_decide_eq_true htimely
  restart _ _ h := h
  quiet _ _ _ _ _ _ _ _ hguar _ _ _ _ := hguar
  result _ _ _ _ _ _ _ := trivial
  error _ _ _ _ _ _ _ := trivial

/-- **Replay protection.**  In every run in which the history is read within the retention of
    what was recorded, no reception that begins after an id was recorded is accepted under
    it.  In every run at all, only ids that have been recorded are taken for replays.  And
    the recorded message itself, as long as it is fresh, is within the retention. -/
theorem inbox_replay_protection (cfg : InboxConfig) :
    (∀ cc, Reachable (inboxSystem cfg) (Timely cfg) .fresh cc → NoReplay cc.world.events) ∧
    (∀ cc, Reachable (inboxSystem cfg) (Forward cfg) .fresh cc → OnlyReplays cc.world.events) ∧
    ∀ cc, Reachable (inboxSystem cfg) (Forward cfg) .fresh cc →
      ∀ id c s now, .recorded id c s ∈ cc.world.events → now ≤ c * 1000 + innerJwsMaxAgeMs →
        now ≤ s + messageIdRetentionMs := by
  have hverified := inbox_verified cfg False (Forward cfg) (fun _ _ h => h) False.elim
  refine ⟨fun cc h => ?_, fun cc h => (hverified.inv h).1.replays,
    fun cc h id c s now hmem hnow => ?_⟩
  · have htimely := inbox_verified cfg True (Timely cfg) (fun _ _ h => h.1) fun _ _ _ h => h
    exact ((htimely.inv h).2 trivial).noReplay
  have hstamped := ((hverified.inv h).1.stamped id c s hmem).2
  unfold messageIdRetentionMs
  omega

/-! ## 6. A message and its second reading -/

def inboxConfig : InboxConfig := ⟨.inMemory, "did:b", encryptedInboxMessageTypes⟩

def delivery : WireMessage :=
  .plaintext ⟨"m1", "https://web-of-trust.de/protocols/inbox/1.0", ["did:b"],
    some ⟨"epk", "nonce", "ciphertext"⟩, []⟩

def inboxPiece (n now : Nat) : Action InboxInput InboxCall :=
  .run n
    { now := now
      failure := none
      innerJws := .decoded ⟨some "EdDSA", some "did:a#sig-0",
        some ⟨some "did:a", some "did:b", some "https://web-of-trust.de/protocols/inbox/1.0",
          some "m1", some 300, some "body"⟩⟩
      didDocument := some ⟨"did:a", [("did:a#sig-0", some [1])]⟩
      signatureValid := true }

def receptionAt (n nowMs lookUpMs : Nat) : List (Action InboxInput InboxCall) :=
  .call (.receive delivery) :: replicate 4 (inboxPiece n nowMs) ++ [inboxPiece n lookUpMs]

/-- Received and recorded at 0, and received again `age` later, with a look-up `delay` later. -/
def twiceReceived (age delay : Nat) : List (Action InboxInput InboxCall) :=
  receptionAt 0 0 0 ++ .call (.recordProcessed 0) :: inboxPiece 1 0 ::
    receptionAt 2 age (age + delay)

/-- In the last millisecond of its age the message passes the check, and a millisecond later
    the history has forgotten it. -/
theorem replay_after_second_reading :
    ¬ ∀ cfg cc, Reachable (inboxSystem cfg) (Forward cfg) .fresh cc → NoReplay cc.world.events := by
  intro hclaim
  obtain ⟨cc, hreach, hcc⟩ := Reachable.of_exec (inboxSystem inboxConfig) (Forward inboxConfig)
    .fresh (twiceReceived messageIdRetentionMs 1)
    (fun cc => decide (cc.world.events = [.received 0, .accepted 0 "m1" 300, .recorded "m1" 300 0,
      .received 1, .accepted 1 "m1" 300])) (by decide +kernel)
  have hevents := of_decide_eq_true hcc
  have hnone := hclaim inboxConfig cc hreach
  rw [hevents] at hnone
  exact hnone 2 3 4 1 "m1" 300 300 0 rfl rfl rfl (by decide) (by decide)

/-- An hour later the message is recognized. -/
theorem inbox_replay_rejected :
    ∃ cc, Reachable (inboxSystem inboxConfig) (Timely inboxConfig) .fresh cc ∧
      cc.world.events = [.received 0, .accepted 0 "m1" 300, .recorded "m1" 300 0, .received 1,
        .replayed 1 "m1"] ∧ NoReplay cc.world.events ∧ OnlyReplays cc.world.events ∧
      3600000 ≤ 0 + messageIdRetentionMs := by
  obtain ⟨cc, hreach, hcc⟩ := Reachable.of_exec (inboxSystem inboxConfig) (Timely inboxConfig)
    .fresh (twiceReceived 3600000 1)
    (fun cc => decide (cc.world.events = [.received 0, .accepted 0 "m1" 300, .recorded "m1" 300 0,
      .received 1, .replayed 1 "m1"])) (by decide +kernel)
  have hevents := of_decide_eq_true hcc
  have hforward : Reachable (inboxSystem inboxConfig) (Forward inboxConfig) .fresh cc :=
    hreach.weaken fun _ _ h => h.1
  obtain ⟨hnoReplay, honly, hfresh⟩ := inbox_replay_protection inboxConfig
  refine ⟨cc, hreach, hevents, hnoReplay cc hreach, honly cc hforward,
    hfresh cc hforward "m1" 300 0 3600000 ?_ (by decide)⟩
  rw [hevents]
  decide

end WebOfTrust
