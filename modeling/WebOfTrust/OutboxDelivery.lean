/-
  **What leaves the outbox.**

  An envelope is followed through the history: whether it is in the outbox, whether the
  inner adapter has confirmed it since, and whether it has left without a confirmation or a
  trace.  The flush dequeues what it has sent also when the promise resolves with a `failed`
  receipt; where that does not happen, everything that leaves is accounted for
  (`outbox_at_least_once`).

  Only the one flush dequeues, so what it has read and not yet dealt with is still in the
  store (`FlushInv.present`).
-/
import WebOfTrust.Outbox

namespace WebOfTrust

open Machine KeyedTable Attempt List Option

/-! ## 1. An envelope in the history -/

/-- Where an envelope stands: it is in the outbox; the inner adapter has reported it accepted
    or delivered since it was put there; it has left without such a report and without a
    trace. -/
structure Standing where
  queued : Bool
  confirmed : Bool
  unaccounted : Bool

namespace Standing

variable (s : Standing)

def enter : Standing := { s with queued := true, confirmed := false }

def confirm : Standing := { s with confirmed := true }

def leave : Standing where
  queued := false
  confirmed := false
  unaccounted := s.unaccounted || !s.confirmed

def trace : Standing := { s with unaccounted := false }

end Standing

def Confirms : Except String DeliveryReceipt → Bool
  | .ok receipt => receipt.isOk
  | .error _ => false

def follow (envelope : Envelope) (s : Standing) : OutboxEvent → Standing
  | .found e => if e = envelope then s.enter else s
  | .enqueued e => if e = envelope then s.enter else s
  | .resent _ => s
  | .reported e result => if e = envelope ∧ Confirms result then s.confirm else s
  | .left e _ => if e = envelope then s.leave else s
  | .traced e _ _ => if e = envelope then s.trace else s

namespace OutboxMessagingAdapter

section

variable (a : OutboxMessagingAdapter)

def standing (envelope : Envelope) : Standing :=
  a.events.foldl (follow envelope) ⟨false, false, false⟩

def awaited (k : Nat) : Option Envelope :=
  match a.flush with
  | some (.sending entry _ k') =>
    if k' = k ∧ (a.attempts[k]?.bind outcome).isNone then some entry.envelope else none
  | _ => none

def mustTrace : Bool :=
  match a.flush with
  | some (.stored .drop _ _) => true
  | _ => false

/-- The inner adapter resolves the send with a `failed` receipt. -/
def Refuses : Except String DeliveryReceipt → Bool
  | .ok receipt => !receipt.isOk
  | .error _ => false

/-- The inputs under which nothing is dequeued that the inner adapter has refused: it does not
    resolve a send of the flush with `failed`, unless it has confirmed the envelope already,
    and nobody restarts between a drop and its trace. -/
def Reliable : Input → Prop
  | .innerSettles k result => Refuses result = true →
    ∀ envelope ∈ a.awaited k, (a.standing envelope).confirmed = true
  | .restart _ => a.mustTrace = false
  | _ => True

end

instance : ∀ (a : OutboxMessagingAdapter) (i : Input), Decidable (a.Reliable i)
  | _, .innerSettles _ _ => inferInstanceAs (Decidable (_ → ∀ envelope ∈ _, _))
  | _, .restart _ => inferInstanceAs (Decidable (_ = false))
  | _, .innerState _ => inferInstanceAs (Decidable True)
  | _, .send _ => inferInstanceAs (Decidable True)
  | _, .flushOutbox => inferInstanceAs (Decidable True)
  | _, .timerFires _ => inferInstanceAs (Decidable True)
  | _, .sendResumes _ => inferInstanceAs (Decidable True)
  | _, .enqueueTakesEffect _ _ => inferInstanceAs (Decidable True)
  | _, .enqueueRejects _ _ => inferInstanceAs (Decidable True)
  | _, .flushStores => inferInstanceAs (Decidable True)
  | _, .flushStoreRejects => inferInstanceAs (Decidable True)
  | _, .flushResumes => inferInstanceAs (Decidable True)

end OutboxMessagingAdapter

/-! ## 2. The store and what has been read from it -/

def Envelope.neverQueued (envelope : Envelope) : Bool :=
  NEVER_QUEUE_TYPES.contains envelope.type

open OutboxStore

namespace OutboxStore

variable {store : OutboxStore} {entry : OutboxEntry} {rest entries : List OutboxEntry}
  {envelope : Envelope}

structure Present (store : OutboxStore) (entries : List OutboxEntry) : Prop where
  distinct : (entries.map OutboxEntry.id).Nodup
  kept : ∀ entry ∈ entries, ∃ row, store.get? entry.id = some row ∧ row.envelope = entry.envelope

theorem Present.mono {store' : OutboxStore} (h : store.Present entries)
    (hkeep : ∀ entry ∈ entries, ∀ row, store.get? entry.id = some row →
      ∃ row', store'.get? entry.id = some row' ∧ row'.envelope = row.envelope) :
    store'.Present entries where
  distinct := h.distinct
  kept entry hentry := by
    obtain ⟨row, hrow, henvelope⟩ := h.kept entry hentry
    obtain ⟨row', hrow', henvelope'⟩ := hkeep entry hentry row hrow
    exact ⟨row', hrow', henvelope'.trans henvelope⟩

theorem Present.tail (h : store.Present (entry :: rest)) : store.Present rest where
  distinct := (nodup_cons.mp h.distinct).2
  kept e he := h.kept e (mem_cons_of_mem _ he)

theorem present_getPending (store : OutboxStore) : store.Present store.getPending where
  distinct := by
    have hperm : store.getPending.Perm store.rows := mergeSort_perm _ _
    exact (hperm.map OutboxEntry.id).nodup_iff.mpr store.keys_nodup
  kept e he := by
    have hmem : e ∈ store.rows := (mergeSort_perm _ _).subset he
    exact ⟨e, mem_rows_iff.mp hmem, rfl⟩

theorem Present.enqueue (h : store.Present entries) (envelope : Envelope) (now : Nat) :
    (store.enqueue envelope now).Present entries :=
  h.mono fun _ _ row hrow => ⟨row, get?_add_of_some hrow, rfl⟩

theorem Present.dequeue (h : store.Present (entry :: rest)) :
    (store.dequeue entry.id).Present rest := by
  apply h.tail.mono
  intro e he row hrow
  have hne : entry.id ≠ e.id := fun heq =>
    (nodup_cons.mp h.distinct).1 (heq ▸ mem_map_of_mem he)
  refine ⟨row, ?_, rfl⟩
  rw [OutboxStore.dequeue, get?_erase, if_neg hne]
  exact hrow

theorem get?_incrementRetry (store : OutboxStore) (id id' : String) :
    (store.incrementRetry id).get? id' = if id = id' then
      (store.get? id).map fun e => { e with retryCount := e.retryCount + 1 }
    else store.get? id' := by
  unfold incrementRetry
  rw [get?_update]
  exact fun _ => rfl

theorem Present.incrementRetry (h : store.Present entries) (id : String) :
    (store.incrementRetry id).Present entries := by
  apply h.mono
  intro e _ row hrow
  rw [get?_incrementRetry]
  split_ifs with heq
  · rw [heq, hrow]
    exact ⟨_, rfl, rfl⟩
  · exact ⟨row, hrow, rfl⟩

def Holds (store : OutboxStore) (envelope : Envelope) : Prop :=
  ∃ row, store.get? envelope.id = some row ∧ row.envelope = envelope

theorem holds_enqueue {envelope' : Envelope} {now : Nat} :
    (store.enqueue envelope now).Holds envelope' ↔
      store.Holds envelope' ∨ (store.has envelope.id = false ∧ envelope = envelope') := by
  cases hhas : store.has envelope.id with
  | true =>
    have hsame : store.enqueue envelope now = store := add_of_has hhas
    simp [hsame]
  | false =>
    have hget : ∀ id, (store.enqueue envelope now).get? id =
        if envelope.id = id then some ⟨envelope, now, 0⟩ else store.get? id :=
      get?_add_of_free hhas
    constructor
    · rintro ⟨row, hrow, rfl⟩
      rw [hget] at hrow
      split_ifs at hrow
      · cases hrow
        exact .inr ⟨rfl, rfl⟩
      · exact .inl ⟨row, hrow, rfl⟩
    · rintro (⟨row, hrow, rfl⟩ | ⟨-, rfl⟩)
      · exact ⟨row, get?_add_of_some hrow, rfl⟩
      · exact ⟨⟨envelope, now, 0⟩, by rw [hget, if_pos rfl], rfl⟩

theorem holds_dequeue {id : String} :
    (store.dequeue id).Holds envelope ↔ store.Holds envelope ∧ envelope.id ≠ id := by
  unfold Holds dequeue
  simp only [get?_erase]
  by_cases hid : id = envelope.id
  · simp [hid]
  · simp [hid, Ne.symm hid]

theorem holds_incrementRetry {id : String} :
    (store.incrementRetry id).Holds envelope ↔ store.Holds envelope := by
  unfold Holds
  simp only [get?_incrementRetry]
  by_cases hid : id = envelope.id
  · simp [hid]
  · simp [hid]

end OutboxStore

open OutboxMessagingAdapter Inv Standing

namespace OutboxMessagingAdapter

variable {a a' : OutboxMessagingAdapter} {entry : OutboxEntry} {entries rest : List OutboxEntry}
  {state : FlushState} {k n : Nat} {call : SendCall} {op : StoreOp}

/-! ## 3. What holds in every run -/

structure Suits (a : OutboxMessagingAdapter) (op : StoreOp) (entry : OutboxEntry) : Prop where
  drain : op = .drain ↔ entry.envelope.neverQueued = true
  drop : op = .drop → a.options.maxRetries ≤ entry.retryCount

def Fits (a : OutboxMessagingAdapter) : FlushState → Prop
  | .fetching => True
  | .fetched pending => a.store.Present pending
  | .sending entry rest k => a.store.Present (entry :: rest) ∧
    entry.envelope.neverQueued = false ∧ (a.attempts[k]?.map envelope) = some entry.envelope
  | .storing op entry rest => a.store.Present (entry :: rest) ∧ a.Suits op entry
  | .stored op entry rest => a.store.Present rest ∧ a.Suits op entry

/-- A `send` that may end in the outbox is for an envelope that may be queued. -/
def Queueable : SendCall → Prop
  | .sending envelope _ => envelope.neverQueued = false
  | .enqueuing envelope => envelope.neverQueued = false
  | _ => True

/-- Types that are never queued do not enter the outbox, are never sent from it, and leave it
    by a drain only; and what is dropped is over the retry limit. -/
def Proper : OutboxEvent → Prop
  | .enqueued envelope => envelope.neverQueued = false
  | .resent envelope => envelope.neverQueued = false
  | .left envelope op => op = .drain ↔ envelope.neverQueued = true
  | .traced _ retryCount maxRetries => maxRetries ≤ retryCount
  | _ => True

structure BaseInv (a : OutboxMessagingAdapter) : Prop where
  sends : ∀ call ∈ a.sends, Queueable call
  proper : ∀ event ∈ a.events, Proper event
  ledger : ∀ envelope, (a.standing envelope).queued = true ↔ a.store.Holds envelope

structure Inv (a : OutboxMessagingAdapter) : Prop extends BaseInv a where
  flush : ∀ state, a.flush = some state → a.Fits state

theorem standing_append {events : List OutboxEvent} (h : a'.events = a.events ++ events)
    (envelope : Envelope) :
    a'.standing envelope = events.foldl (follow envelope) (a.standing envelope) := by
  simp only [standing, h, foldl_append]

theorem standing_eq (h : a'.events = a.events) (envelope : Envelope) :
    a'.standing envelope = a.standing envelope := by
  simp only [standing, h]

theorem Fits.mono (h : a.Fits state)
    (hstore : ∀ entries, a.store.Present entries → a'.store.Present entries)
    (hattempts : ∀ (k : Nat) envelope, a.attempts[k]?.map Attempt.envelope = some envelope →
      a'.attempts[k]?.map Attempt.envelope = some envelope) (hoptions : a'.options = a.options) :
    a'.Fits state := by
  have hsuits : ∀ op entry, a.Suits op entry → a'.Suits op entry := fun op entry h =>
    ⟨h.drain, by rw [hoptions]; exact h.drop⟩
  cases state with
  | fetching => trivial
  | fetched pending => exact hstore _ h
  | sending entry rest k => exact ⟨hstore _ h.1, h.2.1, hattempts _ _ h.2.2⟩
  | storing op entry rest | stored op entry rest => exact ⟨hstore _ h.1, hsuits op entry h.2⟩

theorem BaseInv.frame (h : BaseInv a) (hsends : ∀ call ∈ a'.sends, Queueable call)
    (hstore : a'.store = a.store) (hevents : a'.events = a.events) : BaseInv a' where
  sends := hsends
  proper := hevents ▸ h.proper
  ledger envelope := by
    rw [standing_eq hevents, hstore]
    exact h.ledger envelope

theorem BaseInv.event (h : BaseInv a) (event : OutboxEvent) (hsends : a'.sends = a.sends)
    (hstore : a'.store = a.store) (hevents : a'.events = a.events ++ [event])
    (hproper : Proper event)
    (hqueued : ∀ envelope s, (follow envelope s event).queued = s.queued) : BaseInv a' where
  sends := hsends ▸ h.sends
  proper e he := by
    rw [hevents] at he
    rcases mem_append.mp he with he | he
    · exact h.proper e he
    · rw [mem_singleton.mp he]
      exact hproper
  ledger envelope := by
    rw [standing_append hevents, foldl_cons, foldl_nil, hqueued, hstore]
    exact h.ledger envelope

theorem Fits.attempt (h : a.Fits state) (hstore : a'.store = a.store)
    (hoptions : a'.options = a.options) {attempt : Attempt}
    (hattempts : a'.attempts = a.attempts ++ [attempt]) : a'.Fits state := by
  apply h.mono
  · intro entries hpresent
    rw [hstore]
    exact hpresent
  · intro k envelope hk
    obtain ⟨att, hatt, -⟩ := map_eq_some_iff.mp hk
    have hlt : k < a.attempts.length := (List.getElem?_eq_some_iff.mp hatt).1
    rw [hattempts, getElem?_append_left hlt]
    exact hk
  · exact hoptions

theorem Fits.settle (h : a.Fits state) (hstore : a'.store = a.store)
    (hoptions : a'.options = a.options) {attempt attempt' : Attempt}
    (hk : a.attempts[k]? = some attempt) (hattempts : a'.attempts = a.attempts.set k attempt')
    (hsame : attempt'.envelope = attempt.envelope) : a'.Fits state := by
  apply h.mono
  · intro entries hpresent
    rw [hstore]
    exact hpresent
  · intro k' envelope hk'
    rw [hattempts]
    by_cases heq : k = k'
    · subst heq
      have hlt : k < a.attempts.length := (List.getElem?_eq_some_iff.mp hk).1
      rw [getElem?_set_self hlt]
      rw [hk] at hk'
      simpa [hsame] using hk'
    · rw [getElem?_set_ne heq]
      exact hk'
  · exact hoptions

theorem mem_set {α : Type} {xs : List α} {x y : α} (h : y ∈ xs.set n x) :
    y = x ∨ y ∈ xs := (mem_or_eq_of_mem_set h).symm

/-! ## 4. Sends -/

section

variable (h : Inv a)
include h

theorem Inv.send (envelope : Envelope) : Inv (a.send envelope) := by
  have hadd : ∀ (b : OutboxMessagingAdapter) (call : SendCall), BaseInv b →
      (∀ state, b.flush = some state → b.Fits state) → Queueable call →
      Inv (b.addCall call) := by
    intro b call hb hflush hcall
    refine ⟨hb.frame (fun c hc => ?_) rfl rfl, fun state hstate =>
      (hflush state hstate).mono (fun _ hp => hp) (fun _ _ hk => hk) rfl⟩
    rcases mem_append.mp hc with hc | hc
    · exact hb.sends c hc
    · rw [mem_singleton.mp hc]
      exact hcall
  have hattempt : ∀ timer, Inv (a.attempt envelope timer) := fun timer =>
    ⟨h.toBaseInv.frame h.sends rfl rfl, fun state hstate =>
      (h.flush state hstate).attempt rfl rfl rfl⟩
  unfold OutboxMessagingAdapter.send
  split_ifs with hskip hnever hconnected
  · exact hadd _ _ (hattempt false).toBaseInv (hattempt false).flush trivial
  · exact hadd _ _ (hattempt false).toBaseInv (hattempt false).flush trivial
  · exact hadd _ _ h.toBaseInv h.flush (by simpa [Queueable, Envelope.neverQueued] using hnever)
  · exact hadd _ _ (hattempt _).toBaseInv (hattempt _).flush
      (by simpa [Queueable, Envelope.neverQueued] using hnever)

theorem Inv.setCall (n : Nat) (hcall : Queueable call) :
    Inv { a with sends := a.sends.set n call } := by
  refine ⟨h.toBaseInv.frame (fun c hc => ?_) rfl rfl, fun state hstate =>
    (h.flush state hstate).mono (fun _ hp => hp) (fun _ _ hk => hk) rfl⟩
  rcases mem_set hc with rfl | hc
  · exact hcall
  · exact h.sends c hc

theorem Inv.sendResumes (hcall : a.sends[n]? = some call)
    (hstep : a.sendResumes n call = some a') : Inv a' := by
  have hqueueable := h.sends call (mem_of_getElem? hcall)
  cases call with
  | sending envelope k =>
    obtain ⟨outcome, -, rfl⟩ := map_eq_some_iff.mp hstep
    cases outcome with
    | ok receipt => exact h.setCall n trivial
    | error _ => exact h.setCall n hqueueable
  | enqueued envelope =>
    cases hstep
    exact h.setCall n trivial
  | passed _ | enqueuing _ | returned _ | rejected _ => cases hstep

theorem Inv.enqueues {now : Nat} {envelope : Envelope}
    (hcall : a.sends[n]? = some (.enqueuing envelope)) : Inv (a.enqueues n envelope now) := by
  have hqueueable : envelope.neverQueued = false := h.sends _ (mem_of_getElem? hcall)
  constructor
  · constructor
    · intro c hc
      rcases mem_set hc with rfl | hc
      · trivial
      · exact h.sends c hc
    · intro e he
      rcases mem_append.mp he with he | he
      · exact h.proper e he
      split_ifs at he
      · cases he
      · rw [mem_singleton.mp he]
        exact hqueueable
    · intro envelope'
      rw [standing_append rfl]
      show _ ↔ (a.store.enqueue envelope now).Holds envelope'
      rw [holds_enqueue, ← h.ledger]
      cases hhas : a.store.has envelope.id with
      | true => simp
      | false =>
        by_cases heq : envelope = envelope'
        · simp [follow, heq, enter]
        · simp [follow, heq]
  · intro state hstate
    exact (h.flush state hstate).mono (fun _ hp => hp.enqueue envelope now) (fun _ _ hk => hk) rfl

/-! ## 5. The inner adapter -/

theorem Inv.innerSettles {attempt : Attempt} (hk : a.attempts[k]? = some attempt)
    (result : Except String DeliveryReceipt) : Inv (a.innerSettles k attempt result) := by
  constructor
  · refine h.toBaseInv.event (.reported attempt.envelope result) rfl rfl rfl trivial
      fun envelope s => ?_
    simp only [follow]
    split_ifs <;> rfl
  · intro state hstate
    exact (h.flush state hstate).settle rfl rfl hk rfl rfl

theorem Inv.timerFires {attempt : Attempt} (hk : a.attempts[k]? = some attempt) :
    Inv (a.timerFires k attempt) :=
  ⟨h.toBaseInv.frame h.sends rfl rfl, fun state hstate =>
    (h.flush state hstate).settle rfl rfl hk rfl rfl⟩

end

/-! ## 6. The flush -/

theorem Inv.goto (h : BaseInv a) {place : Option FlushState}
    (hfits : ∀ state, place = some state → a.Fits state) : Inv { a with flush := place } :=
  ⟨h.frame h.sends rfl rfl, fun state hstate =>
    (hfits state hstate).mono (fun _ hp => hp) (fun _ _ hk => hk) rfl⟩

theorem Inv.flushLoop (h : BaseInv a) (hpresent : a.store.Present entries) :
    Inv (a.flushLoop entries) := by
  rcases entries with _ | ⟨entry, rest⟩
  · exact goto h fun _ hnone => by cases hnone
  simp only [flushLoop]
  split_ifs with hconnected hnever hretries
  · exact goto h fun _ hnone => by cases hnone
  · apply goto h
    rintro state ⟨⟩
    exact ⟨hpresent, ⟨fun _ => hnever, fun _ => rfl⟩, fun hop => by cases hop⟩
  · apply goto h
    rintro state ⟨⟩
    refine ⟨hpresent, ⟨?_, fun hdrain => absurd hdrain hnever⟩, fun _ => hretries⟩
    intro hop
    cases hop
  · have hqueueable : entry.envelope.neverQueued = false := by
      simpa [Envelope.neverQueued] using hnever
    constructor
    · exact h.event (.resent entry.envelope) rfl rfl rfl hqueueable fun _ _ => rfl
    · rintro state ⟨⟩
      refine ⟨hpresent, hqueueable, ?_⟩
      simp [sendWithTimeout, attempt]

theorem Inv.flushOutbox (h : Inv a) : Inv a.flushOutbox := by
  unfold OutboxMessagingAdapter.flushOutbox
  split_ifs
  · exact h
  apply goto h.toBaseInv
  rintro state ⟨⟩
  trivial

theorem BaseInv.dequeue (h : BaseInv a) (hpresent : a.store.Present (entry :: rest))
    (hsuits : a.Suits op entry) (hsends : a'.sends = a.sends)
    (hstore : a'.store = a.store.dequeue entry.id)
    (hevents : a'.events = a.events ++ [.left entry.envelope op]) : BaseInv a' where
  sends := hsends ▸ h.sends
  proper e he := by
    rw [hevents] at he
    rcases mem_append.mp he with he | he
    · exact h.proper e he
    · rw [mem_singleton.mp he]
      exact hsuits.drain
  ledger envelope := by
    obtain ⟨row, hrow, henvelope⟩ := hpresent.kept entry (mem_cons_self ..)
    rw [standing_append hevents, hstore, holds_dequeue, ← h.ledger]
    by_cases heq : entry.envelope = envelope
    · simp [follow, heq, leave, OutboxEntry.id]
    have hother : (a.standing envelope).queued = true → envelope.id ≠ entry.id := by
      intro hqueued hid
      obtain ⟨row', hrow', henvelope'⟩ := (h.ledger envelope).mp hqueued
      rw [hid, hrow] at hrow'
      cases hrow'
      exact heq (henvelope.symm.trans henvelope')
    simpa [follow, heq] using hother

theorem flushStores_dequeue (hop : op ≠ .retry) (hpresent : a.store.Present (entry :: rest)) :
    a.flushStores (.storing op entry rest) = some { a with
      store := a.store.dequeue entry.id
      flush := some (.stored op entry rest)
      events := a.events ++ [.left entry.envelope op] } := by
  obtain ⟨row, hrow, henvelope⟩ := hpresent.kept entry (mem_cons_self ..)
  cases op with
  | retry => exact absurd rfl hop
  | drain | drop | deliver => simp [flushStores, hrow, henvelope]

theorem Inv.flushStores (h : Inv a) (hstate : a.flush = some state)
    (hstep : a.flushStores state = some a') : Inv a' := by
  have hfits := h.flush state hstate
  cases state with
  | fetching =>
    cases hstep
    apply goto h.toBaseInv
    rintro state ⟨⟩
    exact present_getPending a.store
  | storing op entry rest =>
    obtain ⟨hpresent, hsuits⟩ := hfits
    by_cases hop : op = .retry
    · subst hop
      cases hstep
      constructor
      · refine ⟨h.sends, h.proper, fun envelope => ?_⟩
        show _ ↔ (a.store.incrementRetry entry.id).Holds envelope
        rw [holds_incrementRetry]
        exact h.ledger envelope
      · rintro state ⟨⟩
        exact ⟨hpresent.tail.incrementRetry entry.id, hsuits.drain, hsuits.drop⟩
    · rw [flushStores_dequeue hop hpresent] at hstep
      cases hstep
      refine ⟨h.toBaseInv.dequeue hpresent hsuits rfl rfl rfl, ?_⟩
      rintro state ⟨⟩
      exact ⟨hpresent.dequeue, hsuits.drain, hsuits.drop⟩
  | fetched _ | sending _ _ _ | stored _ _ _ => cases hstep

theorem Inv.flushStoreRejects (h : Inv a) (hstate : a.flush = some state)
    (hstep : a.flushStoreRejects state = some a') : Inv a' := by
  have hfits := h.flush state hstate
  have hstop : Inv { a with flush := none } := goto h.toBaseInv fun _ hnone => by cases hnone
  cases state with
  | fetching =>
    cases hstep
    exact hstop
  | storing op entry rest =>
    obtain ⟨hpresent, hsuits⟩ := hfits
    cases op with
    | deliver =>
      cases hstep
      apply goto h.toBaseInv
      rintro state ⟨⟩
      refine ⟨hpresent, ⟨?_, fun hdrain => ?_⟩, ?_⟩
      · intro hop
        cases hop
      · cases hsuits.drain.mpr hdrain
      · intro hop
        cases hop
    | drain | drop | retry =>
      cases hstep
      exact hstop
  | fetched _ | sending _ _ _ | stored _ _ _ => cases hstep

theorem BaseInv.traceOutboxDrop (h : BaseInv a) (hsuits : a.Suits .drop entry) :
    BaseInv (a.traceOutboxDrop entry) := by
  refine h.event (.traced entry.envelope entry.retryCount a.options.maxRetries) rfl rfl rfl
    (hsuits.drop rfl) fun envelope s => ?_
  simp only [follow]
  split_ifs <;> rfl

theorem Inv.flushResumes (h : Inv a) (hstate : a.flush = some state)
    (hstep : a.flushResumes state = some a') : Inv a' := by
  have hfits := h.flush state hstate
  cases state with
  | fetched pending =>
    cases hstep
    exact flushLoop h.toBaseInv hfits
  | sending entry rest k =>
    obtain ⟨hpresent, hqueueable, -⟩ := hfits
    obtain ⟨outcome, -, rfl⟩ := map_eq_some_iff.mp hstep
    have hsuits : ∀ op, op ≠ .drain → op ≠ .drop → a.Suits op entry := fun op hdrain hdrop =>
      ⟨⟨fun heq => absurd heq hdrain, fun hnever => by simp [hqueueable] at hnever⟩,
        fun heq => absurd heq hdrop⟩
    cases outcome with
    | ok receipt =>
      apply goto h.toBaseInv
      rintro state ⟨⟩
      exact ⟨hpresent, hsuits .deliver (by decide) (by decide)⟩
    | error _ =>
      apply goto h.toBaseInv
      rintro state ⟨⟩
      exact ⟨hpresent, hsuits .retry (by decide) (by decide)⟩
  | stored op entry rest =>
    obtain ⟨hpresent, hsuits⟩ := hfits
    cases op with
    | drop =>
      cases hstep
      exact flushLoop (h.toBaseInv.traceOutboxDrop hsuits) hpresent
    | drain | deliver | retry =>
      cases hstep
      exact flushLoop h.toBaseInv hpresent
  | fetching | storing _ _ _ => cases hstep

theorem Inv.restart (h : Inv a) (options : OutboxOptions) : Inv (a.restart options) :=
  ⟨h.toBaseInv.frame (forall_mem_nil _) rfl rfl, fun _ hnone => by cases hnone⟩

theorem standing_start (rows : List OutboxEntry) (envelope : Envelope) (s : Standing) :
    ((rows.map fun entry => OutboxEvent.found entry.envelope).foldl (follow envelope) s).queued =
      true ↔ s.queued = true ∨ ∃ row ∈ rows, row.envelope = envelope := by
  induction rows generalizing s with
  | nil => simp
  | cons row rest ih =>
    simp only [map_cons, foldl_cons, ih, follow]
    by_cases heq : row.envelope = envelope
    · simp [heq, enter]
    · simp [heq]

theorem Inv.start (options : OutboxOptions) (store : OutboxStore) : Inv (start options store) := by
  constructor
  · refine ⟨forall_mem_nil _, fun event hevent => ?_, fun envelope => ?_⟩
    · obtain ⟨row, -, rfl⟩ := mem_map.mp hevent
      trivial
    unfold standing
    refine (standing_start store.rows envelope _).trans ?_
    constructor
    · rintro (hfalse | ⟨row, hrow, rfl⟩)
      · cases hfalse
      · exact ⟨row, mem_rows_iff.mp hrow, rfl⟩
    · rintro ⟨row, hrow, henvelope⟩
      exact .inr ⟨row, mem_of_get? hrow, henvelope⟩
  · intro state hnone
    cases hnone

theorem Inv.step {i : Input} (h : Inv a) (hstep : a.step i = some a') : Inv a' := by
  cases i with
  | innerState state =>
    cases hstep
    exact ⟨h.toBaseInv.frame h.sends rfl rfl, fun state hstate =>
      (h.flush state hstate).mono (fun _ hp => hp) (fun _ _ hk => hk) rfl⟩
  | send envelope =>
    cases hstep
    exact h.send envelope
  | flushOutbox =>
    cases hstep
    exact h.flushOutbox
  | innerSettles k result =>
    obtain ⟨attempt, hk, hstep⟩ := bind_eq_some_iff.mp hstep
    split_ifs at hstep
    cases hstep
    exact h.innerSettles hk result
  | timerFires k =>
    obtain ⟨attempt, hk, hstep⟩ := bind_eq_some_iff.mp hstep
    split_ifs at hstep
    cases hstep
    exact h.timerFires hk
  | sendResumes n =>
    obtain ⟨call, hcall, hstep⟩ := bind_eq_some_iff.mp hstep
    exact h.sendResumes hcall hstep
  | enqueueTakesEffect n now =>
    obtain ⟨call, hcall, hstep⟩ := bind_eq_some_iff.mp hstep
    cases call <;> cases hstep
    exact h.enqueues hcall
  | enqueueRejects n error =>
    obtain ⟨call, -, hstep⟩ := bind_eq_some_iff.mp hstep
    cases call <;> cases hstep
    exact h.setCall n trivial
  | flushStores =>
    obtain ⟨state, hstate, hstep⟩ := bind_eq_some_iff.mp hstep
    exact h.flushStores hstate hstep
  | flushStoreRejects =>
    obtain ⟨state, hstate, hstep⟩ := bind_eq_some_iff.mp hstep
    exact h.flushStoreRejects hstate hstep
  | flushResumes =>
    obtain ⟨state, hstate, hstep⟩ := bind_eq_some_iff.mp hstep
    exact h.flushResumes hstate hstep
  | restart options =>
    cases hstep
    exact h.restart options

/-! ## 7. What holds in reliable runs -/

def Backed (a : OutboxMessagingAdapter) : FlushState → Prop
  | .sending entry _ k => ∀ receipt, a.attempts[k]?.bind outcome = some (.ok receipt) →
    (a.standing entry.envelope).confirmed = true
  | .storing .deliver entry _ => (a.standing entry.envelope).confirmed = true
  | _ => True

def Clean (a : OutboxMessagingAdapter) : Prop :=
  ∀ envelope : Envelope, envelope.neverQueued = false → (a.standing envelope).unaccounted = false

structure Accounted (a : OutboxMessagingAdapter) : Prop where
  backed : ∀ state, a.flush = some state → a.Backed state
  clean : a.mustTrace = false → a.Clean
  tracing : ∀ entry rest, a.flush = some (.stored .drop entry rest) → ∀ envelope : Envelope,
    envelope.neverQueued = false → (a.standing envelope).unaccounted = true →
    entry.envelope = envelope

theorem Clean.accounted (h : Clean a) (hbacked : ∀ state, a.flush = some state → a.Backed state) :
    Accounted a where
  backed := hbacked
  clean _ := h
  tracing _ _ _ envelope hnever hunaccounted := by
    rw [h envelope hnever] at hunaccounted
    cases hunaccounted

theorem Accounted.frame (h : Accounted a) (hflush : a'.flush = a.flush)
    (hevents : a'.events = a.events)
    (hattempts : ∀ entry rest k, a.flush = some (.sending entry rest k) →
      ∀ receipt, a'.attempts[k]?.bind outcome = some (.ok receipt) →
        a.attempts[k]?.bind outcome = some (.ok receipt)) : Accounted a' where
  backed state hstate := by
    rw [hflush] at hstate
    have hbacked := h.backed state hstate
    cases state with
    | sending entry rest k =>
      intro receipt hreceipt
      rw [standing_eq hevents]
      exact hbacked receipt (hattempts entry rest k hstate receipt hreceipt)
    | storing op entry rest =>
      cases op with
      | deliver => exact (congrArg confirmed (standing_eq hevents _)).trans hbacked
      | drain | drop | retry => trivial
    | fetching | fetched _ | stored _ _ _ => trivial
  clean hmust envelope hnever := by
    rw [standing_eq hevents]
    refine h.clean ?_ envelope hnever
    simpa [mustTrace, hflush] using hmust
  tracing entry rest hstate envelope hnever := by
    rw [standing_eq hevents]
    exact h.tracing entry rest (hflush ▸ hstate) envelope hnever

theorem Fits.attempt_lt (h : a.Fits (.sending entry rest k)) : k < a.attempts.length := by
  obtain ⟨att, hatt, -⟩ := map_eq_some_iff.mp h.2.2
  exact (List.getElem?_eq_some_iff.mp hatt).1

section

variable (h : Accounted a)
include h

theorem Accounted.attempt (hinv : Inv a) (hflush : a'.flush = a.flush)
    (hevents : a'.events = a.events) {attempt : Attempt}
    (hattempts : a'.attempts = a.attempts ++ [attempt]) : Accounted a' := by
  apply h.frame hflush hevents
  intro entry rest k hstate receipt hreceipt
  rwa [hattempts, getElem?_append_left (hinv.flush _ hstate).attempt_lt] at hreceipt

theorem Accounted.send (hinv : Inv a) (envelope : Envelope) : Accounted (a.send envelope) := by
  unfold OutboxMessagingAdapter.send
  split_ifs
  · exact h.attempt hinv rfl rfl rfl
  · exact h.attempt hinv rfl rfl rfl
  · exact h.frame rfl rfl fun _ _ _ _ _ hreceipt => hreceipt
  · exact h.attempt hinv rfl rfl rfl

theorem Accounted.setCall (n : Nat) (call : SendCall) :
    Accounted { a with sends := a.sends.set n call } :=
  h.frame rfl rfl fun _ _ _ _ _ hreceipt => hreceipt

theorem Accounted.sendResumes (hstep : a.sendResumes n call = some a') : Accounted a' := by
  cases call with
  | sending envelope k =>
    obtain ⟨outcome, -, rfl⟩ := map_eq_some_iff.mp hstep
    cases outcome with
    | ok receipt | error _ => exact h.setCall n _
  | enqueued envelope =>
    cases hstep
    exact h.setCall n _
  | passed _ | enqueuing _ | returned _ | rejected _ => cases hstep

theorem Accounted.event (event : OutboxEvent) (hflush : a'.flush = a.flush)
    (hevents : a'.events = a.events ++ [event])
    (hkeep : ∀ envelope s, (follow envelope s event).unaccounted = s.unaccounted)
    (hbacked : ∀ state, a.flush = some state → a'.Backed state) : Accounted a' where
  backed state hstate := hbacked state (hflush ▸ hstate)
  clean hmust envelope hnever := by
    rw [standing_append hevents, foldl_cons, foldl_nil, hkeep]
    refine h.clean ?_ envelope hnever
    simpa [mustTrace, hflush] using hmust
  tracing entry rest hstate envelope hnever := by
    rw [standing_append hevents, foldl_cons, foldl_nil, hkeep]
    exact h.tracing entry rest (hflush ▸ hstate) envelope hnever

theorem Accounted.enqueues (hinv : Inv a) (n now : Nat) (envelope : Envelope) :
    Accounted (a.enqueues n envelope now) := by
  cases hhas : a.store.has envelope.id with
  | true =>
    have hevents : (a.enqueues n envelope now).events = a.events := by
      simp [OutboxMessagingAdapter.enqueues, hhas]
    exact h.frame rfl hevents fun _ _ _ _ _ hreceipt => hreceipt
  | false =>
    have hevents : (a.enqueues n envelope now).events = a.events ++ [.enqueued envelope] := by
      simp [OutboxMessagingAdapter.enqueues, hhas]
    have hother : ∀ entry rest, a.store.Present (entry :: rest) →
        (a.enqueues n envelope now).standing entry.envelope = a.standing entry.envelope := by
      intro entry rest hpresent
      obtain ⟨row, hrow, -⟩ := hpresent.kept entry (mem_cons_self ..)
      have hne : envelope ≠ entry.envelope := by
        rintro rfl
        simp [has, OutboxEntry.id] at hhas hrow
        simp [hhas] at hrow
      rw [standing_append hevents]
      simp [follow, hne]
    refine h.event _ rfl hevents ?_ ?_
    · intro e s
      simp only [follow]
      split_ifs <;> rfl
    · intro state hstate
      have hbacked := h.backed state hstate
      have hfits := hinv.flush state hstate
      cases state with
      | sending entry rest k =>
        intro receipt hreceipt
        rw [hother entry rest hfits.1]
        exact hbacked receipt hreceipt
      | storing op entry rest =>
        cases op with
        | deliver =>
          show (standing _ _).confirmed = true
          rw [hother entry rest hfits.1]
          exact hbacked
        | drain | drop | retry => trivial
      | fetching | fetched _ | stored _ _ _ => trivial

end

theorem confirmed_reported (a : OutboxMessagingAdapter) (k : Nat) (attempt : Attempt)
    (result : Except String DeliveryReceipt) (envelope : Envelope) :
    ((a.innerSettles k attempt result).standing envelope).confirmed = true ↔
      (a.standing envelope).confirmed = true ∨
        (attempt.envelope = envelope ∧ Confirms result = true) := by
  rw [standing_append rfl]
  simp only [foldl_cons, foldl_nil, follow]
  split_ifs with hconfirms
  · simp [confirm, hconfirms]
  · simp [hconfirms]

theorem Accounted.innerSettles (h : Accounted a) (hinv : Inv a) {attempt : Attempt}
    (hk : a.attempts[k]? = some attempt) {result : Except String DeliveryReceipt}
    (hreliable : a.Reliable (.innerSettles k result)) :
    Accounted (a.innerSettles k attempt result) := by
  refine h.event (.reported attempt.envelope result) rfl rfl ?_ ?_
  · intro e s
    simp only [follow]
    split_ifs <;> rfl
  · intro state hstate
    have hbacked := h.backed state hstate
    have hfits := hinv.flush state hstate
    cases state with
    | sending entry rest k' =>
      intro receipt hreceipt
      rw [confirmed_reported]
      by_cases heq : k = k'
      · subst heq
        have henvelope : attempt.envelope = entry.envelope := by simpa [hk] using hfits.2.2
        have houtcome : attempt.outcome.or (some result) = some (.ok receipt) := by
          have hlt := hfits.attempt_lt
          simpa [OutboxMessagingAdapter.innerSettles, hlt] using hreceipt
        cases hold : attempt.outcome with
        | some outcome =>
          left
          apply hbacked receipt
          simpa [hk, hold] using houtcome
        | none =>
          have hresult : result = .ok receipt := by simpa [hold] using houtcome
          subst hresult
          cases hok : receipt.isOk with
          | true => exact .inr ⟨henvelope, hok⟩
          | false =>
            left
            apply hreliable (by simp [Refuses, hok])
            simp [awaited, hstate, hk, hold]
      · left
        apply hbacked receipt
        simpa [OutboxMessagingAdapter.innerSettles, getElem?_set_ne heq] using hreceipt
    | storing op entry rest =>
      cases op with
      | deliver => exact (confirmed_reported ..).mpr (.inl hbacked)
      | drain | drop | retry => trivial
    | fetching | fetched _ | stored _ _ _ => trivial

theorem Accounted.timerFires (h : Accounted a) {attempt : Attempt}
    (hk : a.attempts[k]? = some attempt) : Accounted (a.timerFires k attempt) := by
  refine h.frame rfl rfl fun entry rest k' _ receipt hreceipt => ?_
  by_cases heq : k = k'
  · subst heq
    have hlt : k < a.attempts.length := (List.getElem?_eq_some_iff.mp hk).1
    simp [OutboxMessagingAdapter.timerFires, hlt] at hreceipt
  · simpa [OutboxMessagingAdapter.timerFires, getElem?_set_ne heq] using hreceipt

/-! ## 8. The flush in reliable runs -/

theorem Accounted.flushLoop (h : Clean a) (entries : List OutboxEntry) :
    Accounted (a.flushLoop entries) := by
  have hstays : ∀ {b : OutboxMessagingAdapter}, b.events = a.events → Clean b := by
    intro b hevents envelope hnever
    rw [standing_eq hevents]
    exact h envelope hnever
  rcases entries with _ | ⟨entry, rest⟩
  · refine Clean.accounted (hstays rfl) fun state hstate => ?_
    cases hstate
  simp only [OutboxMessagingAdapter.flushLoop]
  split_ifs
  · refine Clean.accounted (hstays rfl) fun state hstate => ?_
    cases hstate
  · refine Clean.accounted (hstays rfl) fun state hstate => ?_
    cases hstate
    trivial
  · refine Clean.accounted (hstays rfl) fun state hstate => ?_
    cases hstate
    trivial
  · apply Clean.accounted
    · intro envelope hnever
      rw [standing_append rfl]
      exact h envelope hnever
    · rintro state ⟨⟩ receipt hreceipt
      simp [sendWithTimeout, OutboxMessagingAdapter.attempt] at hreceipt

theorem unaccounted_left (hevents : a'.events = a.events ++ [.left entry.envelope op])
    (envelope : Envelope) :
    (a'.standing envelope).unaccounted = true ↔ (a.standing envelope).unaccounted = true ∨
      (entry.envelope = envelope ∧ (a.standing envelope).confirmed = false) := by
  rw [standing_append hevents]
  simp only [foldl_cons, foldl_nil, follow]
  split_ifs with heq
  · simp [leave, heq]
  · simp [heq]

section

variable (h : Accounted a)
include h

theorem Accounted.flushStores (hinv : Inv a) (hstate : a.flush = some state)
    (hstep : a.flushStores state = some a') : Accounted a' := by
  have hbacked := h.backed state hstate
  have hfits := hinv.flush state hstate
  cases state with
  | fetching =>
    cases hstep
    have hclean : a.Clean := h.clean (by simp [mustTrace, hstate])
    refine Clean.accounted hclean fun state hplace => ?_
    cases hplace
    trivial
  | storing op entry rest =>
    obtain ⟨hpresent, hsuits⟩ := hfits
    have hclean : a.Clean := h.clean (by simp [mustTrace, hstate])
    by_cases hop : op = .retry
    · subst hop
      cases hstep
      refine Clean.accounted hclean fun state hplace => ?_
      cases hplace
      trivial
    rw [flushStores_dequeue hop hpresent] at hstep
    cases hstep
    -- only the entry that leaves may now be unaccounted for, and only as a drop
    have hleft : ∀ envelope : Envelope, envelope.neverQueued = false → (standing { a with
          store := a.store.dequeue entry.id
          flush := some (.stored op entry rest)
          events := a.events ++ [.left entry.envelope op] } envelope).unaccounted = true →
        entry.envelope = envelope ∧ op = .drop := by
      intro envelope hnever hunaccounted
      rcases (unaccounted_left rfl envelope).mp hunaccounted with hold | ⟨heq, hconfirmed⟩
      · rw [hclean envelope hnever] at hold
        cases hold
      refine ⟨heq, ?_⟩
      cases op with
      | drop => rfl
      | retry => exact absurd rfl hop
      | drain =>
        have hdrain := hsuits.drain.mp rfl
        rw [heq, hnever] at hdrain
        cases hdrain
      | deliver =>
        have hconfirmed' : (a.standing entry.envelope).confirmed = true := hbacked
        rw [heq, hconfirmed] at hconfirmed'
        cases hconfirmed'
    constructor
    · rintro state ⟨⟩
      trivial
    · intro hmust envelope hnever
      by_contra hunaccounted
      obtain ⟨-, rfl⟩ := hleft envelope hnever (by simpa using hunaccounted)
      simp [mustTrace] at hmust
    · rintro entry' rest' ⟨⟩ envelope hnever hunaccounted
      exact (hleft envelope hnever hunaccounted).1
  | fetched _ | sending _ _ _ | stored _ _ _ => cases hstep

omit h in
theorem Clean.goto (h : Clean a) {place : Option FlushState}
    (hbacked : ∀ state, place = some state → a.Backed state) :
    Accounted { a with flush := place } :=
  Clean.accounted h hbacked

theorem Accounted.flushStoreRejects (hstate : a.flush = some state)
    (hstep : a.flushStoreRejects state = some a') : Accounted a' := by
  have hstop : a.Clean → Accounted { a with flush := none } := fun hclean =>
    hclean.goto fun _ hnone => by cases hnone
  cases state with
  | fetching =>
    cases hstep
    exact hstop (h.clean (by simp [mustTrace, hstate]))
  | storing op entry rest =>
    have hclean : a.Clean := h.clean (by simp [mustTrace, hstate])
    cases op with
    | deliver =>
      cases hstep
      apply hclean.goto
      rintro state ⟨⟩
      trivial
    | drain | drop | retry =>
      cases hstep
      exact hstop hclean
  | fetched _ | sending _ _ _ | stored _ _ _ => cases hstep

theorem Accounted.traceOutboxDrop
    (hstate : a.flush = some (.stored .drop entry rest)) : Clean (a.traceOutboxDrop entry) := by
  intro envelope hnever
  rw [standing_append rfl]
  simp only [foldl_cons, foldl_nil, follow]
  split_ifs with heq
  · rfl
  · by_contra hunaccounted
    exact heq (h.tracing entry rest hstate envelope hnever (by simpa using hunaccounted))

theorem Accounted.flushResumes (hstate : a.flush = some state)
    (hstep : a.flushResumes state = some a') : Accounted a' := by
  have hbacked := h.backed state hstate
  cases state with
  | fetched pending =>
    cases hstep
    exact Accounted.flushLoop (h.clean (by simp [mustTrace, hstate])) pending
  | sending entry rest k =>
    have hclean : a.Clean := h.clean (by simp [mustTrace, hstate])
    obtain ⟨outcome, houtcome, rfl⟩ := map_eq_some_iff.mp hstep
    cases outcome with
    | ok receipt =>
      apply hclean.goto
      rintro state ⟨⟩
      exact hbacked receipt houtcome
    | error _ =>
      apply hclean.goto
      rintro state ⟨⟩
      trivial
  | stored op entry rest =>
    cases op with
    | drop =>
      cases hstep
      exact Accounted.flushLoop (h.traceOutboxDrop hstate) rest
    | drain | deliver | retry =>
      cases hstep
      exact Accounted.flushLoop (h.clean (by simp [mustTrace, hstate])) rest
  | fetching | storing _ _ _ => cases hstep

theorem Accounted.step {i : Input} (hinv : Inv a) (hreliable : a.Reliable i)
    (hstep : a.step i = some a') : Accounted a' := by
  cases i with
  | innerState state =>
    cases hstep
    exact h.frame rfl rfl fun _ _ _ _ _ hreceipt => hreceipt
  | send envelope =>
    cases hstep
    exact h.send hinv envelope
  | flushOutbox =>
    cases hstep
    unfold flushOutbox
    split_ifs with hflush
    · exact h
    have hnone : a.flush = none := by simpa using hflush
    have hclean : a.Clean := h.clean (by simp [mustTrace, hnone])
    apply hclean.goto
    rintro state ⟨⟩
    trivial
  | innerSettles k result =>
    obtain ⟨attempt, hk, hstep⟩ := bind_eq_some_iff.mp hstep
    split_ifs at hstep
    cases hstep
    exact h.innerSettles hinv hk hreliable
  | timerFires k =>
    obtain ⟨attempt, hk, hstep⟩ := bind_eq_some_iff.mp hstep
    split_ifs at hstep
    cases hstep
    exact h.timerFires hk
  | sendResumes n =>
    obtain ⟨call, -, hstep⟩ := bind_eq_some_iff.mp hstep
    exact h.sendResumes hstep
  | enqueueTakesEffect n now =>
    obtain ⟨call, -, hstep⟩ := bind_eq_some_iff.mp hstep
    cases call <;> cases hstep
    exact h.enqueues hinv n now _
  | enqueueRejects n error =>
    obtain ⟨call, -, hstep⟩ := bind_eq_some_iff.mp hstep
    cases call <;> cases hstep
    exact h.setCall n _
  | flushStores =>
    obtain ⟨state, hstate, hstep⟩ := bind_eq_some_iff.mp hstep
    exact h.flushStores hinv hstate hstep
  | flushStoreRejects =>
    obtain ⟨state, hstate, hstep⟩ := bind_eq_some_iff.mp hstep
    exact h.flushStoreRejects hstate hstep
  | flushResumes =>
    obtain ⟨state, hstate, hstep⟩ := bind_eq_some_iff.mp hstep
    exact h.flushResumes hstate hstep
  | restart options =>
    cases hstep
    have hclean : a.Clean := h.clean hreliable
    refine Clean.accounted hclean fun state hstate => ?_
    cases hstate

end

theorem Accounted.start (options : OutboxOptions) (store : OutboxStore) :
    Accounted (start options store) := by
  have hfound : ∀ (rows : List OutboxEntry) (envelope : Envelope) (s : Standing),
      ((rows.map fun entry => OutboxEvent.found entry.envelope).foldl
        (follow envelope) s).unaccounted = s.unaccounted := by
    intro rows envelope s
    induction rows generalizing s with
    | nil => rfl
    | cons row rest ih =>
      simp only [map_cons, foldl_cons, ih, follow]
      split_ifs <;> rfl
  refine Clean.accounted (fun envelope _ => hfound store.rows envelope _) fun state hstate => ?_
  cases hstate

/-! ## 9. What leaves the outbox -/

/-- **At-least-once delivery.**  In every reliable run an envelope that may be queued leaves the
    outbox only after the inner adapter reported it accepted or delivered since it came there,
    or it is traced, at the latest by the next step of the flush.  In every run at all, the
    history says what the store holds, envelopes of the other types neither enter the outbox
    nor are sent from it, and what is traced is over the retry limit. -/
theorem outbox_at_least_once (options : OutboxOptions) (store : OutboxStore) :
    (∀ a, Reaches step Reliable (start options store) a →
      ∀ envelope : Envelope, envelope.neverQueued = false →
        (a.standing envelope).unaccounted = true →
        ∃ entry rest, a.flush = some (.stored .drop entry rest) ∧ entry.envelope = envelope) ∧
    ∀ a, Reaches step (fun _ _ => True) (start options store) a →
      (∀ envelope, (a.standing envelope).queued = true ↔ a.store.Holds envelope) ∧
      ∀ event ∈ a.events, Proper event := by
  have hinv : ∀ a, Reaches step (fun _ _ => True) (start options store) a → Inv a :=
    fun a ha => ha.invariant (.start options store) fun _ _ _ h _ hstep => h.step hstep
  constructor
  · intro a ha envelope hnever hunaccounted
    obtain ⟨-, haccounted⟩ : Inv a ∧ Accounted a :=
      Reaches.invariant (P := fun a => Inv a ∧ Accounted a) ha
        ⟨.start options store, .start options store⟩ fun _ _ _ h hreliable hstep =>
          ⟨h.1.step hstep, h.2.step h.1 hreliable hstep⟩
    rcases hmust : a.mustTrace with _ | _
    · rw [haccounted.clean hmust envelope hnever] at hunaccounted
      cases hunaccounted
    unfold mustTrace at hmust
    split at hmust
    · next entry rest hstate =>
      exact ⟨entry, rest, hstate, haccounted.tracing entry rest hstate envelope hnever
        hunaccounted⟩
    · cases hmust
  · intro a ha
    exact ⟨(hinv a ha).ledger, (hinv a ha).proper⟩

def spaceInvite : Envelope := ⟨"m1", SPACE_INVITE_MESSAGE_TYPE, ""⟩

/-- An invitation is queued while the adapter is offline, and a flush has read the outbox. -/
def inviteFlushed : List Input :=
  [.send spaceInvite, .enqueueTakesEffect 0 0, .innerState .connected, .flushOutbox, .flushStores,
    .flushResumes]

/-- An entry over the retry limit has been dequeued and is about to be traced. -/
theorem outbox_drop_traced_next : ∃ a, Reaches step Reliable (start ⟨[], 15000, 0⟩ .empty) a ∧
      ∃ entry rest, a.flush = some (.stored .drop entry rest) ∧ entry.envelope = spaceInvite := by
  obtain ⟨a, ha, hunaccounted⟩ := Reaches.of_exec step Reliable (start ⟨[], 15000, 0⟩ .empty)
    (inviteFlushed.append [.flushStores]) (fun a => (a.standing spaceInvite).unaccounted)
    (by decide +kernel)
  exact ⟨a, ha, (outbox_at_least_once _ _).1 a ha spaceInvite (by decide) hunaccounted⟩

/-- An invitation that the inner adapter answers `failed` is dequeued, and a restart between a
    drop and its trace leaves no trace. -/
theorem invitation_lost : spaceInvite.neverQueued = false ∧
    (∃ a, Reaches step (fun _ _ => True) (start ⟨[], 15000, 50⟩ .empty) a ∧
      (a.standing spaceInvite).unaccounted = true ∧ a.flush = none) ∧
    ∃ a, Reaches step (fun _ _ => True) (start ⟨[], 15000, 0⟩ .empty) a ∧
      (a.standing spaceInvite).unaccounted = true ∧ a.flush = none := by
  refine ⟨by decide, ?_, ?_⟩
  · obtain ⟨a, ha, hlost⟩ := Reaches.of_exec step (fun _ _ => True) (start ⟨[], 15000, 50⟩ .empty)
      (inviteFlushed.append [.innerSettles 0 (.ok ⟨"m1", .failed, none⟩), .flushResumes,
        .flushStores, .flushResumes])
      (fun a => decide ((a.standing spaceInvite).unaccounted = true ∧ a.flush = none))
      (by decide +kernel)
    exact ⟨a, ha, of_decide_eq_true hlost⟩
  · obtain ⟨a, ha, hlost⟩ := Reaches.of_exec step (fun _ _ => True) (start ⟨[], 15000, 0⟩ .empty)
      (inviteFlushed.append [.flushStores, .restart ⟨[], 15000, 0⟩])
      (fun a => decide ((a.standing spaceInvite).unaccounted = true ∧ a.flush = none))
      (by decide +kernel)
    exact ⟨a, ha, of_decide_eq_true hlost⟩

end OutboxMessagingAdapter

end WebOfTrust
