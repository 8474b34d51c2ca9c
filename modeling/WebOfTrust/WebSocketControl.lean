/-
  **Which control frame a receipt settles.**

  Control frames of one docId go out one after the other, and the waiter of the docId is the
  frame in flight.  A broker that answers each frame once, on the socket that it came on,
  still answers a frame whose promise has timed out: its answer then meets the waiter of the
  next frame.  Where that does not happen, every promise that a receipt or a broker code
  settles was settled by the answer to its own frame (`control_receipts_correlated`).
-/
import WebOfTrust.WebSocketAdapter

namespace WebOfTrust

open Machine List Option Function

def ControlOutcome.byBroker : ControlOutcome → Bool
  | .failed _ => false
  | _ => true

def BrokerMessage.correlation : BrokerMessage → Option String
  | .receipt r => some r.messageId
  | .error e => e.thid.filter (· ≠ "")
  | .errorBody e => e.thid.filter (· ≠ "")
  | _ => none

open WebSocketMessagingAdapter

namespace WebSocketMessagingAdapter

/-! ## 1. The broker and the defect -/

section

variable (a : WebSocketMessagingAdapter)

/-- The broker answers a control frame once, on the socket that it came on and under its docId;
    no other message carries the docId of a control frame. -/
def Honest : Input → Prop
  | .message s message (some m) =>
    (a.calls[m]?.any fun call => decide (call.writtenOn = some s) &&
      decide (message.correlation = some call.docId)) = true ∧
    message.answer.isSome = true ∧ ∀ answer ∈ a.answers, answer.1 ≠ m
  | .message _ message none => ∀ call ∈ a.calls, message.correlation ≠ some call.docId
  | _ => True

/-- An answer to a frame whose promise has settled comes on the current socket only while no
    other frame of its docId waits. -/
def InTime : Input → Prop
  | .message s message (some m) =>
    a.ws = some s → message.answer.any ControlOutcome.byBroker = true →
      (a.calls[m]?.all fun call => call.outcome.isNone ||
        (a.pendingControlFrames call.docId).isNone) = true
  | _ => True

instance (a : WebSocketMessagingAdapter) : (i : Input) → Decidable (a.Honest i)
  | .message _ _ (some _) => inferInstanceAs (Decidable (_ ∧ _ ∧ _))
  | .message _ _ none => inferInstanceAs (Decidable (∀ _ ∈ _, _))
  | .connect _ | .connectResumes _ | .disconnect | .rebindDeviceId _ | .rebindResumes _
  | .setConnectTimeoutMs _ | .onMessage | .unsubscribe | .handled _ _ | .send _ | .sendTimeout _
  | .sendControlFrame _ | .controlTimeout _ | .turns _ _ | .opened _ | .probed _
  | .signed _ _ _ | .errored _ | .closed _ | .connectTimeout _ | .heartbeatTick _
  | .heartbeatTimeout _ => inferInstanceAs (Decidable True)

instance (a : WebSocketMessagingAdapter) : (i : Input) → Decidable (a.InTime i)
  | .message _ _ (some _) => inferInstanceAs (Decidable (_ → _ → _))
  | .message _ _ none => inferInstanceAs (Decidable True)
  | .connect _ | .connectResumes _ | .disconnect | .rebindDeviceId _ | .rebindResumes _
  | .setConnectTimeoutMs _ | .onMessage | .unsubscribe | .handled _ _ | .send _ | .sendTimeout _
  | .sendControlFrame _ | .controlTimeout _ | .turns _ _ | .opened _ | .probed _
  | .signed _ _ _ | .errored _ | .closed _ | .connectTimeout _ | .heartbeatTick _
  | .heartbeatTimeout _ => inferInstanceAs (Decidable True)

/-- A promise that resolves as delivered, or rejects with a broker code, does so because the
    broker has delivered, or so rejected, its own frame. -/
def Correlated : Prop :=
  ∀ n call, a.calls[n]? = some call →
    (call.outcome = some .delivered → (n, .delivered) ∈ a.answers) ∧
    ∀ code, call.outcome = some (.rejected code) → (n, .rejected code) ∈ a.answers

/-! ## 2. The calls and their queues -/

structure ControlState where
  waiters : DocId → Option Nat
  tails : DocId → List Nat
  calls : List ControlCall
  answers : List (Nat × ControlOutcome)

def control : ControlState :=
  ⟨a.pendingControlFrames, a.controlFrameTails, a.calls, a.answers⟩

structure Sending where
  sends : List SendRequest
  waiters : String → Option Nat
  timeoutMs : Nat

def sending : Sending :=
  ⟨a.sends, a.pendingReceipts, a.SEND_TIMEOUT_MS⟩

end

/-- A call has a timer only while it waits for its answer, and a settlement by the broker has
    its answer. -/
structure Proper (answers : List (Nat × ControlOutcome)) (n : Nat) (call : ControlCall) :
    Prop where
  timed : call.timer = true → call.writtenOn.isSome = true ∧ call.outcome = none
  answered : ∀ outcome, call.outcome = some outcome → outcome.byBroker = true →
    (n, outcome) ∈ answers

def ControlState.Queued (c : ControlState) (docId : DocId) (n : Nat) : Prop :=
  ∃ call, c.calls[n]? = some call ∧ call.docId = docId ∧ call.outcome = none

/-- The waiter of a docId is the head of its queue, and what is written and open is the
    waiter. -/
structure ControlInv (c : ControlState) : Prop where
  waiter : ∀ docId, c.waiters docId = (c.tails docId).head?
  nodup : ∀ docId, (c.tails docId).Nodup
  queued : ∀ docId, ∀ n ∈ c.tails docId, c.Queued docId n
  waits : ∀ n call, c.calls[n]? = some call → call.writtenOn.isSome = true →
    call.outcome = none → c.waiters call.docId = some n
  proper : ∀ n call, c.calls[n]? = some call → Proper c.answers n call

variable {a : WebSocketMessagingAdapter} {c : ControlState} {n : Nat} {docId : DocId}
  {outcome : ControlOutcome} {answers : List (Nat × ControlOutcome)} {call : ControlCall}
  {a' : WebSocketMessagingAdapter} {s : Nat} {w : Socket} {message : BrokerMessage}

theorem isSome_settle (call : ControlCall) (outcome : ControlOutcome) :
    (call.settle outcome).outcome.isSome = true := by
  simp [ControlCall.settle]

theorem Proper.settle (h : Proper answers n call)
    (hanswer : outcome.byBroker = true → (n, outcome) ∈ answers) :
    Proper answers n (call.settle outcome) where
  timed htimer := by simp [ControlCall.settle] at htimer
  answered o ho hbroker := by
    cases hold : call.outcome with
    | some o' =>
      rw [ControlCall.settle, hold, some_or] at ho
      exact h.answered o (hold.trans ho) hbroker
    | none =>
      rw [ControlCall.settle, hold, none_or, some.injEq] at ho
      exact ho ▸ hanswer (ho ▸ hbroker)

theorem getElem?_settle {calls : List ControlCall} {m : Nat} {call' : ControlCall}
    (h : (calls.modify n (·.settle outcome))[m]? = some call') :
    (n = m ∧ ∃ call, calls[m]? = some call ∧ call' = call.settle outcome) ∨
      (n ≠ m ∧ calls[m]? = some call') := by
  rw [getElem?_modify] at h
  obtain ⟨call, hcall, heq⟩ := map_eq_some_iff.mp h
  split_ifs at heq with hn
  · exact Or.inl ⟨hn, call, hcall, heq.symm⟩
  · exact Or.inr ⟨hn, heq ▸ hcall⟩

theorem getElem?_settle_of_ne {calls : List ControlCall} {m : Nat} (h : n ≠ m) :
    (calls.modify n (·.settle outcome))[m]? = calls[m]? := by
  simp [h]

section

variable (h : ControlInv c)
include h

theorem ControlInv.answer (more : List (Nat × ControlOutcome)) :
    ControlInv { c with answers := c.answers ++ more } where
  waiter := h.waiter
  nodup := h.nodup
  queued := h.queued
  waits := h.waits
  proper n call hcall :=
    ⟨(h.proper n call hcall).timed, fun o ho hbroker =>
      mem_append_left _ ((h.proper n call hcall).answered o ho hbroker)⟩

theorem ControlInv.settle (hfree : ∀ d, n ∉ c.tails d) (hfailed : outcome.byBroker = false) :
    ControlInv { c with calls := c.calls.modify n (·.settle outcome) } where
  waiter := h.waiter
  nodup := h.nodup
  queued d m hm := by
    have hne : n ≠ m := fun heq => hfree d (heq ▸ hm)
    obtain ⟨call, hcall, hdoc⟩ := h.queued d m hm
    exact ⟨call, (getElem?_settle_of_ne hne).trans hcall, hdoc⟩
  waits m call hcall hwritten hopen := by
    rcases getElem?_settle hcall with ⟨-, old, -, rfl⟩ | ⟨-, hold⟩
    · have := isSome_settle old outcome
      simp [hopen] at this
    · exact h.waits m call hold hwritten hopen
  proper m call hcall := by
    rcases getElem?_settle hcall with ⟨-, old, hold, rfl⟩ | ⟨-, hold⟩
    · exact (h.proper m old hold).settle fun hbroker => by simp [hfailed] at hbroker
    · exact h.proper m call hold

theorem ControlInv.release (hwaiter : c.waiters docId = some n)
    (hanswer : outcome.byBroker = true → (n, outcome) ∈ c.answers) :
    ControlInv { c with
      waiters := update c.waiters docId none
      tails := update c.tails docId []
      calls := c.calls.modify n (·.settle outcome) } where
  waiter d := by
    by_cases hd : d = docId
    · subst hd
      simp
    · simp [update_of_ne hd, h.waiter d]
  nodup d := by
    by_cases hd : d = docId
    · subst hd
      simp
    · simpa [update_of_ne hd] using h.nodup d
  queued d m hm := by
    by_cases hd : d = docId
    · subst hd
      simp at hm
    simp only [update_of_ne hd] at hm
    obtain ⟨call, hcall, hdoc, hopen⟩ := h.queued d m hm
    refine ⟨call, (getElem?_settle_of_ne ?_).trans hcall, hdoc, hopen⟩
    rintro rfl
    rw [h.waiter] at hwaiter
    obtain ⟨call', hcall', hdoc', -⟩ := h.queued docId n (mem_of_head? hwaiter)
    rw [hcall] at hcall'
    cases hcall'
    exact hd (hdoc.symm.trans hdoc')
  waits m call hcall hwritten hopen := by
    rcases getElem?_settle hcall with ⟨-, old, -, rfl⟩ | ⟨hne, hold⟩
    · have := isSome_settle old outcome
      simp [hopen] at this
    have hw := h.waits m call hold hwritten hopen
    have hd : call.docId ≠ docId := by
      intro heq
      rw [heq, hwaiter] at hw
      exact hne (some.inj hw)
    simp [update_of_ne hd, hw]
  proper m call hcall := by
    rcases getElem?_settle hcall with ⟨rfl, old, hold, rfl⟩ | ⟨-, hold⟩
    · exact (h.proper n old hold).settle hanswer
    · exact h.proper m call hold

theorem ControlInv.push (frame : ClosedControlFrame) (docId : DocId) :
    ControlInv { c with calls := c.calls ++ [⟨frame, docId, false, none, none⟩] } where
  waiter := h.waiter
  nodup := h.nodup
  queued d m hm := by
    obtain ⟨call, hcall, hdoc⟩ := h.queued d m hm
    refine ⟨call, ?_, hdoc⟩
    rw [List.getElem?_append_left (List.getElem?_eq_some_iff.mp hcall).1]
    exact hcall
  waits m call hcall hwritten hopen := by
    rcases getElem?_concat_cases hcall with ⟨-, rfl⟩ | hold
    · simp at hwritten
    · exact h.waits m call hold hwritten hopen
  proper m call hcall := by
    rcases getElem?_concat_cases hcall with ⟨-, rfl⟩ | hold
    · exact ⟨nofun, nofun⟩
    · exact h.proper m call hold

theorem ControlInv.takeOff (hidle : c.tails docId = []) {rest : List Nat}
    (hnodup : (n :: rest).Nodup) (hqueued : ∀ m ∈ n :: rest, c.Queued docId m)
    (hcall : c.calls[n]? = some call) (timer : Bool) (s : Nat) :
    ControlInv { c with
      waiters := update c.waiters docId (some n)
      tails := update c.tails docId (n :: rest)
      calls := c.calls.set n { call with timer := timer, writtenOn := some s } } := by
  obtain ⟨call', hcall', hdoc, hopen⟩ := hqueued n mem_cons_self
  obtain rfl : call = call' := some.inj (hcall.symm.trans hcall')
  have hidle' : c.waiters docId = none := by rw [h.waiter, hidle]; rfl
  have hsent {m : Nat} (hne : n ≠ m) {new : ControlCall} :
      (c.calls.set n new)[m]? = c.calls[m]? := getElem?_set_ne hne
  have hkeep {d : DocId} {m : Nat} (hq : c.Queued d m) : ControlState.Queued { c with
        waiters := update c.waiters docId (some n)
        tails := update c.tails docId (n :: rest)
        calls := c.calls.set n { call with timer := timer, writtenOn := some s } } d m := by
    obtain ⟨old, hold, hd, ho⟩ := hq
    by_cases hne : n = m
    · subst hne
      obtain rfl : call = old := some.inj (hcall.symm.trans hold)
      exact ⟨{ call with timer := timer, writtenOn := some s },
        List.getElem?_set_self (List.getElem?_eq_some_iff.mp hcall).1, hd, ho⟩
    · exact ⟨old, (hsent hne).trans hold, hd, ho⟩
  constructor
  · intro d
    by_cases hd : d = docId
    · subst hd
      simp
    · simp [update_of_ne hd, h.waiter d]
  · intro d
    by_cases hd : d = docId
    · subst hd
      simpa using hnodup
    · simpa [update_of_ne hd] using h.nodup d
  · intro d m hm
    by_cases hd : d = docId
    · subst hd
      simp only [update_self] at hm
      exact hkeep (hqueued m hm)
    · simp only [update_of_ne hd] at hm
      exact hkeep (h.queued d m hm)
  · intro m new hnew hwritten ho
    by_cases hne : n = m
    · subst hne
      rw [List.getElem?_set_self (List.getElem?_eq_some_iff.mp hcall).1] at hnew
      cases hnew
      simp [hdoc]
    rw [hsent hne] at hnew
    have hw := h.waits m new hnew hwritten ho
    have hd : new.docId ≠ docId := by
      intro heq
      rw [heq, hidle'] at hw
      cases hw
    simp [update_of_ne hd, hw]
  · intro m new hnew
    by_cases hne : n = m
    · subst hne
      rw [List.getElem?_set_self (List.getElem?_eq_some_iff.mp hcall).1] at hnew
      cases hnew
      exact ⟨fun _ => ⟨rfl, hopen⟩, fun o ho => by simp [hopen] at ho⟩
    · rw [hsent hne] at hnew
      exact h.proper m new hnew

theorem ControlInv.enqueue (hqueued : c.Queued docId n)
    (hnew : n ∉ c.tails docId) (hbusy : c.tails docId ≠ []) :
    ControlInv { c with tails := update c.tails docId (c.tails docId ++ [n]) } where
  waiter d := by
    by_cases hd : d = docId
    · subst hd
      obtain ⟨first, rest, htail⟩ := exists_cons_of_ne_nil hbusy
      simp [h.waiter d, htail]
    · simp [update_of_ne hd, h.waiter d]
  nodup d := by
    by_cases hd : d = docId
    · subst hd
      simp only [update_self, nodup_append]
      refine ⟨h.nodup d, by simp, ?_⟩
      rintro m hm m' hm' rfl
      rw [mem_singleton] at hm'
      exact hnew (hm' ▸ hm)
    · simpa [update_of_ne hd] using h.nodup d
  queued d m hm := by
    by_cases hd : d = docId
    · subst hd
      simp only [update_self, mem_append, mem_singleton] at hm
      rcases hm with hm | rfl
      · exact h.queued d m hm
      · exact hqueued
    · simp only [update_of_ne hd] at hm
      exact h.queued d m hm
  waits := h.waits
  proper := h.proper

end

theorem ControlInv.congr {c' : ControlState} (h : ControlInv c) (heq : c' = c) : ControlInv c' :=
  heq ▸ h

theorem ControlInv.sendControlFrameNow {rest : List Nat} (h : ControlInv { a.control with
      tails := update a.controlFrameTails docId [] })
    (hnodup : rest.Nodup) (hqueued : ∀ m ∈ rest, a.control.Queued docId m) :
    ControlInv (sendControlFrameNow docId rest a).control := by
  induction rest generalizing a with
  | nil => exact h
  | cons n rest ih =>
    have hrest := (nodup_cons.mp hnodup)
    have hfree : ∀ d, n ∉ update a.controlFrameTails docId [] d := by
      intro d hmem
      by_cases hd : d = docId
      · subst hd
        simp at hmem
      obtain ⟨call, hcall, hdoc, -⟩ := hqueued n mem_cons_self
      obtain ⟨call', hcall', hdoc', -⟩ := h.queued d n hmem
      rw [hcall] at hcall'
      cases hcall'
      exact hd (hdoc'.symm.trans hdoc)
    have hfail (message : String) :
        ControlInv (sendControlFrameNow docId rest (a.failControl n message)).control := by
      apply ih (h.settle hfree rfl) hrest.2
      intro m hm
      obtain ⟨call, hcall, hcalled⟩ := hqueued m (mem_cons_of_mem _ hm)
      refine ⟨call, (getElem?_settle_of_ne ?_).trans hcall, hcalled⟩
      rintro rfl
      exact hrest.1 hm
    rw [sendControlFrameNow]
    split
    · next s call hs hcall =>
      split_ifs with hopen
      · have hidle : update a.controlFrameTails docId [] docId = [] := by simp
        have hsent := h.takeOff hidle hnodup hqueued hcall (decide (0 < a.SEND_TIMEOUT_MS)) s
        simp only [update_idem] at hsent
        exact hsent
      have hsame : update a.pendingControlFrames docId none = a.pendingControlFrames := by
        rw [update_eq_self_iff, eq_comm]
        simpa [control] using h.waiter docId
      rw [hsame]
      exact hfail _
    · exact hfail _

/-! ## 3. The calls in a step -/

theorem ControlInv.settleControl (h : ControlInv a.control)
    (hwaiter : a.pendingControlFrames docId = some n)
    (hanswer : outcome.byBroker = true → (n, outcome) ∈ a.answers) :
    ControlInv (a.settleControl docId n outcome).control := by
  have hrelease := h.release hwaiter hanswer
  obtain ⟨rest, htail⟩ := head?_eq_some_iff.mp ((h.waiter docId).symm.trans hwaiter)
  have hnodup := h.nodup docId
  rw [htail, nodup_cons] at hnodup
  have hrest : (a.controlFrameTails docId).tail = rest := congrArg tail htail
  unfold WebSocketMessagingAdapter.settleControl
  rw [hrest]
  apply ControlInv.sendControlFrameNow
  · exact hrelease
  · exact hnodup.2
  intro m hm
  have hmem : m ∈ a.control.tails docId := htail ▸ mem_cons_of_mem _ hm
  obtain ⟨call, hcall, hcalled⟩ := h.queued docId m hmem
  refine ⟨call, (getElem?_settle_of_ne ?_).trans hcall, hcalled⟩
  rintro rfl
  exact hnodup.1 hm

theorem ControlInv.sendControlFrame (h : ControlInv a.control) (frame : ClosedControlFrame) :
    ControlInv (a.sendControlFrame frame).control := by
  unfold WebSocketMessagingAdapter.sendControlFrame
  split
  · exact h
  next docId _ =>
  have hpush := h.push frame docId
  have hnew : ControlState.Queued
      { a.control with calls := a.calls ++ [⟨frame, docId, false, none, none⟩] } docId
      a.calls.length := ⟨_, getElem?_concat_length, rfl, rfl⟩
  dsimp only
  split_ifs with hempty hidle
  · exact h
  · apply ControlInv.sendControlFrameNow
    · rw [← hidle, update_eq_self]
      exact hpush
    · simp
    intro m hm
    rw [mem_singleton] at hm
    exact hm ▸ hnew
  · refine hpush.enqueue hnew ?_ hidle
    intro hmem
    obtain ⟨call, hcall, -⟩ := h.queued docId _ hmem
    exact absurd (List.getElem?_eq_some_iff.mp hcall).1 (Nat.lt_irrefl _)

theorem ControlInv.disconnect (h : ControlInv a.control) : ControlInv ⟨fun _ => none, fun _ => [],
      a.calls.map fun call => call.settle (.failed (disconnectedMessage call)), a.answers⟩ where
  waiter _ := rfl
  nodup _ := nodup_nil
  queued _ _ hm := by cases hm
  waits n call hcall _ hopen := by
    rw [getElem?_map] at hcall
    obtain ⟨old, -, rfl⟩ := map_eq_some_iff.mp hcall
    have := isSome_settle old (.failed (disconnectedMessage old))
    simp [hopen] at this
  proper n call hcall := by
    rw [getElem?_map] at hcall
    obtain ⟨old, hold, rfl⟩ := map_eq_some_iff.mp hcall
    exact (h.proper n old hold).settle nofun

/-! ## 4. What leaves the calls and the sends alone -/

structure Aside (a a' : WebSocketMessagingAdapter) : Prop where
  control : a'.control = a.control
  sending : a'.sending = a.sending

theorem Aside.refl : Aside a a := ⟨rfl, rfl⟩

theorem Aside.trans {a' a'' : WebSocketMessagingAdapter} (h : Aside a a') (h' : Aside a' a'') :
    Aside a a'' := ⟨h'.control.trans h.control, h'.sending.trans h.sending⟩

theorem aside_rejectPendingConnect (message : String) :
    Aside a (a.rejectPendingConnect message) := by
  unfold rejectPendingConnect
  split <;> exact ⟨rfl, rfl⟩

theorem aside_dropSocket : Aside a a.dropSocket := by
  unfold dropSocket
  split <;> exact ⟨rfl, rfl⟩

theorem aside_dial (did : Did) : Aside a (a.dial did) :=
  (aside_rejectPendingConnect "connect() superseded by a newer connect()").trans
    (aside_dropSocket.trans ⟨rfl, rfl⟩)

theorem aside_killSocket (s : Nat) : Aside a (a.killSocket s) := by
  unfold killSocket
  split_ifs
  · exact ⟨(@aside_dropSocket a.stopHeartbeat).control, (@aside_dropSocket a.stopHeartbeat).sending⟩
  · exact .refl

theorem control_settleSend (receipt : DeliveryReceipt) :
    (a.settleSend receipt).control = a.control := by
  unfold settleSend
  split <;> rfl

theorem aside_handleIncomingMessage (s : Nat) (envelope : IncomingMessage) :
    Aside a (a.handleIncomingMessage s envelope) := by
  unfold handleIncomingMessage
  split_ifs <;> exact ⟨rfl, rfl⟩

theorem control_send (envelope : Envelope) : (a.send envelope).control = a.control := by
  unfold send
  split
  · rfl
  · split_ifs <;> rfl

theorem aside_setConnectTimeoutMs (ms : Nat) : Aside a (a.setConnectTimeoutMs ms) := by
  unfold setConnectTimeoutMs
  dsimp only
  split <;> exact ⟨rfl, rfl⟩

theorem aside_handled {k : Nat} {processed : Bool} (h : a.handled k processed = some a') :
    Aside a a' := by
  unfold handled at h
  split at h
  · cases h
    split
    · split_ifs <;> exact ⟨rfl, rfl⟩
    · exact ⟨rfl, rfl⟩
  · cases h

theorem aside_signed {k : Nat} {signature : Except String String}
    (h : a.signed s w k signature = some a') : Aside a a' := by
  unfold signed at h
  split at h
  · cases h
    split_ifs
    · split <;> exact ⟨rfl, rfl⟩
    · exact ⟨rfl, rfl⟩
  · cases h

theorem aside_checkAndSend (s : Nat) (w : Socket) : Aside a (a.checkAndSend s w) := by
  unfold checkAndSend
  dsimp only
  split_ifs
  · split <;> exact ⟨rfl, rfl⟩
  · exact ⟨rfl, rfl⟩

theorem aside_connectTimeout (s : Nat) : Aside a (a.connectTimeout s) := by
  unfold connectTimeout
  split_ifs
  · exact aside_dropSocket.trans ⟨rfl, rfl⟩
  · exact ⟨rfl, rfl⟩

theorem aside_heartbeatTick (s : Nat) : Aside a (a.heartbeatTick s) := by
  unfold heartbeatTick
  split_ifs
  · exact ⟨rfl, rfl⟩
  · exact aside_killSocket s
  · exact .refl
  · exact ⟨rfl, rfl⟩

theorem control_disconnect : a.disconnect.control = ⟨fun _ => none, fun _ => [],
      a.calls.map fun call => call.settle (.failed (disconnectedMessage call)), a.answers⟩ :=
  ((aside_rejectPendingConnect _).trans aside_dropSocket).control

theorem sending_disconnect : a.disconnect.sending = ⟨a.sends, fun _ => none, a.SEND_TIMEOUT_MS⟩ :=
  ((aside_rejectPendingConnect _).trans aside_dropSocket).sending

theorem ControlInv.connect (h : ControlInv a.control) (did : Did) :
    ControlInv (a.connect did).control := by
  unfold WebSocketMessagingAdapter.connect
  split_ifs
  · exact h
  · exact h.disconnect.congr control_disconnect
  · exact h.congr (aside_dial did).control

def Answered (a : WebSocketMessagingAdapter) (message : BrokerMessage) : Prop :=
  ∀ docId n outcome, message.correlation = some docId →
    a.pendingControlFrames docId = some n → message.answer = some outcome →
      outcome.byBroker = true → (n, outcome) ∈ a.answers

section

variable (h : ControlInv a.control)
include h

theorem ControlInv.handleReceipt {receipt : DeliveryReceipt}
    (hanswer : a.Answered (.receipt receipt)) : ControlInv (a.handleReceipt receipt).control := by
  unfold WebSocketMessagingAdapter.handleReceipt
  split
  · next n hwaiter =>
    split_ifs with hdelivered
    · apply h.settleControl hwaiter
      exact hanswer _ _ _ rfl hwaiter (by simp [BrokerMessage.answer, hdelivered])
    · exact h.congr (control_settleSend _)
  · exact h.congr (control_settleSend _)

theorem ControlInv.handleControlFrameError {error : BrokerError}
    (envelope : IncomingMessage) (hanswer : a.Answered message)
    (hcorrelation : message.correlation = error.thid.filter (· ≠ ""))
    (houtcome : message.answer = some error.outcome) :
    ControlInv (a.handleControlFrameError s error envelope).control := by
  unfold WebSocketMessagingAdapter.handleControlFrameError
  split
  · exact h.congr (aside_handleIncomingMessage _ _).control
  next docId hdoc =>
  split
  · next n hwaiter =>
    exact h.settleControl hwaiter (hanswer _ _ _ (hcorrelation.trans hdoc) hwaiter houtcome)
  · exact h.congr ((aside_handleIncomingMessage _ _).control.trans (control_settleSend _))

theorem ControlInv.onmessage (hanswer : a.Answered message) :
    ControlInv (a.onmessage s w message).control := by
  cases message with
  | malformed | registered peers | pong => exact h
  | challenge nonce =>
    simp only [onmessage]
    split_ifs <;> exact h
  | message envelope => exact h.congr (aside_handleIncomingMessage s envelope).control
  | receipt receipt => exact h.handleReceipt hanswer
  | error error =>
    simp only [onmessage]
    split_ifs
    · exact h
    · exact h.handleControlFrameError _ hanswer rfl rfl
  | errorBody error => exact h.handleControlFrameError _ hanswer rfl rfl

/-- **A message settles the promise of the frame that it answers**, if no answer comes late. -/
theorem ControlInv.receive {about : Option Nat}
    (hhonest : a.Honest (.message s message about)) (htime : a.InTime (.message s message about)) :
    ControlInv (a.receive s w message about).control := by
  unfold WebSocketMessagingAdapter.receive
  have hanswers := h.answer (about.bind fun n => message.answer.map (n, ·)).toList
  dsimp only
  split_ifs with hcurrent
  · refine ControlInv.onmessage hanswers ?_
    intro docId n outcome hcorrelation hwaiter houtcome hbroker
    cases about with
    | none =>
      -- no call has this docId, so none waits under it
      have hhead := (h.waiter docId).symm.trans hwaiter
      obtain ⟨call, hcall, hdoc, -⟩ := h.queued docId n (mem_of_head? hhead)
      refine absurd hcorrelation (hdoc ▸ hhonest call (mem_of_getElem? hcall))
    | some m =>
      obtain ⟨hm, -, -⟩ := hhonest
      obtain ⟨call, hcall, hsent⟩ := (any_eq_true _ _).mp hm
      simp only [Bool.and_eq_true, decide_eq_true_eq] at hsent
      obtain ⟨hwritten, hcorr⟩ := hsent
      obtain rfl : docId = call.docId := some.inj (hcorrelation.symm.trans hcorr)
      have hlate := htime hcurrent (by simp [houtcome, hbroker])
      rw [hcall, all_some, Bool.or_eq_true] at hlate
      have hopen : call.outcome = none := by
        rcases hlate with hopen | hidle
        · simpa using hopen
        · simp [show a.pendingControlFrames call.docId = some n from hwaiter] at hidle
      have hown := h.waits m call hcall (by simp [hwritten]) hopen
      obtain rfl : m = n := some.inj (hown.symm.trans hwaiter)
      simp [houtcome]
  · exact hanswers

end

theorem ControlInv.start (options : WebSocketOptions) : ControlInv (start options).control where
  waiter _ := rfl
  nodup _ := nodup_nil
  queued _ _ hm := by cases hm
  waits _ _ hcall := by cases hcall
  proper _ _ hcall := by cases hcall

theorem ControlInv.step {i : Input} (h : ControlInv a.control) (hi : a.Honest i ∧ a.InTime i)
    (hs : a.step i = some a') : ControlInv a'.control := by
  cases i with
  | connect did =>
    cases hs
    exact h.connect did
  | connectResumes n =>
    simp only [WebSocketMessagingAdapter.step, connectResumes] at hs
    split at hs
    · next did _ =>
      cases hs
      exact h.congr (aside_dial did).control
    · cases hs
  | disconnect =>
    cases hs
    exact h.disconnect.congr control_disconnect
  | rebindDeviceId newDeviceId =>
    cases hs
    unfold rebindDeviceId
    split
    · exact h
    · exact h.disconnect.congr control_disconnect
  | rebindResumes k =>
    simp only [WebSocketMessagingAdapter.step, rebindResumes] at hs
    split at hs
    · next did newDeviceId oldDeviceId _ =>
      cases hs
      exact ControlInv.connect (a := { a with deviceId := newDeviceId }) h did
    · obtain ⟨outcome, -, rfl⟩ := map_eq_some_iff.mp hs
      cases outcome <;> exact h
    · cases hs
  | setConnectTimeoutMs ms =>
    cases hs
    exact h.congr (aside_setConnectTimeoutMs ms).control
  | onMessage | unsubscribe =>
    cases hs
    exact h
  | handled k processed => exact h.congr (aside_handled hs).control
  | send envelope =>
    cases hs
    exact h.congr (control_send envelope)
  | sendTimeout n =>
    obtain ⟨request, -, rfl⟩ := map_eq_some_iff.mp hs
    exact h
  | sendControlFrame frame =>
    cases hs
    exact h.sendControlFrame frame
  | controlTimeout n =>
    obtain ⟨call, hcall, rfl⟩ := map_eq_some_iff.mp hs
    obtain ⟨hcall, htimer⟩ := filter_eq_some_iff.mp hcall
    obtain ⟨hwritten, hopen⟩ := (h.proper n call hcall).timed htimer
    exact h.settleControl (h.waits n call hcall hwritten hopen) nofun
  | turns s readyState =>
    obtain ⟨w, -, rfl⟩ := map_eq_some_iff.mp hs
    exact h
  | opened s =>
    obtain ⟨w, -, rfl⟩ := map_eq_some_iff.mp hs
    unfold onopen
    split_ifs <;> exact h
  | probed s =>
    obtain ⟨w, -, rfl⟩ := map_eq_some_iff.mp hs
    exact h.congr (aside_checkAndSend s w).control
  | message s message about =>
    obtain ⟨w, -, rfl⟩ := map_eq_some_iff.mp hs
    exact h.receive hi.1 hi.2
  | signed s k signature =>
    obtain ⟨w, -, hsigned⟩ := bind_eq_some_iff.mp hs
    exact h.congr (aside_signed hsigned).control
  | errored s =>
    obtain ⟨w, -, rfl⟩ := map_eq_some_iff.mp hs
    unfold onerror
    split_ifs <;> exact h
  | closed s =>
    obtain ⟨w, -, rfl⟩ := map_eq_some_iff.mp hs
    unfold onclose
    split_ifs <;> exact h
  | connectTimeout s =>
    obtain ⟨w, -, rfl⟩ := map_eq_some_iff.mp hs
    exact h.congr (aside_connectTimeout s).control
  | heartbeatTick s =>
    simp only [WebSocketMessagingAdapter.step] at hs
    split_ifs at hs
    cases hs
    exact h.congr (aside_heartbeatTick s).control
  | heartbeatTimeout s =>
    simp only [WebSocketMessagingAdapter.step] at hs
    split_ifs at hs
    cases hs
    exact h.congr (aside_killSocket s).control

/-! ## 5. Every run -/

/-- **Receipts are correlated to their own frame** in every run in which no late answer meets
    the waiter of a later frame. -/
theorem control_receipts_correlated (options : WebSocketOptions) (a : WebSocketMessagingAdapter)
    (h : Reaches step (fun a i => a.Honest i ∧ a.InTime i) (start options) a) :
    a.Correlated := by
  have hinv : ControlInv a.control :=
    h.invariant (P := fun a => ControlInv a.control) (ControlInv.start options)
      fun _ _ _ hinv hi hs => hinv.step hi hs
  intro n call hcall
  have hproper := hinv.proper n call hcall
  exact ⟨fun houtcome => hproper.answered _ houtcome rfl,
    fun code houtcome => hproper.answered _ houtcome rfl⟩

def rotateFrame : ClosedControlFrame := ⟨some "space", "space-rotate"⟩
def presentFrame : ClosedControlFrame := ⟨some "space", "present-capability"⟩
def spaceReceipt : BrokerMessage := .receipt ⟨"space", .delivered, none⟩

/-- A connection is made, on the socket `s`. -/
def registers (s : Nat) : List Input :=
  [.connect "did:alice", .turns s .opened, .opened s, .message s (.challenge (some "nonce")) none,
    .signed s 0 (.ok "signature"), .message s (.registered (some 1)) none]

theorem control_receipts_correlated_two : ∃ a,
    Reaches step (fun a i => a.Honest i ∧ a.InTime i) (start ⟨"device", true, 10000, 8000⟩) a ∧
    a.calls.map (·.outcome) = [some .delivered, some (.rejected "GENERATION_TAKEN")] ∧
    a.Correlated := by
  obtain ⟨a, hreach, htest⟩ := Reaches.of_exec step
    (fun a i => a.Honest i ∧ a.InTime i) (start ⟨"device", true, 10000, 8000⟩)
    ((registers 0).append [.sendControlFrame presentFrame, .sendControlFrame rotateFrame,
      .message 0 spaceReceipt (some 0),
      .message 0 (.error ⟨some "space", some "GENERATION_TAKEN", none⟩) (some 1)])
    (fun a => decide (a.calls.map (·.outcome) =
      [some .delivered, some (.rejected "GENERATION_TAKEN")]))
    (by decide +kernel)
  exact ⟨a, hreach, of_decide_eq_true htest, control_receipts_correlated _ a hreach⟩

/-- The receipt of a `present-capability` that has timed out resolves the `space-rotate` sent
    after it. -/
theorem late_receipt_taken : ∃ a,
    Reaches step Honest (start ⟨"device", true, 10000, 8000⟩) a ∧ ¬ a.Correlated := by
  obtain ⟨a, hreach, htest⟩ := Reaches.of_exec step Honest (start ⟨"device", true, 10000, 8000⟩)
    ((registers 0).append [.sendControlFrame presentFrame, .controlTimeout 0,
      .sendControlFrame rotateFrame, .message 0 spaceReceipt (some 0)])
    (fun a => a.calls[1]?.any (fun call : ControlCall => decide (call.outcome = some .delivered)) &&
      decide (a.answers = [(0, .delivered)]))
    (by decide +kernel)
  refine ⟨a, hreach, fun hcorrelated => ?_⟩
  rw [Bool.and_eq_true] at htest
  obtain ⟨call, hcall, hdelivered⟩ := (any_eq_true _ _).mp htest.1
  have hanswer := (hcorrelated 1 call hcall).1 (of_decide_eq_true hdelivered)
  rw [of_decide_eq_true htest.2] at hanswer
  simp at hanswer

end WebSocketMessagingAdapter

end WebOfTrust
