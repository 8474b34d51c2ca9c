/-
  **Which send a receipt settles.**

  The waiter of a send is kept under the id of its envelope.  A second send of an id takes the
  place of the first, whose timer then removes the waiter of the second.  In the runs in which
  no send meets another of its id that still waits, every waiter is its own send's, and a
  receipt or a routed error settles it (`send_receipts_kept`).
-/
import WebOfTrust.WebSocketControl

namespace WebOfTrust

open Machine List Option Function

def BrokerError.sendReceipt (error : BrokerError) : Option DeliveryReceipt :=
  (error.thid.filter (· ≠ "")).map fun id =>
    ⟨id, .failed, some (error.code.getD "write-path-rejected")⟩

/-- The receipt that a message of the broker is for a `send` of its id. -/
def BrokerMessage.sendReceipt (state : MessagingState) : BrokerMessage → Option DeliveryReceipt
  | .receipt r => some r
  | .error e => if state = .connecting then none else e.sendReceipt
  | .errorBody e => e.sendReceipt
  | _ => none

namespace WebSocketMessagingAdapter

/-! ## 1. Sends that wait -/

namespace Sending

variable (c : Sending)

def Waits (n : Nat) (request : SendRequest) : Prop :=
  c.sends[n]? = some request ∧ request.outcome = none

/-- No send of the id waits. -/
def Idle (id : String) : Prop :=
  ∀ request ∈ c.sends, request.id = id → request.outcome.isSome = true

def Keeps (c c' : Sending) : Prop := ∀ (n : Nat) (request : SendRequest),
  c.sends[n]? = some request → request.outcome.isSome = true → c'.sends[n]? = some request

structure Sound (c : Sending) : Prop where
  own : ∀ n request, c.Waits n request → c.waiters request.id = some n
  waits : ∀ id n, c.waiters id = some n → ∃ request, c.Waits n request ∧ request.id = id
  timed : ∀ request ∈ c.sends, request.timer = (request.outcome.isNone && decide (0 < c.timeoutMs))

def add (id : String) (outcome : Option (Except String DeliveryReceipt)) : Sending :=
  { c with
    sends := c.sends ++ [⟨id, outcome.isNone && decide (0 < c.timeoutMs), outcome⟩]
    waiters := if outcome.isNone then update c.waiters id (some c.sends.length)
      else c.waiters }

def settle (n : Nat) (id : String) (outcome : Except String DeliveryReceipt) : Sending :=
  { c with
    sends := c.sends.modify n (·.settle outcome)
    waiters := update c.waiters id none }

def answer (receipt : DeliveryReceipt) : Sending :=
  match c.waiters receipt.messageId with
  | some n => c.settle n receipt.messageId (.ok receipt)
  | none => c

end Sending

section

variable (a : WebSocketMessagingAdapter)

/-- The step calls `disconnect`. -/
def disconnects : Input → Bool
  | .disconnect => true
  | .connect did => decide (a.state = .connected ∧ a.connectedDid ≠ some did)
  | .rebindDeviceId _ => a.connectedDid.isSome
  | .rebindResumes k =>
    match a.rebinds[k]? with
    | some (.disconnecting did _ _) => decide (a.state = .connected ∧ a.connectedDid ≠ some did)
    | _ => false
  | _ => false

/-- No send of an id that still waits, no answer to a send that waits under the docId of a
    control frame that waits, and no `disconnect` while a send waits. -/
def Separate : Input → Prop
  | .send envelope => a.sending.Idle envelope.id
  | .message _ message _ => ∀ receipt ∈ message.sendReceipt a.state,
    a.sending.Idle receipt.messageId ∨ a.pendingControlFrames receipt.messageId = none
  | input => a.disconnects input = true → ∀ request ∈ a.sends, request.outcome.isSome = true

/-- What a step does to the sends, with the receipt that comes in it and the send whose timer it
    is.  Whatever waits still has its timer, if there is a timeout. -/
structure Sending.Kept (c : Sending) (receipt : Option DeliveryReceipt) (timer : Option Nat)
    (c' : Sending) : Prop where
  once : c.Keeps c'
  timed : ∀ n request, c'.Waits n request → request.timer = decide (0 < c'.timeoutMs)
  settles : ∀ r ∈ receipt, ¬ c.Idle r.messageId → ∃ n request, c.Waits n request ∧
    request.id = r.messageId ∧ c'.sends[n]? = some (request.settle (.ok r))
  others : ∀ n ∈ timer, ∀ id m, c.waiters id = some m → m ≠ n → c'.waiters id = some m

/-- The receipt that comes on the live socket. -/
def receiptOf : Input → Option DeliveryReceipt
  | .message s message _ => if a.ws = some s then message.sendReceipt a.state else none
  | _ => none

def Input.sendTimer : Input → Option Nat
  | .sendTimeout n => some n
  | _ => none

def SendsKept (input : Input) (a' : WebSocketMessagingAdapter) :
    Prop := a.sending.Kept (a.receiptOf input) input.sendTimer a'.sending

end

/-! ## 2. Each send has its waiter -/

variable {a a' : WebSocketMessagingAdapter} {input : Input} {c : Sending} {n : Nat} {id : String}
  {request : SendRequest} {outcome : Except String DeliveryReceipt}

namespace Sending

theorem Keeps.refl : c.Keeps c := fun _ _ h _ => h

theorem Idle.not_waits (h : c.Idle request.id) : ¬ c.Waits n request := by
  rintro ⟨hn, hopen⟩
  have hsettled := h request (mem_of_getElem? hn) rfl
  rw [hopen] at hsettled
  cases hsettled

section

variable (h : Sound c)
include h

theorem Sound.free (hidle : c.Idle id) : c.waiters id = none := by
  by_contra hsome
  obtain ⟨n, hn⟩ := ne_none_iff_exists'.mp hsome
  obtain ⟨request, hw, rfl⟩ := h.waits id n hn
  exact hidle.not_waits hw

theorem Sound.timed_of_waits (hw : c.Waits n request) :
    request.timer = decide (0 < c.timeoutMs) := by
  rw [h.timed request (mem_of_getElem? hw.1), hw.2]
  rfl

omit h in
theorem Keeps.add {outcome : Option (Except String DeliveryReceipt)} :
    c.Keeps (c.add id outcome) := fun _ _ hm _ =>
  (List.getElem?_append_left (List.getElem?_eq_some_iff.mp hm).1).trans hm

theorem Sound.add (hidle : c.Idle id)
    (outcome : Option (Except String DeliveryReceipt)) : Sound (c.add id outcome) := by
  have hkeep : ∀ m other, c.Waits m other → (c.add id outcome).Waits m other := fun m other ho =>
    ⟨(List.getElem?_append_left (List.getElem?_eq_some_iff.mp ho.1).1).trans ho.1, ho.2⟩
  refine ⟨fun m other ho => ?_, fun id' m hm => ?_, fun other ho => ?_⟩
  · rcases getElem?_concat_cases ho.1 with ⟨rfl, rfl⟩ | hold
    · obtain rfl : outcome = none := ho.2
      exact update_self _ _ _
    have hown := h.own m other ⟨hold, ho.2⟩
    have hne : other.id ≠ id := by
      rintro rfl
      exact hidle.not_waits ⟨hold, ho.2⟩
    rw [Sending.add]
    split_ifs
    · exact (update_of_ne hne _ _).trans hown
    · exact hown
  · rw [Sending.add] at hm
    split_ifs at hm with hnone
    · replace hm := (update_apply _ _ _ _).symm.trans hm
      split_ifs at hm with hid
      · cases hm
        exact ⟨_, ⟨getElem?_concat_length, isNone_iff_eq_none.mp hnone⟩, hid.symm⟩
      · obtain ⟨other, ho, hid'⟩ := h.waits id' m hm
        exact ⟨other, hkeep m other ho, hid'⟩
    · obtain ⟨other, ho, hid'⟩ := h.waits id' m hm
      exact ⟨other, hkeep m other ho, hid'⟩
  · rcases mem_append.mp ho with hold | hnew
    · exact h.timed other hold
    · rw [mem_singleton.mp hnew]
      rfl

structure Settled (c : Sending) (n : Nat) (request : SendRequest)
    (outcome : Except String DeliveryReceipt) (c' : Sending) : Prop where
  sound : Sound c'
  keeps : c.Keeps c'
  self : c'.sends[n]? = some (request.settle outcome)
  others : ∀ id m, c.waiters id = some m → m ≠ n → c'.waiters id = some m

theorem Sound.settle (hw : c.Waits n request) (outcome : Except String DeliveryReceipt) :
    Settled c n request outcome (c.settle n request.id outcome) := by
  have hother : ∀ m, m ≠ n → (c.settle n request.id outcome).sends[m]? = c.sends[m]? := by
    intro m hm
    simp [Sending.settle, Ne.symm hm]
  have hself : (c.settle n request.id outcome).sends[n]? = some (request.settle outcome) := by
    simp [Sending.settle, hw.1]
  have hopen : ¬ (request.settle outcome).outcome = none := by
    rw [SendRequest.settle, hw.2]
    nofun
  have hrest : ∀ id m, c.waiters id = some m → m ≠ n →
      (c.settle n request.id outcome).waiters id = some m := by
    intro id m hm hne
    refine (update_of_ne ?_ _ _).trans hm
    rintro rfl
    exact hne (some.inj (hm.symm.trans (h.own n request hw)))
  refine ⟨⟨fun m other ho => ?_, fun id m hm => ?_, fun other ho => ?_⟩, fun m other hm hs => ?_,
    hself, hrest⟩
  · have hne : m ≠ n := by
      rintro rfl
      exact hopen (some.inj (ho.1.symm.trans hself) ▸ ho.2)
    exact hrest _ m (h.own m other ⟨(hother m hne).symm.trans ho.1, ho.2⟩) hne
  · replace hm := (update_apply _ _ _ _).symm.trans hm
    split_ifs at hm with hid
    obtain ⟨other, ho, hid'⟩ := h.waits id m hm
    have hne : m ≠ n := by
      rintro rfl
      exact hid (some.inj (ho.1.symm.trans hw.1) ▸ hid'.symm)
    exact ⟨other, ⟨(hother m hne).trans ho.1, ho.2⟩, hid'⟩
  · obtain ⟨m, hm⟩ := mem_iff_getElem?.mp ho
    by_cases hne : m = n
    · subst hne
      cases hself.symm.trans hm
      cases hout : (request.settle outcome).outcome with
      | none => exact absurd hout hopen
      | some _ => rfl
    · exact h.timed other (mem_of_getElem? ((hother m hne).symm.trans hm))
  · refine (hother m ?_).trans hm
    rintro rfl
    cases hm.symm.trans hw.1
    rw [hw.2] at hs
    cases hs

theorem Sound.answer (receipt : DeliveryReceipt) :
    Sound (c.answer receipt) ∧ c.Keeps (c.answer receipt) ∧
      (¬ c.Idle receipt.messageId → ∃ n request, c.Waits n request ∧
        request.id = receipt.messageId ∧
        (c.answer receipt).sends[n]? = some (request.settle (.ok receipt))) := by
  unfold Sending.answer
  split
  · next n hn =>
    obtain ⟨request, hw, hid⟩ := h.waits _ n hn
    have hsettled := h.settle hw (.ok receipt)
    rw [hid] at hsettled
    exact ⟨hsettled.sound, hsettled.keeps, fun _ => ⟨n, request, hw, hid, hsettled.self⟩⟩
  next hnone =>
  refine ⟨h, .refl, fun hidle => absurd (fun request hr hid => ?_) hidle⟩
  by_contra hopen
  obtain ⟨n, hn⟩ := mem_iff_getElem?.mp hr
  have hown := h.own n request ⟨hn, by simpa using hopen⟩
  rw [hid, hnone] at hown
  cases hown

theorem Sound.drop (hall : ∀ request ∈ c.sends, request.outcome.isSome = true) :
    { c with waiters := fun _ => none } = c := by
  have hnone : c.waiters = fun _ => none :=
    funext fun id => h.free fun request hr _ => hall request hr
  rw [← hnone]

end

end Sending

/-! ## 3. What the handlers do to the sends -/

theorem sending_sendControlFrameNow {docId : DocId} {queue : List Nat} :
    (sendControlFrameNow docId queue a).sending = a.sending := by
  induction queue generalizing a with
  | nil => rfl
  | cons n rest ih =>
    unfold sendControlFrameNow
    split
    · split_ifs
      · rfl
      · exact ih
    · exact ih

theorem sending_sendControlFrame (frame : ClosedControlFrame) :
    (a.sendControlFrame frame).sending = a.sending := by
  unfold sendControlFrame
  split
  · rfl
  dsimp only
  split_ifs
  · rfl
  · exact sending_sendControlFrameNow
  · rfl

theorem sending_connect (h : a.sending.Sound) {did : Did}
    (hall : a.disconnects (.connect did) = true →
      ∀ request ∈ a.sends, request.outcome.isSome = true) :
    (a.connect did).sending = a.sending := by
  unfold WebSocketMessagingAdapter.connect
  split_ifs with hconnected hdid
  · rfl
  · exact sending_disconnect.trans (h.drop (hall (decide_eq_true ⟨hconnected, hdid⟩)))
  · exact (aside_dial did).sending

theorem sending_rebindResumes (h : a.sending.Sound) {k : Nat} (hs : a.rebindResumes k = some a')
    (hall : a.disconnects (.rebindResumes k) = true →
      ∀ request ∈ a.sends, request.outcome.isSome = true) : a'.sending = a.sending := by
  unfold rebindResumes at hs
  unfold disconnects at hall
  split at hs
  · next did newDeviceId _ hk =>
    cases hs
    simp only [hk] at hall
    exact @sending_connect { a with deviceId := newDeviceId } h did hall
  · obtain ⟨outcome, -, rfl⟩ := map_eq_some_iff.mp hs
    split <;> rfl
  · cases hs

theorem sending_settleControl {docId : DocId} {n : Nat} {outcome : ControlOutcome} :
    (a.settleControl docId n outcome).sending = a.sending :=
  sending_sendControlFrameNow

theorem sending_handleControlFrameError (s : Nat) (error : BrokerError)
    (envelope : IncomingMessage) :
    (a.handleControlFrameError s error envelope).sending = a.sending ∧ error.sendReceipt = none ∨
    ∃ receipt, error.sendReceipt = some receipt ∧
      ((a.handleControlFrameError s error envelope).sending = (a.settleSend receipt).sending ∨
        (a.handleControlFrameError s error envelope).sending = a.sending ∧
        a.pendingControlFrames receipt.messageId ≠ none) := by
  unfold handleControlFrameError BrokerError.sendReceipt
  split
  · next hthid =>
    rw [hthid]
    exact .inl ⟨(aside_handleIncomingMessage _ _).sending, rfl⟩
  next docId hthid =>
  rw [hthid]
  refine .inr ⟨_, rfl, ?_⟩
  split
  · next n hn => exact .inr ⟨sending_settleControl, by rw [hn]; nofun⟩
  · exact .inl ((aside_handleIncomingMessage _ _).sending)

theorem sending_onmessage (s : Nat) (w : Socket) (message : BrokerMessage) :
    (a.onmessage s w message).sending = a.sending ∧ message.sendReceipt a.state = none ∨
    ∃ receipt, message.sendReceipt a.state = some receipt ∧
      ((a.onmessage s w message).sending = (a.settleSend receipt).sending ∨
        (a.onmessage s w message).sending = a.sending ∧
        a.pendingControlFrames receipt.messageId ≠ none) := by
  cases message with
  | malformed | registered _ | pong => exact .inl ⟨rfl, rfl⟩
  | challenge nonce =>
    refine .inl ⟨?_, rfl⟩
    simp only [onmessage]
    split_ifs <;> rfl
  | message envelope => exact .inl ⟨(aside_handleIncomingMessage _ _).sending, rfl⟩
  | receipt receipt =>
    refine .inr ⟨receipt, rfl, ?_⟩
    simp only [onmessage, handleReceipt]
    split
    · next n hn =>
      split_ifs
      · exact .inr ⟨sending_settleControl, by simp [hn]⟩
      · exact .inl rfl
    · exact .inl rfl
  | error error =>
    simp only [onmessage, BrokerMessage.sendReceipt]
    split_ifs
    · exact .inl ⟨rfl, rfl⟩
    · exact sending_handleControlFrameError _ _ _
  | errorBody error => exact sending_handleControlFrameError _ _ _

theorem sending_settleSend (receipt : DeliveryReceipt) :
    (a.settleSend receipt).sending = a.sending.answer receipt := by
  unfold settleSend Sending.answer
  split <;> next hn => simp only [sending, hn, Sending.settle]

theorem sending_send (h : a.sending.Sound) {envelope : Envelope}
    (hidle : a.sending.Idle envelope.id) :
    ∃ outcome, (a.send envelope).sending = a.sending.add envelope.id outcome := by
  unfold send
  split
  · exact ⟨some _, rfl⟩
  split_ifs
  · exact ⟨some _, rfl⟩
  · exact ⟨some _, rfl⟩
  · exact ⟨none, rfl⟩
  · have hfree : a.pendingReceipts envelope.id = none := h.free hidle
    have hsame : update a.pendingReceipts envelope.id none = a.pendingReceipts := by
      rw [← hfree, update_eq_self]
    exact ⟨some (.error "WebSocket not open"), congrArg (Sending.mk _ · _) hsame⟩

/-! ## 4. Steps -/

theorem Sending.Sound.kept {c' : Sending} (h : c'.Sound) (hkeeps : c.Keeps c') :
    c'.Sound ∧ c.Kept none none c' :=
  ⟨h, hkeeps, fun _ _ => h.timed_of_waits, nofun, nofun⟩

section

variable (h : a.sending.Sound)
include h

theorem Sending.Sound.same (hsame : a'.sending = a.sending) :
    a'.sending.Sound ∧ a.sending.Kept none none a'.sending :=
  Sending.Sound.kept (hsame ▸ h) (hsame ▸ .refl)

theorem sendsKept_receive {s : Nat} {w : Socket} {message : BrokerMessage}
    {about : Option Nat} (hseparate : a.Separate (.message s message about)) :
    (a.receive s w message about).sending.Sound ∧
      SendsKept a (.message s message about) (a.receive s w message about) := by
  unfold SendsKept receiptOf receive
  dsimp only
  split_ifs with hws
  · generalize hb : ({ a with answers := _ } : WebSocketMessagingAdapter) = b
    have hsending : b.sending = a.sending := hb ▸ rfl
    have hstate : b.state = a.state := hb ▸ rfl
    have hcontrol : b.pendingControlFrames = a.pendingControlFrames := hb ▸ rfl
    have hmessage := @sending_onmessage b s w message
    rw [hsending, hstate, hcontrol] at hmessage
    rcases hmessage with ⟨heq, hnone⟩ | ⟨receipt, hreceipt, heq | ⟨heq, hwaiter⟩⟩
    · rw [heq, hnone]
      exact h.same rfl
    · rw [sending_settleSend, hsending] at heq
      obtain ⟨hsound, hkeeps, hsettles⟩ := h.answer receipt
      rw [heq, hreceipt]
      refine ⟨hsound, hkeeps, fun _ _ => hsound.timed_of_waits, ?_, nofun⟩
      rintro _ ⟨⟩
      exact hsettles
    · rw [heq, hreceipt]
      refine ⟨h, .refl, fun _ _ => h.timed_of_waits, ?_, nofun⟩
      rintro _ ⟨⟩ hidle
      rcases hseparate receipt hreceipt with hidle' | hnone
      · exact absurd hidle' hidle
      · exact absurd hnone hwaiter
  · exact h.same rfl

theorem sendsKept_timeout (hn : a.sends[n]? = some request) (htimer : request.timer = true) :
    (a.sendTimeout n request).sending.Sound ∧
      SendsKept a (.sendTimeout n) (a.sendTimeout n request) := by
  have hw : a.sending.Waits n request := by
    refine ⟨hn, ?_⟩
    have htimed := h.timed request (mem_of_getElem? hn)
    rw [htimer, eq_comm, Bool.and_eq_true] at htimed
    exact isNone_iff_eq_none.mp htimed.1
  have hsettled := h.settle hw
    (.error s!"Send timeout: no receipt from relay after {a.SEND_TIMEOUT_MS}ms")
  refine ⟨hsettled.sound, hsettled.keeps, fun _ _ => hsettled.sound.timed_of_waits, nofun, ?_⟩
  rintro _ ⟨⟩
  exact hsettled.others

theorem sendsKept_step (hseparate : a.Separate input)
    (hs : a.step input = some a') : a'.sending.Sound ∧ SendsKept a input a' := by
  have hdrop : (∀ request ∈ a.sends, request.outcome.isSome = true) →
      a.disconnect.sending = a.sending := fun hall => sending_disconnect.trans (h.drop hall)
  cases input with
  | send envelope =>
    cases hs
    obtain ⟨outcome, heq⟩ := sending_send h hseparate
    exact Sending.Sound.kept (heq ▸ h.add hseparate outcome) (heq ▸ .add)
  | sendTimeout n =>
    obtain ⟨request, hr, rfl⟩ := map_eq_some_iff.mp hs
    obtain ⟨hn, htimer⟩ := filter_eq_some_iff.mp hr
    exact sendsKept_timeout h hn htimer
  | message s message about =>
    obtain ⟨w, -, rfl⟩ := map_eq_some_iff.mp hs
    exact sendsKept_receive h hseparate
  | connect did =>
    cases hs
    exact h.same (sending_connect h hseparate)
  | rebindDeviceId newDeviceId =>
    cases hs
    refine h.same ?_
    unfold rebindDeviceId
    split
    · rfl
    · next hdid => exact hdrop (hseparate (by rw [disconnects, hdid]; rfl))
  | rebindResumes k => exact h.same (sending_rebindResumes h hs hseparate)
  | disconnect =>
    cases hs
    exact h.same (hdrop (hseparate rfl))
  | connectResumes n =>
    simp only [step, connectResumes] at hs
    split at hs
    · next did _ =>
      cases hs
      exact h.same (aside_dial did).sending
    · cases hs
  | setConnectTimeoutMs ms =>
    cases hs
    exact h.same (aside_setConnectTimeoutMs ms).sending
  | onMessage | unsubscribe =>
    cases hs
    exact h.same rfl
  | handled k processed => exact h.same (aside_handled hs).sending
  | sendControlFrame frame =>
    cases hs
    exact h.same (sending_sendControlFrame frame)
  | controlTimeout n =>
    obtain ⟨call, -, rfl⟩ := map_eq_some_iff.mp hs
    exact h.same sending_settleControl
  | turns s readyState =>
    obtain ⟨w, -, rfl⟩ := map_eq_some_iff.mp hs
    exact h.same rfl
  | opened s =>
    obtain ⟨w, -, rfl⟩ := map_eq_some_iff.mp hs
    refine h.same ?_
    unfold onopen
    split_ifs <;> rfl
  | errored s =>
    obtain ⟨w, -, rfl⟩ := map_eq_some_iff.mp hs
    refine h.same ?_
    unfold onerror
    split_ifs <;> rfl
  | closed s =>
    obtain ⟨w, -, rfl⟩ := map_eq_some_iff.mp hs
    refine h.same ?_
    unfold onclose
    split_ifs <;> rfl
  | probed s =>
    obtain ⟨w, -, rfl⟩ := map_eq_some_iff.mp hs
    exact h.same (aside_checkAndSend s w).sending
  | signed s k signature =>
    obtain ⟨w, -, hsigned⟩ := bind_eq_some_iff.mp hs
    exact h.same (aside_signed hsigned).sending
  | connectTimeout s =>
    obtain ⟨w, -, rfl⟩ := map_eq_some_iff.mp hs
    exact h.same (aside_connectTimeout s).sending
  | heartbeatTick s =>
    simp only [step] at hs
    split_ifs at hs
    cases hs
    exact h.same (aside_heartbeatTick s).sending
  | heartbeatTimeout s =>
    simp only [step] at hs
    split_ifs at hs
    cases hs
    exact h.same (aside_killSocket s).sending

end

theorem sound_start (options : WebSocketOptions) : (start options).sending.Sound where
  own _ _ h := nomatch h.1
  waits _ _ h := nomatch h
  timed _ h := nomatch h

/-- **No receipt is lost to another send**, as long as no send meets another of its id. -/
theorem send_receipts_kept (options : WebSocketOptions) (a a' : WebSocketMessagingAdapter)
    (input : Input) (h : Reaches step Separate (start options) a)
    (hseparate : a.Separate input) (hs : a.step input = some a') : SendsKept a input a' := by
  have hsound : a.sending.Sound := h.invariant (P := fun a => a.sending.Sound)
    (sound_start options) fun _ _ _ hsound hseparate hs => (sendsKept_step hsound hseparate hs).1
  exact (sendsKept_step hsound hseparate hs).2

/-- A connection is made, and an envelope is sent `count` times. -/
def sendAgain (count : Nat) : List Input :=
  .connect "did:key:zA" :: .turns 0 .opened :: .opened 0 :: .message 0 (.registered none) none ::
    replicate count (.send ⟨"m1", LOG_ENTRY_MESSAGE_TYPE, ""⟩)

def sendOptions : WebSocketOptions := ⟨"device", true, 10000, 8000⟩

instance (c : Sending) (id : String) : Decidable (c.Idle id) :=
  inferInstanceAs (Decidable (∀ request ∈ c.sends, _ → _))

instance (a : WebSocketMessagingAdapter) (input : Input) : Decidable (a.Separate input) := by
  unfold Separate
  split <;> infer_instance

def secondReceipt : Input := .message 0 (.receipt ⟨"m2", .delivered, none⟩) none

/-- Two sends wait; the first one times out, and the receipt of the second settles it. -/
theorem send_receipts_kept_receipt : ∃ a a', Reaches step Separate (start sendOptions) a ∧
    (a.sends.map fun request => request.outcome.isSome) = [true, false] ∧
      (a'.sends.map fun request => request.outcome.isSome) = [true, true] ∧
        SendsKept a secondReceipt a' := by
  obtain ⟨a, h, hp⟩ := Reaches.of_exec step Separate (start sendOptions)
    ((sendAgain 1).append [.send ⟨"m2", LOG_ENTRY_MESSAGE_TYPE, ""⟩, .sendTimeout 0])
    (fun a => decide ((a.sends.map fun request => request.outcome.isSome) = [true, false] ∧
        a.Separate secondReceipt) &&
      (a.step secondReceipt).any fun a' : WebSocketMessagingAdapter =>
        decide ((a'.sends.map fun request => request.outcome.isSome) = [true, true]))
    (by decide +kernel)
  rw [Bool.and_eq_true, decide_eq_true_iff] at hp
  obtain ⟨a', hs, hsettled⟩ := (any_eq_true _ _).mp hp.2
  exact ⟨a, a', h, hp.1.1, of_decide_eq_true hsettled,
    send_receipts_kept sendOptions a a' _ h hp.1.2 hs⟩

/-- The timer of the first of two sends of an id removes the waiter of the second. -/
theorem timeout_removes_another_waiter :
    ¬ ∀ (options : WebSocketOptions) (a a' : WebSocketMessagingAdapter) (input : Input),
      Reaches step (fun _ _ => True) (start options) a → a.step input = some a' →
      SendsKept a input a' := by
  intro hall
  obtain ⟨a, h, hp⟩ := Reaches.of_exec step (fun _ _ => True) (start sendOptions)
    (sendAgain 2) (fun a => decide (a.pendingReceipts "m1" = some 1) &&
      (a.step (.sendTimeout 0)).any fun a' => (a'.pendingReceipts "m1").isNone) (by decide)
  rw [Bool.and_eq_true, decide_eq_true_iff] at hp
  obtain ⟨a', hs, hgone⟩ := (any_eq_true _ _).mp hp.2
  have hkept := (hall sendOptions a a' _ h hs).others 0 rfl "m1" 1 hp.1 (by decide)
  rw [show a'.pendingReceipts "m1" = some 1 from hkept] at hgone
  cases hgone

end WebSocketMessagingAdapter

end WebOfTrust
