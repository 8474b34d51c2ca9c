/-
  **Late events of replaced sockets.**

  A socket that is not the current one changes nothing but its own record; the adapter is
  connected only while its current socket has been registered for the connected did; and the
  promise of a dial settles once.  These hold in every run but for two slips.
  `handleIncomingMessage` writes the `ack` of a message on the socket that is current when the
  callbacks return, not on that of the message.  And the `close` event settles no promise: a
  dial whose socket closes without an `error` is left to its timer, which may be disabled.
-/
import WebOfTrust.WebSocketControl

namespace WebOfTrust

open WebSocketMessagingAdapter MessagingState Machine Socket List Option

namespace WebSocketMessagingAdapter

/-! ## 1. The properties -/

def Input.socket : Input → Option Nat
  | .turns s _ | .opened s | .probed s | .message s _ _ | .signed s _ _ | .errored s | .closed s
  | .connectTimeout s | .heartbeatTick s | .heartbeatTimeout s => some s
  | _ => none

/-- Nothing has changed but the socket `s` and its heartbeat. -/
structure OnlySocket (s : Nat) (a a' : WebSocketMessagingAdapter) : Prop where
  adapter : a' = { a with
    sockets := a'.sockets
    heartbeatInterval := a'.heartbeatInterval
    heartbeatTimeout := a'.heartbeatTimeout
    answers := a'.answers }
  others : ∀ t, t ≠ s → a'.sockets[t]? = a.sockets[t]?
  heartbeat : a.heartbeatInterval ≠ some s →
    a'.heartbeatInterval = a.heartbeatInterval ∧ a'.heartbeatTimeout = a.heartbeatTimeout

section

variable (a : WebSocketMessagingAdapter)

/-- The adapter is connected on a socket that was registered for its did. -/
def ConnectedRegistered : Prop :=
  a.state = .connected → ∃ s w, a.ws = some s ∧ a.sockets[s]? = some w ∧ w.registered = true ∧
    a.connectedDid = some w.did

/-- The promise of the `connect()` has settled; or its code is still to dial; or an event or a
    timer of its socket settles it. -/
def Settles (n : Nat) : Prop :=
  (a.connectOutcome n).isSome = true ∨ (∃ did, a.connects[n]? = some (.disconnecting did)) ∨
    ∃ i a', Input.socket i = a.ws ∧ a.step i = some a' ∧ (a'.connectOutcome n).isSome = true

/-- The callbacks of a message that is acknowledged return only while its socket is current, or
    none is open; and a dial in flight loses its socket only while a timer can still settle
    it. -/
def Supervised : Input → Prop
  | .handled k processed =>
    (a.handling[k]?.all fun entry => entry.all fun message =>
      !(processed && message.2.acked) || decide (a.ws = some message.1) ||
        !(a.ws.any a.isOpen)) = true
  | .closed s =>
    a.ws = some s →
      (a.sockets[s]?.all fun w => w.settled.isSome || w.connectTimer || w.probing) = true
  | .setConnectTimeoutMs ms =>
    ms = 0 → (a.reconfigurePendingConnectTimeout.all fun s =>
      a.sockets[s]?.all fun w => w.probing || decide (w.readyState ≠ .closed)) = true
  | _ => True

instance (a : WebSocketMessagingAdapter) : (i : Input) → Decidable (a.Supervised i)
  | .handled _ _ => inferInstanceAs (Decidable (_ = _))
  | .closed _ => inferInstanceAs (Decidable (_ → _))
  | .setConnectTimeoutMs _ => inferInstanceAs (Decidable (_ → _))
  | .connect _ | .connectResumes _ | .disconnect | .rebindDeviceId _ | .rebindResumes _
  | .onMessage | .unsubscribe | .send _ | .sendTimeout _ | .sendControlFrame _
  | .controlTimeout _ | .turns _ _ | .opened _ | .probed _ | .message _ _ _ | .signed _ _ _
  | .errored _ | .connectTimeout _ | .heartbeatTick _ | .heartbeatTimeout _ =>
    inferInstanceAs (Decidable True)

/-! ## 2. The connection -/

structure Link where
  ws : Option Nat
  state : MessagingState
  connectedDid : Option Did
  pendingConnect : Option Nat
  reconfigure : Option Nat
  interval : Option Nat
  timeout : Option Nat
  sockets : List Socket
  connects : List ConnectCall

def link : Link :=
  ⟨a.ws, a.state, a.connectedDid, a.pendingConnect, a.reconfigurePendingConnectTimeout,
    a.heartbeatInterval, a.heartbeatTimeout, a.sockets, a.connects⟩

end

/-- How the record of a socket fits the adapter; `strict` in supervised runs. -/
structure Fits (strict : Bool) (ws pendingConnect : Option Nat) (state : MessagingState) (s : Nat)
    (w : Socket) : Prop where
  dialing : w.settled = none → ws = some s ∧ pendingConnect = some s
  alive : w.settled = none → w.readyState = .closed ∨ state = .connecting
  timer : w.connectTimer = true → w.settled = none
  moves : strict = true → w.settled = none →
    w.connectTimer = true ∨ w.probing = true ∨ w.readyState ≠ .closed

structure LinkCore (strict : Bool) (l : Link) : Prop where
  fits : ∀ s w, l.sockets[s]? = some w → Fits strict l.ws l.pendingConnect l.state s w
  reconfigure : ∀ s, l.reconfigure = some s → ∃ w, l.sockets[s]? = some w ∧ w.settled = none
  heartbeat : ∀ s, l.interval = some s → ∃ w, l.sockets[s]? = some w ∧ w.settled ≠ none
  timeout : ∀ s, l.timeout = some s → l.interval = some s
  dialed : ∀ n s : Nat, l.connects[n]? = some (.dialing s) → s < l.sockets.length

structure LinkInv (strict : Bool) (l : Link) : Prop extends LinkCore strict l where
  connected : l.state = .connected → ∃ s w, l.ws = some s ∧ l.sockets[s]? = some w ∧
    w.registered = true ∧ l.connectedDid = some w.did

def Link.Quiet (l : Link) : Prop :=
  ∀ (s : Nat) (w : Socket), l.sockets[s]? = some w → w.settled ≠ none

structure SameDial (w w' : Socket) : Prop where
  did : w'.did = w.did
  settled : w'.settled = w.settled
  registered : w.registered = true → w'.registered = true

structure Tame (w w' : Socket) : Prop extends SameDial w w' where
  connectTimer : w'.connectTimer = w.connectTimer
  probing : w.settled = none → w.readyState = .closed → w.probing = true → w'.probing = true
  closed : w'.readyState = .closed ↔ w.readyState = .closed

variable {strict : Bool} {l : Link} {a a' : WebSocketMessagingAdapter} {s t : Nat}
  {f : Socket → Socket} {w : Socket} {ws pending : Option Nat} {state : MessagingState}
  {sockets : List Socket} {n k : Nat} {i : Input}

theorem socket_of_modify (h : (sockets.modify s f)[t]? = some w) :
    (s = t ∧ ∃ old, sockets[t]? = some old ∧ w = f old) ∨ (s ≠ t ∧ sockets[t]? = some w) := by
  rw [getElem?_modify] at h
  obtain ⟨old, hold, heq⟩ := map_eq_some_iff.mp h
  split_ifs at heq with hs
  · exact .inl ⟨hs, old, hold, heq.symm⟩
  · exact .inr ⟨hs, heq ▸ hold⟩

theorem socket_modify (f : Socket → Socket) (s : Nat) (h : sockets[t]? = some w) :
    (sockets.modify s f)[t]? = some (if s = t then f w else w) := by
  simp [getElem?_modify, h]

theorem socket_modify_self (f : Socket → Socket) (h : sockets[s]? = some w) :
    (sockets.modify s f)[s]? = some (f w) := by
  simpa using socket_modify f s h

theorem tame_write (frame : ClientFrame) (w : Socket) : Tame w (w.write frame) := by
  unfold Socket.write
  split_ifs
  · exact ⟨⟨rfl, rfl, id⟩, rfl, fun _ _ => id, Iff.rfl⟩
  · exact ⟨⟨rfl, rfl, id⟩, rfl, fun _ _ => id, Iff.rfl⟩

theorem tame_close (w : Socket) : Tame w w.close :=
  ⟨⟨rfl, rfl, id⟩, rfl, fun _ _ => id, by simp [close]⟩

theorem Fits.tame {w' : Socket} (h : Fits strict ws pending state s w) (hf : Tame w w') :
    Fits strict ws pending state s w' where
  dialing hopen := h.dialing (hf.settled.symm.trans hopen)
  alive hopen := by
    rw [hf.closed]
    exact h.alive (hf.settled.symm.trans hopen)
  timer htimer := hf.settled.trans (h.timer (hf.connectTimer.symm.trans htimer))
  moves hstrict hopen := by
    have hopen' := hf.settled.symm.trans hopen
    rw [hf.connectTimer, Ne, hf.closed]
    by_cases hclosed : w.readyState = .closed
    · exact (h.moves hstrict hopen').imp_right (Or.imp_left (hf.probing hopen' hclosed))
    · exact .inr (.inr hclosed)

theorem LinkCore.modify (h : LinkCore strict a.link)
    (hf : ∀ w, a.sockets[s]? = some w → SameDial w (f w))
    (hfits : ∀ w, a.sockets[s]? = some w → Fits strict a.ws a.pendingConnect a.state s (f w)) :
    LinkCore strict (a.onSocket s f).link where
  fits t w hw := by
    rcases socket_of_modify hw with ⟨rfl, old, hold, rfl⟩ | ⟨-, hold⟩
    · exact hfits old hold
    · exact h.fits t w hold
  reconfigure t ht := by
    obtain ⟨w, hw, hopen⟩ := h.reconfigure t ht
    refine ⟨_, socket_modify f s hw, ?_⟩
    split_ifs with hs
    · exact (hf w (hs ▸ hw)).settled.trans hopen
    · exact hopen
  heartbeat t ht := by
    obtain ⟨w, hw, hset⟩ := h.heartbeat t ht
    refine ⟨_, socket_modify f s hw, ?_⟩
    split_ifs with hs
    · exact (hf w (hs ▸ hw)).settled ▸ hset
    · exact hset
  timeout := h.timeout
  dialed n t ht := by
    have := h.dialed n t ht
    simpa [link, onSocket] using this

theorem LinkInv.modify (h : LinkInv strict a.link)
    (hf : ∀ w, a.sockets[s]? = some w → SameDial w (f w))
    (hfits : ∀ w, a.sockets[s]? = some w → Fits strict a.ws a.pendingConnect a.state s (f w)) :
    LinkInv strict (a.onSocket s f).link where
  toLinkCore := h.toLinkCore.modify hf hfits
  connected hstate := by
    obtain ⟨t, w, hws, hw, hregistered, hdid⟩ := h.connected hstate
    refine ⟨t, _, hws, socket_modify f s hw, ?_⟩
    split_ifs with hs
    · have hsame := hf w (hs ▸ hw)
      exact ⟨hsame.registered hregistered, hdid.trans (congrArg some hsame.did.symm)⟩
    · exact ⟨hregistered, hdid⟩

theorem LinkCore.onSocket (h : LinkCore strict a.link)
    (hf : ∀ w, a.sockets[s]? = some w → Tame w (f w)) : LinkCore strict (a.onSocket s f).link :=
  h.modify (fun w hw => (hf w hw).toSameDial) fun w hw => (h.fits s w hw).tame (hf w hw)

theorem LinkInv.onSocket (h : LinkInv strict a.link)
    (hf : ∀ w, a.sockets[s]? = some w → Tame w (f w)) : LinkInv strict (a.onSocket s f).link :=
  h.modify (fun w hw => (hf w hw).toSameDial) fun w hw => (h.fits s w hw).tame (hf w hw)

theorem LinkInv.write (h : LinkInv strict a.link) (s : Nat) (frame : ClientFrame) :
    LinkInv strict (a.write s frame).link := h.onSocket fun w _ => tame_write frame w

theorem Link.Quiet.onSocket (hquiet : a.link.Quiet)
    (hf : ∀ w, a.sockets[s]? = some w → Tame w (f w)) : (a.onSocket s f).link.Quiet := by
  intro t w hw
  rcases socket_of_modify hw with ⟨rfl, old, hold, rfl⟩ | ⟨-, hold⟩
  · exact (hf old hold).settled ▸ hquiet s old hold
  · exact hquiet t w hold

/-! ## 3. Operations -/

theorem settled_settle (w : Socket) (outcome : Except String Unit) :
    (w.settle outcome).settled ≠ none := by
  simp [Socket.settle]

theorem Fits.of_settled (hsettled : w.settled ≠ none) (htimer : w.connectTimer = false) :
    Fits strict ws pending state s w where
  dialing hopen := absurd hopen hsettled
  alive hopen := absurd hopen hsettled
  timer h := by simp [htimer] at h
  moves _ hopen := absurd hopen hsettled

theorem Fits.connectTimer (h : Fits strict ws pending state s w) (hsettled : w.settled ≠ none) :
    w.connectTimer = false := by
  cases htimer : w.connectTimer with
  | false => rfl
  | true => exact absurd (h.timer htimer) hsettled

theorem LinkCore.settleConnect (h : LinkCore strict a.link) (s : Nat)
    (outcome : Except String Unit) : LinkCore strict (a.settleConnect s outcome).link where
  fits t w hw := by
    rcases socket_of_modify hw with ⟨rfl, old, hold, rfl⟩ | ⟨hne, hold⟩
    · exact Fits.of_settled (settled_settle old outcome) rfl
    have hfits := h.fits t w hold
    refine ⟨fun hopen => ⟨(hfits.dialing hopen).1, ?_⟩, hfits.alive, hfits.timer, hfits.moves⟩
    have hpending : a.pendingConnect = some t := (hfits.dialing hopen).2
    simp [link, WebSocketMessagingAdapter.settleConnect, hpending, Ne.symm hne]
  reconfigure t ht := by
    simp only [link, WebSocketMessagingAdapter.settleConnect] at ht
    split_ifs at ht with heq
    obtain ⟨w, hw, hopen⟩ := h.reconfigure t ht
    have hne : s ≠ t := fun hst => heq (ht.trans (congrArg some hst.symm))
    have hkept := socket_modify (·.settle outcome) s hw
    rw [if_neg hne] at hkept
    exact ⟨w, hkept, hopen⟩
  heartbeat t ht := by
    obtain ⟨w, hw, hset⟩ := h.heartbeat t ht
    refine ⟨_, socket_modify (·.settle outcome) s hw, ?_⟩
    split_ifs
    · exact settled_settle w outcome
    · exact hset
  timeout := h.timeout
  dialed n t ht := by
    have := h.dialed n t ht
    simpa [link, WebSocketMessagingAdapter.settleConnect, WebSocketMessagingAdapter.onSocket]
      using this

theorem LinkInv.settleConnect (h : LinkInv strict a.link) (s : Nat)
    (outcome : Except String Unit) : LinkInv strict (a.settleConnect s outcome).link where
  toLinkCore := h.toLinkCore.settleConnect s outcome
  connected hstate := by
    obtain ⟨t, w, hws, hw, hregistered, hdid⟩ := h.connected hstate
    refine ⟨t, _, hws, socket_modify (·.settle outcome) s hw, ?_⟩
    split_ifs <;> exact ⟨hregistered, hdid⟩

section

variable (h : LinkCore strict a.link)
include h

theorem LinkCore.reject (message : String) : LinkCore strict (a.rejectPendingConnect message).link ∧
      (a.rejectPendingConnect message).link.Quiet := by
  unfold rejectPendingConnect
  split
  · next s hpending =>
    refine ⟨h.settleConnect s _, fun t w hw hopen => ?_⟩
    rcases socket_of_modify hw with ⟨rfl, old, -, rfl⟩ | ⟨hne, hold⟩
    · exact settled_settle old _ hopen
    · have hown := ((h.fits t w hold).dialing hopen).2
      exact hne (some.inj (hpending.symm.trans hown))
  · next hpending =>
    refine ⟨h, fun t w hw hopen => ?_⟩
    have hown := ((h.fits t w hw).dialing hopen).2
    rw [show a.link.pendingConnect = none from hpending] at hown
    cases hown

theorem LinkCore.dropSocket (hquiet : a.link.Quiet) (hstate : state ≠ .connected) :
    LinkInv strict { a.dropSocket with state := state }.link ∧
      { a.dropSocket with state := state }.link.Quiet := by
  have hclosed : ∀ b : WebSocketMessagingAdapter, LinkCore strict b.link → b.link.Quiet →
      LinkInv strict { b with ws := none, state := state }.link := by
    intro b hb hq
    refine ⟨⟨fun t w hw => ?_, hb.reconfigure, hb.heartbeat, hb.timeout, hb.dialed⟩,
      fun hc => absurd hc hstate⟩
    exact Fits.of_settled (hq t w hw) ((hb.fits t w hw).connectTimer (hq t w hw))
  unfold WebSocketMessagingAdapter.dropSocket
  split
  · next s hws =>
    have hquiet' := hquiet.onSocket (s := s) fun w _ => tame_close w
    have hcore := h.onSocket (s := s) fun w _ => tame_close w
    exact ⟨hclosed (a.onSocket s close) hcore hquiet', hquiet'⟩
  next hws =>
  have heq : { a with state := state } = { a with ws := none, state := state } := by rw [← hws]
  rw [heq]
  exact ⟨hclosed a h hquiet, hquiet⟩

theorem LinkCore.stopHeartbeat : LinkCore strict a.stopHeartbeat.link where
  fits := h.fits
  reconfigure := h.reconfigure
  heartbeat _ ht := by cases ht
  timeout _ ht := by cases ht
  dialed := h.dialed

end

theorem LinkInv.stopHeartbeat (h : LinkInv strict a.link) : LinkInv strict a.stopHeartbeat.link :=
  ⟨h.toLinkCore.stopHeartbeat, h.connected⟩

theorem LinkInv.dial (h : LinkInv strict a.link) (did : Did) :
    LinkInv strict (a.dial did).link := by
  obtain ⟨hreject, hquiet⟩ := h.toLinkCore.reject "connect() superseded by a newer connect()"
  have hstate : disconnected ≠ .connected := nofun
  obtain ⟨hdrop, hquiet⟩ := hreject.dropSocket hquiet hstate
  unfold WebSocketMessagingAdapter.dial
  dsimp only
  generalize (a.rejectPendingConnect "connect() superseded by a newer connect()").dropSocket = b
    at hdrop hquiet ⊢
  have hold {t : Nat} {w x : Socket} (hw : b.sockets[t]? = some w) :
      (b.sockets ++ [x])[t]? = some w := by
    rw [List.getElem?_append_left (List.getElem?_eq_some_iff.mp hw).1]
    exact hw
  have hnew (x : Socket) : (b.sockets ++ [x])[b.sockets.length]? = some x :=
    getElem?_concat_length
  refine ⟨⟨?_, ?_, ?_, hdrop.timeout, ?_⟩, nofun⟩
  · intro t w hw
    rcases getElem?_concat_cases hw with ⟨rfl, rfl⟩ | hw
    · exact ⟨fun _ => ⟨rfl, rfl⟩, fun _ => .inr rfl, fun _ => rfl, fun _ _ => .inr (.inr nofun)⟩
    · exact Fits.of_settled (hquiet t w hw) ((hdrop.fits t w hw).connectTimer (hquiet t w hw))
  · rintro t ht
    cases ht
    exact ⟨_, hnew _, rfl⟩
  · intro t ht
    obtain ⟨w, hw, hset⟩ := hdrop.heartbeat t ht
    exact ⟨w, hold hw, hset⟩
  · intro n t ht
    have := hdrop.dialed n t ht
    simp only [link, length_append, length_singleton] at this ⊢
    omega

theorem LinkInv.addConnect (h : LinkInv strict l) (call : ConnectCall)
    (hcall : ∀ s, call = .dialing s → s < l.sockets.length) :
    LinkInv strict { l with connects := l.connects ++ [call] } where
  fits := h.fits
  reconfigure := h.reconfigure
  heartbeat := h.heartbeat
  timeout := h.timeout
  connected := h.connected
  dialed n s hn := by
    rcases getElem?_concat_cases hn with ⟨-, heq⟩ | hn
    · exact hcall s heq.symm
    · exact h.dialed n s hn

theorem length_sockets_rejectPendingConnect (message : String) :
    (a.rejectPendingConnect message).sockets.length = a.sockets.length := by
  unfold rejectPendingConnect
  split
  · exact length_modify ..
  · rfl

theorem length_sockets_dropSocket : a.dropSocket.sockets.length = a.sockets.length := by
  unfold dropSocket
  split
  · exact length_modify ..
  · rfl

theorem length_sockets_dial (did : Did) : (a.dial did).sockets.length = a.sockets.length + 1 := by
  simp [dial, length_sockets_dropSocket, length_sockets_rejectPendingConnect]

theorem connects_link : a.link.connects = a.connects := rfl

theorem connects_rejectPendingConnect (message : String) :
    (a.rejectPendingConnect message).connects = a.connects := by
  unfold rejectPendingConnect
  split <;> rfl

theorem connects_dropSocket : a.dropSocket.connects = a.connects := by
  unfold dropSocket
  split <;> rfl

theorem connects_dial (did : Did) : (a.dial did).connects = a.connects := by
  simp [dial, connects_dropSocket, connects_rejectPendingConnect]

theorem connects_disconnect : a.disconnect.connects = a.connects := by
  simp [disconnect, connects_dropSocket, connects_rejectPendingConnect, stopHeartbeat]

theorem LinkInv.disconnect (h : LinkInv strict a.link) : LinkInv strict a.disconnect.link := by
  have hcore : LinkCore strict { a.link with
      connectedDid := none, interval := none, timeout := none } :=
    ⟨h.fits, h.reconfigure, nofun, nofun, h.dialed⟩
  obtain ⟨hreject, hquiet⟩ := LinkCore.reject (a := { a.stopHeartbeat with
      connectedDid := none
      earlyMessageBuffer := []
      pendingReceipts := fun _ => none
      pendingControlFrames := fun _ => none
      controlFrameTails := fun _ => []
      calls := a.calls.map fun call : ControlCall =>
        call.settle (.failed (disconnectedMessage call)) }) hcore
    "WebSocket disconnected before registration"
  have hstate : disconnected ≠ .connected := nofun
  exact (hreject.dropSocket hquiet hstate).1

theorem LinkInv.connect (h : LinkInv strict a.link) (did : Did) :
    LinkInv strict (a.connect did).link := by
  unfold WebSocketMessagingAdapter.connect
  split_ifs
  · exact h.addConnect .returned nofun
  · have hadd := h.disconnect.addConnect (.disconnecting did) nofun
    rw [connects_link, connects_disconnect] at hadd
    exact hadd
  have hadd := (h.dial did).addConnect (.dialing a.sockets.length) (by
    rintro s hs
    cases hs
    simp [link, length_sockets_dial])
  rw [connects_link, connects_dial] at hadd
  exact hadd

theorem LinkInv.connectResumes (h : LinkInv strict a.link) (hs : a.connectResumes n = some a') :
    LinkInv strict a'.link := by
  unfold WebSocketMessagingAdapter.connectResumes at hs
  split at hs
  · next did _ =>
    cases hs
    have hdial := h.dial did
    refine ⟨⟨hdial.fits, hdial.reconfigure, hdial.heartbeat, hdial.timeout, fun m s hm => ?_⟩,
      hdial.connected⟩
    simp only [link, getElem?_set] at hm
    split_ifs at hm
    · cases hm
      simp [link, length_sockets_dial]
    have := h.dialed m s hm
    simp only [link, length_sockets_dial] at this ⊢
    omega
  · cases hs

theorem LinkInv.sendControlFrameNow {docId : DocId} {rest : List Nat}
    (h : LinkInv strict a.link) : LinkInv strict (sendControlFrameNow docId rest a).link := by
  induction rest generalizing a with
  | nil => exact h
  | cons n rest ih =>
    rw [sendControlFrameNow]
    split
    · split_ifs
      · exact h.write _ _
      · exact ih h
    · exact ih h

theorem LinkInv.settleControl (h : LinkInv strict a.link) (docId : DocId) (n : Nat)
    (outcome : ControlOutcome) : LinkInv strict (a.settleControl docId n outcome).link :=
  LinkInv.sendControlFrameNow h

theorem LinkInv.sendControlFrame (h : LinkInv strict a.link) (frame : ClosedControlFrame) :
    LinkInv strict (a.sendControlFrame frame).link := by
  unfold WebSocketMessagingAdapter.sendControlFrame
  split
  · exact h
  dsimp only
  split_ifs
  · exact h
  · exact LinkInv.sendControlFrameNow h
  · exact h

theorem link_settleSend (receipt : DeliveryReceipt) : (a.settleSend receipt).link = a.link := by
  unfold settleSend
  split <;> rfl

theorem link_handleIncomingMessage (s : Nat) (envelope : IncomingMessage) :
    (a.handleIncomingMessage s envelope).link = a.link := by
  unfold handleIncomingMessage
  split_ifs <;> rfl

section

variable (h : LinkInv strict a.link)
include h

theorem LinkInv.handleReceipt (receipt : DeliveryReceipt) :
    LinkInv strict (a.handleReceipt receipt).link := by
  unfold WebSocketMessagingAdapter.handleReceipt
  split
  · split_ifs
    · exact h.settleControl _ _ _
    · rwa [link_settleSend]
  · rwa [link_settleSend]

theorem LinkInv.handleControlFrameError (s : Nat)
    (error : BrokerError) (envelope : IncomingMessage) :
    LinkInv strict (a.handleControlFrameError s error envelope).link := by
  unfold WebSocketMessagingAdapter.handleControlFrameError
  split
  · rwa [link_handleIncomingMessage]
  split
  · exact h.settleControl _ _ _
  · rwa [link_handleIncomingMessage, link_settleSend]

theorem LinkInv.send (envelope : Envelope) : LinkInv strict (a.send envelope).link := by
  unfold WebSocketMessagingAdapter.send
  split
  · exact h
  split_ifs
  · exact h.write _ _
  · exact h
  · exact h.write _ _
  · exact h

theorem LinkInv.handled {processed : Bool}
    (hs : a.handled k processed = some a') : LinkInv strict a'.link := by
  unfold WebSocketMessagingAdapter.handled at hs
  split at hs
  · cases hs
    split
    · split_ifs
      · exact h.write _ _
      · exact h
    · exact h
  · cases hs

end

/-! ## 4. Events -/

section

variable (h : LinkCore strict a.link)
include h

theorem LinkCore.quiet_of_settled (hcurrent : a.ws = some s)
    (hw : a.sockets[s]? = some w) (hsettled : w.settled ≠ none) : a.link.Quiet := by
  intro t x hx hopen
  have hws := ((h.fits t x hx).dialing hopen).1
  obtain rfl : s = t := some.inj (hcurrent.symm.trans hws)
  obtain rfl : w = x := some.inj (hw.symm.trans hx)
  exact hsettled hopen

theorem LinkCore.quiet_settleConnect (hcurrent : a.ws = some s)
    (outcome : Except String Unit) : (a.settleConnect s outcome).link.Quiet := by
  intro t x hx hopen
  rcases socket_of_modify hx with ⟨rfl, old, -, rfl⟩ | ⟨hne, hold⟩
  · exact settled_settle old outcome hopen
  · have hws := ((h.fits t x hold).dialing hopen).1
    exact hne (some.inj (hcurrent.symm.trans hws))

theorem LinkCore.setState (hstate : state ≠ .connected)
    (hidle : ∀ (t : Nat) (w : Socket), a.sockets[t]? = some w → w.settled = none →
      w.readyState = .closed) : LinkInv strict { a with state := state }.link := by
  refine ⟨⟨fun t w hw => ?_, h.reconfigure, h.heartbeat, h.timeout, h.dialed⟩,
    fun hc => absurd hc hstate⟩
  have hfits := h.fits t w hw
  exact ⟨hfits.dialing, fun hopen => .inl (hidle t w hw hopen), hfits.timer, hfits.moves⟩

end

section

variable (h : LinkInv strict a.link)
include h

theorem LinkInv.failConnect (hcurrent : a.ws = some s)
    (message : String) : LinkInv strict (a.failConnect s message).link := by
  have hstate : error ≠ .connected := nofun
  have hquiet := h.toLinkCore.quiet_settleConnect hcurrent (.error message)
  exact (h.toLinkCore.settleConnect s _).setState hstate
    fun t w hw hopen => absurd hopen (hquiet t w hw)

theorem LinkInv.killSocket (hbeat : a.heartbeatInterval = some s) :
    LinkInv strict (a.killSocket s).link := by
  unfold WebSocketMessagingAdapter.killSocket
  split_ifs with hcurrent
  · obtain ⟨w, hw, hsettled⟩ := h.heartbeat s hbeat
    have hstate : disconnected ≠ .connected := nofun
    exact (h.toLinkCore.stopHeartbeat.dropSocket
      (h.toLinkCore.quiet_of_settled hcurrent hw hsettled) hstate).1
  · exact h

omit h in
theorem onSocket_comm {g : Socket → Socket} (hfg : ∀ w, f (g w) = g (f w)) (sockets : List Socket) :
    (sockets.modify s g).modify s f = (sockets.modify s f).modify s g := by
  apply ext_getElem?
  intro t
  simp only [getElem?_modify, Option.map_eq_map, Option.map_map]
  congr 1
  funext w
  simp only [Function.comp]
  split_ifs
  · exact hfg w
  · rfl

theorem LinkInv.onRegistered (hcurrent : a.ws = some s)
    (hw : a.sockets[s]? = some w) (peers : Option Nat) :
    LinkInv strict (a.onRegistered s w peers).link := by
  -- the promise may as well be settled first
  have hcore := h.toLinkCore.settleConnect s (.ok ())
  have hquiet := h.toLinkCore.quiet_settleConnect hcurrent (.ok ())
  have htame (x : Socket) : Tame x { x with registered := true } :=
    ⟨⟨rfl, rfl, fun _ => rfl⟩, rfl, fun _ _ => id, Iff.rfl⟩
  have hcore' := hcore.onSocket (s := s) fun x _ => htame x
  have hquiet' := hquiet.onSocket (s := s) fun x _ => htame x
  have hsocket := socket_modify_self (fun x => { x with registered := true })
    (socket_modify_self (·.settle (.ok ())) hw)
  have hswap := onSocket_comm (s := s) (f := (·.settle (.ok ())))
    (g := fun x => { x with registered := true }) (fun _ => rfl) a.sockets
  have hlink : LinkInv strict { ((a.settleConnect s (.ok ())).onSocket s fun x =>
      { x with registered := true }).link with
        connectedDid := some w.did
        state := .connected
        interval := some s
        timeout := none } := by
    refine ⟨⟨fun t x hx => ?_, hcore'.reconfigure, ?_, nofun, hcore'.dialed⟩, fun _ => ?_⟩
    · exact Fits.of_settled (hquiet' t x hx) ((hcore'.fits t x hx).connectTimer (hquiet' t x hx))
    · rintro t ht
      cases ht
      exact ⟨_, hsocket, hquiet' s _ hsocket⟩
    · exact ⟨s, _, hcurrent, hsocket, rfl, rfl⟩
  simp only [link, WebSocketMessagingAdapter.settleConnect,
    WebSocketMessagingAdapter.onSocket] at hlink
  rw [← hswap] at hlink
  exact hlink

theorem LinkInv.onmessage (hcurrent : a.ws = some s)
    (hw : a.sockets[s]? = some w) (message : BrokerMessage) :
    LinkInv strict (a.onmessage s w message).link := by
  cases message with
  | malformed => exact h
  | challenge nonce =>
    simp only [WebSocketMessagingAdapter.onmessage]
    split_ifs
    · exact h.onSocket fun _ _ => ⟨⟨rfl, rfl, id⟩, rfl, fun _ _ => id, Iff.rfl⟩
    · exact h
    · exact h.failConnect hcurrent _
  | registered peers => exact h.onRegistered hcurrent hw peers
  | message envelope =>
    rw [WebSocketMessagingAdapter.onmessage, link_handleIncomingMessage]
    exact h
  | receipt receipt => exact h.handleReceipt receipt
  | pong =>
    exact ⟨⟨h.fits, h.reconfigure, h.heartbeat, by rintro s ⟨⟩, h.dialed⟩, h.connected⟩
  | error error =>
    simp only [WebSocketMessagingAdapter.onmessage]
    split_ifs
    · exact h.failConnect hcurrent _
    · exact h.handleControlFrameError s error _
  | errorBody error => exact h.handleControlFrameError s error _

theorem LinkInv.receive (hw : a.sockets[s]? = some w)
    (message : BrokerMessage) (about : Option Nat) :
    LinkInv strict (a.receive s w message about).link := by
  unfold WebSocketMessagingAdapter.receive
  dsimp only
  split_ifs with hcurrent
  · have hnoted : LinkInv strict { a with
        answers := a.answers ++ (about.bind fun n => message.answer.map (n, ·)).toList }.link := h
    exact hnoted.onmessage hcurrent hw message
  · exact h

end

theorem LinkCore.settled_of_ne (h : LinkCore strict a.link) (hw : a.sockets[s]? = some w)
    (hne : a.ws ≠ some s) : w.settled ≠ none :=
  fun hopen => hne ((h.fits s w hw).dialing hopen).1

section

variable (h : LinkInv strict a.link)
include h

theorem LinkInv.onopen (w : Socket) : LinkInv strict (a.onopen s w).link := by
  unfold WebSocketMessagingAdapter.onopen
  split_ifs
  · exact h.write s _
  · exact h.onSocket fun _ _ => ⟨⟨rfl, rfl, id⟩, rfl, fun _ _ _ => rfl, Iff.rfl⟩
  · exact h

theorem LinkInv.checkAndSend (hw : a.sockets[s]? = some w) :
    LinkInv strict (a.checkAndSend s w).link := by
  have hdone (hsettled : w.settled = none → w.readyState ≠ .closed) :
      LinkInv strict (a.onSocket s fun w => { w with probing := false }).link := by
    refine h.onSocket fun x hx => ⟨⟨rfl, rfl, id⟩, rfl, fun hopen hclosed => ?_, Iff.rfl⟩
    obtain rfl : w = x := some.inj (hw.symm.trans hx)
    exact absurd hclosed (hsettled hopen)
  have hreject := (h.settleConnect s (.error "WebSocket closed before registration")).onSocket
    (s := s) (f := fun w => { w with probing := false }) (by
      intro x hx
      refine ⟨⟨rfl, rfl, id⟩, rfl, fun hopen => ?_, Iff.rfl⟩
      rcases socket_of_modify hx with ⟨-, old, -, rfl⟩ | ⟨hne, -⟩
      · exact absurd hopen (settled_settle old _)
      · exact absurd rfl hne)
  unfold WebSocketMessagingAdapter.checkAndSend
  dsimp only
  split_ifs with hcurrent
  · have hswap := onSocket_comm (s := s)
      (f := (·.settle (.error "WebSocket closed before registration")))
      (g := fun w => { w with probing := false }) (fun _ => rfl) a.sockets
    split
    · next hopen =>
      exact (hdone fun _ => by simp [hopen]).write s _
    · exact h
    simp only [link, WebSocketMessagingAdapter.settleConnect,
      WebSocketMessagingAdapter.onSocket] at hreject ⊢
    rw [hswap]
    exact hreject
  · exact hdone fun hopen => absurd hopen (h.toLinkCore.settled_of_ne hw hcurrent)

theorem LinkInv.signed {signature : Except String String}
    (hs : a.signed s w k signature = some a') : LinkInv strict a'.link := by
  have hdone : LinkInv strict
      (a.onSocket s fun w => { w with signing := w.signing.set k none }).link :=
    h.onSocket fun _ _ => ⟨⟨rfl, rfl, id⟩, rfl, fun _ _ => id, Iff.rfl⟩
  unfold WebSocketMessagingAdapter.signed at hs
  split at hs
  · cases hs
    split_ifs with hcurrent
    · split
      · exact hdone.write s _
      · exact hdone.failConnect hcurrent _
    · exact hdone
  · cases hs

theorem LinkInv.connectTimeout (s : Nat) : LinkInv strict (a.connectTimeout s).link := by
  unfold WebSocketMessagingAdapter.connectTimeout
  split_ifs with hcurrent
  · -- the promise may as well be rejected first
    have hstate : disconnected ≠ .connected := nofun
    have hdrop := ((h.toLinkCore.settleConnect s (.error "WebSocket connect timeout")).dropSocket
      (h.toLinkCore.quiet_settleConnect hcurrent _) hstate).1
    have hswap := onSocket_comm (s := s) (f := (·.settle (.error "WebSocket connect timeout")))
      (g := close) (fun _ => rfl) a.sockets
    simp only [link, WebSocketMessagingAdapter.dropSocket, WebSocketMessagingAdapter.settleConnect,
      WebSocketMessagingAdapter.onSocket, hcurrent] at hdrop ⊢
    rw [hswap]
    exact hdrop
  · exact h.settleConnect s _

theorem LinkInv.heartbeatTick (hbeat : a.heartbeatInterval = some s) : LinkInv strict
    (a.heartbeatTick s).link := by
  unfold WebSocketMessagingAdapter.heartbeatTick
  split_ifs
  · exact h.stopHeartbeat
  · exact h.killSocket hbeat
  · exact h
  · have hping := h.write s .ping
    exact ⟨⟨hping.fits, hping.reconfigure, hping.heartbeat, fun t ht => ht ▸ hbeat, hping.dialed⟩,
      hping.connected⟩

theorem LinkInv.closed (hw : a.sockets[s]? = some w)
    (hi : strict = true → a.Supervised (.closed s)) :
    LinkInv strict ((a.onSocket s fun w => { w with readyState := .closed }).onclose s).link := by
  have hclosed : LinkInv strict (a.onSocket s fun w => { w with readyState := .closed }).link := by
    refine h.modify (fun _ _ => ⟨rfl, rfl, id⟩) fun x hx => ?_
    obtain rfl : w = x := some.inj (hw.symm.trans hx)
    have hfits := h.fits s w hw
    refine ⟨hfits.dialing, fun _ => .inl rfl, hfits.timer, fun hstrict hopen => ?_⟩
    have hsupervised := hi hstrict (hfits.dialing hopen).1
    rw [hw, all_some, hopen] at hsupervised
    simp only [isSome_none, Bool.false_or, Bool.or_eq_true] at hsupervised
    exact hsupervised.imp_right .inl
  unfold onclose
  split_ifs with hcurrent
  · have hstate : disconnected ≠ .connected := nofun
    refine hclosed.toLinkCore.stopHeartbeat.setState hstate fun t x hx hopen => ?_
    -- what is still in flight is the dial of the socket that has closed
    have hws := ((hclosed.fits t x hx).dialing hopen).1
    obtain rfl : s = t := some.inj (hcurrent.symm.trans hws)
    rcases socket_of_modify hx with ⟨-, old, -, rfl⟩ | ⟨hne, -⟩
    · rfl
    · exact absurd rfl hne
  · exact hclosed

theorem LinkInv.setConnectTimeoutMs (ms : Nat)
    (hi : strict = true → a.Supervised (.setConnectTimeoutMs ms)) :
    LinkInv strict (a.setConnectTimeoutMs ms).link := by
  unfold WebSocketMessagingAdapter.setConnectTimeoutMs
  dsimp only
  split
  · next s hreconfigure =>
    obtain ⟨w, hw, hopen⟩ := h.reconfigure s hreconfigure
    refine LinkInv.modify (a := { a with CONNECT_TIMEOUT_MS := ms }) h
      (fun _ _ => ⟨rfl, rfl, id⟩) fun x hx => ?_
    obtain rfl : w = x := some.inj (hw.symm.trans hx)
    have hfits := h.fits s w hw
    refine ⟨hfits.dialing, hfits.alive, fun _ => hopen, fun hstrict _ => ?_⟩
    rcases Nat.eq_zero_or_pos ms with rfl | hpos
    · have hsupervised := hi hstrict rfl
      rw [hreconfigure, all_some, show a.sockets[s]? = some w from hw, all_some,
        Bool.or_eq_true, decide_eq_true_eq] at hsupervised
      exact .inr hsupervised
    · exact .inl (decide_eq_true hpos)
  · exact h

end

/-! ## 5. A step, and every run -/

theorem LinkInv.start (options : WebSocketOptions) : LinkInv strict (start options).link :=
  ⟨⟨nofun, nofun, nofun, nofun, nofun⟩, nofun⟩

theorem LinkInv.step (h : LinkInv strict a.link) (hi : strict = true → a.Supervised i)
    (hs : a.step i = some a') : LinkInv strict a'.link := by
  cases i with
  | connect did =>
    cases hs
    exact h.connect did
  | connectResumes n => exact h.connectResumes hs
  | disconnect =>
    cases hs
    exact h.disconnect
  | rebindDeviceId newDeviceId =>
    cases hs
    unfold rebindDeviceId
    split
    · exact h
    · exact h.disconnect
  | rebindResumes k =>
    simp only [step, rebindResumes] at hs
    split at hs
    · next did newDeviceId oldDeviceId _ =>
      cases hs
      exact LinkInv.connect (a := { a with deviceId := newDeviceId }) h did
    · obtain ⟨outcome, -, rfl⟩ := map_eq_some_iff.mp hs
      cases outcome <;> exact h
    · cases hs
  | setConnectTimeoutMs ms =>
    cases hs
    exact h.setConnectTimeoutMs ms hi
  | onMessage | unsubscribe =>
    cases hs
    exact h
  | handled k processed => exact h.handled hs
  | send envelope =>
    cases hs
    exact h.send envelope
  | sendTimeout n =>
    obtain ⟨request, -, rfl⟩ := map_eq_some_iff.mp hs
    exact h
  | sendControlFrame frame =>
    cases hs
    exact h.sendControlFrame frame
  | controlTimeout n =>
    obtain ⟨call, -, rfl⟩ := map_eq_some_iff.mp hs
    exact h.settleControl _ _ _
  | turns s readyState =>
    obtain ⟨w, hw, rfl⟩ := map_eq_some_iff.mp hs
    obtain ⟨hw, hnext⟩ := filter_eq_some_iff.mp hw
    refine h.onSocket fun x hx => ⟨⟨rfl, rfl, id⟩, rfl, fun _ _ => id, ?_⟩
    obtain rfl : w = x := some.inj (hw.symm.trans hx)
    cases hready : w.readyState <;> cases readyState <;> simp_all [ReadyState.next]
  | opened s =>
    obtain ⟨w, -, rfl⟩ := map_eq_some_iff.mp hs
    exact h.onopen w
  | probed s =>
    obtain ⟨w, hw, rfl⟩ := map_eq_some_iff.mp hs
    exact h.checkAndSend (filter_eq_some_iff.mp hw).1
  | message s message about =>
    obtain ⟨w, hw, rfl⟩ := map_eq_some_iff.mp hs
    exact h.receive (filter_eq_some_iff.mp hw).1 message about
  | signed s k signature =>
    obtain ⟨w, -, hsigned⟩ := bind_eq_some_iff.mp hs
    exact h.signed hsigned
  | errored s =>
    obtain ⟨w, -, rfl⟩ := map_eq_some_iff.mp hs
    unfold onerror
    split_ifs with hfails
    · exact h.failConnect hfails.1 _
    · exact h
  | closed s =>
    obtain ⟨w, hw, rfl⟩ := map_eq_some_iff.mp hs
    exact h.closed (filter_eq_some_iff.mp hw).1 hi
  | connectTimeout s =>
    obtain ⟨w, -, rfl⟩ := map_eq_some_iff.mp hs
    exact h.connectTimeout s
  | heartbeatTick s =>
    simp only [step] at hs
    split_ifs at hs with hbeat
    cases hs
    exact h.heartbeatTick hbeat
  | heartbeatTimeout s =>
    simp only [step] at hs
    split_ifs at hs with hbeat
    cases hs
    exact h.killSocket (h.timeout s hbeat)

/-! ## 6. A promise settles once -/

/-- The sockets and the calls of `connect`. -/
structure Dials where
  sockets : List Socket
  connects : List ConnectCall

def dials (a : WebSocketMessagingAdapter) : Dials := ⟨a.sockets, a.connects⟩

theorem dials_of_link (h : a'.link = a.link) : a'.dials = a.dials :=
  congrArg (fun l : Link => Dials.mk l.sockets l.connects) h

structure Grows (l l' : Dials) : Prop where
  sockets : ∀ (s : Nat) (w : Socket) outcome, l.sockets[s]? = some w →
    w.settled = some outcome → ∃ w', l'.sockets[s]? = some w' ∧ w'.settled = some outcome
  connects : ∀ (n : Nat) (call : ConnectCall), l.connects[n]? = some call →
    (∀ did, call ≠ .disconnecting did) → l'.connects[n]? = some call

theorem Grows.refl (l : Dials) : Grows l l := ⟨fun _ w _ hw ho => ⟨w, hw, ho⟩, fun _ _ h _ => h⟩

theorem Grows.trans {l₁ l₂ l₃ : Dials} (h : Grows l₁ l₂) (h' : Grows l₂ l₃) : Grows l₁ l₃ where
  sockets s w o hw ho := by
    obtain ⟨w', hw', ho'⟩ := h.sockets s w o hw ho
    exact h'.sockets s w' o hw' ho'
  connects n call hn hcall := h'.connects n call (h.connects n call hn hcall) hcall

section

variable (a : WebSocketMessagingAdapter)

theorem grows_onSocket (s : Nat)
    (hf : ∀ w outcome, w.settled = some outcome → (f w).settled = some outcome) :
    Grows a.dials (a.onSocket s f).dials where
  sockets t w o hw ho := by
    refine ⟨_, socket_modify f s hw, ?_⟩
    split_ifs
    · exact hf w o ho
    · exact ho
  connects _ _ hn _ := hn

theorem grows_write (s : Nat) (frame : ClientFrame) : Grows a.dials (a.write s frame).dials :=
  grows_onSocket a s fun w _ ho => (tame_write frame w).settled.trans ho

theorem grows_settleConnect (s : Nat)
    (outcome : Except String Unit) : Grows a.dials (a.settleConnect s outcome).dials :=
  grows_onSocket a s fun w o ho => by simp [Socket.settle, ho]

theorem grows_rejectPendingConnect (message : String) :
    Grows a.dials (a.rejectPendingConnect message).dials := by
  unfold rejectPendingConnect
  split
  · exact grows_settleConnect a _ _
  · exact .refl _

theorem grows_dropSocket : Grows a.dials a.dropSocket.dials := by
  unfold dropSocket
  split
  · next s _ =>
    exact grows_onSocket a s fun w _ ho => (tame_close w).settled.trans ho
  · exact .refl _

theorem grows_dial (did : Did) : Grows a.dials (a.dial did).dials := by
  refine (grows_rejectPendingConnect a "connect() superseded by a newer connect()").trans ?_
  refine (grows_dropSocket _).trans ⟨fun s w o hw ho => ⟨w, ?_, ho⟩, fun _ _ hn _ => hn⟩
  exact (List.getElem?_append_left (List.getElem?_eq_some_iff.mp hw).1).trans hw

theorem grows_disconnect : Grows a.dials a.disconnect.dials := by
  have hdrop {b : WebSocketMessagingAdapter} (message : String) (hb : Grows a.dials b.dials) :
      Grows a.dials (b.rejectPendingConnect message).dropSocket.dials :=
    hb.trans ((grows_rejectPendingConnect b message).trans (grows_dropSocket _))
  exact hdrop "WebSocket disconnected before registration" (.refl a.dials)

theorem grows_connect (did : Did) : Grows a.dials (a.connect did).dials := by
  have hadd {b : WebSocketMessagingAdapter} (hb : Grows a.dials b.dials) (call : ConnectCall) :
      Grows a.dials { b with connects := a.connects ++ [call] }.dials := by
    refine ⟨hb.sockets, fun n old hn _ => ?_⟩
    exact (List.getElem?_append_left (List.getElem?_eq_some_iff.mp hn).1).trans hn
  unfold connect
  split_ifs
  · exact hadd (.refl _) _
  · exact hadd (grows_disconnect a) _
  · exact hadd (grows_dial a did) _

end

theorem grows_connectResumes (hs : a.connectResumes n = some a') : Grows a.dials a'.dials := by
  unfold connectResumes at hs
  split at hs
  · next did hn =>
    cases hs
    refine ⟨(grows_dial a did).sockets, fun m call hm hcall => ?_⟩
    simp only [dials, getElem?_set] at hm ⊢
    split_ifs with hnm
    · subst hnm
      exact absurd (some.inj (hm.symm.trans hn)) (hcall did)
    · subst hnm
      exact absurd (some.inj (hm.symm.trans hn)) (hcall did)
    · exact hm
  · cases hs

theorem grows_sendControlFrameNow {l : Dials} {docId : DocId} {rest : List Nat}
    (h : Grows l a.dials) : Grows l (sendControlFrameNow docId rest a).dials := by
  induction rest generalizing a with
  | nil => exact h
  | cons n rest ih =>
    rw [sendControlFrameNow]
    split
    · split_ifs
      · exact h.trans (grows_write a _ _)
      · exact ih h
    · exact ih h

section

variable (a : WebSocketMessagingAdapter)

theorem grows_settleControl (docId : DocId) (n : Nat)
    (outcome : ControlOutcome) : Grows a.dials (a.settleControl docId n outcome).dials :=
  grows_sendControlFrameNow (.refl a.dials)

theorem grows_killSocket (s : Nat) : Grows a.dials (a.killSocket s).dials := by
  unfold killSocket
  split_ifs
  · exact grows_dropSocket a.stopHeartbeat
  · exact .refl _

theorem grows_onmessage (s : Nat) (w : Socket)
    (message : BrokerMessage) : Grows a.dials (a.onmessage s w message).dials := by
  have herror (error : BrokerError) (envelope : IncomingMessage) :
      Grows a.dials (a.handleControlFrameError s error envelope).dials := by
    unfold handleControlFrameError
    split
    · rw [dials_of_link (link_handleIncomingMessage _ _)]
      exact .refl _
    split
    · exact grows_settleControl a _ _ _
    · rw [dials_of_link (link_handleIncomingMessage _ _), dials_of_link (link_settleSend _)]
      exact .refl _
  cases message with
  | malformed | pong => exact .refl _
  | challenge nonce =>
    simp only [onmessage]
    split_ifs
    · exact grows_onSocket a s fun _ _ => id
    · exact .refl _
    · exact grows_settleConnect { a with state := .error } s _
  | registered peers =>
    exact (grows_onSocket a s (f := fun w => { w with registered := true }) fun _ _ => id).trans
      ((grows_settleConnect (startHeartbeat { a.onSocket s fun w =>
        { w with registered := true } with
          connectedDid := some w.did
          peerCount := peers.getD 0
          state := .connected } s) s (.ok ())))
  | message envelope =>
    rw [onmessage, dials_of_link (link_handleIncomingMessage _ _)]
    exact .refl _
  | receipt receipt =>
    simp only [onmessage, handleReceipt]
    split
    · split_ifs
      · exact grows_settleControl a _ _ _
      · rw [dials_of_link (link_settleSend _)]
        exact .refl _
    · rw [dials_of_link (link_settleSend _)]
      exact .refl _
  | error error =>
    simp only [onmessage]
    split_ifs
    · exact grows_settleConnect { a with state := .error } s _
    · exact herror error _
  | errorBody error => exact herror error _

end

theorem grows_step (hs : a.step i = some a') : Grows a.dials a'.dials := by
  cases i with
  | connect did =>
    cases hs
    exact grows_connect a did
  | connectResumes n => exact grows_connectResumes hs
  | disconnect =>
    cases hs
    exact grows_disconnect a
  | rebindDeviceId newDeviceId =>
    cases hs
    unfold rebindDeviceId
    split
    · exact .refl _
    · exact grows_disconnect a
  | rebindResumes k =>
    simp only [step, rebindResumes] at hs
    split at hs
    · next did newDeviceId oldDeviceId _ =>
      cases hs
      exact grows_connect { a with deviceId := newDeviceId } did
    · obtain ⟨outcome, -, rfl⟩ := map_eq_some_iff.mp hs
      cases outcome <;> exact .refl _
    · cases hs
  | setConnectTimeoutMs ms =>
    cases hs
    unfold setConnectTimeoutMs
    dsimp only
    split
    · exact grows_onSocket a _ fun _ _ => id
    · exact .refl _
  | onMessage | unsubscribe =>
    cases hs
    exact .refl _
  | handled k processed =>
    simp only [step, handled] at hs
    split at hs
    · cases hs
      split
      · split_ifs
        · exact grows_write a _ _
        · exact .refl _
      · exact .refl _
    · cases hs
  | send envelope =>
    cases hs
    unfold send
    split
    · exact .refl _
    split_ifs
    · exact grows_write a _ _
    · exact .refl _
    · exact grows_write a _ _
    · exact .refl _
  | sendTimeout n =>
    obtain ⟨request, -, rfl⟩ := map_eq_some_iff.mp hs
    exact .refl _
  | sendControlFrame frame =>
    cases hs
    unfold sendControlFrame
    split
    · exact .refl _
    dsimp only
    split_ifs
    · exact .refl _
    · exact grows_sendControlFrameNow (.refl a.dials)
    · exact .refl _
  | controlTimeout n =>
    obtain ⟨call, -, rfl⟩ := map_eq_some_iff.mp hs
    exact grows_settleControl a _ _ _
  | turns s readyState =>
    obtain ⟨w, -, rfl⟩ := map_eq_some_iff.mp hs
    exact grows_onSocket a s fun _ _ => id
  | opened s =>
    obtain ⟨w, -, rfl⟩ := map_eq_some_iff.mp hs
    unfold onopen
    split_ifs
    · exact grows_write a s _
    · exact grows_onSocket a s fun _ _ => id
    · exact .refl _
  | probed s =>
    obtain ⟨w, -, rfl⟩ := map_eq_some_iff.mp hs
    have hdone : Grows a.dials (a.onSocket s fun w => { w with probing := false }).dials :=
      grows_onSocket a s fun _ _ => id
    unfold checkAndSend
    dsimp only
    split_ifs
    · split
      · exact hdone.trans (grows_write _ s _)
      · exact .refl _
      · exact hdone.trans (grows_settleConnect _ s _)
    · exact hdone
  | message s message about =>
    obtain ⟨w, -, rfl⟩ := map_eq_some_iff.mp hs
    unfold receive
    dsimp only
    split_ifs
    · exact grows_onmessage { a with
        answers := a.answers ++ (about.bind fun n => message.answer.map (n, ·)).toList } s w message
    · exact .refl _
  | signed s k signature =>
    obtain ⟨w, -, hsigned⟩ := bind_eq_some_iff.mp hs
    have hdone : Grows a.dials
        (a.onSocket s fun w => { w with signing := w.signing.set k none }).dials :=
      grows_onSocket a s fun _ _ => id
    unfold signed at hsigned
    split at hsigned
    · cases hsigned
      split_ifs
      · split
        · exact hdone.trans (grows_write _ s _)
        · exact hdone.trans (grows_settleConnect _ s _)
      · exact hdone
    · cases hsigned
  | errored s =>
    obtain ⟨w, -, rfl⟩ := map_eq_some_iff.mp hs
    unfold onerror
    split_ifs
    · exact grows_settleConnect a s _
    · exact .refl _
  | closed s =>
    obtain ⟨w, -, rfl⟩ := map_eq_some_iff.mp hs
    unfold onclose
    split_ifs <;> exact grows_onSocket a s fun _ _ => id
  | connectTimeout s =>
    obtain ⟨w, -, rfl⟩ := map_eq_some_iff.mp hs
    unfold connectTimeout
    split_ifs
    · exact (grows_dropSocket a).trans (grows_settleConnect a.dropSocket s _)
    · exact grows_settleConnect a s _
  | heartbeatTick s =>
    simp only [step] at hs
    split_ifs at hs
    cases hs
    unfold heartbeatTick
    split_ifs
    · exact .refl _
    · exact grows_killSocket a s
    · exact .refl _
    · exact grows_write a s _
  | heartbeatTimeout s =>
    simp only [step] at hs
    split_ifs at hs
    cases hs
    exact grows_killSocket a s

theorem connectOutcome_step (hs : a.step i = some a') {outcome : Except String Unit}
    (h : a.connectOutcome n = some outcome) : a'.connectOutcome n = some outcome := by
  have hgrows := grows_step hs
  unfold connectOutcome at h ⊢
  split at h
  · next hn =>
    rw [show a'.connects[n]? = some .returned from hgrows.connects n _ hn nofun]
    exact h
  · next s hn =>
    obtain ⟨w, hw, hsettled⟩ := bind_eq_some_iff.mp h
    obtain ⟨w', hw', hsettled'⟩ := hgrows.sockets s w outcome hw hsettled
    rw [show a'.connects[n]? = some (.dialing s) from hgrows.connects n _ hn nofun]
    exact bind_eq_some_iff.mpr ⟨w', hw', hsettled'⟩
  · cases h

/-! ## 7. A socket that is not the current one -/

theorem OnlySocket.refl (s : Nat) (a : WebSocketMessagingAdapter) : OnlySocket s a a :=
  ⟨rfl, fun _ _ => rfl, fun _ => ⟨rfl, rfl⟩⟩

theorem OnlySocket.onSocket (s : Nat) (a : WebSocketMessagingAdapter) (f : Socket → Socket) :
    OnlySocket s a (a.onSocket s f) :=
  ⟨rfl, fun t ht => by simp [WebSocketMessagingAdapter.onSocket, Ne.symm ht],
    fun _ => ⟨rfl, rfl⟩⟩

/-- **An event of a socket that is not the current one** changes only that socket. -/
theorem onlySocket_of_stale (h : LinkInv strict a.link) (hi : i.socket = some s)
    (hstale : a.ws ≠ some s) (hs : a.step i = some a') : OnlySocket s a a' := by
  cases i <;> cases hi
  case turns readyState =>
    obtain ⟨w, -, rfl⟩ := map_eq_some_iff.mp hs
    exact .onSocket s a _
  case opened =>
    obtain ⟨w, -, rfl⟩ := map_eq_some_iff.mp hs
    rw [onopen, if_neg hstale]
    exact .refl s a
  case probed =>
    obtain ⟨w, -, rfl⟩ := map_eq_some_iff.mp hs
    rw [checkAndSend, if_neg hstale]
    exact .onSocket s a _
  case message message about =>
    obtain ⟨w, -, rfl⟩ := map_eq_some_iff.mp hs
    rw [receive, if_neg hstale]
    exact ⟨rfl, fun _ _ => rfl, fun _ => ⟨rfl, rfl⟩⟩
  case signed k signature =>
    obtain ⟨w, -, hsigned⟩ := bind_eq_some_iff.mp hs
    unfold signed at hsigned
    split at hsigned
    · dsimp only at hsigned
      rw [if_neg hstale] at hsigned
      cases hsigned
      exact .onSocket s a _
    · cases hsigned
  case errored =>
    obtain ⟨w, -, rfl⟩ := map_eq_some_iff.mp hs
    rw [onerror, if_neg fun hboth => hstale hboth.1]
    exact .refl s a
  case closed =>
    obtain ⟨w, -, rfl⟩ := map_eq_some_iff.mp hs
    have hstale' : (a.onSocket s fun w => { w with readyState := .closed }).ws ≠ some s := hstale
    rw [onclose, if_neg hstale']
    exact .onSocket s a _
  case connectTimeout =>
    -- the timer of a dial dies with the dial, and that with its socket
    obtain ⟨w, hw, -⟩ := map_eq_some_iff.mp hs
    obtain ⟨hw, htimer⟩ := filter_eq_some_iff.mp hw
    have hsettled := h.toLinkCore.settled_of_ne hw hstale
    exact absurd ((h.fits s w hw).timer htimer) hsettled
  case heartbeatTick =>
    simp only [step] at hs
    split_ifs at hs with hbeat
    cases hs
    rw [heartbeatTick, if_pos (.inl hstale)]
    exact ⟨rfl, fun _ _ => rfl, fun hne => absurd hbeat hne⟩
  case heartbeatTimeout =>
    simp only [step] at hs
    split_ifs at hs
    cases hs
    rw [killSocket, if_neg hstale]
    exact .refl s a

theorem handled_stale {processed : Bool} {envelope : IncomingMessage}
    (hi : a.Supervised (.handled k processed)) (hstale : a.ws ≠ some s)
    (hk : a.handling[k]? = some (some (s, envelope))) (hs : a.handled k processed = some a') :
    a' = { a with handling := a'.handling } := by
  have hsilent : (processed && envelope.acked && a.ws.any a.isOpen) = false := by
    have hsupervised : _ = true := hi
    rw [hk] at hsupervised
    simp only [all_some, hstale, decide_false, Bool.or_false, Bool.or_eq_true,
      Bool.not_eq_true'] at hsupervised
    rcases hsupervised with hquiet | hclosed
    · rw [hquiet, Bool.false_and]
    · rw [hclosed, Bool.and_false]
  unfold handled at hs
  rw [hk] at hs
  cases hs
  split
  · next current hws =>
    rw [show a.ws = some current from hws, any_some] at hsilent
    rw [if_neg (by rw [Bool.not_eq_true]; exact hsilent)]
  · rfl

/-! ## 8. The promise of a dial in flight -/

theorem socket_of_connectTimeout (hws : a.ws = some s) (hw : a.sockets[s]? = some w) :
    (a.connectTimeout s).sockets[s]? =
      some (w.close.settle (.error "WebSocket connect timeout")) := by
  rw [connectTimeout, if_pos hws]
  simp only [dropSocket, hws]
  exact socket_modify_self _ (socket_modify_self _ hw)

/-- **No dial is stuck**, if it loses its socket only while a timer can still settle it. -/
theorem settles_of_linkInv (h : LinkInv true a.link) (hn : n < a.connects.length) :
    a.Settles n := by
  unfold Settles
  cases hcall : a.connects[n]? with
  | none => exact absurd hn (Nat.not_lt.mpr (getElem?_eq_none_iff.mp hcall))
  | some call =>
    cases call with
    | returned => simp [connectOutcome, hcall]
    | disconnecting did => simp
    | dialing s =>
      have hs := h.dialed n s hcall
      obtain ⟨w, hw⟩ : ∃ w, a.sockets[s]? = some w := ⟨_, getElem?_eq_getElem hs⟩
      have houtcome {b : WebSocketMessagingAdapter} {x : Socket}
          (hconnects : b.connects = a.connects) (hx : b.sockets[s]? = some x)
          (hset : x.settled ≠ none) : (b.connectOutcome n).isSome = true := by
        rw [connectOutcome, hconnects, hcall]
        simp [hx, isSome_iff_ne_none, hset]
      by_cases hopen : w.settled = none
      · right; right
        have hfits := h.fits s w hw
        have hws : a.ws = some s := (hfits.dialing hopen).1
        by_cases hclosed : w.readyState = .closed
        · rcases hfits.moves rfl hopen with htimer | hprobing | hne
          · refine ⟨.connectTimeout s, a.connectTimeout s, hws.symm, by simp [step, hw, htimer], ?_⟩
            refine houtcome ?_ (socket_of_connectTimeout hws hw) (settled_settle _ _)
            rw [connectTimeout, if_pos hws]
            exact connects_dropSocket
          · refine ⟨.probed s, a.checkAndSend s w, hws.symm, by simp [step, hw, hprobing], ?_⟩
            rw [checkAndSend, if_pos hws, hclosed]
            exact houtcome rfl (socket_modify_self _ (socket_modify_self _ hw)) (settled_settle _ _)
          · exact absurd hclosed hne
        · have hstate : a.state = .connecting := (hfits.alive hopen).resolve_left hclosed
          refine ⟨.errored s, a.onerror s, hws.symm, by simp [step, hw, hclosed], ?_⟩
          rw [onerror, if_pos ⟨hws, hstate⟩]
          exact houtcome rfl (socket_modify_self _ hw) (settled_settle _ _)
      · exact .inl (houtcome rfl hw hopen)

/-! ## 9. Every run -/

/-- **Socket-instance safety.**  In every run the adapter is connected only on a registered
    socket of its did, a settled promise stays so, and an event of a socket that is not the
    current one changes only that socket.  In every supervised run no promise is stuck, and
    the callbacks of a replaced socket write nothing. -/
theorem socket_instances_safe (options : WebSocketOptions) :
    (∀ a, Reaches step (fun _ _ => True) (start options) a →
      a.ConnectedRegistered ∧ ∀ i a', a.step i = some a' →
        (∀ n outcome, a.connectOutcome n = some outcome → a'.connectOutcome n = some outcome) ∧
        ∀ s, i.socket = some s → a.ws ≠ some s → OnlySocket s a a') ∧
    ∀ a, Reaches step Supervised (start options) a → (∀ n, n < a.connects.length → a.Settles n) ∧
      ∀ k processed a' s envelope, a.Supervised (.handled k processed) →
        a.step (.handled k processed) = some a' → a.handling[k]? = some (some (s, envelope)) →
          a.ws ≠ some s → a' = { a with handling := a'.handling } := by
  constructor
  · intro a hreach
    have hinv : LinkInv false a.link := hreach.invariant (P := fun a => LinkInv false a.link)
      (LinkInv.start options) fun _ _ _ h _ hs => h.step nofun hs
    refine ⟨hinv.connected, fun i a' hs => ⟨fun n outcome => connectOutcome_step hs, ?_⟩⟩
    exact fun s hi hstale => onlySocket_of_stale hinv hi hstale hs
  · intro a hreach
    have hinv : LinkInv true a.link := hreach.invariant (P := fun a => LinkInv true a.link)
      (LinkInv.start options) fun _ _ _ h hi hs => h.step (fun _ => hi) hs
    refine ⟨fun n => settles_of_linkInv hinv, ?_⟩
    exact fun k processed a' s envelope hi hs hk hstale => handled_stale hi hstale hk hs

def greeting : IncomingMessage := ⟨some "message", some "old-world", false⟩

theorem socket_instances_safe_two : ∃ a,
    Reaches step Supervised (start ⟨"device", true, 10000, 8000⟩) a ∧
    a.state = .connected ∧ a.ws = some 1 ∧ a.ConnectedRegistered ∧
    ∀ n, n < a.connects.length → a.Settles n := by
  obtain ⟨a, hreach, htest⟩ := Reaches.of_exec step Supervised (start ⟨"device", true, 10000, 8000⟩)
    (flatten [registers 0, [.onMessage, .message 0 (.message greeting) none, .handled 0 true,
      .heartbeatTick 0, .heartbeatTimeout 0], registers 1, [.closed 0]])
    (fun a => decide (a.state = .connected) && decide (a.ws = some 1)) (by decide +kernel)
  simp only [Bool.and_eq_true, decide_eq_true_eq] at htest
  have hall := (socket_instances_safe _).1 a (hreach.weaken fun _ _ _ => trivial)
  exact ⟨a, hreach, htest.1, htest.2, hall.1, ((socket_instances_safe _).2 a hreach).1⟩

theorem not_settles_of_closed (hn : a.connects[n]? = some (.dialing s)) (hws : a.ws = some s)
    (hw : a.sockets[s]? = some w) (hopen : w.settled = none) (hclosed : w.readyState = .closed)
    (htimer : w.connectTimer = false) (hprobing : w.probing = false) (hsigning : w.signing = [])
    (hbeat : a.heartbeatInterval = none) (hbeat' : a.heartbeatTimeout = none) : ¬ a.Settles n := by
  rintro (hsettled | ⟨did, hcall⟩ | ⟨i, a', hi, hs, -⟩)
  · simp [connectOutcome, hn, hw, hopen] at hsettled
  · rw [hn] at hcall
    cases hcall
  rw [hws] at hi
  cases i <;> cases hi <;>
    simp [step, hw, hclosed, htimer, hprobing, hsigning, hbeat, hbeat', signed,
      ReadyState.next] at hs

/-- A message is acknowledged on a socket that it did not come on; and a dial without a timer
    is stuck when its socket closes. -/
theorem ack_on_next_socket : (∃ a k processed a' s envelope,
      Reaches step (fun _ _ => True) (start ⟨"device", true, 10000, 8000⟩) a ∧
      a.step (.handled k processed) = some a' ∧ a.handling[k]? = some (some (s, envelope)) ∧
      a.ws ≠ some s ∧ a'.sockets.map sent ≠ a.sockets.map sent) ∧
    ∃ a n, Reaches step (fun _ _ => True) (start ⟨"device", true, 10000, 0⟩) a ∧
      n < a.connects.length ∧ ¬ a.Settles n := by
  constructor
  · obtain ⟨a, hreach, htest⟩ := Reaches.of_exec step (fun _ _ => True)
      (start ⟨"device", true, 10000, 8000⟩)
      (flatten [registers 0, [.onMessage, .message 0 (.message greeting) none, .closed 0],
        registers 1])
      (fun a => (a.step (.handled 0 true)).any fun a' : WebSocketMessagingAdapter =>
        decide (a.handling[0]? = some (some (0, greeting))) && decide (a.ws ≠ some 0) &&
          decide (a'.sockets.map sent ≠ a.sockets.map sent))
      (by decide +kernel)
    obtain ⟨a', hs, htest⟩ := (any_eq_true _ _).mp htest
    simp only [Bool.and_eq_true, decide_eq_true_eq] at htest
    exact ⟨a, 0, true, a', 0, greeting, hreach, hs, htest.1.1, htest.1.2, htest.2⟩
  · obtain ⟨a, hreach, htest⟩ := Reaches.of_exec step (fun _ _ => True)
      (start ⟨"device", true, 10000, 0⟩) [.connect "did:alice", .turns 0 .opened, .opened 0,
        .closed 0]
      (fun a => decide (a.connects = [.dialing 0]) && decide (a.ws = some 0) &&
        decide (a.heartbeatInterval = none) && decide (a.heartbeatTimeout = none) &&
        a.sockets[0]?.any fun w : Socket => w.settled.isNone && decide (w.readyState = .closed) &&
          decide (w.connectTimer = false) && decide (w.probing = false) && w.signing.isEmpty)
      (by decide +kernel)
    simp only [Bool.and_eq_true, decide_eq_true_eq] at htest
    obtain ⟨⟨⟨⟨hconnects, hws⟩, hbeat⟩, hbeat'⟩, hsocket⟩ := htest
    obtain ⟨w, hw, hsocket⟩ := (any_eq_true _ _).mp hsocket
    simp only [Bool.and_eq_true, decide_eq_true_eq, isNone_iff_eq_none, List.isEmpty_iff] at hsocket
    obtain ⟨⟨⟨⟨hopen, hclosed⟩, htimer⟩, hprobing⟩, hsigning⟩ := hsocket
    refine ⟨a, 0, hreach, by simp [hconnects], ?_⟩
    exact not_settles_of_closed (by simp [hconnects]) hws hw hopen hclosed htimer hprobing
      hsigning hbeat hbeat'

end WebSocketMessagingAdapter

end WebOfTrust
