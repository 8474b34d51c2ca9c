/-
  **The inbox side of the relay**: a send is fanned out to the devices of its recipient,
  a registration picks up what is pending, an `ack/1.0` clears the entry of its device, a
  revocation and the retention sweep clean up.

  Whatever touches the inbox runs between two `await`s, so a run is any sequence of
  turns of the relay, two of which have an inbox part, and of the inbox.  In every run a
  retained message goes only when it has expired or everybody who counts has it, and a
  device that connects gets whatever it has neither acknowledged nor sent itself
  (`inbox_step`).
-/
import WebOfTrust.OfflineQueue
import WebOfTrust.RelayScopes

namespace WebOfTrust

open Async OfflineQueue KeyedTable

/-! ## 1. Envelopes and frames -/

def DIDCOMM_PLAINTEXT_TYP : String := "application/didcomm-plain+json"

def ENCRYPTED_INBOX_MESSAGE_TYPES : List String :=
  ["https://web-of-trust.de/protocols/inbox/1.0",
    "https://web-of-trust.de/protocols/space-invite/1.0",
    "https://web-of-trust.de/protocols/member-update/1.0",
    "https://web-of-trust.de/protocols/key-rotation/1.0"]

def isEncryptedInboxMessageType (value : String) : Bool :=
  ENCRYPTED_INBOX_MESSAGE_TYPES.contains value

def InboxEnvelope.isDidcommMessage (envelope : InboxEnvelope) : Bool :=
  decide (envelope.typ = DIDCOMM_PLAINTEXT_TYP)

/-- An `ack/1.0` envelope: refused by its parser, or its `id` and what it refers to. -/
inductive AckEnvelope where
  | malformed (message : String)
  | ack (id messageId : String)

/-- A frame of the inbox.  On the wire a message is its envelope; the `messageId` says of
    which stored message it is. -/
inductive InboxFrame where
  | message (messageId : String) (envelope : InboxEnvelope)
  | receipt (messageId status : String) (timestamp : Nat)
  | error (code message : String)
deriving DecidableEq

structure BrokerInboxDevice where
  did : Did
  deviceId : DeviceId
  status : DeviceStatus

structure BrokerInboxDeliveryDisposition where
  deliveryTargets : List DeviceId
  cleanupPendingEntriesFor : List DeviceId
  excludedSenderTarget : Option DeviceId
  fullyDelivered : Bool

def computeBrokerInboxDeliveryTargets (senderDid : Did) (senderDeviceId : DeviceId)
    (recipientDid : Did) (recipientDevices : List BrokerInboxDevice) :
    BrokerInboxDeliveryDisposition :=
  let own := recipientDevices.filter fun device => decide (device.did = recipientDid)
  let active := own.filter fun device => decide (device.status = .active)
  let isSender := fun device : BrokerInboxDevice =>
    decide (senderDid = recipientDid) && decide (device.deviceId = senderDeviceId)
  let deliveryTargets := (active.filter fun device => !isSender device).map (·.deviceId)
  { deliveryTargets := deliveryTargets
    cleanupPendingEntriesFor := (own.filter fun device => decide (device.status = .revoked)).map
      (·.deviceId)
    excludedSenderTarget := ((active.filter isSender).map (·.deviceId)).getLast?
    fullyDelivered := deliveryTargets.isEmpty }

/-! ## 2. The handlers -/

structure InboxRelay where
  relay : Relay
  queue : OfflineQueue
  outbox : List (SocketId × InboxFrame)

namespace InboxRelay

def start (docLog : BrokerStore) (clock : Nat) : InboxRelay where
  relay := .start docLog clock
  queue := .empty
  outbox := []

variable (w : InboxRelay) (ws : SocketId)

def sendTo (frame : InboxFrame) : InboxRelay :=
  { w with outbox := w.outbox ++ [(ws, frame)] }

def sendError (code message : String) : InboxRelay :=
  w.sendTo ws (.error code message)

/-- The registration goes through: the socket has no session, and the device list
    accepts the device. -/
def registers (did : Did) (deviceId : DeviceId) : Bool :=
  (w.relay.socketToDid ws).isNone &&
    match (w.relay.docLog.registerDevice did deviceId w.relay.clock).1 with
    | .registered _ => true
    | _ => false

/-- `completeRegistration`, with the pick-up at its end. -/
def completeRegistration (did : Did) (deviceId : DeviceId) : InboxRelay :=
  let relay := w.relay.completeRegistration ws did deviceId
  if w.registers ws did deviceId then
    let pending := w.queue.deliverOnConnect did deviceId
    { relay := relay
      queue := pending.2
      outbox := w.outbox ++ pending.1.map fun row => (ws, .message row.messageId row.envelope) }
  else { w with relay := relay }

/-- `handleDeviceRevoke`, after its `await`, with the inbox cleanup. -/
def deviceRevokeVerified
    (checked : Except FrameRejection DeviceRevokePayload) (env : Env) : InboxRelay :=
  let relay := w.relay.deviceRevokeVerified ws checked env
  match env.failure, checked with
  | none, .ok payload =>
    match (w.relay.docLog.revokeDevice payload.did payload.deviceId payload.revokedAt
      w.relay.clock).1 with
    | .didMismatch => { w with relay := relay }
    | _ =>
      { w with
        relay := relay
        queue := w.queue.deleteForDevice relay.docLog payload.deviceId w.relay.clock
          DEFAULT_INACTIVE_MS }
  | _, _ => { w with relay := relay }

section

variable (envelope : InboxEnvelope)

/-- The gates of an inbox send: the sender, its device and the recipient, or the error. -/
def sendGates : Except (String × String) (Did × DeviceId × Did) :=
  match w.relay.socketToDid ws with
  | none => .error ("NOT_REGISTERED", "Must register before sending")
  | some senderDid =>
    if !(envelope.isDidcommMessage && isEncryptedInboxMessageType envelope.type) then
      .error ("MALFORMED_MESSAGE",
        "Message type is not relay/queue-eligible (Sync 003 relay-whitelist)")
    else
      match (w.relay.socketToDeviceId ws).filter fun d => w.relay.docLog.isActive senderDid d with
      | none =>
        .error ("DEVICE_REVOKED", "This device is not active (revoked or not registered).")
      | some senderDeviceId =>
        match envelope.toDids.head?.filter fun did => decide (did ≠ "") with
        | none => .error ("MISSING_RECIPIENT", "Envelope must have a to[0] recipient field")
        | some toDid => .ok (senderDid, senderDeviceId, toDid)

def fanout (randomUUID : String) (senderDid : Did)
    (senderDeviceId : DeviceId) (toDid : Did) : InboxFanoutInput :=
  let messageId := envelope.id.getD ("unknown-" ++ randomUUID)
  let activeDeviceIds := w.relay.docLog.effectiveActiveDeviceIdsForDid toDid w.relay.clock
    DEFAULT_INACTIVE_MS
  let disposition := computeBrokerInboxDeliveryTargets senderDid senderDeviceId toDid
    (activeDeviceIds.map fun deviceId => ⟨toDid, deviceId, .active⟩)
  { messageId := messageId
    toDid := toDid
    envelope := envelope
    deliveryTargetDeviceIds := disposition.deliveryTargets
    excludedSenderDeviceId := disposition.excludedSenderTarget
    nowMs := w.relay.clock }

def recipientSockets (input : InboxFanoutInput) : List SocketId :=
  (w.relay.connections input.toDid).filter fun recipientWs =>
    (w.relay.socketToDeviceId recipientWs).any input.deliveryTargetDeviceIds.contains

/-- `handleSend`, for an inbox envelope: persist first, then deliver live. -/
def handleSend (randomUUID : String) : InboxRelay :=
  match w.sendGates ws envelope with
  | .error rejection => w.sendError ws rejection.1 rejection.2
  | .ok (senderDid, senderDeviceId, toDid) =>
    let input := w.fanout envelope randomUUID senderDid senderDeviceId toDid
    let persisted := w.queue.enqueueFanout input
    match persisted.1 with
    | .collision =>
      w.sendError ws "MALFORMED_MESSAGE"
        ("messageId already in use for a different recipient or payload " ++
          "(no reuse with divergent content)")
    | _ =>
      let live := (w.recipientSockets input).map fun recipientWs =>
        (recipientWs, InboxFrame.message input.messageId envelope)
      { w with
        queue := persisted.2
        outbox := w.outbox ++ live ++ [(ws, .receipt input.messageId
          (if live.isEmpty then "accepted" else "delivered") w.relay.clock)] }

end

/-- Why an `ack/1.0` for a retained message is discarded, if it is. -/
def ackDiscarded (ackingDid : Did) (messageId : String) : Option String :=
  match w.queue.getByMessageId messageId with
  | none => none
  | some (toDid, envelope) =>
    if toDid ≠ ackingDid then some "ack/1.0 references a message addressed to another DID"
    else if !(envelope.isDidcommMessage && isEncryptedInboxMessageType envelope.type) then
      some "ack/1.0 must reference an inbox-channel message"
    else none

def handleInboxAckEnvelope (envelope : AckEnvelope) : InboxRelay :=
  match w.relay.socketToDid ws with
  | none => w.sendError ws "NOT_REGISTERED" "Must register before sending"
  | some ackingDid =>
    match envelope with
    | .malformed message => w.sendError ws "MALFORMED_MESSAGE" message
    | .ack id messageId =>
      match w.ackDiscarded ackingDid messageId with
      | some reason => w.sendError ws "MALFORMED_MESSAGE" reason
      | none =>
        let queue := match w.relay.socketToDeviceId ws with
          | none => w.queue
          | some deviceId => (w.queue.ackDevice w.relay.docLog messageId deviceId w.relay.clock
              DEFAULT_INACTIVE_MS).2
        { w with queue := queue }.sendTo ws (.receipt id "delivered" w.relay.clock)

def collectGarbage : InboxRelay :=
  { w with
    queue := w.queue.collectGarbage w.relay.docLog w.relay.clock DEFAULT_TTL_MS
      DEFAULT_INACTIVE_MS }

end InboxRelay

/-! ## 3. Turns and runs -/

/-- One turn of the broker: of the relay, of the inbox, or a restart. -/
inductive InboxTurn where
  | relay (t : RelayPoint) (env : Env)
  | send (ws : SocketId) (envelope : InboxEnvelope) (randomUUID : String)
  | ack (ws : SocketId) (envelope : AckEnvelope)
  | collectGarbage
  | restart

namespace InboxRelay

variable (keyOf : Did → Option PublicKey)

def turn (w : InboxRelay) : InboxTurn → InboxRelay
  | .relay (.register ws did deviceId) _ => w.completeRegistration ws did deviceId
  | .relay (.deviceRevokeVerified ws checked) env => w.deviceRevokeVerified ws checked env
  | .relay t env => { w with relay := w.relay.advance keyOf t env }
  | .send ws envelope randomUUID => w.handleSend ws envelope randomUUID
  | .ack ws envelope => w.handleInboxAckEnvelope ws envelope
  | .collectGarbage => w.collectGarbage
  | .restart => { w with relay := .start w.relay.docLog w.relay.clock }

inductive Run (w₀ : InboxRelay) : InboxRelay → Prop where
  | start : Run w₀ w₀
  | turn {w : InboxRelay} (h : Run w₀ w) (t : InboxTurn) : Run w₀ (w.turn keyOf t)

section

variable (w : InboxRelay)

def turns (ts : List InboxTurn) : InboxRelay := ts.foldl (turn keyOf) w

theorem Run.turns {w₀ w : InboxRelay} (h : Run keyOf w₀ w) (ts : List InboxTurn) :
    Run keyOf w₀ (w.turns keyOf ts) :=
  List.foldlRecOn ts _ h fun _ hrun t _ => hrun.turn t

def ackOf : InboxTurn → Option (String × DeviceId)
  | .ack ws (.ack _ messageId) =>
    match w.relay.socketToDid ws, w.relay.socketToDeviceId ws with
    | some ackingDid, some deviceId =>
      if (w.ackDiscarded ackingDid messageId).isSome then none else some (messageId, deviceId)
    | _, _ => none
  | _ => none

/-- The message and the device of a send that is accepted and addressed to the sender's
    own DID. -/
def selfSendOf : InboxTurn → Option (String × DeviceId)
  | .send ws envelope randomUUID =>
    match w.sendGates ws envelope with
    | .error _ => none
    | .ok (senderDid, senderDeviceId, toDid) =>
      let input := w.fanout envelope randomUUID senderDid senderDeviceId toDid
      if senderDid = toDid ∧ (w.queue.enqueueFanout input).1 ≠ .collision then
        some (input.messageId, senderDeviceId)
      else none
  | _ => none

def Sends (t : InboxTurn) (ws : SocketId) (frame : InboxFrame) : Prop :=
  ∃ frames, (w.turn keyOf t).outbox = w.outbox ++ frames ∧ (ws, frame) ∈ frames

end

/-! ## 4. The inbox part of a turn -/

variable {keyOf} {w w' : InboxRelay} {t : InboxTurn} {m : String} {d : DeviceId} {ws : SocketId}
  {q : OfflineQueue} {row : InboxMessageRow}

/-- **Everything a turn can do to the inbox.** -/
inductive QueueStep (w : InboxRelay) (t : InboxTurn) (w' : InboxRelay) : Prop where
  | same (hq : w'.queue = w.queue)
  | pickedUp (ws : SocketId) (did : Did) (deviceId : DeviceId) (env : Env)
      (ht : t = .relay (.register ws did deviceId) env) (hreg : w.registers ws did deviceId = true)
      (hq : w'.queue = (w.queue.deliverOnConnect did deviceId).2)
  | enqueued (ws : SocketId) (envelope : InboxEnvelope) (randomUUID : String) (senderDid : Did)
      (senderDeviceId : DeviceId) (toDid : Did) (ht : t = .send ws envelope randomUUID)
      (hgates : w.sendGates ws envelope = .ok (senderDid, senderDeviceId, toDid))
      (hfanout : (w.queue.enqueueFanout
        (w.fanout envelope randomUUID senderDid senderDeviceId toDid)).1 ≠ .collision)
      (hq : w'.queue = (w.queue.enqueueFanout
        (w.fanout envelope randomUUID senderDid senderDeviceId toDid)).2)
  | acked (messageId : String) (deviceId : DeviceId) (hack : w.ackOf t = some (messageId, deviceId))
      (hq : w'.queue = (w.queue.ackDevice w'.relay.docLog messageId deviceId w'.relay.clock
        DEFAULT_INACTIVE_MS).2)
  | revoked (ws : SocketId) (checked : Except FrameRejection DeviceRevokePayload) (env : Env)
      (deviceId : DeviceId) (ht : t = .relay (.deviceRevokeVerified ws checked) env)
      (hrevoked : w'.relay.docLog.isRevoked deviceId = true)
      (hq : w'.queue = w.queue.deleteForDevice w'.relay.docLog deviceId w'.relay.clock
        DEFAULT_INACTIVE_MS)
  | swept (ht : t = .collectGarbage) (hrelay : w'.relay = w.relay)
      (hq : w'.queue = w.queue.collectGarbage w.relay.docLog w.relay.clock DEFAULT_TTL_MS
        DEFAULT_INACTIVE_MS)

section

variable (ws : SocketId)

theorem queueStep_register (did : Did) (deviceId : DeviceId) (env : Env) :
    QueueStep w (.relay (.register ws did deviceId) env)
      (w.completeRegistration ws did deviceId) := by
  by_cases hreg : w.registers ws did deviceId = true
  · apply QueueStep.pickedUp ws did deviceId env rfl hreg
    unfold completeRegistration
    rw [if_pos hreg]
  apply QueueStep.same
  unfold completeRegistration
  rw [if_neg hreg]

theorem queueStep_revoke (checked : Except FrameRejection DeviceRevokePayload)
    (env : Env) :
    QueueStep w (.relay (.deviceRevokeVerified ws checked) env)
      (w.deviceRevokeVerified ws checked env) := by
  have hclock : (w.relay.deviceRevokeVerified ws checked env).clock = w.relay.clock := by
    rcases w.relay.deviceRevokeVerified_cases ws env checked with ⟨sent, hw⟩ |
      ⟨payload, sent, -, -, hw⟩
    · rw [hw]
    · rw [hw]
  unfold deviceRevokeVerified
  split
  · next payload henv =>
    split
    · exact .same rfl
    next howned =>
    refine .revoked ws (.ok payload) env payload.deviceId rfl ?_ ?_
    · show (w.relay.deviceRevokeVerified ws (.ok payload) env).docLog.isRevoked _ = true
      unfold Relay.deviceRevokeVerified Relay.verifiedFrame
      simp only [henv]
      exact BrokerStore.isRevoked_revokeDevice howned
    · rw [hclock]
  · exact .same rfl

theorem queueStep_send (envelope : InboxEnvelope) (randomUUID : String) :
    QueueStep w (.send ws envelope randomUUID) (w.handleSend ws envelope randomUUID) := by
  unfold handleSend
  split
  · exact .same rfl
  next senderDid senderDeviceId toDid hgates =>
  dsimp only
  split
  · exact .same rfl
  · next hfanout =>
    exact .enqueued ws envelope randomUUID senderDid senderDeviceId toDid rfl hgates hfanout rfl

theorem queueStep_ack (envelope : AckEnvelope) :
    QueueStep w (.ack ws envelope) (w.handleInboxAckEnvelope ws envelope) := by
  unfold handleInboxAckEnvelope
  split
  · exact .same rfl
  next ackingDid hdid =>
  split
  · exact .same rfl
  next id messageId =>
  split
  · exact .same rfl
  next hkept =>
  cases hdevice : w.relay.socketToDeviceId ws with
  | none => exact .same rfl
  | some deviceId =>
    refine .acked messageId deviceId ?_ rfl
    simp [ackOf, hdid, hdevice, hkept]

end

theorem queueStep_turn (w : InboxRelay) (t : InboxTurn) : QueueStep w t (w.turn keyOf t) := by
  cases t with
  | relay t env =>
    cases t with
    | register ws did deviceId => exact queueStep_register ws did deviceId env
    | deviceRevokeVerified ws checked => exact queueStep_revoke ws checked env
    | _ => exact .same rfl
  | send ws envelope randomUUID => exact queueStep_send ws envelope randomUUID
  | ack ws envelope => exact queueStep_ack ws envelope
  | collectGarbage => exact .swept rfl rfl rfl
  | restart => exact .same rfl

theorem excludedSender {envelope : InboxEnvelope} {randomUUID : String} {senderDid toDid : Did}
    {senderDeviceId : DeviceId}
    (h : (w.fanout envelope randomUUID senderDid senderDeviceId toDid).excludedSenderDeviceId =
      some d) : senderDid = toDid ∧ senderDeviceId = d := by
  have hmem := List.mem_of_getLast? h
  simp only [List.mem_map, List.mem_filter, Bool.and_eq_true, decide_eq_true_eq] at hmem
  obtain ⟨device, ⟨-, hself, hdevice⟩, rfl⟩ := hmem
  exact ⟨hself, hdevice.symm⟩

theorem selfSendOf_send {envelope : InboxEnvelope} {randomUUID : String} {senderDid toDid : Did}
    {senderDeviceId : DeviceId}
    (hgates : w.sendGates ws envelope = .ok (senderDid, senderDeviceId, toDid))
    (hself : senderDid = toDid) (hfanout : (w.queue.enqueueFanout
      (w.fanout envelope randomUUID senderDid senderDeviceId toDid)).1 ≠ .collision) :
    w.selfSendOf (.send ws envelope randomUUID) =
      some ((w.fanout envelope randomUUID senderDid senderDeviceId toDid).messageId,
        senderDeviceId) := by
  unfold selfSendOf
  simp only [hgates]
  rw [if_pos ⟨hself, hfanout⟩]

/-! ## 5. Messages and entries -/

def HasAcked (w : InboxRelay) (t : InboxTurn) (messageId : String) (deviceId : DeviceId) : Prop :=
  w.queue.status messageId deviceId = some .acked ∨ w.ackOf t = some (messageId, deviceId)

/-- **Everybody who counts has it**: some device has acknowledged, and every
    effective-active device of the recipient has, or is the excluded sender. -/
structure FullyAcked (w : InboxRelay) (t : InboxTurn) (w' : InboxRelay) (row : InboxMessageRow) :
    Prop where
  once : ∃ deviceId, w.HasAcked t row.messageId deviceId
  all : ∀ deviceId ∈ w'.relay.docLog.effectiveActiveDeviceIdsForDid row.toDid w'.relay.clock
    DEFAULT_INACTIVE_MS, w.HasAcked t row.messageId deviceId ∨
      w.queue.status row.messageId deviceId = some .senderExcluded

def Expired (w : InboxRelay) (t : InboxTurn) (row : InboxMessageRow) : Prop :=
  t = .collectGarbage ∧ row.createdAt < w.relay.clock - DEFAULT_TTL_MS

theorem fullyAcked_of_delivered (hmessages : q.messages = w.queue.messages)
    (hrow : w.queue.messages.get? m = some row)
    (hacked : ∀ d, q.status m d = some .acked → w.HasAcked t m d)
    (hexcluded : ∀ d, q.status m d = some .senderExcluded →
      w.queue.status m d = some .senderExcluded)
    (hfull : q.isFullyDelivered w'.relay.docLog w'.relay.clock DEFAULT_INACTIVE_MS m = true) :
    FullyAcked w t w' row := by
  obtain ⟨message, hmessage, ⟨deviceId, honce⟩, hall⟩ := isFullyDelivered_iff.mp hfull
  rw [hmessages, hrow] at hmessage
  cases hmessage
  have hm : row.messageId = m := key_of_get? hrow
  subst hm
  constructor
  · exact ⟨deviceId, hacked deviceId honce⟩
  · intro d hd
    rcases hall d hd with h | h
    · exact .inl (hacked d h)
    · exact .inr (hexcluded d h)

theorem createdAt_of_any {threshold : Nat} (hrow : w.queue.messages.get? m = some row)
    (h : (w.queue.messages.get? m).any (fun row => decide (row.createdAt < threshold)) = true) :
    row.createdAt < threshold := by
  rw [hrow] at h
  exact of_decide_eq_true h

theorem QueueStep.removed (h : QueueStep w t w') (hrow : w.queue.messages.get? m = some row)
    (hgone : w'.queue.messages.get? m ≠ some row) : Expired w t row ∨ FullyAcked w t w' row := by
  cases h with
  | same hq | pickedUp ws did deviceId env ht hreg hq =>
    rw [hq] at hgone
    exact absurd hrow hgone
  | enqueued ws envelope randomUUID senderDid senderDeviceId toDid ht hgates hfanout hq =>
    rw [hq, messages_enqueueFanout, hrow] at hgone
    exact absurd rfl hgone
  | acked messageId deviceId hack hq =>
    rcases ackDevice_cases (q := w.queue) messageId deviceId with
      ⟨-, hresult⟩ | ⟨hpending, q₁, hmessages, hstatus, hresult⟩
    · rw [hq, hresult] at hgone
      exact absurd hrow hgone
    right
    rw [hq, hresult, messages_dropMessages, hmessages, hrow] at hgone
    have hdropped : m = messageId ∧ q₁.isFullyDelivered w'.relay.docLog w'.relay.clock
        DEFAULT_INACTIVE_MS m = true := by
      by_contra hkept
      rw [if_neg (by simpa using hkept)] at hgone
      exact hgone rfl
    obtain ⟨rfl, hfull⟩ := hdropped
    apply fullyAcked_of_delivered hmessages hrow _ _ hfull
    · intro d hd
      rw [hstatus] at hd
      by_cases hkey : m = m ∧ deviceId = d
      · exact .inr (by rw [hack, hkey.2])
      · rw [if_neg hkey] at hd
        exact .inl hd
    · intro d hd
      rw [hstatus] at hd
      split at hd
      · cases hd
      · exact hd
  | revoked ws checked env deviceId ht hrevoked hq =>
    right
    obtain ⟨q₁, affected, hmessages, hstatus, hresult⟩ :=
      deleteForDevice_spec (q := w.queue)
      deviceId
    rw [hq, hresult, messages_dropMessages, hmessages, hrow] at hgone
    have hdropped : affected m = true ∧ q₁.isFullyDelivered w'.relay.docLog w'.relay.clock
        DEFAULT_INACTIVE_MS m = true := by
      by_contra hkept
      rw [if_neg (by simpa using hkept)] at hgone
      exact hgone rfl
    apply fullyAcked_of_delivered hmessages hrow _ _ hdropped.2
    · intro d hd
      rw [hstatus] at hd
      split at hd
      · cases hd
      · exact .inl hd
    · intro d hd
      rw [hstatus] at hd
      split at hd
      · cases hd
      · exact hd
  | swept ht hrelay hq =>
    rw [hq, (collectGarbage_spec (d := "")).1, hrow] at hgone
    have hcollected : w.queue.isCollected w.relay.docLog w.relay.clock DEFAULT_TTL_MS
        DEFAULT_INACTIVE_MS m = true := by
      by_contra hkept
      rw [if_neg hkept] at hgone
      exact hgone rfl
    rcases Bool.or_eq_true_iff.mp hcollected with hfull | hold
    · right
      rw [← hrelay] at hfull
      exact fullyAcked_of_delivered rfl hrow (fun d hd => .inl hd) (fun d hd => hd) hfull
    · left
      exact ⟨ht, createdAt_of_any hrow hold⟩

def Referenced (q : OfflineQueue) : Prop :=
  ∀ entry ∈ q.entries.rows, ∃ row, q.messages.get? entry.messageId = some row

theorem referenced_iff :
    Referenced q ↔ ∀ m d st, q.status m d = some st → ∃ row, q.messages.get? m = some row := by
  constructor
  · intro h m d st hst
    exact h _ (mem_of_get? (status_eq_some.mp hst))
  · intro h entry hentry
    exact h _ _ _ (status_of_mem hentry)

theorem Referenced.dropMessages (h : Referenced q) (p : String → Bool) :
    Referenced (q.dropMessages p) := by
  rw [referenced_iff] at h ⊢
  intro m d st hst
  rw [status_dropMessages] at hst
  rw [messages_dropMessages]
  by_cases hp : p m = true
  · rw [if_pos hp] at hst
    cases hst
  · rw [if_neg hp] at hst ⊢
    exact h m d st hst

theorem QueueStep.referenced (h : QueueStep w t w') (href : Referenced w.queue) :
    Referenced w'.queue := by
  have hbefore := referenced_iff.mp href
  cases h with
  | same hq =>
    rw [hq]
    exact href
  | pickedUp ws did deviceId env ht hreg hq =>
    rw [hq, referenced_iff]
    intro m d st hst
    rw [status_deliverOnConnect] at hst
    show ∃ row, w.queue.messages.get? m = some row
    cases hold : w.queue.status m d with
    | some st' => exact hbefore m d st' hold
    | none =>
      rw [hold, Option.none_or] at hst
      split at hst
      · next hminted =>
        obtain ⟨row, hrow, -⟩ := (Option.any_eq_true _ _).mp hminted.2
        exact ⟨row, hrow⟩
      · cases hst
  | enqueued ws envelope randomUUID senderDid senderDeviceId toDid ht hgates hfanout hq =>
    rw [hq, referenced_iff]
    intro m d st hst
    rw [status_enqueueFanout _ hfanout] at hst
    rw [messages_enqueueFanout]
    cases hold : w.queue.status m d with
    | some st' =>
      obtain ⟨row, hrow⟩ := hbefore m d st' hold
      rw [hrow]
      exact ⟨row, rfl⟩
    | none =>
      rw [hold, Option.none_or] at hst
      split at hst
      · next hm =>
        rw [if_pos hm]
        cases w.queue.messages.get? m with
        | none => exact ⟨_, rfl⟩
        | some row => exact ⟨row, rfl⟩
      · cases hst
  | acked messageId deviceId hack hq =>
    rcases ackDevice_cases (q := w.queue) messageId deviceId with
      ⟨-, hresult⟩ | ⟨hpending, q₁, hmessages, hstatus, hresult⟩
    · rw [hq, hresult]
      exact href
    rw [hq, hresult]
    apply Referenced.dropMessages
    rw [referenced_iff]
    intro m d st hst
    rw [hstatus] at hst
    rw [hmessages]
    split at hst
    · next hkey =>
      rw [← hkey.1]
      exact hbefore messageId deviceId _ hpending
    · exact hbefore m d st hst
  | revoked ws checked env deviceId ht hrevoked hq =>
    obtain ⟨q₁, affected, hmessages, hstatus, hresult⟩ :=
      deleteForDevice_spec (q := w.queue)
      deviceId
    rw [hq, hresult]
    apply Referenced.dropMessages
    rw [referenced_iff]
    intro m d st hst
    rw [hstatus] at hst
    rw [hmessages]
    split at hst
    · cases hst
    · exact hbefore m d st hst
  | swept ht hrelay hq =>
    rw [hq, referenced_iff]
    intro m d st hst
    rw [collectGarbage_spec.2] at hst
    rw [(collectGarbage_spec (d := d)).1]
    split at hst
    · cases hst
    next hkept =>
    rw [if_neg fun h => hkept (.inl h)]
    exact hbefore m d st hst

/-- **Who makes an entry settled**: an entry is acknowledged by an `ack/1.0` of its own
    device, and excluded by a send of its own device. -/
theorem QueueStep.settled (h : QueueStep w t w') :
    (w'.queue.status m d = some .acked → w.HasAcked t m d) ∧
      (w'.queue.status m d = some .senderExcluded →
        w.queue.status m d = some .senderExcluded ∨ w.selfSendOf t = some (m, d)) := by
  cases h with
  | same hq =>
    rw [hq]
    exact ⟨.inl, .inl⟩
  | pickedUp ws did deviceId env ht hreg hq =>
    rw [hq, status_deliverOnConnect]
    unfold HasAcked
    cases w.queue.status m d with
    | some st => exact ⟨.inl, .inl⟩
    | none =>
      rw [Option.none_or]
      split <;> simp
  | enqueued ws envelope randomUUID senderDid senderDeviceId toDid ht hgates hfanout hq =>
    rw [hq, status_enqueueFanout _ hfanout]
    unfold HasAcked
    cases w.queue.status m d with
    | some st => exact ⟨.inl, .inl⟩
    | none =>
      rw [Option.none_or]
      constructor
      · intro hst
        split at hst
        · split at hst
          · cases hst
          · split at hst <;> cases hst
        · cases hst
      · intro hst
        right
        split at hst
        · next hm =>
          split at hst
          · cases hst
          split at hst
          · next hexcluded =>
            obtain ⟨hself, hdevice⟩ := excludedSender hexcluded
            rw [ht, selfSendOf_send hgates hself hfanout, hm, hdevice]
          · cases hst
        · cases hst
  | acked messageId deviceId hack hq =>
    rcases ackDevice_cases (q := w.queue) messageId deviceId with
      ⟨-, hresult⟩ | ⟨hpending, q₁, hmessages, hstatus, hresult⟩
    · rw [hq, hresult]
      exact ⟨.inl, .inl⟩
    rw [hq, hresult, status_dropMessages, hstatus]
    unfold HasAcked
    split
    · simp
    split
    · next hkey =>
      rw [hack, hkey.1, hkey.2]
      simp
    · exact ⟨.inl, .inl⟩
  | revoked ws checked env deviceId ht hrevoked hq =>
    obtain ⟨q₁, affected, hmessages, hstatus, hresult⟩ :=
      deleteForDevice_spec (q := w.queue)
      deviceId
    rw [hq, hresult, status_dropMessages, hstatus]
    unfold HasAcked
    split
    · simp
    split
    · simp
    · exact ⟨.inl, .inl⟩
  | swept ht hrelay hq =>
    rw [hq, collectGarbage_spec.2]
    split
    · simp
    · exact ⟨.inl, .inl⟩

theorem QueueStep.acknowledged (h : QueueStep w t w') {envelope : AckEnvelope}
    (ht : t = .ack ws envelope) (hchanged : w'.queue.status m d ≠ w.queue.status m d) :
    w.ackOf t = some (m, d) ∧ w.queue.status m d = some .pending ∧
        w'.queue.status m d = some .acked ∨
      w'.queue.messages.get? m = none ∧ ∃ d', w.ackOf t = some (m, d') := by
  subst ht
  cases h with
  | same hq =>
    rw [hq] at hchanged
    exact absurd rfl hchanged
  | acked messageId deviceId hack hq =>
    rcases ackDevice_cases (q := w.queue) messageId deviceId with
      ⟨-, hresult⟩ | ⟨hpending, q₁, hmessages, hstatus, hresult⟩
    · rw [hq, hresult] at hchanged
      exact absurd rfl hchanged
    rw [hq, hresult, status_dropMessages] at hchanged ⊢
    rw [messages_dropMessages]
    by_cases hdropped : (decide (m = messageId) && q₁.isFullyDelivered w'.relay.docLog
        w'.relay.clock DEFAULT_INACTIVE_MS m) = true
    · right
      rw [if_pos hdropped]
      simp only [Bool.and_eq_true, decide_eq_true_eq] at hdropped
      exact ⟨rfl, deviceId, by rw [hack, hdropped.1]⟩
    left
    rw [if_neg hdropped, hstatus] at hchanged ⊢
    by_cases hkey : messageId = m ∧ deviceId = d
    · rw [if_pos hkey]
      rw [hkey.1, hkey.2] at hpending hack
      exact ⟨hack, hpending, rfl⟩
    · rw [if_neg hkey] at hchanged
      exact absurd rfl hchanged
  | pickedUp ws did deviceId env ht
  | enqueued ws envelope randomUUID senderDid senderDeviceId toDid ht
  | revoked ws checked env deviceId ht | swept ht => cases ht

/-- **A pick-up hands out everything** that the device has neither acknowledged nor been
    excluded from. -/
theorem sends_register {did : Did} {deviceId : DeviceId} {env : Env}
    (hreg : w.registers ws did deviceId = true) (hrow : w.queue.messages.get? m = some row)
    (hto : row.toDid = did) (hacked : w.queue.status m deviceId ≠ some .acked)
    (hexcluded : w.queue.status m deviceId ≠ some .senderExcluded) :
    w.Sends keyOf (.relay (.register ws did deviceId) env) ws (.message m row.envelope) := by
  have hm : row.messageId = m := key_of_get? hrow
  refine ⟨(w.queue.deliverOnConnect did deviceId).1.map fun row =>
    (ws, .message row.messageId row.envelope), ?_, ?_⟩
  · show (w.completeRegistration ws did deviceId).outbox = _
    unfold completeRegistration
    rw [if_pos hreg]
  · apply List.mem_map.mpr
    refine ⟨row, mem_deliverOnConnect.mpr ⟨mem_of_get? hrow, hto, ?_⟩,
      by rw [hm]⟩
    rw [hm]
    rcases hst : w.queue.status m deviceId with _ | st
    · exact .inl rfl
    cases st with
    | pending => exact .inr rfl
    | acked => exact absurd hst hacked
    | senderExcluded => exact absurd hst hexcluded

/-- What a turn of the broker keeps and hands out. -/
structure InboxStep (keyOf : Did → Option PublicKey) (w : InboxRelay) (t : InboxTurn)
    (w' : InboxRelay) : Prop where
  /-- A retained message goes when it has expired or everybody who counts has it. -/
  removed : ∀ m row, w.queue.messages.get? m = some row →
    w'.queue.messages.get? m ≠ some row → Expired w t row ∨ FullyAcked w t w' row
  /-- A device that connects is handed every retained message of its DID that it has
      neither acknowledged nor sent itself. -/
  handed : ∀ ws did deviceId env m row, t = .relay (.register ws did deviceId) env →
    w.registers ws did deviceId = true → w.queue.messages.get? m = some row →
    row.toDid = did → w.queue.status m deviceId ≠ some .acked →
    w.queue.status m deviceId ≠ some .senderExcluded → w.Sends keyOf t ws (.message m row.envelope)
  /-- Only a device itself settles its entries. -/
  settled : ∀ m d, (w'.queue.status m d = some .acked → w.HasAcked t m d) ∧
    (w'.queue.status m d = some .senderExcluded →
      w.queue.status m d = some .senderExcluded ∨ w.selfSendOf t = some (m, d))
  /-- Every entry belongs to a retained message. -/
  referenced : Referenced w'.queue
  /-- An acknowledgement changes the entry of its own device, apart from the deletion of
      the message it completes. -/
  acknowledged : ∀ ws envelope m d, t = .ack ws envelope →
    w'.queue.status m d ≠ w.queue.status m d →
      w.ackOf t = some (m, d) ∧ w.queue.status m d = some .pending ∧
          w'.queue.status m d = some .acked ∨
        w'.queue.messages.get? m = none ∧ ∃ d', w.ackOf t = some (m, d')

theorem Run.referenced {docLog : BrokerStore} {clock : Nat}
    (h : Run keyOf (InboxRelay.start docLog clock) w) : Referenced w.queue := by
  induction h with
  | start =>
    intro entry hentry
    cases hentry
  | turn _ t ih => exact (queueStep_turn _ t).referenced ih

/-- **The inbox loses nothing**: every turn of every run, over any device list. -/
theorem inbox_step {docLog : BrokerStore} {clock : Nat} (h : Run keyOf (start docLog clock) w)
    (t : InboxTurn) : InboxStep keyOf w t (w.turn keyOf t) where
  removed m row hrow hgone := (queueStep_turn w t).removed hrow hgone
  handed := by
    rintro ws did deviceId env m row rfl hreg hrow hto hacked hexcluded
    exact sends_register hreg hrow hto hacked hexcluded
  settled m d := (queueStep_turn w t).settled
  referenced := (queueStep_turn w t).referenced h.referenced
  acknowledged ws envelope m d ht hchanged := (queueStep_turn w t).acknowledged ht hchanged

/-! ## 6. Two devices of one identity -/

/-- An invitation that `did:alice` sends to its own devices. -/
def invitation : InboxEnvelope where
  typ := DIDCOMM_PLAINTEXT_TYP
  type := "https://web-of-trust.de/protocols/space-invite/1.0"
  id := some "00000000-0000-4000-8000-000000000001"
  toDids := ["did:alice"]
  body := ""

def invitationSent : List InboxTurn :=
  [.relay (.register 1 "did:alice" "device-1") relayEnv,
    .relay (.register 2 "did:alice" "device-2") relayEnv, .send 1 invitation "uuid-1"]

def invitationAck : InboxTurn :=
  .ack 2 (.ack "00000000-0000-4000-8000-000000000002" "00000000-0000-4000-8000-000000000001")

/-- The second device acknowledges: everybody who counts has the message, and it goes. -/
theorem inbox_step_completed : ∃ w row, Run some (start .fresh 0) w ∧
    w.queue.messages.get? "00000000-0000-4000-8000-000000000001" = some row ∧
      (w.turn some invitationAck).queue.messages.get? "00000000-0000-4000-8000-000000000001" =
        none ∧ InboxStep some w invitationAck (w.turn some invitationAck) := by
  have hrun : Run some (start .fresh 0) ((start .fresh 0).turns some invitationSent) :=
    Run.start.turns some invitationSent
  refine ⟨_, ⟨"00000000-0000-4000-8000-000000000001", "did:alice", invitation, 0⟩, hrun, ?_, ?_,
    inbox_step hrun invitationAck⟩
  · decide
  · decide

/-- **The excluded sender** is a device that has not acknowledged and is handed nothing
    when it connects. -/
theorem sender_not_handed :
    ¬ ∀ w ws did deviceId env m row, Run some (start .fresh 0) w →
      w.registers ws did deviceId = true → w.queue.messages.get? m = some row →
      row.toDid = did → w.queue.status m deviceId ≠ some .acked →
        w.Sends some (.relay (.register ws did deviceId) env) ws (.message m row.envelope) := by
  intro hclaim
  have hrun : Run some (start .fresh 0)
      ((start .fresh 0).turns some (invitationSent ++ [.relay (.close 1) relayEnv])) :=
    Run.start.turns some _
  obtain ⟨frames, hout, hmem⟩ := hclaim _ 3 "did:alice" "device-1" relayEnv
    "00000000-0000-4000-8000-000000000001"
    ⟨"00000000-0000-4000-8000-000000000001", "did:alice", invitation, 0⟩ hrun (by decide)
    (by decide) rfl (by decide)
  -- the connection sends nothing at all
  have hsilent : (((start .fresh 0).turns some
      (invitationSent ++ [.relay (.close 1) relayEnv])).turn some
        (.relay (.register 3 "did:alice" "device-1") relayEnv)).outbox =
      ((start .fresh 0).turns some (invitationSent ++ [.relay (.close 1) relayEnv])).outbox := by
    decide
  rw [hsilent] at hout
  have hnil : frames = [] := by simpa using hout
  rw [hnil] at hmem
  cases hmem

end InboxRelay

end WebOfTrust
