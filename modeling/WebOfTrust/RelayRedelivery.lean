/-
  **Redelivery and echo.**  What a device has acknowledged, or has sent to its own DID, is
  remembered in its entry alone: `acked` or `sender-excluded`.

  The sweep deletes the entries of devices that have not registered for 90 days, also of
  those that are connected; the next pick-up makes a new one (`echo_after_sweep`).  A
  sender outside that window never gets its entry, an acknowledgement without an entry
  leaves no trace, and a message that is sent again is delivered live without a look at
  the entries.  Where none of this happens, no device is handed a message again
  (`no_redelivery`).
-/
import WebOfTrust.RelayInbox

namespace WebOfTrust

open Async OfflineQueue BrokerStore List

namespace InboxRelay

/-! ## 1. What a device is done with -/

def isSettled (w : InboxRelay) (messageId : String) (deviceId : DeviceId) : Bool :=
  decide (w.queue.status messageId deviceId = some .acked) ||
    decide (w.queue.status messageId deviceId = some .senderExcluded)

def doneAfter (w : InboxRelay) (t : InboxTurn) (w' : InboxRelay) (done : Set (String × DeviceId)) :
    Set (String × DeviceId) :=
  fun k => (∃ row, w'.queue.messages.get? k.1 = some row) ∧
    (k ∈ done ∨ w.ackOf t = some k ∨ w.selfSendOf t = some k)

variable (keyOf : Did → Option PublicKey)

inductive History (admits : InboxRelay → InboxTurn → Prop) (w₀ : InboxRelay) :
    InboxRelay → Set (String × DeviceId) → Prop where
  | start : History admits w₀ w₀ ∅
  | turn {w : InboxRelay} {done : Set (String × DeviceId)} (h : History admits w₀ w done)
      (t : InboxTurn) (ha : admits w t) :
      History admits w₀ (w.turn keyOf t) (w.doneAfter t (w.turn keyOf t) done)

section

variable (w : InboxRelay)

def Hands (t : InboxTurn) (messageId : String) (deviceId : DeviceId) : Prop :=
  ∃ ws envelope, w.Sends keyOf t ws (.message messageId envelope) ∧
    (w.turn keyOf t).relay.socketToDeviceId ws = some deviceId

/-- **No redelivery and no echo.** -/
def NoRedelivery (done : Set (String × DeviceId)) (t : InboxTurn) : Prop :=
  ∀ messageId deviceId, w.Hands keyOf t messageId deviceId →
    (messageId, deviceId) ∉ done ∧ w.selfSendOf t ≠ some (messageId, deviceId)

/-! ## 2. The runs -/

def divergent (input : InboxFanoutInput) : Bool :=
  (w.queue.messages.get? input.messageId).any fun row =>
    decide (row.toDid ≠ input.toDid) || decide (row.envelope ≠ input.envelope)

/-- A send leaves a trace: its sender, if it writes to its own DID, is done with the message
    already, or is effective-active and has no entry for it; and no socket that gets the
    message live belongs to a device that is done with it. -/
def sendTraced (envelope : InboxEnvelope) (randomUUID : String) (senderDid : Did)
    (senderDeviceId : DeviceId) (toDid : Did) : Bool :=
  let input := w.fanout envelope randomUUID senderDid senderDeviceId toDid
  w.divergent input ||
    ((!decide (senderDid = toDid) || w.isSettled input.messageId senderDeviceId ||
      ((w.relay.docLog.effectiveActiveDeviceIdsForDid toDid w.relay.clock
        DEFAULT_INACTIVE_MS).contains senderDeviceId &&
        decide (w.queue.status input.messageId senderDeviceId = none))) &&
    (w.recipientSockets input).all fun recipientWs =>
      (w.relay.socketToDeviceId recipientWs).all fun deviceId =>
        !w.isSettled input.messageId deviceId)

def remembers : InboxTurn → Bool
  | .collectGarbage =>
    -- settled entries of inactive devices go only with their messages
    w.queue.entries.rows.all fun entry =>
      decide (entry.status = .pending) ||
        w.queue.isCollected w.relay.docLog w.relay.clock DEFAULT_TTL_MS DEFAULT_INACTIVE_MS
          entry.messageId ||
        !isInactive w.relay.docLog w.relay.clock DEFAULT_INACTIVE_MS entry.deviceId
  | .ack ws envelope =>
    -- whoever acknowledges a retained message has an entry
    (w.ackOf (.ack ws envelope)).all fun k =>
      !w.queue.messages.has k.1 || (w.queue.status k.1 k.2).isSome
  | .send ws envelope randomUUID =>
    match w.sendGates ws envelope with
    | .error _ => true
    | .ok (senderDid, senderDeviceId, toDid) =>
      w.sendTraced envelope randomUUID senderDid senderDeviceId toDid
  | _ => true

abbrev Remembers (t : InboxTurn) : Prop := w.remembers t = true

end

abbrev AnyTurn (_ : InboxRelay) (_ : InboxTurn) : Prop := True

/-! ## 3. Devices -/

variable {keyOf} {w w' : InboxRelay} {t : InboxTurn} {m : String} {d : DeviceId}
  {done : Set (String × DeviceId)} {ws : SocketId} {did toDid : Did} {envelope : InboxEnvelope}
  {randomUUID : String} {senderDeviceId : DeviceId}

theorem isRevoked_effect {r r' : Relay} {p : RelayPoint} {env : Env}
    (h : Relay.Effect keyOf r env p r') (hd : r.docLog.isRevoked d = true) :
    r'.docLog.isRevoked d = true := by
  cases h with
  | bound ws did deviceId connections sent hfree => exact isRevoked_registerDevice hd
  | revoked ws payload sent henv => exact isRevoked_revokeDevice_of hd
  | expired ws docId hdrop =>
    obtain ⟨scope, sent, -, -, rfl⟩ := hdrop
    exact hd
  | closed ws =>
    rw [(r.close_spec ws).1]
    exact hd
  | cachedPersonal ws socketDid docId checked payload sent hok hclaim =>
    obtain ⟨owners, hown⟩ := r.docLog.claimPersonalDocOwner_frame docId socketDid r.clock
    rw [hown]
    exact hd
  | registered ws jws payload sent henv hok hreg =>
    obtain ⟨spaces, admins, owners, hframe⟩ := r.docLog.registerSpace_frame payload.spaceId
      payload.spaceCapabilityVerificationKey payload.adminDids (jws.kid.did?.getD "") r.clock
    rw [hframe]
    exact hd
  | inserted ws envelope payload sent haccept =>
    rw [(appendEntry_accept haccept).2.2]
    exact hd
  | _ => exact hd

theorem isRevoked_turn (hd : w.relay.docLog.isRevoked d = true) :
    (w.turn keyOf t).relay.docLog.isRevoked d = true := by
  have hrelay : ∀ (p : RelayPoint) (env : Env),
      (w.relay.advance keyOf p env).docLog.isRevoked d = true :=
    fun p env => isRevoked_effect (Relay.effect_advance p) hd
  cases t with
  | relay p env =>
    cases p with
    | register ws did deviceId =>
      show (w.completeRegistration ws did deviceId).relay.docLog.isRevoked d = true
      unfold completeRegistration
      split
      · exact hrelay (.register ws did deviceId) env
      · exact hrelay (.register ws did deviceId) env
    | deviceRevokeVerified ws checked =>
      show (w.deviceRevokeVerified ws checked env).relay.docLog.isRevoked d = true
      unfold deviceRevokeVerified
      split
      · split
        · exact hrelay (.deviceRevokeVerified ws _) env
        · exact hrelay (.deviceRevokeVerified ws _) env
      · exact hrelay (.deviceRevokeVerified ws _) env
    | _ => exact hrelay _ env
  | send ws envelope randomUUID =>
    show (w.handleSend ws envelope randomUUID).relay.docLog.isRevoked d = true
    unfold handleSend
    split
    · exact hd
    dsimp only
    split
    · exact hd
    · exact hd
  | ack ws envelope =>
    show (w.handleInboxAckEnvelope ws envelope).relay.docLog.isRevoked d = true
    unfold handleInboxAckEnvelope
    split
    · exact hd
    split
    · exact hd
    split
    · exact hd
    · exact hd
  | collectGarbage | restart => exact hd

theorem not_revoked_of_registers (h : w.registers ws did d = true) :
    w.relay.docLog.isRevoked d = false := by
  apply Bool.eq_false_iff.mpr
  intro hrevoked
  obtain ⟨r, hr, hstatus⟩ := (Option.any_eq_true _ _).mp hrevoked
  have hstatus : r.status = .revoked := of_decide_eq_true hstatus
  unfold registers registerDevice at h
  simp only [hr, Bool.and_eq_true] at h
  obtain ⟨-, h⟩ := h
  by_cases hdid : r.did = did
  · simp [hdid, hstatus] at h
  · simp [hdid] at h

theorem not_revoked_of_active {s : BrokerStore} {now inactiveMs : Nat}
    (h : d ∈ s.effectiveActiveDeviceIdsForDid did now inactiveMs) : s.isRevoked d = false := by
  unfold effectiveActiveDeviceIdsForDid at h
  simp only [mem_map, mem_filter, Bool.and_eq_true, decide_eq_true_eq] at h
  obtain ⟨r, ⟨hr, ⟨⟨-, hactive⟩, -⟩⟩, rfl⟩ := h
  unfold isRevoked
  rw [KeyedTable.mem_rows_iff.mp hr]
  simp [hactive]

/-! ## 4. Sends -/

theorem enqueueFanout_collision_iff (input : InboxFanoutInput) :
    (w.queue.enqueueFanout input).1 = .collision ↔ w.divergent input = true := by
  unfold enqueueFanout divergent
  rcases w.queue.messages.get? input.messageId with _ | row
  · simp
  simp only [Option.any_some, Bool.or_eq_true, decide_eq_true_eq]
  split
  · next hdiv => simpa using hdiv
  next hsame =>
  constructor
  · intro h
    cases h
  · intro h
    exact absurd h hsame

theorem mem_deliveryTargets {senderDid : Did}
    (h : d ∈ (w.fanout envelope randomUUID senderDid senderDeviceId
      toDid).deliveryTargetDeviceIds) :
    d ∈ w.relay.docLog.effectiveActiveDeviceIdsForDid toDid w.relay.clock DEFAULT_INACTIVE_MS ∧
      ¬ (senderDid = toDid ∧ d = senderDeviceId) := by
  have h : d ∈ ((filter _ (filter _ (filter _ (map _
    (w.relay.docLog.effectiveActiveDeviceIdsForDid toDid w.relay.clock
      DEFAULT_INACTIVE_MS))))).map BrokerInboxDevice.deviceId) := h
  simp only [mem_map, mem_filter] at h
  obtain ⟨device, ⟨⟨⟨⟨deviceId, hactive, rfl⟩, -⟩, -⟩, hother⟩, rfl⟩ := h
  refine ⟨hactive, ?_⟩
  rintro ⟨rfl, rfl⟩
  simp at hother

theorem excludedSender_of_active
    (h : senderDeviceId ∈ w.relay.docLog.effectiveActiveDeviceIdsForDid toDid w.relay.clock
      DEFAULT_INACTIVE_MS) :
    (w.fanout envelope randomUUID toDid senderDeviceId toDid).excludedSenderDeviceId =
      some senderDeviceId := by
  cases hlast :
    (w.fanout envelope randomUUID toDid senderDeviceId toDid).excludedSenderDeviceId with
  | some d => rw [(excludedSender hlast).2]
  | none =>
    have hnil := getLast?_eq_none_iff.mp hlast
    simp only [map_eq_nil_iff, filter_eq_nil_iff] at hnil
    have hmem := hnil ⟨toDid, senderDeviceId, .active⟩ (by
      simp only [mem_filter, mem_map]
      exact ⟨⟨⟨senderDeviceId, h, rfl⟩, by simp⟩, by simp⟩)
    simp at hmem

theorem sends_send {recipientWs : SocketId} {envelope' : InboxEnvelope}
    (h : w.Sends keyOf (.send ws envelope randomUUID) recipientWs (.message m envelope')) :
    ∃ senderDid senderDeviceId toDid,
      w.sendGates ws envelope = .ok (senderDid, senderDeviceId, toDid) ∧
      w.divergent (w.fanout envelope randomUUID senderDid senderDeviceId toDid) = false ∧
      (w.fanout envelope randomUUID senderDid senderDeviceId toDid).messageId = m ∧
      recipientWs ∈ w.recipientSockets
        (w.fanout envelope randomUUID senderDid senderDeviceId toDid) := by
  obtain ⟨frames, hout, hmem⟩ := h
  have hout : (w.handleSend ws envelope randomUUID).outbox = w.outbox ++ frames := hout
  unfold handleSend at hout
  split at hout
  · next rejection hgates =>
    have hframes : frames = [(ws, .error rejection.1 rejection.2)] :=
      (append_cancel_left hout).symm
    rw [hframes] at hmem
    simp at hmem
  next senderDid senderDeviceId toDid hgates =>
  dsimp only at hout
  split at hout
  · have hframes := (append_cancel_left hout).symm
    rw [hframes] at hmem
    simp at hmem
  next hfanout =>
  rw [append_assoc] at hout
  have hframes := (append_cancel_left hout).symm
  rw [hframes] at hmem
  simp only [mem_append, mem_map, mem_singleton] at hmem
  rcases hmem with ⟨recipient, hrecipient, heq⟩ | heq
  · cases heq
    refine ⟨senderDid, senderDeviceId, toDid, hgates, ?_, rfl, hrecipient⟩
    apply Bool.eq_false_iff.mpr
    intro hdiv
    exact hfanout (enqueueFanout_collision_iff _ |>.mpr hdiv)
  · cases heq

/-! ## 5. Every run that remembers -/

theorem isSettled_iff : w.isSettled m d = true ↔
      w.queue.status m d = some .acked ∨ w.queue.status m d = some .senderExcluded := by
  simp [isSettled]

theorem isSettled_of_status (h : w.isSettled m d = true)
    (hstatus : w'.queue.status m d = w.queue.status m d) : w'.isSettled m d = true := by
  unfold isSettled at h ⊢
  rw [hstatus]
  exact h

theorem isSettled_turn (h : w.isSettled m d = true) (hremembers : w.remembers t = true)
    {row : InboxMessageRow} (hrow : (w.turn keyOf t).queue.messages.get? m = some row) :
    (w.turn keyOf t).isSettled m d = true ∨ (w.turn keyOf t).relay.docLog.isRevoked d = true := by
  obtain ⟨st, hst⟩ : ∃ st, w.queue.status m d = some st := by
    rcases isSettled_iff.mp h with hst | hst <;> exact ⟨_, hst⟩
  cases queueStep_turn w t with
  | same hq => exact .inl (isSettled_of_status h (by rw [hq]))
  | pickedUp ws did deviceId env ht hreg hq =>
    left
    apply isSettled_of_status h
    rw [hq, status_deliverOnConnect, hst]
    rfl
  | enqueued ws envelope randomUUID senderDid senderDeviceId toDid ht hgates hfanout hq =>
    left
    apply isSettled_of_status h
    rw [hq, status_enqueueFanout _ hfanout, hst]
    rfl
  | acked messageId deviceId hack hq =>
    left
    rcases ackDevice_cases (q := w.queue) messageId deviceId with
      ⟨-, hresult⟩ | ⟨hpending, q₁, hmessages, hstatus, hresult⟩
    · exact isSettled_of_status h (by rw [hq, hresult])
    rw [hq, hresult, messages_dropMessages] at hrow
    split at hrow
    · cases hrow
    next hkept =>
    apply isSettled_of_status h
    rw [hq, hresult, status_dropMessages, if_neg hkept, hstatus, if_neg]
    rintro ⟨rfl, rfl⟩
    rcases isSettled_iff.mp h with hst | hst
    · cases hst.symm.trans hpending
    · cases hst.symm.trans hpending
  | revoked ws checked env deviceId ht hrevoked hq =>
    obtain ⟨q₁, affected, hmessages, hstatus, hresult⟩ :=
      deleteForDevice_spec (q := w.queue)
      deviceId
    by_cases hd : d = deviceId
    · right
      rw [hd]
      exact hrevoked
    left
    rw [hq, hresult, messages_dropMessages] at hrow
    split at hrow
    · cases hrow
    next hkept =>
    apply isSettled_of_status h
    rw [hq, hresult, status_dropMessages, if_neg hkept, hstatus, if_neg hd]
  | swept ht hrelay hq =>
    left
    subst ht
    rw [hq, (collectGarbage_spec (d := d)).1] at hrow
    split at hrow
    · cases hrow
    next hkept =>
    apply isSettled_of_status h
    rw [hq, collectGarbage_spec.2, if_neg]
    rintro (hcollected | hinactive)
    · exact hkept hcollected
    -- the sweep would have forgotten the entry
    have hentry := all_eq_true.mp hremembers _ (KeyedTable.mem_of_get? (status_eq_some.mp hst))
    have hnot : st ≠ .pending := by
      rintro rfl
      rcases isSettled_iff.mp h with h' | h'
      · cases hst.symm.trans h'
      · cases hst.symm.trans h'
    simp only [Bool.or_eq_true, decide_eq_true_eq, Bool.not_eq_true'] at hentry
    rcases hentry with (hpending | hcollected) | hactive
    · exact hnot hpending
    · exact hkept hcollected
    · rw [hinactive] at hactive
      cases hactive

theorem queue_of_ackOf {messageId : String} (h : w.ackOf t = some (messageId, d)) :
    (w.turn keyOf t).queue = (w.queue.ackDevice w.relay.docLog messageId d w.relay.clock
      DEFAULT_INACTIVE_MS).2 := by
  unfold ackOf at h
  split at h
  · next ws id messageId' =>
    split at h
    · next ackingDid deviceId hdid hdevice =>
      split at h
      · cases h
      next hkept =>
      cases h
      show (w.handleInboxAckEnvelope ws (.ack id messageId)).queue = _
      unfold handleInboxAckEnvelope
      have hnone : w.ackDiscarded ackingDid messageId = none := by simpa using hkept
      simp only [hdid, hnone, hdevice]
      rfl
    · cases h
  · cases h

theorem isSettled_of_ackOf (h : w.ackOf t = some (m, d)) (hremembers : w.remembers t = true)
    {row : InboxMessageRow} (hrow : (w.turn keyOf t).queue.messages.get? m = some row) :
    (w.turn keyOf t).isSettled m d = true := by
  rw [isSettled_iff]
  rw [queue_of_ackOf h] at hrow ⊢
  rcases ackDevice_cases (q := w.queue) m d with
    ⟨hsettled, hresult⟩ | ⟨hpending, q₁, hmessages, hstatus, hresult⟩
  · rw [hresult] at hrow ⊢
    have hentry : (w.queue.status m d).isSome = true := by
      have hretained : w.queue.messages.has m = true := by
        unfold KeyedTable.has
        rw [hrow]
        rfl
      unfold remembers at hremembers
      split at hremembers
      · unfold ackOf at h
        cases h
      · rw [h] at hremembers
        simpa [hretained] using hremembers
      · unfold ackOf at h
        cases h
      · next hack _ =>
        unfold ackOf at h
        split at h
        · exact absurd rfl (hack _ _)
        · cases h
    rcases hst : w.queue.status m d with _ | st
    · rw [hst] at hentry
      cases hentry
    cases st with
    | pending => exact absurd hst hsettled
    | acked => exact .inl rfl
    | senderExcluded => exact .inr rfl
  · rw [hresult, messages_dropMessages] at hrow
    rw [hresult, status_dropMessages]
    split at hrow
    · cases hrow
    next hkept =>
    rw [if_neg hkept, hstatus, if_pos ⟨rfl, rfl⟩]
    exact .inl rfl

theorem sendTraced_of_remembers {senderDid : Did}
    (h : w.remembers (.send ws envelope randomUUID) = true)
    (hgates : w.sendGates ws envelope = .ok (senderDid, senderDeviceId, toDid)) :
    w.sendTraced envelope randomUUID senderDid senderDeviceId toDid = true := by
  unfold remembers at h
  simp only [hgates] at h
  exact h

theorem isSettled_of_selfSendOf (h : w.selfSendOf t = some (m, d))
    (hremembers : w.remembers t = true) : (w.turn keyOf t).isSettled m d = true := by
  unfold selfSendOf at h
  split at h
  · next ws envelope randomUUID =>
    split at h
    · cases h
    next senderDid senderDeviceId toDid hgates =>
    dsimp only at h
    split at h
    · next hself =>
      cases h
      obtain ⟨rfl, hfanout⟩ := hself
      have hqueue : (w.turn keyOf (.send ws envelope randomUUID)).queue =
          (w.queue.enqueueFanout (w.fanout envelope randomUUID senderDid d senderDid)).2 := by
        show (w.handleSend ws envelope randomUUID).queue = _
        unfold handleSend
        simp only [hgates]
      have hdivergent : w.divergent (w.fanout envelope randomUUID senderDid d senderDid) =
          false := by
        apply Bool.eq_false_iff.mpr
        intro hdiv
        exact hfanout ((enqueueFanout_collision_iff _).mpr hdiv)
      have htraced := sendTraced_of_remembers hremembers hgates
      unfold sendTraced at htraced
      simp only [hdivergent, Bool.false_or, Bool.and_eq_true, Bool.or_eq_true,
        Bool.not_eq_true', decide_eq_true_eq, decide_eq_false_iff_not,
        contains_iff_mem] at htraced
      obtain ⟨htrace, -⟩ := htraced
      rw [isSettled_iff, hqueue, status_enqueueFanout _ hfanout]
      rcases htrace with (hforeign | hsettled) | ⟨hactive, hfree⟩
      · exact absurd trivial hforeign
      · rcases isSettled_iff.mp hsettled with hst | hst
        · rw [hst]
          exact .inl rfl
        · rw [hst]
          exact .inr rfl
      rw [hfree, Option.none_or, if_pos rfl, if_neg, if_pos (excludedSender_of_active hactive)]
      · exact .inr rfl
      · intro htarget
        exact (mem_deliveryTargets htarget).2 ⟨rfl, rfl⟩
    · cases h
  · cases h

def Settled (w : InboxRelay) (done : Set (String × DeviceId)) : Prop :=
  ∀ m d, (m, d) ∈ done → w.isSettled m d = true ∨ w.relay.docLog.isRevoked d = true

theorem Settled.turn (h : Settled w done) (hremembers : w.remembers t = true) :
    Settled (w.turn keyOf t) (w.doneAfter t (w.turn keyOf t) done) := by
  rintro m d ⟨⟨row, hrow⟩, hdone | hack | hself⟩
  · rcases h m d hdone with hsettled | hrevoked
    · exact isSettled_turn hsettled hremembers hrow
    · exact .inr (isRevoked_turn hrevoked)
  · exact .inl (isSettled_of_ackOf hack hremembers hrow)
  · exact .inl (isSettled_of_selfSendOf hself hremembers)

theorem History.settled {docLog : BrokerStore} {clock : Nat}
    (h : History keyOf Remembers (InboxRelay.start docLog clock) w done) : Settled w done := by
  induction h with
  | start =>
    intro m d hdone
    exact hdone.elim
  | turn _ t ha ih => exact ih.turn ha

theorem hands_register {deviceId : DeviceId} {env : Env}
    (h : w.Hands keyOf (.relay (.register ws did deviceId) env) m d) :
    w.isSettled m d = false ∧ w.relay.docLog.isRevoked d = false := by
  obtain ⟨ws', envelope, ⟨frames, hout, hmem⟩, hdevice⟩ := h
  have hout : (w.completeRegistration ws did deviceId).outbox = w.outbox ++ frames := hout
  have hdevice : (w.completeRegistration ws did deviceId).relay.socketToDeviceId ws' = some d :=
    hdevice
  unfold completeRegistration at hout hdevice
  split at hout
  · next hreg =>
    rw [if_pos hreg] at hdevice
    have hframes := (append_cancel_left hout).symm
    rw [hframes] at hmem
    obtain ⟨row, hrow, heq⟩ := mem_map.mp hmem
    cases heq
    obtain ⟨-, -, hstatus⟩ := mem_deliverOnConnect.mp hrow
    -- the socket now belongs to the registered device
    have hsame : deviceId = d := by
      have hfree := hreg
      unfold registers at hfree
      simp only [Bool.and_eq_true, Option.isNone_iff_eq_none] at hfree
      obtain ⟨hsocket, hregistered⟩ := hfree
      have hdevice : (w.relay.completeRegistration ws did deviceId).socketToDeviceId ws = some d :=
        hdevice
      unfold Relay.completeRegistration at hdevice
      rw [hsocket] at hdevice
      split at hregistered
      · next isNew hresult =>
        simp only [Option.isSome_none, hresult] at hdevice
        have hdevice : Function.update w.relay.socketToDeviceId ws (some deviceId) ws = some d :=
          hdevice
        rw [Function.update_self] at hdevice
        exact Option.some.inj hdevice
      · cases hregistered
    rw [hsame] at hstatus hreg
    constructor
    · apply Bool.eq_false_iff.mpr
      intro hsettled
      rcases isSettled_iff.mp hsettled with hst | hst
      · rw [hst] at hstatus
        simp at hstatus
      · rw [hst] at hstatus
        simp at hstatus
    · exact not_revoked_of_registers hreg
  · have hnil : frames = [] := by simpa using hout
    rw [hnil] at hmem
    cases hmem

theorem hands_send (hremembers : w.remembers (.send ws envelope randomUUID) = true)
    (h : w.Hands keyOf (.send ws envelope randomUUID) m d) :
    w.isSettled m d = false ∧ w.relay.docLog.isRevoked d = false ∧
      w.selfSendOf (.send ws envelope randomUUID) ≠ some (m, d) := by
  obtain ⟨ws', envelope', hsends, hdevice⟩ := h
  obtain ⟨senderDid, senderDeviceId, toDid, hgates, hdivergent, rfl, hrecipient⟩ :=
    sends_send hsends
  have hrelay : (w.turn keyOf (.send ws envelope randomUUID)).relay = w.relay := by
    show (w.handleSend ws envelope randomUUID).relay = w.relay
    unfold handleSend
    split
    · rfl
    · dsimp only
      split <;> rfl
  rw [hrelay] at hdevice
  have htarget : d ∈ (w.fanout envelope randomUUID senderDid senderDeviceId
      toDid).deliveryTargetDeviceIds := by
    have hconnected := (mem_filter.mp hrecipient).2
    rw [hdevice] at hconnected
    simpa using hconnected
  obtain ⟨hactive, hother⟩ := mem_deliveryTargets htarget
  refine ⟨?_, not_revoked_of_active hactive, ?_⟩
  · have htraced := sendTraced_of_remembers hremembers hgates
    unfold sendTraced at htraced
    simp only [hdivergent, Bool.false_or, Bool.and_eq_true] at htraced
    have hlive := all_eq_true.mp htraced.2 ws' hrecipient
    rw [hdevice] at hlive
    simpa using hlive
  · intro hself
    unfold selfSendOf at hself
    simp only [hgates] at hself
    split at hself
    · next hown =>
      have hsender := congrArg Prod.snd (Option.some.inj hself)
      exact hother ⟨hown.1, hsender.symm⟩
    · cases hself

theorem hands_cases (h : w.Hands keyOf t m d) :
    (∃ ws did deviceId env, t = .relay (.register ws did deviceId) env) ∨
      ∃ ws envelope randomUUID, t = .send ws envelope randomUUID := by
  obtain ⟨ws', envelope', ⟨frames, hout, hmem⟩, -⟩ := h
  have silent (hsame : (w.turn keyOf t).outbox = w.outbox) : False := by
    rw [hsame] at hout
    have hnil : frames = [] := by simpa using hout
    rw [hnil] at hmem
    cases hmem
  have answers (ws : SocketId) (frame : InboxFrame)
      (hone : (w.turn keyOf t).outbox = w.outbox ++ [(ws, frame)])
      (hnot : ∀ m envelope, frame ≠ .message m envelope) : False := by
    rw [hone] at hout
    have hframes := (append_cancel_left hout).symm
    rw [hframes] at hmem
    cases mem_singleton.mp hmem
    exact hnot _ _ rfl
  cases t with
  | relay p env =>
    cases p with
    | register ws did deviceId => exact .inl ⟨ws, did, deviceId, env, rfl⟩
    | deviceRevokeVerified ws checked =>
      refine (silent ?_).elim
      show (w.deviceRevokeVerified ws checked env).outbox = w.outbox
      unfold deviceRevokeVerified
      split
      · split <;> rfl
      · rfl
    | _ => exact (silent rfl).elim
  | send ws envelope randomUUID => exact .inr ⟨ws, envelope, randomUUID, rfl⟩
  | ack ws envelope =>
    exfalso
    have hone : ∃ frame, (w.handleInboxAckEnvelope ws envelope).outbox = w.outbox ++ [(ws, frame)] ∧
        ∀ m envelope, frame ≠ .message m envelope := by
      unfold handleInboxAckEnvelope
      split
      · exact ⟨_, rfl, by simp⟩
      split
      · exact ⟨_, rfl, by simp⟩
      split
      · exact ⟨_, rfl, by simp⟩
      · exact ⟨_, rfl, by simp⟩
    obtain ⟨frame, hone, hnot⟩ := hone
    exact answers ws frame hone hnot
  | collectGarbage | restart => exact (silent rfl).elim

/-- **No device is handed a message again** in a run that remembers, over any device
    list. -/
theorem no_redelivery {docLog : BrokerStore} {clock : Nat}
    (h : History keyOf Remembers (InboxRelay.start docLog clock) w done)
    (hremembers : Remembers w t) : NoRedelivery keyOf w done t := by
  intro m d hhands
  have notDone (hsettled : w.isSettled m d = false)
      (hrevoked : w.relay.docLog.isRevoked d = false) : (m, d) ∉ done := by
    intro hdone
    rcases h.settled m d hdone with h' | h'
    · rw [hsettled] at h'
      cases h'
    · rw [hrevoked] at h'
      cases h'
  rcases hands_cases hhands with ⟨ws, did, deviceId, env, rfl⟩ | ⟨ws, envelope, randomUUID, rfl⟩
  · obtain ⟨hsettled, hrevoked⟩ := hands_register hhands
    refine ⟨notDone hsettled hrevoked, ?_⟩
    intro hself
    cases hself
  · obtain ⟨hsettled, hrevoked, hself⟩ := hands_send hremembers hhands
    exact ⟨notDone hsettled hrevoked, hself⟩

/-! ## 6. An acknowledged message, and an echo -/

variable (keyOf) in
def doneTurns : InboxRelay → Set (String × DeviceId) → List InboxTurn → Set (String × DeviceId)
  | _, done, [] => done
  | w, done, t :: rest =>
    doneTurns (w.turn keyOf t) (w.doneAfter t (w.turn keyOf t) done) rest

theorem History.turns {admits : InboxRelay → InboxTurn → Prop} {w₀ : InboxRelay}
    (h : History keyOf admits w₀ w done) (ts : List InboxTurn)
    (ha : ∀ n (hn : n < ts.length), admits (w.turns keyOf (ts.take n)) ts[n]) :
    History keyOf admits w₀ (w.turns keyOf ts) (doneTurns keyOf w done ts) := by
  induction ts generalizing w done with
  | nil => exact h
  | cons t rest ih =>
    apply ih (h.turn t (ha 0 (by simp)))
    intro n hn
    exact ha (n + 1) (by simpa using hn)

theorem mem_doneTurns_of_mem {ts : List InboxTurn} (hdone : (m, d) ∈ done)
    (hretained : ∀ n < ts.length,
      ((w.turns keyOf (ts.take (n + 1))).queue.messages.get? m).isSome = true) :
    (m, d) ∈ doneTurns keyOf w done ts := by
  induction ts generalizing w done with
  | nil => exact hdone
  | cons t rest ih =>
    apply ih
    · exact ⟨Option.isSome_iff_exists.mp (hretained 0 (by simp)), .inl hdone⟩
    · intro n hn
      exact hretained (n + 1) (by simpa using hn)

theorem mem_doneTurns (pre : List InboxTurn) {post : List InboxTurn}
    (ht : (w.turns keyOf pre).ackOf t = some (m, d) ∨
      (w.turns keyOf pre).selfSendOf t = some (m, d))
    (hretained : ∀ n ≤ post.length,
      ((w.turns keyOf (pre ++ t :: post.take n)).queue.messages.get? m).isSome = true) :
    (m, d) ∈ doneTurns keyOf w done (pre ++ t :: post) := by
  induction pre generalizing w done with
  | nil =>
    have hdone : (m, d) ∈ w.doneAfter t (w.turn keyOf t) done :=
      ⟨Option.isSome_iff_exists.mp (hretained 0 (by simp)), .inr ht⟩
    show (m, d) ∈ doneTurns keyOf (w.turn keyOf t) _ post
    exact mem_doneTurns_of_mem hdone fun n hn => hretained (n + 1) hn
  | cons t' rest ih => exact ih ht hretained

/-- The second of three devices acknowledges the invitation of the first one, and
    disconnects. -/
def invitationPending : List InboxTurn :=
  .relay (.register 3 "did:alice" "device-3") relayEnv :: invitationSent ++
    [invitationAck, .relay (.close 2) relayEnv]

/-- It reconnects while the third one has not acknowledged. -/
theorem no_redelivery_acked : ∃ w done, History some Remembers (start .fresh 0) w done ∧
    ("00000000-0000-4000-8000-000000000001", "device-2") ∈ done ∧
      NoRedelivery some w done (.relay (.register 4 "did:alice" "device-2") relayEnv) := by
  have hrun : History some Remembers (start .fresh 0) _ _ :=
    History.start.turns invitationPending (by decide)
  refine ⟨_, _, hrun, ?_, no_redelivery hrun (by decide)⟩
  exact mem_doneTurns (.relay (.register 3 "did:alice" "device-3") relayEnv :: invitationSent)
    (.inl (by decide)) (by decide)

/-- The first device writes to its own DID 80 days after it has connected, and reconnects
    eleven days later; the second one has not acknowledged by then. -/
def invitationAgedOut : List InboxTurn :=
  [.relay (.register 1 "did:alice" "device-1") relayEnv, .relay (.tick 6912000000) relayEnv,
    .relay (.register 2 "did:alice" "device-2") relayEnv, .send 1 invitation "uuid-1",
    .relay (.tick 7862400000) relayEnv, .collectGarbage, .relay (.close 1) relayEnv]

/-- **The echo**: the sweep has deleted the `sender-excluded` entry of a device that was
    connected all the time, and the device is handed the message that it has sent. -/
theorem echo_after_sweep :
    ¬ ∀ w done t, History some AnyTurn (start .fresh 0) w done → NoRedelivery some w done t := by
  intro hclaim
  have hrun : History some AnyTurn (start .fresh 0) _ _ :=
    History.start.turns invitationAgedOut fun _ _ => trivial
  have hsent : ("00000000-0000-4000-8000-000000000001", "device-1") ∈
      doneTurns some (start .fresh 0) ∅ invitationAgedOut :=
    mem_doneTurns (invitationAgedOut.take 3) (.inr (by decide)) (by decide)
  have hhanded : Hands some ((start .fresh 0).turns some invitationAgedOut)
      (.relay (.register 3 "did:alice" "device-1") relayEnv)
      "00000000-0000-4000-8000-000000000001" "device-1" :=
    ⟨3, invitation, ⟨[(3, .message "00000000-0000-4000-8000-000000000001" invitation)],
      by decide, by decide⟩, by decide⟩
  exact (hclaim _ _ _ hrun _ _ hhanded).1 hsent

end InboxRelay

end WebOfTrust
