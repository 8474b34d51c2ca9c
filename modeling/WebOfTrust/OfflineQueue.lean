/-
  **The broker's inbox** (`wot-relay/src/queue.ts`): every message once, and for each
  device of its recipient what has become of it.

  All functions are synchronous SQLite transactions, hence functions of the two tables and
  of the device list.  What each does to the messages and to the status of an entry is said
  once (`messages_*`, `status_*`).  The migration of the legacy table and the counts for the
  dashboard are left out.
-/
import WebOfTrust.BrokerStore

namespace WebOfTrust

open KeyedTable

/-! ## 1. Tables -/

structure InboxEnvelope where
  typ : String
  type : String
  id : Option String
  toDids : List String
  body : String
deriving DecidableEq

inductive InboxEntryStatus where
  | pending
  | acked
  | senderExcluded
deriving DecidableEq

structure InboxMessageRow where
  messageId : String
  toDid : Did
  envelope : InboxEnvelope
  createdAt : Nat
deriving DecidableEq

structure InboxEntryRow where
  messageId : String
  deviceId : DeviceId
  status : InboxEntryStatus

def InboxEntryRow.key (r : InboxEntryRow) : String × DeviceId := (r.messageId, r.deviceId)

def InboxEntryRow.ack (r : InboxEntryRow) : InboxEntryRow := { r with status := .acked }

open InboxEntryRow

/-- The tables of the inbox; messages in the order of their `id`. -/
structure OfflineQueue where
  messages : KeyedTable InboxMessageRow.messageId
  entries : KeyedTable key

def DEFAULT_TTL_MS : Nat := 30 * 24 * 60 * 60 * 1000

def DEFAULT_INACTIVE_MS : Nat := 90 * 24 * 60 * 60 * 1000

namespace OfflineQueue

def empty : OfflineQueue where
  messages := .empty
  entries := .empty

def status (q : OfflineQueue) (messageId : String) (deviceId : DeviceId) :
    Option InboxEntryStatus :=
  (q.entries.get? (messageId, deviceId)).map (·.status)

/-! ## 2. Enqueue and delivery -/

structure InboxFanoutInput where
  messageId : String
  toDid : Did
  envelope : InboxEnvelope
  deliveryTargetDeviceIds : List DeviceId
  excludedSenderDeviceId : Option DeviceId
  nowMs : Nat

inductive FanoutDisposition where
  | inserted
  | idempotent
  | collision
deriving DecidableEq

def InboxFanoutInput.entries (input : InboxFanoutInput) : List InboxEntryRow :=
  input.deliveryTargetDeviceIds.map (fun deviceId => ⟨input.messageId, deviceId, .pending⟩) ++
    input.excludedSenderDeviceId.toList.map fun deviceId =>
      ⟨input.messageId, deviceId, .senderExcluded⟩

def enqueueFanout (q : OfflineQueue) (input : InboxFanoutInput) :
    FanoutDisposition × OfflineQueue :=
  match q.messages.get? input.messageId with
  | some existing =>
    if existing.toDid ≠ input.toDid ∨ existing.envelope ≠ input.envelope then (.collision, q)
    else (.idempotent, { q with entries := q.entries.addAll input.entries })
  | none =>
    (.inserted,
      { messages := q.messages.add
          { messageId := input.messageId, toDid := input.toDid, envelope := input.envelope
            createdAt := input.nowMs }
        entries := q.entries.addAll input.entries })

/-- `deliverOnConnect`: an entry for every message without one, then everything that is
    pending, in the order of the messages. -/
def deliverOnConnect (q : OfflineQueue) (toDid : Did) (deviceId : DeviceId) :
    List InboxMessageRow × OfflineQueue :=
  let addressed := q.messages.rows.filter fun m => decide (m.toDid = toDid)
  let q : OfflineQueue :=
    { q with
      entries := q.entries.addAll (addressed.map fun m => ⟨m.messageId, deviceId, .pending⟩) }
  (addressed.filter fun m => decide (q.status m.messageId deviceId = some .pending), q)

/-! ## 3. Acknowledgement, revocation and retention -/

/-- Delete the messages that `p` selects, with all their entries. -/
def dropMessages (q : OfflineQueue) (p : String → Bool) : OfflineQueue where
  messages := q.messages.filter fun m => !p m.messageId
  entries := q.entries.filter fun e => !p e.messageId

def deleteMessage (q : OfflineQueue) (messageId : String) : OfflineQueue :=
  q.dropMessages fun id => decide (id = messageId)

/-- `isFullyDelivered`: somebody has acknowledged, and every effective-active device of
    the recipient has, or is the excluded sender. -/
def isFullyDelivered (q : OfflineQueue) (devices : BrokerStore) (nowMs inactiveMs : Nat)
    (messageId : String) : Bool :=
  match q.messages.get? messageId with
  | none => false
  | some message =>
    (q.entries.rows.any fun e =>
      decide (e.messageId = messageId) && decide (e.status = .acked)) &&
    (devices.effectiveActiveDeviceIdsForDid message.toDid nowMs inactiveMs).all fun deviceId =>
      decide (q.status messageId deviceId = some .acked) ||
        decide (q.status messageId deviceId = some .senderExcluded)

/-- `ackDevice`, with the flag `applied`. -/
def ackDevice (q : OfflineQueue) (devices : BrokerStore) (messageId : String)
    (deviceId : DeviceId) (nowMs inactiveMs : Nat) : Bool × OfflineQueue :=
  if q.status messageId deviceId ≠ some .pending then (false, q)
  else
    let q : OfflineQueue :=
      { q with entries := q.entries.update (messageId, deviceId) ack }
    (true, if q.isFullyDelivered devices nowMs inactiveMs messageId then q.deleteMessage messageId
      else q)

def deleteDelivered (q : OfflineQueue) (devices : BrokerStore) (nowMs inactiveMs : Nat)
    (messageIds : List String) : OfflineQueue :=
  messageIds.foldl (fun q messageId =>
      if q.isFullyDelivered devices nowMs inactiveMs messageId then q.deleteMessage messageId
      else q) q

def deleteForDevice (q : OfflineQueue) (devices : BrokerStore) (deviceId : DeviceId)
    (nowMs inactiveMs : Nat) : OfflineQueue :=
  let affected := (q.entries.rows.filter fun e => decide (e.deviceId = deviceId)).map (·.messageId)
  let q : OfflineQueue :=
    { q with entries := q.entries.filter fun e => decide (e.deviceId ≠ deviceId) }
  q.deleteDelivered devices nowMs inactiveMs affected

/-- `collectGarbage`: what is fully delivered, what is older than `ttlMs`, and the entries
    of devices that have not been seen for `inactiveMs`.  The counts it returns are read by
    nobody. -/
def collectGarbage (q : OfflineQueue) (devices : BrokerStore) (nowMs ttlMs inactiveMs : Nat) :
    OfflineQueue :=
  let q := q.deleteDelivered devices nowMs inactiveMs (q.messages.rows.map (·.messageId))
  let expired := (q.messages.rows.filter fun m => decide (m.createdAt < nowMs - ttlMs)).map
    (·.messageId)
  let q := expired.foldl deleteMessage q
  let inactive := (devices.devices.rows.filter fun r =>
    decide (r.lastSeenAt < nowMs - inactiveMs)).map (·.deviceId)
  { q with entries := q.entries.filter fun e => !inactive.contains e.deviceId }

def getByMessageId (q : OfflineQueue) (messageId : String) : Option (Did × InboxEnvelope) :=
  (q.messages.get? messageId).map fun m => (m.toDid, m.envelope)

/-! ## 4. What the transactions do -/

variable {q q' : OfflineQueue} {devices : BrokerStore} {nowMs ttlMs inactiveMs : Nat}
  {m : String} {d : DeviceId}

theorem status_eq_some {st : InboxEntryStatus} :
    q.status m d = some st ↔ q.entries.get? (m, d) = some ⟨m, d, st⟩ := by
  unfold status
  rw [Option.map_eq_some_iff]
  constructor
  · rintro ⟨row, hrow, rfl⟩
    have hkey := key_of_get? hrow
    rw [hrow]
    cases row
    cases hkey
    rfl
  · intro h
    exact ⟨_, h, rfl⟩

theorem status_of_mem {e : InboxEntryRow} (h : e ∈ q.entries.rows) :
    q.status e.messageId e.deviceId = some e.status :=
  status_eq_some.mpr (mem_rows_iff.mp h)

variable (p : String → Bool)

theorem messages_dropMessages :
    (q.dropMessages p).messages.get? m = if p m = true then none else q.messages.get? m := by
  have h := q.messages.get?_filter_key (fun id => !p id) m
  by_cases hp : p m = true
  · rw [if_pos hp]
    rwa [if_neg (by simp [hp])] at h
  · rw [if_neg hp]
    rwa [if_pos (by simpa using hp)] at h

theorem status_dropMessages :
    (q.dropMessages p).status m d = if p m = true then none else q.status m d := by
  have h := q.entries.get?_filter_key (fun k => !p k.1) (m, d)
  have h : (q.dropMessages p).entries.get? (m, d) = _ := h
  unfold status
  rw [h]
  by_cases hp : p m = true
  · simp [hp]
  · simp [hp]

theorem dropMessages_dropMessages (p p' : String → Bool) :
    (q.dropMessages p).dropMessages p' = q.dropMessages fun id => p id || p' id := by
  unfold dropMessages
  simp only [filter_filter, Bool.not_or]

theorem dropMessages_none : (q.dropMessages fun _ => false) = q := by
  cases q with
  | mk messages entries =>
    cases messages
    cases entries
    simp [dropMessages, filter]

theorem isFullyDelivered_iff : q.isFullyDelivered devices nowMs inactiveMs m = true ↔
      ∃ message, q.messages.get? m = some message ∧ (∃ d, q.status m d = some .acked) ∧
        ∀ d ∈ devices.effectiveActiveDeviceIdsForDid message.toDid nowMs inactiveMs,
          q.status m d = some .acked ∨ q.status m d = some .senderExcluded := by
  unfold isFullyDelivered
  rcases hm : q.messages.get? m with _ | message
  · simp
  simp only [Bool.and_eq_true, List.any_eq_true, List.all_eq_true, Bool.or_eq_true,
    decide_eq_true_eq, Option.some.injEq, exists_eq_left']
  apply and_congr_left
  intro _
  constructor
  · rintro ⟨e, he, rfl, hacked⟩
    exact ⟨e.deviceId, hacked ▸ status_of_mem he⟩
  · rintro ⟨d, hd⟩
    exact ⟨_, mem_of_get? (status_eq_some.mp hd), rfl, rfl⟩

theorem isFullyDelivered_congr (hm : q'.messages.get? m = q.messages.get? m)
    (hstatus : ∀ d, q'.status m d = q.status m d) :
    q'.isFullyDelivered devices nowMs inactiveMs m =
      q.isFullyDelivered devices nowMs inactiveMs m := by
  apply Bool.eq_iff_iff.mpr
  rw [isFullyDelivered_iff, isFullyDelivered_iff]
  simp only [hm, hstatus]

theorem isFullyDelivered_dropMessages :
    (q.dropMessages p).isFullyDelivered devices nowMs inactiveMs m =
      (!p m && q.isFullyDelivered devices nowMs inactiveMs m) := by
  by_cases hp : p m = true
  · rw [hp]
    apply Bool.eq_false_iff.mpr
    intro h
    obtain ⟨message, hm, -⟩ := isFullyDelivered_iff.mp h
    rw [messages_dropMessages, if_pos hp] at hm
    cases hm
  · rw [isFullyDelivered_congr (q := q)]
    · simp [hp]
    · rw [messages_dropMessages, if_neg hp]
    · intro d
      rw [status_dropMessages, if_neg hp]

theorem deleteDelivered_eq (messageIds : List String) :
    q.deleteDelivered devices nowMs inactiveMs messageIds = q.dropMessages fun id =>
        messageIds.contains id && q.isFullyDelivered devices nowMs inactiveMs id := by
  induction messageIds generalizing q with
  | nil =>
    simp only [List.contains_nil, Bool.false_and]
    exact dropMessages_none.symm
  | cons head rest ih =>
    show deleteDelivered (if q.isFullyDelivered devices nowMs inactiveMs head = true
      then q.deleteMessage head else q) devices nowMs inactiveMs rest = _
    rw [ih]
    by_cases hhead : q.isFullyDelivered devices nowMs inactiveMs head = true
    · rw [if_pos hhead]
      unfold deleteMessage
      rw [dropMessages_dropMessages]
      congr 1
      funext id
      rw [isFullyDelivered_dropMessages]
      by_cases hid : id = head
      · subst hid
        simp [hhead]
      · simp [hid]
    · rw [if_neg hhead]
      congr 1
      funext id
      by_cases hid : id = head
      · subst hid
        simp [hhead]
      · simp [hid]

theorem foldl_deleteMessage (messageIds : List String) :
    messageIds.foldl deleteMessage q = q.dropMessages fun id => messageIds.contains id := by
  induction messageIds generalizing q with
  | nil => exact dropMessages_none.symm
  | cons head rest ih =>
    rw [List.foldl_cons, ih]
    unfold deleteMessage
    rw [dropMessages_dropMessages]
    congr 1

theorem status_filterEntries (p : String × DeviceId → Bool) :
    ({ q with entries := q.entries.filter fun e => p e.key } : OfflineQueue).status m d =
      if p (m, d) = true then q.status m d else none := by
  have h := q.entries.get?_filter_key p (m, d)
  show (get? _ (m, d)).map _ = _
  rw [h]
  by_cases hp : p (m, d) = true
  · rw [if_pos hp, if_pos hp]
    rfl
  · rw [if_neg hp, if_neg hp]
    rfl

theorem status_addAll (rows : List InboxEntryRow) :
    ({ q with entries := q.entries.addAll rows } : OfflineQueue).status m d =
      (q.status m d).or ((rows.find? fun e => decide (e.key = (m, d))).map (·.status)) := by
  show ((q.entries.addAll rows).get? (m, d)).map _ = _
  rw [get?_addAll]
  unfold status
  cases q.entries.get? (m, d) <;> rfl

/-! ## 5. One equation for each transaction -/

theorem messages_enqueueFanout (input : InboxFanoutInput) :
    (q.enqueueFanout input).2.messages.get? m = (q.messages.get? m).or (if input.messageId = m then
        some ⟨input.messageId, input.toDid, input.envelope, input.nowMs⟩ else none) := by
  have same : ∀ row, q.messages.get? input.messageId = some row → q.messages.get? m =
      (q.messages.get? m).or (if input.messageId = m then
        some ⟨input.messageId, input.toDid, input.envelope, input.nowMs⟩ else none) := by
    intro row hrow
    by_cases hm : input.messageId = m
    · rw [← hm, hrow]
      rfl
    · simp [hm]
  unfold enqueueFanout
  split
  · next row hrow =>
    split
    · exact same row hrow
    · exact same row hrow
  · show (q.messages.add _).get? m = _
    rw [get?_add]

theorem find?_devices (messageId : String) (st : InboxEntryStatus) (ds : List DeviceId) :
    ((ds.map fun d' => (⟨messageId, d', st⟩ : InboxEntryRow)).find?
      fun e => decide (e.key = (m, d))).map (·.status) =
        if messageId = m ∧ d ∈ ds then some st else none := by
  induction ds with
  | nil => simp
  | cons head rest ih =>
    rw [List.map_cons, List.find?_cons]
    by_cases hkey : messageId = m ∧ head = d
    · simp [key, hkey]
    have hne : ¬ (key ⟨messageId, head, st⟩ = (m, d)) := by
      intro h
      cases h
      exact hkey ⟨rfl, rfl⟩
    rw [decide_eq_false hne]
    simp only [ih, List.mem_cons]
    by_cases hm : messageId = m
    · have hd : ¬ d = head := fun h => hkey ⟨hm, h.symm⟩
      simp [hm, hd]
    · simp [hm]

/-- **Enqueueing never resets a status**: it fills the gaps of the targets, and then of
    the excluded sender. -/
theorem status_enqueueFanout (input : InboxFanoutInput)
    (h : (q.enqueueFanout input).1 ≠ .collision) :
    (q.enqueueFanout input).2.status m d = (q.status m d).or (if input.messageId = m then
        if d ∈ input.deliveryTargetDeviceIds then some .pending
        else if input.excludedSenderDeviceId = some d then some .senderExcluded
        else none
      else none) := by
  have hentries : (input.entries.find? fun e => decide (e.key = (m, d))).map (·.status) =
      if input.messageId = m then
        if d ∈ input.deliveryTargetDeviceIds then some .pending
        else if input.excludedSenderDeviceId = some d then some .senderExcluded
        else none
      else none := by
    unfold InboxFanoutInput.entries
    rw [List.find?_append, Option.map_or, find?_devices, find?_devices]
    by_cases hm : input.messageId = m
    · by_cases hd : d ∈ input.deliveryTargetDeviceIds
      · simp [hm, hd]
      by_cases hx : input.excludedSenderDeviceId = some d
      · simp [hm, hd, hx]
      · simp [hm, hd, hx]
    · simp [hm]
  have hstatus : (q.enqueueFanout input).2.status m d =
      ({ q with entries := q.entries.addAll input.entries } : OfflineQueue).status m d := by
    unfold enqueueFanout at h ⊢
    split
    · next row hrow =>
      simp only [hrow] at h
      split
      · next hdiv =>
        rw [if_pos hdiv] at h
        exact absurd rfl h
      · rfl
    · rfl
  rw [hstatus, status_addAll, hentries]

/-- **A pick-up never resets a status**: it makes an entry for every message of the
    recipient that has none for the device. -/
theorem status_deliverOnConnect (toDid : Did) (deviceId : DeviceId) :
    (q.deliverOnConnect toDid deviceId).2.status m d = (q.status m d).or
        (if d = deviceId ∧ (q.messages.get? m).any (fun row => decide (row.toDid = toDid)) = true
        then some .pending else none) := by
  have hminted : ∀ rows : List InboxMessageRow,
      ((rows.map fun row => (⟨row.messageId, deviceId, .pending⟩ : InboxEntryRow)).find?
        fun e => decide (e.key = (m, d))).map (·.status) =
          if d = deviceId ∧ m ∈ rows.map (·.messageId) then some .pending else none := by
    intro rows
    induction rows with
    | nil => simp
    | cons head rest ih =>
      rw [List.map_cons, List.find?_cons]
      by_cases hkey : head.messageId = m ∧ deviceId = d
      · simp [key, hkey]
      have hne : ¬ (key ⟨head.messageId, deviceId, .pending⟩ = (m, d)) := by
        intro h
        cases h
        exact hkey ⟨rfl, rfl⟩
      rw [decide_eq_false hne]
      simp only [ih, List.map_cons, List.mem_cons]
      by_cases hd : d = deviceId
      · have hm : ¬ m = head.messageId := fun h => hkey ⟨h.symm, hd.symm⟩
        simp [hd, hm]
      · simp [hd]
  show ({ q with entries := q.entries.addAll _ } : OfflineQueue).status m d = _
  rw [status_addAll, hminted]
  congr 1
  simp only [mem_keys_filter]

/-- **What a pick-up hands out**: every message of the recipient that is pending for the
    device, or has no entry yet. -/
theorem mem_deliverOnConnect {toDid : Did} {deviceId : DeviceId} {row : InboxMessageRow} :
    row ∈ (q.deliverOnConnect toDid deviceId).1 ↔
      row ∈ q.messages.rows ∧ row.toDid = toDid ∧ (q.status row.messageId deviceId = none ∨
          q.status row.messageId deviceId = some .pending) := by
  have hstatus := status_deliverOnConnect (q := q) (m := row.messageId) (d := deviceId) toDid
    deviceId
  show row ∈ List.filter (fun m => decide (OfflineQueue.status
    (q.deliverOnConnect toDid deviceId).2 m.messageId deviceId = some .pending)) _ ↔ _
  simp only [List.mem_filter, decide_eq_true_eq, and_assoc]
  apply and_congr_right
  intro hrow
  apply and_congr_right
  intro hto
  rw [hstatus, mem_rows_iff.mp hrow]
  cases q.status row.messageId deviceId with
  | none => simp [hto]
  | some st => simp

theorem ackDevice_cases (messageId : String) (deviceId : DeviceId) :
    q.status messageId deviceId ≠ some .pending ∧
        q.ackDevice devices messageId deviceId nowMs inactiveMs = (false, q) ∨
      q.status messageId deviceId = some .pending ∧ ∃ q₁ : OfflineQueue, q₁.messages = q.messages ∧
        (∀ m d, q₁.status m d = if messageId = m ∧ deviceId = d then some .acked
          else q.status m d) ∧
        q.ackDevice devices messageId deviceId nowMs inactiveMs =
          (true, q₁.dropMessages fun id => decide (id = messageId) &&
            q₁.isFullyDelivered devices nowMs inactiveMs id) := by
  by_cases hpending : q.status messageId deviceId = some .pending
  · right
    refine ⟨hpending, { q with entries := q.entries.update (messageId, deviceId) ack }, rfl, ?_, ?_⟩
    · intro m d
      show ((q.entries.update (messageId, deviceId) ack).get? (m, d)).map _ = _
      rw [get?_update _ _ ack (fun _ => rfl), status_eq_some.mp hpending]
      by_cases hkey : messageId = m ∧ deviceId = d
      · rw [if_pos (Prod.ext hkey.1 hkey.2), if_pos hkey]
        rfl
      · rw [if_neg (fun h => hkey (Prod.mk.inj h)), if_neg hkey]
        rfl
    · unfold ackDevice
      rw [if_neg (by simpa using hpending)]
      dsimp only
      congr 1
      split
      · next hfull =>
        unfold deleteMessage
        congr 1
        funext id
        by_cases hid : id = messageId
        · subst hid
          simp [hfull]
        · simp [hid]
      · next hpart =>
        refine dropMessages_none.symm.trans ?_
        congr 1
        funext id
        by_cases hid : id = messageId
        · subst hid
          simp [hpart]
        · simp [hid]
  · left
    refine ⟨hpending, ?_⟩
    unfold ackDevice
    rw [if_pos hpending]

theorem deleteForDevice_spec (deviceId : DeviceId) :
    ∃ (q₁ : OfflineQueue) (affected : String → Bool), q₁.messages = q.messages ∧
      (∀ m d, q₁.status m d = if d = deviceId then none else q.status m d) ∧
      q.deleteForDevice devices deviceId nowMs inactiveMs = q₁.dropMessages fun id =>
        affected id && q₁.isFullyDelivered devices nowMs inactiveMs id := by
  refine ⟨{ q with entries := q.entries.filter fun e => decide (e.deviceId ≠ deviceId) }, _, rfl,
    ?_, deleteDelivered_eq _⟩
  intro m d
  have h := status_filterEntries (q := q) (m := m) (d := d) fun k => decide (k.2 ≠ deviceId)
  refine h.trans ?_
  by_cases hd : d = deviceId
  · simp [hd]
  · simp [hd]

def isCollected (q : OfflineQueue) (devices : BrokerStore) (nowMs ttlMs inactiveMs : Nat)
    (messageId : String) : Bool :=
  q.isFullyDelivered devices nowMs inactiveMs messageId ||
    (q.messages.get? messageId).any fun row => decide (row.createdAt < nowMs - ttlMs)

/-- A device that has not been seen for `inactiveMs`. -/
def isInactive (devices : BrokerStore) (nowMs inactiveMs : Nat) (deviceId : DeviceId) : Bool :=
  (devices.devices.get? deviceId).any fun row => decide (row.lastSeenAt < nowMs - inactiveMs)

theorem collectGarbage_spec : (q.collectGarbage devices nowMs ttlMs inactiveMs).messages.get? m =
        (if q.isCollected devices nowMs ttlMs inactiveMs m = true then none
        else q.messages.get? m) ∧
      (q.collectGarbage devices nowMs ttlMs inactiveMs).status m d =
        if q.isCollected devices nowMs ttlMs inactiveMs m = true ∨
          isInactive devices nowMs inactiveMs d = true then none else q.status m d := by
  -- the first loop, the second loop and the last statement, in terms of the tables before
  have hfull : ∀ id, ((q.messages.rows.map (·.messageId)).contains id &&
      q.isFullyDelivered devices nowMs inactiveMs id) =
        q.isFullyDelivered devices nowMs inactiveMs id := by
    intro id
    apply Bool.and_eq_right_iff_imp.mpr
    intro h
    obtain ⟨row, hrow, -⟩ := isFullyDelivered_iff.mp h
    simp only [List.contains_iff_mem, List.mem_map]
    exact ⟨row, mem_of_get? hrow, key_of_get? hrow⟩
  have hdelivered : q.deleteDelivered devices nowMs inactiveMs (q.messages.rows.map (·.messageId)) =
      q.dropMessages fun id => q.isFullyDelivered devices nowMs inactiveMs id := by
    rw [deleteDelivered_eq]
    congr 1
    funext id
    exact hfull id
  have hcollected : ∀ id, (q.isFullyDelivered devices nowMs inactiveMs id ||
      (((q.dropMessages fun id =>
        q.isFullyDelivered devices nowMs inactiveMs id).messages.rows.filter
        fun m => decide (m.createdAt < nowMs - ttlMs)).map (·.messageId)).contains id) =
          q.isCollected devices nowMs ttlMs inactiveMs id := by
    intro id
    unfold isCollected
    apply Bool.eq_iff_iff.mpr
    simp only [Bool.or_eq_true, List.contains_iff_mem]
    rw [show (fun m : InboxMessageRow => m.messageId) = InboxMessageRow.messageId from rfl,
      mem_keys_filter, messages_dropMessages]
    by_cases hid : q.isFullyDelivered devices nowMs inactiveMs id = true
    · simp [hid]
    · simp [hid]
  have hinactive : ∀ d, ((devices.devices.rows.filter fun r =>
      decide (r.lastSeenAt < nowMs - inactiveMs)).map (·.deviceId)).contains d =
        isInactive devices nowMs inactiveMs d := by
    intro d
    apply Bool.eq_iff_iff.mpr
    rw [List.contains_iff_mem]
    exact mem_keys_filter
  unfold collectGarbage
  simp only [hdelivered, foldl_deleteMessage, dropMessages_dropMessages, hcollected]
  constructor
  · exact messages_dropMessages _
  · refine (status_filterEntries fun k : String × DeviceId =>
      !((devices.devices.rows.filter fun r =>
        decide (r.lastSeenAt < nowMs - inactiveMs)).map (·.deviceId)).contains k.2).trans ?_
    rw [hinactive]
    have hdropped : OfflineQueue.status
        (q.dropMessages fun id => q.isCollected devices nowMs ttlMs inactiveMs id) m d = _ :=
      status_dropMessages _
    by_cases hd : isInactive devices nowMs inactiveMs d = true
    · simp [hd]
    rw [if_pos (by simp [hd])]
    refine hdropped.trans ?_
    simp [hd]

end OfflineQueue

end WebOfTrust
