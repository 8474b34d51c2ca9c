/-
  **The device list and its two classifiers** (`wot-relay/src/log-store.ts`,
  `protocol/sync/broker-device-registration-disposition.ts`,
  `protocol/sync/device-revocation-disposition.ts`).

  The rules of registration and revocation exist twice: as transactions on the table, and
  as loops over a device list that name the actions to take.  On a table of the store both
  say the same (`evaluateRegistration_eq`, `evaluateRevocation_eq`), and over whole runs a
  device keeps its owner, its revocation and the time of it (`run_device`).
-/
import WebOfTrust.BrokerLog
import WebOfTrust.BrokerErrors
import WebOfTrust.RelayFrames

namespace WebOfTrust

open KeyedTable List

/-! ## 1. The registration classifier -/

/-- A record of a device list; the registration does not look at `revokedAt`. -/
structure DeviceRecord where
  did : Did
  deviceId : DeviceId
  status : DeviceStatus
  revokedAt : Option String

inductive DeviceRegistrationAction where
  | persistActiveDeviceRegistration (did : Did) (deviceId : DeviceId)
  | deliverPendingInboxMessages (did : Did) (deviceId : DeviceId)

inductive DeviceRegistrationDisposition where
  | registered (did : Did) (deviceId : DeviceId) (isNewDevice : Bool)
      (actions : List DeviceRegistrationAction)
  | rejected (did : Did) (deviceId : DeviceId) (errorCode : BrokerErrorCode)

def DeviceRegistrationDisposition.actions : DeviceRegistrationDisposition →
    List DeviceRegistrationAction
  | .registered _ _ _ actions => actions
  | .rejected _ _ _ => []

structure DeviceRegistrationFlags where
  hasExactRevokedRegistration : Bool
  hasExactActiveRegistration : Bool
  hasConflictingRegistration : Bool

def scanRegistrations (did : Did) (deviceId : DeviceId) :
    List DeviceRecord → DeviceRegistrationFlags → DeviceRegistrationFlags
  | [], flags => flags
  | record :: rest, flags =>
    if record.deviceId ≠ deviceId then scanRegistrations did deviceId rest flags
    else if record.did ≠ did then
      scanRegistrations did deviceId rest { flags with hasConflictingRegistration := true }
    else if record.status = .revoked then { flags with hasExactRevokedRegistration := true }
    else scanRegistrations did deviceId rest { flags with hasExactActiveRegistration := true }

def evaluateBrokerDeviceRegistrationDisposition (did : Did) (deviceId : DeviceId)
    (deviceList : List DeviceRecord) (revocationWins : Bool) : DeviceRegistrationDisposition :=
  let flags := scanRegistrations did deviceId deviceList ⟨false, false, false⟩
  if revocationWins || flags.hasExactRevokedRegistration then .rejected did deviceId .deviceRevoked
  else if flags.hasConflictingRegistration then .rejected did deviceId .deviceIdConflict
  else if flags.hasExactActiveRegistration then
    .registered did deviceId false [.deliverPendingInboxMessages did deviceId]
  else
    .registered did deviceId true
      [.persistActiveDeviceRegistration did deviceId, .deliverPendingInboxMessages did deviceId]

def DeviceRegistrationAction.apply (deviceList : List DeviceRecord) :
    DeviceRegistrationAction → List DeviceRecord
  | .persistActiveDeviceRegistration did deviceId => deviceList ++ [⟨did, deviceId, .active, none⟩]
  | .deliverPendingInboxMessages _ _ => deviceList

/-! ## 2. The revocation payload -/

inductive DecodedValue where
  | string (text : String)
  | other

inductive DecodedPayload where
  | record (fields : List (String × DecodedValue))
  | other

def isLowerHex (c : Char) : Bool := c.isDigit || (decide ('a' ≤ c) && decide (c ≤ 'f'))

def matchesAll : List (Char → Bool) → List Char → Bool
  | [], [] => true
  | p :: pattern, c :: text => p c && matchesAll pattern text
  | _, _ => false

/-- `CANONICAL_UUID_V4_PATTERN`. -/
def canonicalUuidV4 (text : String) : Bool :=
  matchesAll (replicate 8 isLowerHex ++ [(· == '-')] ++ replicate 4 isLowerHex ++
    [(· == '-'), (· == '4')] ++ replicate 3 isLowerHex ++
    [(· == '-'), fun c => ['8', '9', 'a', 'b'].contains c] ++ replicate 3 isLowerHex ++
    [(· == '-')] ++ replicate 12 isLowerHex) text.toList

def takeDigits : Nat → Nat → List Char → Option (Nat × List Char)
  | 0, value, text => some (value, text)
  | _ + 1, _, [] => none
  | count + 1, value, c :: text =>
    if c.isDigit then takeDigits count (value * 10 + (c.toNat - '0'.toNat)) text else none

def takeChar (expected : Char) : List Char → Option (List Char)
  | c :: text => if c = expected then some text else none
  | [] => none

def dropFraction : List Char → Option (List Char)
  | '.' :: c :: text => if c.isDigit then some (text.dropWhile Char.isDigit) else none
  | text => some text

/-- `Z`, or a signed offset of hours and minutes. -/
def takeTimezone : List Char → Option (Nat × Nat)
  | ['Z'] => some (0, 0)
  | sign :: text => do
    if sign = '+' ∨ sign = '-' then
      let (hour, text) ← takeDigits 2 0 text
      let text ← takeChar ':' text
      let (minute, text) ← takeDigits 2 0 text
      if text = [] then some (hour, minute) else none
    else none
  | [] => none

def isLeapYear (year : Nat) : Bool :=
  decide (year % 4 = 0) && (decide (year % 100 ≠ 0) || decide (year % 400 = 0))

def daysInMonth (year month : Nat) : Nat :=
  if month = 2 then if isLeapYear year then 29 else 28
  else if month ∈ [4, 6, 9, 11] then 30 else 31

def isValidRfc3339DateTimeWithExplicitTimezone (value : String) : Bool :=
  (do
    let (year, text) ← takeDigits 4 0 value.toList
    let text ← takeChar '-' text
    let (month, text) ← takeDigits 2 0 text
    let text ← takeChar '-' text
    let (day, text) ← takeDigits 2 0 text
    let text ← takeChar 'T' text
    let (hour, text) ← takeDigits 2 0 text
    let text ← takeChar ':' text
    let (minute, text) ← takeDigits 2 0 text
    let text ← takeChar ':' text
    let (second, text) ← takeDigits 2 0 text
    let text ← dropFraction text
    let (zoneHour, zoneMinute) ← takeTimezone text
    pure (decide (1 ≤ month ∧ month ≤ 12 ∧ 1 ≤ day ∧ day ≤ daysInMonth year month ∧ hour ≤ 23 ∧
      minute ≤ 59 ∧ second ≤ 59 ∧ zoneHour ≤ 23 ∧ zoneMinute ≤ 59))).getD false

def hasExactlyOwnKeys (fields : List (String × DecodedValue)) (expectedKeys : List String) : Bool :=
  decide (fields.length = expectedKeys.length) && fields.all (fun f => expectedKeys.contains f.1) &&
    expectedKeys.all fun key => (fields.lookup key).isSome

def validateDeviceRevokePayload : DecodedPayload → Option DeviceRevokePayload
  | .other => none
  | .record fields =>
    if hasExactlyOwnKeys fields ["type", "did", "deviceId", "revokedAt"] then
      match fields.lookup "type", fields.lookup "did", fields.lookup "deviceId",
        fields.lookup "revokedAt" with
      | some (.string type), some (.string did), some (.string deviceId),
        some (.string revokedAt) =>
        if type = "device-revoke" ∧ did ≠ "" ∧ canonicalUuidV4 deviceId = true ∧
          isValidRfc3339DateTimeWithExplicitTimezone revokedAt = true then
          some ⟨did, deviceId, revokedAt⟩
        else none
      | _, _, _, _ => none
    else none

/-! ## 3. The revocation classifier -/

inductive DeviceRevocationAction where
  | markDeviceRevoked (did : Did) (deviceId : DeviceId) (revokedAt : String)
  | deletePendingInboxMessages (did : Did) (deviceId : DeviceId)
  | persistRevokedDeviceTombstone (did : Did) (deviceId : DeviceId) (revokedAt : String)
deriving DecidableEq

inductive DeviceRevocationDisposition where
  | accepted (p : DeviceRevokePayload) (actions : List DeviceRevocationAction)
  | acceptedIdempotent (p : DeviceRevokePayload)
  | acceptedTombstone (p : DeviceRevokePayload) (actions : List DeviceRevocationAction)
  | rejected (device : Option (Did × DeviceId)) (errorCode : BrokerErrorCode)
deriving DecidableEq

def DeviceRevocationDisposition.actions : DeviceRevocationDisposition → List DeviceRevocationAction
  | .accepted _ actions => actions
  | .acceptedTombstone _ actions => actions
  | .acceptedIdempotent _ => []
  | .rejected _ _ => []

/-- The loop over the device list: the exact record, a revoked one before an active one, and
    whether another DID has the id. -/
def scanRevocations (p : DeviceRevokePayload) :
    List DeviceRecord → Option DeviceRecord → Bool → Option DeviceRecord × Bool
  | [], exactDevice, foreign => (exactDevice, foreign)
  | record :: rest, exactDevice, foreign =>
    if record.deviceId ≠ p.deviceId then scanRevocations p rest exactDevice foreign
    else if record.did ≠ p.did then scanRevocations p rest exactDevice true
    else if record.status = .revoked then
      if exactDevice.all (fun d => decide (d.status ≠ .revoked)) then
        scanRevocations p rest (some record) foreign
      else scanRevocations p rest exactDevice foreign
    else scanRevocations p rest (exactDevice.or (some record)) foreign

def evaluateDeviceRevocationDisposition (decodedPayload : DecodedPayload)
    (deviceList : List DeviceRecord) : DeviceRevocationDisposition :=
  match validateDeviceRevokePayload decodedPayload with
  | none => .rejected none .malformedMessage
  | some p =>
    let (exactDevice, hasForeignDeviceIdRecord) := scanRevocations p deviceList none false
    if hasForeignDeviceIdRecord then .rejected (some (p.did, p.deviceId)) .deviceIdConflict
    else
      match exactDevice with
      | some device =>
        if device.status = .revoked then
          .acceptedIdempotent { p with revokedAt := device.revokedAt.getD p.revokedAt }
        else
          .accepted p [.markDeviceRevoked p.did p.deviceId p.revokedAt,
            .deletePendingInboxMessages p.did p.deviceId]
      | none =>
        .acceptedTombstone p [.persistRevokedDeviceTombstone p.did p.deviceId p.revokedAt]

def DeviceRevocationAction.apply (deviceList : List DeviceRecord) :
    DeviceRevocationAction → List DeviceRecord
  | .markDeviceRevoked did deviceId revokedAt =>
    deviceList.map fun record =>
      if record.deviceId = deviceId ∧ record.did = did then
        { record with status := .revoked, revokedAt := some revokedAt }
      else record
  | .deletePendingInboxMessages _ _ => deviceList
  | .persistRevokedDeviceTombstone did deviceId revokedAt =>
    deviceList ++ [⟨did, deviceId, .revoked, some revokedAt⟩]

section

variable (r : DeviceRow)

def DeviceRow.record : DeviceRecord := ⟨r.did, r.deviceId, r.status, r.revokedAt⟩

@[simp] theorem DeviceRow.record_did : r.record.did = r.did := rfl
@[simp] theorem DeviceRow.record_deviceId : r.record.deviceId = r.deviceId := rfl
@[simp] theorem DeviceRow.record_status : r.record.status = r.status := rfl
@[simp] theorem DeviceRow.record_revokedAt : r.record.revokedAt = r.revokedAt := rfl

end

open DeviceRow

namespace BrokerStore

/-! ## 4. The device list over whole runs -/

variable {s : BrokerStore} {r : DeviceRow} {deviceId : DeviceId} {did : Did}
  {p : DeviceRevokePayload} {rows : List DeviceRow}

/-- What a row keeps, whatever happens to it later. -/
structure Keeps (r r' : DeviceRow) : Prop where
  did : r'.did = r.did
  revoked : r.status = .revoked → r'.status = .revoked ∧ r'.revokedAt = r.revokedAt

theorem Keeps.refl (r : DeviceRow) : Keeps r r := ⟨rfl, fun h => ⟨h, rfl⟩⟩

theorem Keeps.trans {r' r'' : DeviceRow} (h : Keeps r r') (h' : Keeps r' r'') : Keeps r r'' := by
  refine ⟨h'.did.trans h.did, fun hr => ?_⟩
  obtain ⟨hstatus, hat⟩ := h.revoked hr
  obtain ⟨hstatus', hat'⟩ := h'.revoked hstatus
  exact ⟨hstatus', hat'.trans hat⟩

theorem keeps_update {f : DeviceRow → DeviceRow} (hf : ∀ r, (f r).deviceId = r.deviceId)
    {deviceId' : DeviceId} (h : s.devices.get? deviceId = some r)
    (hr : deviceId' = deviceId → Keeps r (f r)) :
    ∃ r', (s.devices.update deviceId' f).get? deviceId = some r' ∧ Keeps r r' := by
  rw [s.devices.get?_update deviceId' f hf]
  by_cases hk : deviceId' = deviceId
  · rw [if_pos hk, hk, h]
    exact ⟨f r, rfl, hr hk⟩
  · rw [if_neg hk, h]
    exact ⟨r, rfl, .refl r⟩

section

variable (h : s.devices.get? deviceId = some r)
include h

theorem registerDevice_keeps (did : Did) (deviceId' : DeviceId) (now : Nat) :
    ∃ r', (s.registerDevice did deviceId' now).2.devices.get? deviceId = some r' ∧ Keeps r r' := by
  simp only [registerDevice]
  split
  · split
    · exact ⟨r, h, .refl r⟩
    split
    · exact ⟨r, h, .refl r⟩
    · exact keeps_update (f := seen now) (fun _ => rfl) h fun _ =>
        ⟨rfl, fun hr => ⟨hr, rfl⟩⟩
  · exact ⟨r, get?_add_of_some h, .refl r⟩

theorem revokeDevice_keeps (did : Did) (deviceId' : DeviceId) (revokedAt : String) (now : Nat) :
    ∃ r', (s.revokeDevice did deviceId' revokedAt now).2.devices.get? deviceId = some r' ∧
      Keeps r r' := by
  simp only [revokeDevice]
  split
  · exact ⟨r, get?_add_of_some h, .refl r⟩
  next existing hexisting =>
  split
  · exact ⟨r, h, .refl r⟩
  split
  · exact ⟨r, h, .refl r⟩
  next hactive =>
  refine keeps_update (f := revoke revokedAt now) (fun _ => rfl) h fun hk =>
    ⟨rfl, fun hr => ?_⟩
  -- the row that is revoked now was not revoked before
  rw [hk, h] at hexisting
  cases hexisting
  exact absurd hr hactive

omit h in
theorem step_devices (call : LogStoreCall) :
    (∃ did deviceId now, call = .registerDevice did deviceId now) ∨
    (∃ did deviceId revokedAt now, call = .revokeDevice did deviceId revokedAt now) ∨
    (s.step call).devices = s.devices := by
  rcases step_frame (s := s) call with ⟨p, entryJws, now, rfl⟩ | ⟨-, hdevices⟩
  · refine .inr (.inr ?_)
    show (s.appendEntry p entryJws now).2.devices = s.devices
    by_cases haccept : (s.appendEntry p entryJws now).1 = .acceptNewEntry
    · rw [(appendEntry_accept haccept).2.2]
    · rw [appendEntry_other haccept]
  · exact hdevices

/-- **A device keeps its owner and its revocation** over every run. -/
theorem run_device (calls : List LogStoreCall) :
    ∃ r', (s.run calls).devices.get? deviceId = some r' ∧ Keeps r r' := by
  refine foldlRecOn calls step (motive := fun s => ∃ r', s.devices.get? deviceId = some r' ∧
    Keeps r r') ⟨r, h, .refl r⟩ ?_
  rintro s ⟨r', h', hkeeps⟩ call -
  have hstep : ∃ r'', (s.step call).devices.get? deviceId = some r'' ∧ Keeps r' r'' := by
    rcases step_devices (s := s) call with ⟨did, deviceId', now, rfl⟩ |
      ⟨did, deviceId', revokedAt, now, rfl⟩ | hsame
    · exact registerDevice_keeps h' did deviceId' now
    · exact revokeDevice_keeps h' did deviceId' revokedAt now
    · exact ⟨r', hsame ▸ h', .refl r'⟩
  obtain ⟨r'', hr'', hkeeps'⟩ := hstep
  exact ⟨r'', hr'', hkeeps.trans hkeeps'⟩

theorem revokeDevice_other (hdid : r.did ≠ did) (revokedAt : String) (now : Nat) :
    s.revokeDevice did deviceId revokedAt now = (.didMismatch, s) := by
  simp only [revokeDevice, h, hdid, ne_eq, not_false_eq_true, if_true]

end

def Timed (s : BrokerStore) : Prop :=
  ∀ r ∈ s.devices.rows, r.status = .revoked → r.revokedAt.isSome = true

theorem step_timed (h : s.Timed) (call : LogStoreCall) : (s.step call).Timed := by
  intro r hr hrevoked
  rcases step_devices (s := s) call with ⟨did, deviceId, now, rfl⟩ |
    ⟨did, deviceId, revokedAt, now, rfl⟩ | hsame
  · change r ∈ (s.registerDevice did deviceId now).2.devices.rows at hr
    simp only [registerDevice] at hr
    split at hr
    · split at hr
      · exact h r hr hrevoked
      split at hr
      · exact h r hr hrevoked
      rw [s.devices.rows_update deviceId (seen now) (fun _ => rfl)] at hr
      obtain ⟨r₀, hr₀, rfl⟩ := mem_map.mp hr
      split at hrevoked
      · next hk =>
        rw [if_pos hk]
        exact h r₀ hr₀ hrevoked
      next hk =>
      rw [if_neg hk]
      exact h r₀ hr₀ hrevoked
    · rcases mem_rows_add hr with hold | rfl
      · exact h r hold hrevoked
      · cases hrevoked
  · change r ∈ (s.revokeDevice did deviceId revokedAt now).2.devices.rows at hr
    simp only [revokeDevice] at hr
    split at hr
    · rcases mem_rows_add hr with hold | rfl
      · exact h r hold hrevoked
      · rfl
    split at hr
    · exact h r hr hrevoked
    split at hr
    · exact h r hr hrevoked
    rw [s.devices.rows_update deviceId (revoke revokedAt now) (fun _ => rfl)] at hr
    obtain ⟨r₀, hr₀, rfl⟩ := mem_map.mp hr
    split
    · rfl
    next hk =>
    rw [if_neg hk] at hrevoked
    exact h r₀ hr₀ hrevoked
  · rw [hsame] at hr
    exact h r hr hrevoked

theorem run_timed (calls : List LogStoreCall) : (fresh.run calls).Timed :=
  foldlRecOn calls step (fun _ hr => absurd hr not_mem_nil) fun _ h call _ => step_timed h call

/-! ## 5. The store against the classifiers -/

def deviceList (s : BrokerStore) : List DeviceRecord := s.devices.rows.map record

def revokedAt? (s : BrokerStore) (deviceId : DeviceId) : Option String :=
  (s.devices.get? deviceId).bind (·.revokedAt)

def DeviceRegistration.disposition (did : Did) (deviceId : DeviceId) :
    DeviceRegistration → DeviceRegistrationDisposition
  | .deviceIdConflict => .rejected did deviceId .deviceIdConflict
  | .deviceRevoked => .rejected did deviceId .deviceRevoked
  | .registered true =>
    .registered did deviceId true
      [.persistActiveDeviceRegistration did deviceId, .deliverPendingInboxMessages did deviceId]
  | .registered false => .registered did deviceId false [.deliverPendingInboxMessages did deviceId]

/-- The outcome of a revocation in the words of the classifier, with the time that stands. -/
def DeviceRevocation.disposition (p : DeviceRevokePayload) (revokedAt : String) :
    DeviceRevocation → DeviceRevocationDisposition
  | .revoked =>
    .accepted { p with revokedAt := revokedAt }
      [.markDeviceRevoked p.did p.deviceId revokedAt, .deletePendingInboxMessages p.did p.deviceId]
  | .alreadyRevoked => .acceptedIdempotent { p with revokedAt := revokedAt }
  | .tombstoned =>
    .acceptedTombstone { p with revokedAt := revokedAt }
      [.persistRevokedDeviceTombstone p.did p.deviceId revokedAt]
  | .didMismatch => .rejected (some (p.did, p.deviceId)) .deviceIdConflict

variable {records : List DeviceRecord}

theorem scanRegistrations_filter (flags : DeviceRegistrationFlags) :
    scanRegistrations did deviceId (records.filter (·.deviceId = deviceId)) flags =
      scanRegistrations did deviceId records flags := by
  fun_induction scanRegistrations did deviceId records flags <;> simp_all [scanRegistrations]

theorem scanRevocations_filter (exactDevice : Option DeviceRecord) (foreign : Bool) :
    scanRevocations p (records.filter (·.deviceId = p.deviceId)) exactDevice foreign =
      scanRevocations p records exactDevice foreign := by
  fun_induction scanRevocations p records exactDevice foreign <;> simp_all [scanRevocations]

def registrationFlags (did : Did) (flags : DeviceRegistrationFlags) :
    Option DeviceRow → DeviceRegistrationFlags
  | none => flags
  | some r =>
    if r.did ≠ did then { flags with hasConflictingRegistration := true }
    else if r.status = .revoked then { flags with hasExactRevokedRegistration := true }
    else { flags with hasExactActiveRegistration := true }

def revocationScan (p : DeviceRevokePayload) : Option DeviceRow → Option DeviceRecord × Bool
  | none => (none, false)
  | some r => if r.did ≠ p.did then (none, true) else (some r.record, false)

theorem filter_records (hnodup : (rows.map DeviceRow.deviceId).Nodup) (deviceId : DeviceId) :
    (rows.map DeviceRow.record).filter (·.deviceId = deviceId) =
      ((rows.find? fun r => decide (r.deviceId = deviceId)).map DeviceRow.record).toList := by
  induction rows with
  | nil => rfl
  | cons r rest ih =>
    obtain ⟨hr, hrest⟩ := nodup_cons.mp hnodup
    by_cases hk : r.deviceId = deviceId
    · -- no further row has the id
      have hne : ∀ r' ∈ rest, r'.deviceId ≠ deviceId := fun r' hr' heq =>
        hr (mem_map.mpr ⟨r', hr', heq.trans hk.symm⟩)
      simpa [hk] using hne
    · simpa [hk] using ih hrest

theorem scanRegistrations_rows (did : Did) (deviceId : DeviceId)
    (hnodup : (rows.map DeviceRow.deviceId).Nodup) (flags : DeviceRegistrationFlags) :
    scanRegistrations did deviceId (rows.map DeviceRow.record) flags =
      registrationFlags did flags (rows.find? fun r => decide (r.deviceId = deviceId)) := by
  rw [← scanRegistrations_filter, filter_records hnodup]
  cases h : rows.find? fun r => decide (r.deviceId = deviceId) with
  | none => rfl
  | some r =>
    have hr : r.deviceId = deviceId := by simpa using find?_some h
    show (if r.deviceId ≠ deviceId then flags else _) = _
    rw [if_neg (not_not.mpr hr)]
    rfl

theorem scanRevocations_rows (hnodup : (rows.map DeviceRow.deviceId).Nodup) :
    scanRevocations p (rows.map DeviceRow.record) none false =
      revocationScan p (rows.find? fun r => decide (r.deviceId = p.deviceId)) := by
  rw [← scanRevocations_filter, filter_records hnodup]
  cases h : rows.find? fun r => decide (r.deviceId = p.deviceId) with
  | none => rfl
  | some r =>
    have hr : r.deviceId = p.deviceId := by simpa using find?_some h
    simp [scanRevocations, revocationScan, hr]

/-- **A registration** has the outcome that the classifier names. -/
theorem evaluateRegistration_eq (did : Did) (deviceId : DeviceId) (now : Nat) :
    evaluateBrokerDeviceRegistrationDisposition did deviceId s.deviceList false =
      (s.registerDevice did deviceId now).1.disposition did deviceId := by
  have hscan := scanRegistrations_rows did deviceId s.devices.keys_nodup
  unfold evaluateBrokerDeviceRegistrationDisposition deviceList
  rw [hscan]
  simp only [registerDevice, get?]
  cases s.devices.rows.find? fun r => decide (r.deviceId = deviceId) with
  | none => rfl
  | some r =>
    by_cases hdid : r.did = did
    · by_cases hrevoked : r.status = .revoked
      · simp [registrationFlags, hdid, hrevoked, DeviceRegistration.disposition]
      · simp [registrationFlags, hdid, hrevoked, DeviceRegistration.disposition]
    · simp [registrationFlags, hdid, DeviceRegistration.disposition]

theorem revokedAt?_revokeDevice {revokedAt : String} {now : Nat}
    (h : (s.revokeDevice did deviceId revokedAt now).1 = .revoked ∨
      (s.revokeDevice did deviceId revokedAt now).1 = .tombstoned) :
    (s.revokeDevice did deviceId revokedAt now).2.revokedAt? deviceId = some revokedAt := by
  simp only [revokeDevice, revokedAt?] at h ⊢
  split
  · next hnone =>
    have hfree : s.devices.has deviceId = false := by simp [has, hnone]
    rw [get?_add_of_free (by exact hfree), if_pos rfl]
    rfl
  next existing hexisting =>
  simp only [hexisting] at h
  split
  · next hother =>
    simp [hother] at h
  next howner =>
  split
  · next hrevoked =>
    simp [howner, hrevoked] at h
  rw [s.devices.get?_update deviceId (revoke revokedAt now) (fun _ => rfl),
    if_pos rfl, hexisting]
  rfl

/-- **A revocation** whose payload is well-formed has the outcome that the classifier names. -/
theorem evaluateRevocation_eq {decodedPayload : DecodedPayload}
    (hp : validateDeviceRevokePayload decodedPayload = some p) (now : Nat) :
    evaluateDeviceRevocationDisposition decodedPayload s.deviceList =
      (s.revokeDevice p.did p.deviceId p.revokedAt now).1.disposition p
        (((s.revokeDevice p.did p.deviceId p.revokedAt now).2.revokedAt? p.deviceId).getD
          p.revokedAt) := by
  have hscan := scanRevocations_rows (p := p) s.devices.keys_nodup
  unfold evaluateDeviceRevocationDisposition deviceList
  simp only [hp, hscan]
  have hget : s.devices.rows.find? (fun r => decide (r.deviceId = p.deviceId)) =
      s.devices.get? p.deviceId := rfl
  rw [hget]
  cases hr : s.devices.get? p.deviceId with
  | none =>
    have hnew : (s.revokeDevice p.did p.deviceId p.revokedAt now).1 = .tombstoned := by
      simp [revokeDevice, hr]
    have hat := revokedAt?_revokeDevice (Or.inr hnew)
    rw [hnew, hat]
    rfl
  | some r =>
    by_cases hdid : r.did = p.did
    · by_cases hrevoked : r.status = .revoked
      · simp [revocationScan, revokeDevice, revokedAt?, hr, hdid, hrevoked,
          DeviceRevocation.disposition]
      have hnew : (s.revokeDevice p.did p.deviceId p.revokedAt now).1 = .revoked := by
        simp [revokeDevice, hr, hdid, hrevoked]
      have hat := revokedAt?_revokeDevice (Or.inl hnew)
      rw [hnew, hat]
      simp [revocationScan, hdid, hrevoked, DeviceRevocation.disposition]
    · simp [revocationScan, revokeDevice, hr, hdid, DeviceRevocation.disposition]

theorem deviceList_registerDevice (did : Did) (deviceId : DeviceId) (now : Nat) :
    (s.registerDevice did deviceId now).2.deviceList =
      ((s.registerDevice did deviceId now).1.disposition did deviceId).actions.foldl
        DeviceRegistrationAction.apply s.deviceList := by
  simp only [registerDevice]
  split
  · split
    · rfl
    split
    · rfl
    show ((s.devices.update deviceId (seen now)).rows.map record) = s.deviceList
    rw [s.devices.rows_update deviceId (seen now) (fun _ => rfl), map_map]
    apply map_congr_left
    intro r _
    by_cases hk : r.deviceId = deviceId
    · rw [Function.comp_apply, if_pos hk]
      rfl
    · rw [Function.comp_apply, if_neg hk]
  · next hnone =>
    have hfree : s.devices.has deviceId = false := by simp [has, hnone]
    show (add _ _).rows.map record = _
    rw [rows_add_of_free (by exact hfree), map_append]
    rfl

theorem deviceList_revokeDevice (p : DeviceRevokePayload) (revokedAt : String) (now : Nat)
    (hat : (s.revokeDevice p.did p.deviceId p.revokedAt now).1 = .revoked ∨
      (s.revokeDevice p.did p.deviceId p.revokedAt now).1 = .tombstoned → revokedAt = p.revokedAt) :
    (s.revokeDevice p.did p.deviceId p.revokedAt now).2.deviceList =
      ((s.revokeDevice p.did p.deviceId p.revokedAt now).1.disposition p revokedAt).actions.foldl
        DeviceRevocationAction.apply s.deviceList := by
  simp only [revokeDevice] at hat ⊢
  split
  · next hnone =>
    obtain rfl := hat (.inr (by rw [hnone]))
    have hfree : s.devices.has p.deviceId = false := by simp [has, hnone]
    show (add _ _).rows.map record = _
    rw [rows_add_of_free (by exact hfree), map_append]
    rfl
  · next existing hexisting =>
    obtain ⟨hmem, hkey⟩ := get?_eq_some_iff.mp hexisting
    split
    · rfl
    next hdid =>
    split
    · rfl
    next hactive =>
    obtain rfl := hat (.inl (by simp [hexisting, hdid, hactive]))
    show ((s.devices.update p.deviceId (revoke p.revokedAt now)).rows.map
      record) = (s.devices.rows.map record).map _
    rw [s.devices.rows_update p.deviceId (revoke p.revokedAt now) (fun _ => rfl),
      map_map, map_map]
    apply map_congr_left
    intro r hr
    by_cases hk : r.deviceId = p.deviceId
    · -- the row of the device is the one that was found, and it is the revoker's
      have hrow : r = existing := eq_of_key_eq hr hmem (hk.trans hkey.symm)
      have howner : r.did = p.did := by
        rw [hrow]
        exact not_not.mp hdid
      simp [hk, howner, revoke, record]
    · simp [hk]

theorem revokedAt?_isSome (h : s.Timed) {revokedAt : String} {now : Nat}
    (hout : (s.revokeDevice did deviceId revokedAt now).1 ≠ .didMismatch) :
    ((s.revokeDevice did deviceId revokedAt now).2.revokedAt? deviceId).isSome = true := by
  have hrevoked := isRevoked_revokeDevice hout
  obtain ⟨r, hr, hstatus⟩ := (Option.any_eq_true _ _).mp hrevoked
  have htimed := step_timed h (.revokeDevice did deviceId revokedAt now) r
    (mem_of_get? hr) (of_decide_eq_true hstatus)
  unfold revokedAt?
  rw [hr]
  exact htimed

/-- **The device list.**  In every run of the store a device keeps its owner, a revoked device
    its revocation and the time of it, and a revoke by another DID changes nothing.  On every
    table that a run reaches, a registration has the outcome and effect that its classifier
    names, and so has a revocation whose payload is valid, with the time that the table
    holds. -/
theorem device_list_as_classified (calls : List LogStoreCall) :
    (∀ deviceId r, (fresh.run calls).devices.get? deviceId = some r →
      (∀ more, ∃ r', (fresh.run (calls ++ more)).devices.get? deviceId = some r' ∧ r'.did = r.did ∧
        (r.status = .revoked → r'.status = .revoked ∧ r'.revokedAt = r.revokedAt)) ∧
      ∀ did revokedAt now, r.did ≠ did →
        ((fresh.run calls).revokeDevice did deviceId revokedAt now).2 = fresh.run calls) ∧
    (∀ did deviceId now, ∃ disposition,
      evaluateBrokerDeviceRegistrationDisposition did deviceId (fresh.run calls).deviceList false =
        disposition ∧
      ((fresh.run calls).registerDevice did deviceId now).1.disposition did deviceId = disposition ∧
      ((fresh.run calls).registerDevice did deviceId now).2.deviceList =
        disposition.actions.foldl DeviceRegistrationAction.apply (fresh.run calls).deviceList) ∧
    ∀ decodedPayload p now, validateDeviceRevokePayload decodedPayload = some p →
      ∃ disposition revokedAt,
        evaluateDeviceRevocationDisposition decodedPayload (fresh.run calls).deviceList =
          disposition ∧
        ((fresh.run calls).revokeDevice p.did p.deviceId p.revokedAt now).1.disposition p
          revokedAt =
          disposition ∧
        (((fresh.run calls).revokeDevice p.did p.deviceId p.revokedAt now).1 ≠ .didMismatch →
          ((fresh.run calls).revokeDevice p.did p.deviceId p.revokedAt now).2.revokedAt?
            p.deviceId =
            some revokedAt) ∧
        ((fresh.run calls).revokeDevice p.did p.deviceId p.revokedAt now).2.deviceList =
          disposition.actions.foldl DeviceRevocationAction.apply (fresh.run calls).deviceList := by
  refine ⟨fun deviceId r hr => ⟨fun more => ?_, fun did revokedAt now hdid => ?_⟩,
    fun did deviceId now => ?_, fun decodedPayload p now hp => ?_⟩
  · obtain ⟨r', hr', hkeeps⟩ := run_device hr more
    refine ⟨r', ?_, hkeeps.did, hkeeps.revoked⟩
    rw [run, foldl_append]
    exact hr'
  · rw [revokeDevice_other hr hdid]
  · exact ⟨_, evaluateRegistration_eq did deviceId now, rfl,
      deviceList_registerDevice did deviceId now⟩
  · refine ⟨_, _, evaluateRevocation_eq hp now, rfl, fun hout => ?_, ?_⟩
    · have hsome := revokedAt?_isSome (run_timed calls) hout
      rw [Option.getD_of_ne_none (Option.isSome_iff_ne_none.mp hsome)]
    apply deviceList_revokeDevice
    intro hout
    rw [revokedAt?_revokeDevice hout]
    rfl

def revokePayload (did : Did) (deviceId : DeviceId) (revokedAt : String) : DecodedPayload :=
  .record [("type", .string "device-revoke"), ("did", .string did), ("deviceId", .string deviceId),
    ("revokedAt", .string revokedAt)]

abbrev uuidDevice : DeviceId := "0f8fad5b-d9cb-469f-a165-70867728950e"

def revokingRun : List LogStoreCall :=
  [.registerDevice "did:a" uuidDevice 0, .revokeDevice "did:a" uuidDevice "2026-01-01T00:00:00Z" 1]

/-- The second revocation is accepted, and the first time stands. -/
theorem device_list_revoked_twice : evaluateDeviceRevocationDisposition
        (revokePayload "did:a" uuidDevice "2026-02-01T12:00:00.5+01:00")
        (fresh.run revokingRun).deviceList =
      .acceptedIdempotent ⟨"did:a", uuidDevice, "2026-01-01T00:00:00Z"⟩ := by
  have hp : validateDeviceRevokePayload
      (revokePayload "did:a" uuidDevice "2026-02-01T12:00:00.5+01:00") =
        some ⟨"did:a", uuidDevice, "2026-02-01T12:00:00.5+01:00"⟩ := by
    decide +kernel
  obtain ⟨disposition, revokedAt, heval, hstore, htime, -⟩ :=
    (device_list_as_classified revokingRun).2.2 _ _ 2 hp
  have hstored : some revokedAt = some "2026-01-01T00:00:00Z" :=
    (htime (by decide +kernel)).symm.trans (by decide +kernel)
  cases hstored
  decide +kernel

/-- The classifier refuses an id that is no UUID, and the store puts up a tombstone for it. -/
theorem malformed_revocation_stored :
    ¬ ∀ (calls : List LogStoreCall) (did : Did) (deviceId : DeviceId) (revokedAt : String)
      (now : Nat),
      ∃ time, evaluateDeviceRevocationDisposition (revokePayload did deviceId revokedAt)
          (fresh.run calls).deviceList =
        ((fresh.run calls).revokeDevice did deviceId revokedAt now).1.disposition
          ⟨did, deviceId, revokedAt⟩ time := by
  intro hclaim
  obtain ⟨time, htime⟩ := hclaim [] "did:a" "device-1" "2026-01-01T00:00:00Z" 0
  have hclassified : evaluateDeviceRevocationDisposition
      (revokePayload "did:a" "device-1" "2026-01-01T00:00:00Z") (fresh.run []).deviceList =
        .rejected none .malformedMessage := by
    decide +kernel
  cases htime

end BrokerStore

end WebOfTrust
