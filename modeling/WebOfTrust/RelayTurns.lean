/-
  **What one turn of a relay can do.**  Each turn either only sends something, or
  makes one of a few changes: it binds or unbinds a socket, moves the clock,
  caches or drops scopes, or runs one transaction of the store.  The lemmas say
  which, with everything the turn has checked before.
-/
import WebOfTrust.Relay

namespace WebOfTrust

open BrokerStore

namespace Relay

variable {keyOf : Did → Option PublicKey} {w : Relay} {ws : SocketId} {env : Env} {t : RelayPoint}

/-- Nothing but the sent frames has changed. -/
def SentOnly (w w' : Relay) : Prop := ∃ sent, w' = { w with sent := sent }

theorem sentOnly_refl (w : Relay) : SentOnly w w := ⟨_, rfl⟩

theorem getScope_cacheScope {ws' : SocketId} {docId docId' : DocId} {scope scope' : CachedScope}
    (h : (w.cacheScope ws docId scope).getScope ws' docId' = some scope') :
    ws' = ws ∧ docId' = docId ∧ scope' = scope ∨
      ¬ (ws' = ws ∧ docId' = docId) ∧ w.getScope ws' docId' = some scope' := by
  unfold getScope cacheScope at h
  dsimp only at h
  split at h
  · next hkey => cases h; exact .inl ⟨hkey.1, hkey.2, rfl⟩
  · next hkey => exact .inr ⟨hkey, h⟩

/-! ## 1. Turns that only send -/

theorem sentOnly_handlePresentCapability (raw : PresentCapabilityFrame) :
    SentOnly w (w.handlePresentCapability keyOf ws raw).2 := by
  have hspace (did : Did) (jws : SignedJws CapabilityPayload) :
      SentOnly w (w.presentSpaceCapability ws did jws).2 := by
    unfold presentSpaceCapability
    dsimp only
    split
    · exact ⟨_, rfl⟩
    · split <;> exact ⟨_, rfl⟩
  have hpersonal (did : Did) (jws : SignedJws CapabilityPayload) :
      SentOnly w (w.presentPersonalCapability keyOf ws did jws).2 := by
    unfold presentPersonalCapability
    cases keyOf did with
    | none | some key => exact ⟨_, rfl⟩
  unfold handlePresentCapability
  cases raw with
  | malformed => exact ⟨_, rfl⟩
  | undecodable => cases w.socketToDid ws <;> exact ⟨_, rfl⟩
  | present jws =>
    rcases w.socketToDid ws with _ | did
    · exact ⟨_, rfl⟩
    dsimp only
    split
    · exact hspace did jws
    · exact hpersonal did jws

theorem sentOnly_resolveAdminFrame {α : Type} (jws : SignedJws α) (spaceId : DocId) :
    SentOnly w (w.resolveAdminFrame keyOf ws jws spaceId).2 := by
  have hsigner : SentOnly w (w.resolveAdminSigner keyOf ws spaceId jws.kid).2 := by
    unfold resolveAdminSigner
    split
    · exact ⟨_, rfl⟩
    split
    · exact ⟨_, rfl⟩
    · split <;> exact ⟨_, rfl⟩
  unfold resolveAdminFrame
  split
  · next w' hresolve => rw [hresolve] at hsigner; exact hsigner
  · next signer w' hresolve => rw [hresolve] at hsigner; exact hsigner

theorem sentOnly_handleAdminRemove (jws : SignedJws AdminChangePayload) :
    SentOnly w (w.handleAdminRemove keyOf ws jws).2 := by
  have hframe : SentOnly w (w.resolveAdminFrame keyOf ws jws jws.payload.spaceId).2 :=
    sentOnly_resolveAdminFrame jws jws.payload.spaceId
  unfold handleAdminRemove
  dsimp only
  split
  · split <;> exact ⟨_, rfl⟩
  split
  · next w' hresolve => rw [hresolve] at hframe; exact hframe
  · next checked w' hresolve => rw [hresolve] at hframe; exact hframe

theorem sentOnly_handleDeviceRevoke (jws : SignedJws DeviceRevokePayload) :
    SentOnly w (w.handleDeviceRevoke keyOf ws jws).2 := by
  unfold handleDeviceRevoke
  split <;> exact ⟨_, rfl⟩

theorem sentOnly_handleSend : SentOnly w (w.handleSend ws).2 := by
  unfold handleSend
  split <;> exact ⟨_, rfl⟩

/-! ## 2. The effect of a turn -/

def ExpiredDropped (ws : SocketId) (docId : DocId) (w w' : Relay) : Prop :=
  ∃ scope sent, w.getScope ws docId = some scope ∧ scope.validUntil ≤ w.clock ∧ w' = { w with
      socketToScopes := (w.keepScopes fun ws' docId' _ =>
        !(decide (ws' = ws) && decide (docId' = docId))).socketToScopes
      sent := sent }

/-- **Everything a turn can do**, by the turn and with what it has checked. -/
inductive Effect (keyOf : Did → Option PublicKey) (w : Relay) (env : Env) :
    RelayPoint → Relay → Prop where
  | sent {t : RelayPoint} (sent : List (SocketId × RelayFrame)) :
      Effect keyOf w env t { w with sent := sent }
  | expired {t : RelayPoint} {w' : Relay} (ws : SocketId) (docId : DocId)
      (h : ExpiredDropped ws docId w w') : Effect keyOf w env t w'
  | bound (ws : SocketId) (did : Did) (deviceId : DeviceId) (connections : Did → List SocketId)
      (sent : List (SocketId × RelayFrame)) (h : w.socketToDid ws = none) :
      Effect keyOf w env (.register ws did deviceId) { w with
          docLog := (w.docLog.registerDevice did deviceId w.clock).2
          connections := connections
          socketToDid := Function.update w.socketToDid ws (some did)
          socketToDeviceId := Function.update w.socketToDeviceId ws (some deviceId)
          sent := sent }
  | closed (ws : SocketId) : Effect keyOf w env (.close ws) (w.close ws)
  | ticked (now : Nat) : Effect keyOf w env (.tick now) (w.tick now)
  | cachedSpace (ws : SocketId) (docId : DocId) (space : SpaceRow)
      (checked : Except String CapabilityPayload) (payload : CapabilityPayload)
      (sent : List (SocketId × RelayFrame)) (h : env.verdict checked = .ok payload) :
      Effect keyOf w env (.capabilityVerified ws (.space docId space checked)) { w with
          socketToScopes := (w.cacheScope ws docId
            ⟨payload.permissions, space.generation, .space, payload.validUntil⟩).socketToScopes
          sent := sent }
  | cachedPersonal (ws : SocketId) (socketDid : Did) (docId : DocId)
      (checked : Except String CapabilityPayload) (payload : CapabilityPayload)
      (sent : List (SocketId × RelayFrame)) (h : env.verdict checked = .ok payload)
      (hclaim : (w.docLog.claimPersonalDocOwner docId socketDid w.clock).1 ≠ .conflict) :
      Effect keyOf w env (.capabilityVerified ws (.personal socketDid docId checked)) { w with
          docLog := (w.docLog.claimPersonalDocOwner docId socketDid w.clock).2
          socketToScopes := (w.cacheScope ws docId
            ⟨payload.permissions, 0, .personal, payload.validUntil⟩).socketToScopes
          sent := sent }
  | registered (ws : SocketId) (jws : SignedJws SpaceRegisterPayload)
      (payload : SpaceRegisterPayload) (sent : List (SocketId × RelayFrame))
      (henv : env.failure = none) (h : verifySpaceRegisterMessage keyOf jws = .ok payload)
      (hreg : (w.docLog.registerSpace payload.spaceId payload.spaceCapabilityVerificationKey
        payload.adminDids (jws.kid.did?.getD "") w.clock).1 = .registered) :
      Effect keyOf w env (.spaceRegisterVerified ws jws) { w with
          docLog := (w.docLog.registerSpace payload.spaceId
            payload.spaceCapabilityVerificationKey payload.adminDids (jws.kid.did?.getD "")
            w.clock).2
          socketToScopes := (w.invalidatePersonalScopesForDoc payload.spaceId).socketToScopes
          sent := sent }
  | rotated (ws : SocketId) (signerDid : Did) (spaceId : DocId) (payload : SpaceRotatePayload)
      (space : SpaceRow)
      (sent : List (SocketId × RelayFrame)) (henv : env.failure = none)
      (h : w.docLog.getSpace payload.spaceId = some space)
      (hnext : payload.newGeneration = space.generation + 1) :
      Effect keyOf w env (.spaceRotateVerified ws signerDid spaceId (.ok payload)) { w with
          docLog := w.docLog.rotateSpace payload.spaceId
            payload.newSpaceCapabilityVerificationKey payload.newGeneration
          socketToScopes := (w.invalidateStaleScopesForDoc payload.spaceId
            payload.newGeneration).socketToScopes
          sent := sent }
  | adminAdded (ws : SocketId) (signerDid : Did) (spaceId : DocId) (payload : AdminChangePayload)
      (sent : List (SocketId × RelayFrame)) (henv : env.failure = none) :
      Effect keyOf w env (.adminAddVerified ws signerDid spaceId (.ok payload))
        { w with docLog := w.docLog.addAdmin payload.spaceId payload.adminDid, sent := sent }
  | adminRemoved (ws : SocketId) (signerDid : Did) (spaceId : DocId)
      (payload : AdminChangePayload) (sent : List (SocketId × RelayFrame))
      (henv : env.failure = none) :
      Effect keyOf w env (.adminRemoveVerified ws signerDid spaceId false (.ok payload))
        { w with docLog := w.docLog.removeAdmin payload.spaceId payload.adminDid, sent := sent }
  | revoked (ws : SocketId) (payload : DeviceRevokePayload)
      (sent : List (SocketId × RelayFrame)) (henv : env.failure = none) :
      Effect keyOf w env (.deviceRevokeVerified ws (.ok payload)) { w with
          docLog := (w.docLog.revokeDevice payload.did payload.deviceId payload.revokedAt w.clock).2
          sent := sent }
  | inserted (ws : SocketId) (envelope : LogEntryMessage) (payload : LogEntryPayload)
      (sent : List (SocketId × RelayFrame))
      (h : (w.docLog.appendEntry payload envelope.entry w.clock).1 = .acceptNewEntry) :
      Effect keyOf w env (.payloadHashed ws envelope payload) { w with
          docLog := (w.docLog.appendEntry payload envelope.entry w.clock).2
          sent := sent }

theorem Effect.of_sentOnly {w' : Relay} (h : SentOnly w w') : Effect keyOf w env t w' := by
  obtain ⟨sent, rfl⟩ := h
  exact .sent sent

/-! ## 3. Sessions and scopes -/

theorem completeRegistration_cases (did : Did) (deviceId : DeviceId) :
    SentOnly w (w.completeRegistration ws did deviceId) ∨
      w.socketToDid ws = none ∧ ∃ connections sent,
        w.completeRegistration ws did deviceId = { w with
            docLog := (w.docLog.registerDevice did deviceId w.clock).2
            connections := connections
            socketToDid := Function.update w.socketToDid ws (some did)
            socketToDeviceId := Function.update w.socketToDeviceId ws (some deviceId)
            sent := sent } := by
  unfold completeRegistration
  split
  · exact .inl ⟨_, rfl⟩
  next hfree =>
  dsimp only
  split
  · exact .inl ⟨_, rfl⟩
  · exact .inl ⟨_, rfl⟩
  · refine .inr ⟨?_, _, _, rfl⟩
    simpa using hfree

theorem close_spec (w : Relay) (ws : SocketId) :
    (w.close ws).docLog = w.docLog ∧ (w.close ws).clock = w.clock ∧
      (∀ ws' docId, (w.close ws).getScope ws' docId =
        (w.getScope ws' docId).filter fun _ => decide (ws' ≠ ws)) ∧
      ∀ ws', ws' ≠ ws → (w.close ws).socketToDid ws' = w.socketToDid ws' ∧
        (w.close ws).socketToDeviceId ws' = w.socketToDeviceId ws' := by
  unfold close
  dsimp only
  split
  · exact ⟨rfl, rfl, fun _ _ => rfl, fun _ _ => ⟨rfl, rfl⟩⟩
  refine ⟨rfl, rfl, fun _ _ => rfl, fun ws' hne => ⟨?_, ?_⟩⟩
  · exact Function.update_of_ne hne _ _
  · exact Function.update_of_ne hne _ _

theorem checkScope_cases (w : Relay) (ws : SocketId) (docId : DocId) (permission : Permission) :
    (w.checkScope ws docId permission).2 = w ∧ ((w.checkScope ws docId permission).1 = .granted →
          ∃ scope, w.getScope ws docId = some scope ∧ w.clock < scope.validUntil ∧
            permission ∈ scope.permissions) ∨
      (w.checkScope ws docId permission).1 = .expired ∧
        ExpiredDropped ws docId w (w.checkScope ws docId permission).2 := by
  unfold checkScope
  rcases hscope : w.getScope ws docId with _ | scope
  · exact .inl ⟨rfl, fun h => by cases h⟩
  dsimp only
  split
  · next hexpired => exact .inr ⟨rfl, scope, _, hscope, hexpired, rfl⟩
  next hvalid =>
  split
  · next hperm =>
    exact .inl ⟨rfl, fun _ => ⟨scope, rfl, Nat.lt_of_not_le hvalid, hperm⟩⟩
  · exact .inl ⟨rfl, fun h => by cases h⟩

/-- **A verified capability**: an error is reported, or the scope is cached under
    what the handler has read before its `await`. -/
theorem effect_capabilityVerified (presented : PresentedCapability) :
    Effect keyOf w env (.capabilityVerified ws presented)
      (w.capabilityVerified ws presented env) := by
  unfold capabilityVerified
  cases presented with
  | space docId space checked =>
    dsimp only
    split
    · exact .sent _
    · next payload hok => exact .cachedSpace ws docId space checked payload _ hok
  | personal socketDid docId checked =>
    dsimp only
    split
    · exact .sent _
    next payload hok =>
    split
    · exact .sent _
    · next hclaim => exact .cachedPersonal ws socketDid docId checked payload _ hok hclaim

/-! ## 4. Management frames -/

theorem verifiedFrame_ok {α : Type} {checked : Except FrameRejection α} {thid : Option String}
    {authInvalid malformed : String} {payload : α}
    (h : verifiedFrame env checked thid authInvalid malformed = .ok payload) :
    env.failure = none ∧ checked = .ok payload := by
  unfold verifiedFrame at h
  cases hfail : env.failure with
  | some message => rw [hfail] at h; cases h
  | none =>
    rw [hfail] at h
    cases checked with
    | ok a => cases h; exact ⟨rfl, rfl⟩
    | error rejection => cases rejection <;> cases h

theorem effect_spaceRegisterVerified (jws : SignedJws SpaceRegisterPayload) :
    Effect keyOf w env (.spaceRegisterVerified ws jws)
      (w.spaceRegisterVerified keyOf ws jws env) := by
  unfold spaceRegisterVerified
  split
  · exact .sent _
  next payload hok =>
  obtain ⟨hfail, hchecked⟩ := verifiedFrame_ok hok
  dsimp only
  split
  · exact .sent _
  · exact .sent _
  · exact .sent _
  · next hreg => exact .registered ws jws payload _ hfail hchecked hreg

/-- **An applied rotation** advances the generation by exactly one and drops the
    scopes it has made stale. -/
theorem effect_spaceRotateVerified (signerDid : Did) (spaceId : DocId)
    (checked : Except FrameRejection SpaceRotatePayload) :
    Effect keyOf w env (.spaceRotateVerified ws signerDid spaceId checked)
      (w.spaceRotateVerified ws spaceId checked env) := by
  unfold spaceRotateVerified
  split
  · exact .sent _
  next payload hok =>
  obtain ⟨hfail, rfl⟩ := verifiedFrame_ok hok
  dsimp only
  split
  · exact .sent _
  next space hspace =>
  split
  · split <;> exact .sent _
  next hne =>
  split
  · exact .sent _
  next hge =>
  split
  · exact .sent _
  · next hle =>
    exact .rotated ws signerDid spaceId payload space _ hfail hspace (by omega)

theorem effect_adminAddVerified (signerDid : Did) (spaceId : DocId)
    (checked : Except FrameRejection AdminChangePayload) :
    Effect keyOf w env (.adminAddVerified ws signerDid spaceId checked)
      (w.adminAddVerified ws spaceId checked env) := by
  unfold adminAddVerified
  split
  · exact .sent _
  next payload hok =>
  obtain ⟨hfail, rfl⟩ := verifiedFrame_ok hok
  exact .adminAdded ws signerDid spaceId payload _ hfail

theorem effect_adminRemoveVerified (signerDid : Did) (spaceId : DocId) (selfRetry : Bool)
    (checked : Except FrameRejection AdminChangePayload) :
    Effect keyOf w env (.adminRemoveVerified ws signerDid spaceId selfRetry checked)
      (w.adminRemoveVerified ws spaceId selfRetry checked env) := by
  unfold adminRemoveVerified
  split
  · exact .sent _
  next payload hok =>
  obtain ⟨hfail, rfl⟩ := verifiedFrame_ok hok
  cases selfRetry with
  | true => exact .sent _
  | false => exact .adminRemoved ws signerDid spaceId payload _ hfail

theorem deviceRevokeVerified_cases (w : Relay) (ws : SocketId) (env : Env)
    (checked : Except FrameRejection DeviceRevokePayload) :
    SentOnly w (w.deviceRevokeVerified ws checked env) ∨
      ∃ payload sent, env.failure = none ∧ checked = .ok payload ∧
        w.deviceRevokeVerified ws checked env = { w with
            docLog := (w.docLog.revokeDevice payload.did payload.deviceId payload.revokedAt
              w.clock).2
            sent := sent } := by
  unfold deviceRevokeVerified
  split
  · exact .inl ⟨_, rfl⟩
  next payload hok =>
  obtain ⟨hfail, hchecked⟩ := verifiedFrame_ok hok
  dsimp only
  split
  · exact .inl ⟨_, rfl⟩
  · exact .inr ⟨payload, _, hfail, hchecked, rfl⟩

/-! ## 5. The log -/

/-- What the gates of a log entry have established when they let it pass. -/
structure EntryAdmitted (w : Relay) (ws : SocketId) (payload : LogEntryPayload) : Prop where
  active : w.socketActive ws = true
  owner : w.ownerMismatch ws payload.docId = false
  scope : ∃ scope, w.getScope ws payload.docId = some scope ∧ w.clock < scope.validUntil ∧
    .write ∈ scope.permissions

/-- **The gates**: they only answer, drop an expired scope, or let the entry
    pass and leave the relay as it is. -/
theorem logEntryVerified_cases (w : Relay) (ws : SocketId) (env : Env)
    (envelope : LogEntryMessage) :
    (w.logEntryVerified ws envelope env).1 = none ∧
        (SentOnly w (w.logEntryVerified ws envelope env).2 ∨
          ∃ docId, ExpiredDropped ws docId w (w.logEntryVerified ws envelope env).2) ∨
      ∃ payload, (w.logEntryVerified ws envelope env).1 = some payload ∧
        (w.logEntryVerified ws envelope env).2 = w ∧ EntryAdmitted w ws payload ∧
          envelope.entry = .compact payload := by
  unfold logEntryVerified
  split
  · exact .inl ⟨rfl, .inl ⟨_, rfl⟩⟩
  next payload hok =>
  obtain ⟨-, hentry⟩ := Env.verdict_ok hok
  dsimp only
  split
  · exact .inl ⟨rfl, .inl ⟨_, rfl⟩⟩
  next hactive =>
  split
  · exact .inl ⟨rfl, .inl ⟨_, rfl⟩⟩
  next howner =>
  rcases hcheck : w.checkScope ws payload.docId .write with ⟨check, w'⟩
  rcases hcheck ▸ w.checkScope_cases ws payload.docId .write with ⟨rfl, hgranted⟩ |
    ⟨rfl, scope, sent, hget, hexp, rfl⟩
  · cases check with
    | missing | expired => exact .inl ⟨rfl, .inl ⟨_, rfl⟩⟩
    | granted =>
      dsimp only
      split
      · exact .inl ⟨rfl, .inl ⟨_, rfl⟩⟩
      split
      · exact .inl ⟨rfl, .inl ⟨_, rfl⟩⟩
      split
      · exact .inl ⟨rfl, .inl ⟨_, rfl⟩⟩
      · refine .inr ⟨payload, rfl, rfl,
          ⟨by simpa using hactive, by simpa using howner, hgranted rfl⟩, ?_⟩
        cases hjws : envelope.entry <;> rw [hjws] at hentry <;> cases hentry
        rfl
  · exact .inl ⟨rfl, .inr ⟨payload.docId, scope, _, hget, hexp, rfl⟩⟩

theorem effect_payloadHashed (envelope : LogEntryMessage) (payload : LogEntryPayload) :
    Effect keyOf w env (.payloadHashed ws envelope payload)
      (w.payloadHashed ws envelope payload env) := by
  unfold payloadHashed
  split
  · exact .sent _
  dsimp only
  split
  · exact .sent _
  · exact .sent _
  · exact .sent _
  · next haccept => exact .inserted ws envelope payload _ haccept

theorem handleSyncRequest_cases (w : Relay) (ws : SocketId) (request : SyncRequest) :
    SentOnly w (w.handleSyncRequest ws request) ∨
      ExpiredDropped ws request.docId w (w.handleSyncRequest ws request) := by
  unfold handleSyncRequest
  split
  · exact .inl ⟨_, rfl⟩
  split
  · exact .inl ⟨_, rfl⟩
  rcases hcheck : w.checkScope ws request.docId .read with ⟨check, w'⟩
  rcases hcheck ▸ w.checkScope_cases ws request.docId .read with ⟨rfl, -⟩ |
    ⟨rfl, scope, sent, hget, hexp, rfl⟩
  · cases check <;> exact .inl ⟨_, rfl⟩
  · exact .inr ⟨scope, _, hget, hexp, rfl⟩

/-! ## 6. Every turn -/

theorem effect_advance (t : RelayPoint) : Effect keyOf w env t (w.advance keyOf t env) := by
  cases t with
  | register ws did deviceId =>
    rcases w.completeRegistration_cases did deviceId with h | ⟨hfree, connections, sent, hw⟩
    · exact .of_sentOnly h
    · rw [advance, hw]; exact .bound ws did deviceId connections sent hfree
  | close ws => exact .closed ws
  | tick now => exact .ticked now
  | presentCapability ws raw => exact .of_sentOnly (sentOnly_handlePresentCapability raw)
  | capabilityVerified ws presented => exact effect_capabilityVerified presented
  | reject ws message => exact .of_sentOnly ⟨_, rfl⟩
  | spaceRegisterVerified ws jws => exact effect_spaceRegisterVerified jws
  | spaceRotate ws jws | adminAdd ws jws => exact .of_sentOnly (sentOnly_resolveAdminFrame jws _)
  | spaceRotateVerified ws signerDid spaceId checked =>
    exact effect_spaceRotateVerified signerDid spaceId checked
  | adminAddVerified ws signerDid spaceId checked =>
    exact effect_adminAddVerified signerDid spaceId checked
  | adminRemove ws jws => exact .of_sentOnly (sentOnly_handleAdminRemove jws)
  | adminRemoveVerified ws signerDid spaceId selfRetry checked =>
    exact effect_adminRemoveVerified signerDid spaceId selfRetry checked
  | deviceRevoke ws jws => exact .of_sentOnly (sentOnly_handleDeviceRevoke jws)
  | deviceRevokeVerified ws checked =>
    rcases w.deviceRevokeVerified_cases ws env checked with h | ⟨payload, sent, henv, rfl, hw⟩
    · exact .of_sentOnly h
    · rw [advance, hw]; exact .revoked ws payload sent henv
  | send ws => exact .of_sentOnly sentOnly_handleSend
  | logEntryVerified ws envelope =>
    rcases w.logEntryVerified_cases ws env envelope with ⟨-, h | ⟨docId, h⟩⟩ | ⟨payload, -, hw, -⟩
    · exact .of_sentOnly h
    · exact .expired ws docId h
    · rw [advance, hw]; exact .of_sentOnly (sentOnly_refl w)
  | payloadHashed ws envelope payload => exact effect_payloadHashed envelope payload
  | syncRequest ws request =>
    rcases w.handleSyncRequest_cases ws request with h | h
    · exact .of_sentOnly h
    · exact .expired ws request.docId h

/-- **Everything a turn can do to the durable store**, with what it has checked. -/
inductive StoreEffect (keyOf : Did → Option PublicKey) (w : Relay) (env : Env) :
    RelayPoint → BrokerStore → Prop where
  | devices {t : RelayPoint} (devices : KeyedTable DeviceRow.deviceId) :
      StoreEffect keyOf w env t { w.docLog with devices := devices }
  | claimed (ws : SocketId) (socketDid : Did) (docId : DocId)
      (checked : Except String CapabilityPayload) (payload : CapabilityPayload)
      (h : env.verdict checked = .ok payload)
      (hclaim : (w.docLog.claimPersonalDocOwner docId socketDid w.clock).1 ≠ .conflict) :
      StoreEffect keyOf w env (.capabilityVerified ws (.personal socketDid docId checked))
        (w.docLog.claimPersonalDocOwner docId socketDid w.clock).2
  | registered (ws : SocketId) (jws : SignedJws SpaceRegisterPayload)
      (payload : SpaceRegisterPayload) (henv : env.failure = none)
      (h : verifySpaceRegisterMessage keyOf jws = .ok payload)
      (hreg : (w.docLog.registerSpace payload.spaceId payload.spaceCapabilityVerificationKey
        payload.adminDids (jws.kid.did?.getD "") w.clock).1 = .registered) :
      StoreEffect keyOf w env (.spaceRegisterVerified ws jws)
        (w.docLog.registerSpace payload.spaceId payload.spaceCapabilityVerificationKey
          payload.adminDids (jws.kid.did?.getD "") w.clock).2
  | rotated (ws : SocketId) (signerDid : Did) (spaceId : DocId) (payload : SpaceRotatePayload)
      (space : SpaceRow) (henv : env.failure = none)
      (h : w.docLog.getSpace payload.spaceId = some space)
      (hnext : payload.newGeneration = space.generation + 1) :
      StoreEffect keyOf w env (.spaceRotateVerified ws signerDid spaceId (.ok payload))
        (w.docLog.rotateSpace payload.spaceId payload.newSpaceCapabilityVerificationKey
          payload.newGeneration)
  | adminAdded (ws : SocketId) (signerDid : Did) (spaceId : DocId) (payload : AdminChangePayload)
      (henv : env.failure = none) :
      StoreEffect keyOf w env (.adminAddVerified ws signerDid spaceId (.ok payload))
        (w.docLog.addAdmin payload.spaceId payload.adminDid)
  | adminRemoved (ws : SocketId) (signerDid : Did) (spaceId : DocId)
      (payload : AdminChangePayload) (henv : env.failure = none) :
      StoreEffect keyOf w env (.adminRemoveVerified ws signerDid spaceId false (.ok payload))
        (w.docLog.removeAdmin payload.spaceId payload.adminDid)
  | inserted (ws : SocketId) (envelope : LogEntryMessage) (payload : LogEntryPayload)
      (h : (w.docLog.appendEntry payload envelope.entry w.clock).1 = .acceptNewEntry) :
      StoreEffect keyOf w env (.payloadHashed ws envelope payload)
        (w.docLog.appendEntry payload envelope.entry w.clock).2

theorem Effect.store {w' : Relay} (h : Effect keyOf w env t w') :
    StoreEffect keyOf w env t w'.docLog := by
  cases h with
  | expired ws docId hdrop =>
    obtain ⟨scope, sent, -, -, rfl⟩ := hdrop
    exact .devices w.docLog.devices
  | closed ws =>
    rw [(w.close_spec ws).1]
    exact .devices w.docLog.devices
  | bound ws did deviceId connections sent hfree =>
    obtain ⟨devices, hdev⟩ := w.docLog.registerDevice_frame did deviceId w.clock
    rw [hdev]
    exact .devices devices
  | revoked ws payload sent henv =>
    obtain ⟨devices, hdev⟩ :=
      w.docLog.revokeDevice_frame payload.did payload.deviceId payload.revokedAt w.clock
    rw [hdev]
    exact .devices devices
  | cachedPersonal ws socketDid docId checked payload sent hok hclaim =>
    exact .claimed ws socketDid docId checked payload hok hclaim
  | registered ws jws payload sent henv hok hreg => exact .registered ws jws payload henv hok hreg
  | rotated ws signerDid spaceId payload space sent henv hspace hnext =>
    exact .rotated ws signerDid spaceId payload space henv hspace hnext
  | adminAdded ws signerDid spaceId payload sent henv =>
    exact .adminAdded ws signerDid spaceId payload henv
  | adminRemoved ws signerDid spaceId payload sent henv =>
    exact .adminRemoved ws signerDid spaceId payload henv
  | inserted ws envelope payload sent haccept => exact .inserted ws envelope payload haccept
  | _ => exact .devices w.docLog.devices

theorem store_advance (t : RelayPoint) : StoreEffect keyOf w env t (w.advance keyOf t env).docLog :=
  (effect_advance t).store

inductive SpaceStep : Option SpaceRow → Option SpaceRow → Prop where
  | same (space : Option SpaceRow) : SpaceStep space space
  | registered (space : SpaceRow) (h : space.generation = 0) : SpaceStep none (some space)
  | rotated (space : SpaceRow) (key : String) :
      SpaceStep (some space) (some (space.rotate key (space.generation + 1)))

/-- **Generations grow by one**, and no space is ever unregistered. -/
theorem StoreEffect.space {s : BrokerStore} (h : StoreEffect keyOf w env t s) (docId : DocId) :
    SpaceStep (w.docLog.getSpace docId) (s.getSpace docId) := by
  have same (heq : s.getSpace docId = w.docLog.getSpace docId) :
      SpaceStep (w.docLog.getSpace docId) (s.getSpace docId) := by
    rw [heq]
    exact .same _
  cases h with
  | claimed ws socketDid docId' checked payload hok hclaim =>
    obtain ⟨owners, hown⟩ := w.docLog.claimPersonalDocOwner_frame docId' socketDid w.clock
    exact same (by rw [hown]; rfl)
  | registered ws jws payload henv hok hreg =>
    obtain ⟨hnone, hspaces, -⟩ := registerSpace_registered hreg
    by_cases hdoc : payload.spaceId = docId
    · rw [hspaces docId, if_pos hdoc, ← hdoc, hnone]
      exact .registered _ rfl
    · exact same ((hspaces docId).trans (if_neg hdoc))
  | rotated ws signerDid thid payload space henv hspace hnext =>
    by_cases hdoc : payload.spaceId = docId
    · subst hdoc
      rw [getSpace_rotateSpace, if_pos rfl, hspace, hnext]
      exact .rotated space _
    · exact same ((getSpace_rotateSpace _ _ _ _ _).trans (if_neg hdoc))
  | inserted ws envelope payload haccept =>
    exact same (by rw [(appendEntry_accept haccept).2.2]; rfl)
  | _ => exact same rfl

theorem SpaceStep.run {space : SpaceRow} {found : Option SpaceRow}
    (h : Relation.ReflTransGen SpaceStep (some space) found) :
    ∃ space', found = some space' ∧ space.generation ≤ space'.generation ∧
      (space'.generation = space.generation → space' = space) := by
  induction h with
  | refl => exact ⟨space, rfl, Nat.le_refl _, fun _ => rfl⟩
  | tail _ hstep ih =>
    obtain ⟨space', rfl, hle, hsame⟩ := ih
    cases hstep with
    | same => exact ⟨space', rfl, hle, hsame⟩
    | rotated _ key =>
      refine ⟨_, rfl, ?_, ?_⟩
      · show space.generation ≤ space'.generation + 1
        omega
      intro hgen
      have hgen : space'.generation + 1 = space.generation := hgen
      omega

/-- **Only an accepted insert touches the log.** -/
theorem StoreEffect.log {s : BrokerStore} (h : StoreEffect keyOf w env t s) :
    s.docLog = w.docLog.docLog ∨ ∃ ws envelope payload, t = .payloadHashed ws envelope payload ∧
        (w.docLog.appendEntry payload envelope.entry w.clock).1 = .acceptNewEntry ∧
        s = (w.docLog.appendEntry payload envelope.entry w.clock).2 := by
  cases h with
  | inserted ws envelope payload haccept => exact .inr ⟨ws, envelope, payload, rfl, haccept, rfl⟩
  | claimed ws socketDid docId checked payload hok hclaim =>
    obtain ⟨owners, hown⟩ := w.docLog.claimPersonalDocOwner_frame docId socketDid w.clock
    exact .inl (by rw [hown])
  | registered ws jws payload henv hok hreg =>
    obtain ⟨spaces, admins, owners, hframe⟩ := w.docLog.registerSpace_frame payload.spaceId
      payload.spaceCapabilityVerificationKey payload.adminDids (jws.kid.did?.getD "") w.clock
    exact .inl (by rw [hframe])
  | _ => exact .inl rfl

end Relay

/-! ## 7. Handlers made of turns -/

open Async

section

variable {keyOf : Did → Option PublicKey} {t : RelayPoint} {α : Type}

/-- A program whose every step is a turn of the relay, and which comes to the
    insert of an entry only through the gates. -/
def Turns (keyOf : Did → Option PublicKey) : RelayProgram Unit → Prop
  | .ret _ => True
  | .fail _ => True
  | .step t _ upd next =>
    (∀ env w, upd env w = w.advance keyOf t env) ∧
      (∀ env w ws envelope payload, (next env w).point = some (.payloadHashed ws envelope payload) →
          w.advance keyOf t env = w ∧ w.EntryAdmitted ws payload ∧
            envelope.entry = .compact payload) ∧
      ∀ env w, Turns keyOf (next env w)

def NotAtInsert (p : RelayProgram Unit) : Prop :=
  ∀ ws envelope payload, p.point ≠ some (.payloadHashed ws envelope payload)

theorem turns_lastTurn {f : Env → Relay → Relay} (hf : ∀ env w, f env w = w.advance keyOf t env) :
    Turns keyOf (lastTurn t f) := by
  refine ⟨hf, ?_, fun _ _ => trivial⟩
  intro env w ws envelope payload h
  cases h

theorem turns_turn {f : Env → Relay → α × Relay} {next : α → RelayProgram Unit}
    (hf : ∀ env w, (f env w).2 = w.advance keyOf t env) (hnot : ∀ a, NotAtInsert (next a))
    (hnext : ∀ a, Turns keyOf (next a)) : Turns keyOf ((turn t f).bind next) := by
  refine ⟨hf, ?_, fun env w => hnext (f env w).1⟩
  intro env w ws envelope payload h
  exact absurd h (hnot (f env w).1 ws envelope payload)

/-- A handler with one `await`: what the first turn has found, if anything, is
    the business of the last. -/
theorem turns_twoTurns {f : Env → Relay → Option α × Relay} {u : α → RelayPoint}
    {g : α → Env → Relay → Relay} (hf : ∀ env w, (f env w).2 = w.advance keyOf t env)
    (hg : ∀ a env w, g a env w = w.advance keyOf (u a) env)
    (hu : ∀ a ws envelope payload, u a ≠ .payloadHashed ws envelope payload) :
    Turns keyOf ((turn t f).bind fun found => whenSome found fun a => lastTurn (u a) (g a)) := by
  refine turns_turn hf ?_ ?_
  · intro found ws envelope payload h
    cases found with
    | none => cases h
    | some a => exact hu a ws envelope payload (Option.some.inj h)
  · intro found
    cases found with
    | none => trivial
    | some a => exact turns_lastTurn (hg a)

theorem turns_dispatch {ws : SocketId} {raw : ControlFrame α}
    {handler : SignedJws α → RelayProgram Unit} (h : ∀ jws, Turns keyOf (handler jws)) :
    Turns keyOf (dispatch ws raw handler) := by
  cases raw with
  | malformed message => exact turns_lastTurn fun _ _ => rfl
  | signed jws => exact h jws

theorem turns_handleLogEntry (ws : SocketId) (envelope : LogEntryMessage) :
    Turns keyOf (handleLogEntry ws envelope) := by
  refine turns_turn (fun _ _ => rfl) ?_ ?_
  · intro goesOn ws' envelope' payload h
    cases goesOn <;> cases h
  intro goesOn
  rcases goesOn with _ | _
  · trivial
  refine ⟨fun _ _ => rfl, ?_, ?_⟩
  · intro env w ws' envelope' payload h
    rcases w.logEntryVerified_cases ws env envelope with
      ⟨hnone, -⟩ | ⟨payload', hsome, hw, hadm⟩
    · have h : (whenSome (w.logEntryVerified ws envelope env).1 _).point = _ := h
      rw [hnone] at h
      cases h
    have h : (whenSome (w.logEntryVerified ws envelope env).1 _).point = _ := h
    rw [hsome] at h
    cases h
    exact ⟨hw, hadm⟩
  · intro env w
    show Turns keyOf (whenSome (w.logEntryVerified ws envelope env).1 _)
    cases (w.logEntryVerified ws envelope env).1 with
    | none => trivial
    | some payload => exact turns_lastTurn fun _ _ => rfl

theorem turns_program (call : RelayCall) : Turns keyOf (call.program keyOf) := by
  cases call with
  | register ws did deviceId | close ws | tick now => exact turns_lastTurn fun _ _ => rfl
  | presentCapability ws raw =>
    exact turns_twoTurns (fun _ _ => rfl) (fun _ _ _ => rfl) fun _ _ _ _ h => by cases h
  | spaceRegister ws raw =>
    apply turns_dispatch
    intro jws
    exact turns_lastTurn fun _ _ => rfl
  | spaceRotate ws raw | adminAdd ws raw | adminRemove ws raw | deviceRevoke ws raw =>
    apply turns_dispatch
    intro jws
    exact turns_twoTurns (fun _ _ => rfl) (fun _ _ _ => rfl) fun _ _ _ _ h => by cases h
  | logEntry ws envelope => exact turns_handleLogEntry ws envelope
  | syncRequest ws request =>
    refine turns_turn (fun _ _ => rfl) ?_ ?_
    · intro goesOn ws' envelope payload h
      cases goesOn <;> cases h
    intro goesOn
    cases goesOn with
    | false => trivial
    | true => exact turns_lastTurn fun _ _ => rfl

theorem notAtInsert_program (call : RelayCall) : NotAtInsert (call.program keyOf) := by
  intro ws envelope payload h
  cases call with
  | spaceRegister ws raw | spaceRotate ws raw | adminAdd ws raw | adminRemove ws raw
  | deviceRevoke ws raw => cases raw <;> cases h
  | _ => cases h

/-! ## 8. Runs -/

variable {admits : RelayConfig → Action Env RelayCall → Prop} {docLog : BrokerStore} {clock : Nat}
  {c c' : RelayConfig} {n : Nat} {env : Env}

def turnContract (keyOf : Did → Option PublicKey) : Contract RelayPoint Env Relay where
  inv _ := True
  rely _ _ _ := True
  may _ _ _ := True
  guar t env w w' := w' = w.advance keyOf t env

section

variable {K : Contract RelayPoint Env Relay} (hturn : ∀ t env w,
  (∀ ws envelope payload, t = .payloadHashed ws envelope payload →
    envelope.entry = .compact payload) → K.inv w → K.may t env w →
      K.inv (w.advance keyOf t env) ∧ K.guar t env w (w.advance keyOf t env))
include hturn

theorem meets_turns {p : RelayProgram Unit} (h : Turns keyOf p)
    (hpoint : ∀ ws envelope payload, p.point = some (.payloadHashed ws envelope payload) →
      envelope.entry = .compact payload) (w : Relay) :
    Meets K (fun _ _ => True) (fun _ _ => True) p w := by
  induction p generalizing w with
  | ret a | fail e => trivial
  | step t ready upd next ih =>
    intro w' _ hinv env _ hmay
    obtain ⟨hupd, henter, hnext⟩ := h
    rw [hupd env w']
    obtain ⟨hkept, hguar⟩ := hturn t env w' (fun ws envelope payload ht =>
      hpoint ws envelope payload (congrArg some ht)) hinv hmay
    exact ⟨hkept, hguar, ih env w' (hnext env w') (fun ws envelope payload hp =>
      (henter env w' ws envelope payload hp).2.2) _⟩

theorem turns_verified (hrely : ∀ t w w', K.rely t w w') (hstart : K.inv (Relay.start docLog clock))
    (hrestart : ∀ w, K.inv w → K.inv (Relay.start w.docLog w.clock))
    (hmay : ∀ (c : RelayConfig) n env t, admits c (.run n env) → c.pointAt n = some t →
      K.may t env c.world) :
    Verified (relaySystem keyOf) admits (Relay.start docLog clock) K (fun _ _ => True)
      (fun _ _ => True) where
  init := hstart
  call := fun c call _ _ => meets_turns hturn (turns_program call) (fun ws envelope payload hp =>
    absurd hp (notAtInsert_program call ws envelope payload)) c.world
  may := fun c n env t hadm hpoint _ => hmay c n env t hadm hpoint
  restart := fun c _ hinv => hrestart c.world hinv
  quiet := fun _ _ _ _ _ _ _ _ _ _ _ _ _ => hrely _ _ _
  result := fun _ _ _ _ _ _ _ => trivial
  error := fun _ _ _ _ _ _ _ => trivial

end

theorem turn_verified (keyOf : Did → Option PublicKey)
    (admits : RelayConfig → Action Env RelayCall → Prop) (docLog : BrokerStore) (clock : Nat) :
    Verified (relaySystem keyOf) admits (Relay.start docLog clock) (turnContract keyOf)
      (fun _ _ => True) (fun _ _ => True) :=
  turns_verified (fun _ _ _ _ _ _ => ⟨trivial, rfl⟩) (fun _ _ _ => trivial) trivial
    (fun _ _ => trivial) fun _ _ _ _ _ _ => trivial

theorem step_advance (h : Reachable (relaySystem keyOf) admits (Relay.start docLog clock) c)
    (hadm : admits c (.run n env)) (hs : c.step (relaySystem keyOf) (.run n env) = some c') :
    ∃ t, c.pointAt n = some t ∧ c'.world = c.world.advance keyOf t env :=
  (turn_verified keyOf admits docLog clock).guar h hadm hs

/-- **Invariants of the store**: what every admitted turn keeps, every admitted run
    keeps. -/
theorem store_invariant {I : BrokerStore → Prop} (hstart : I docLog)
    (hturn : ∀ (c : RelayConfig) n env t, admits c (.run n env) → c.pointAt n = some t →
      I c.world.docLog → I (c.world.advance keyOf t env).docLog)
    (h : Reachable (relaySystem keyOf) admits (Relay.start docLog clock) c) :
    I c.world.docLog := by
  induction h with
  | start => exact hstart
  | @step c c' a hreach hadm hs ih =>
    cases a with
    | call k =>
      rw [Config.world_eq_of_call hs]
      exact ih
    | crash n =>
      rw [Config.world_eq_of_crash hs]
      exact ih
    | restart =>
      cases hs
      exact ih
    | run n env =>
      obtain ⟨t, hpoint, hw⟩ := step_advance hreach hadm hs
      rw [hw]
      exact hturn c n env t hadm hpoint ih

end

end WebOfTrust
