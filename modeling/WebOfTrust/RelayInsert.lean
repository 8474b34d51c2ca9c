/-
  **The authority behind an inserted log entry.**  The gates of `handleLogEntry`
  look at the device, the owner of a personal document and the cached write
  scope; then the handler awaits the hash of the payload, and only the key
  generation is looked at again when the row is inserted.

  A revocation, a close, an expiry, a rotation to a generation that the entry
  already carries during that `await` is missed (`insert_revoked`).  If no step ends
  the authority while an entry waits for its hash, and the scope cache is sound,
  every row has its authority at the moment of the insert (`insert_authorized`).
-/
import WebOfTrust.RelayScopes

namespace WebOfTrust

open Async BrokerStore Relay KeyedTable ScopesSound

/-! ## 1. Authority -/

/-- What entitles a socket to insert into the log of a document. -/
structure InsertAuthority (w : Relay) (ws : SocketId) (docId : DocId) : Prop where
  device : ∃ did deviceId, w.socketToDid ws = some did ∧ w.socketToDeviceId ws = some deviceId ∧
    w.docLog.isActive did deviceId = true
  scope : ∃ scope, w.getScope ws docId = some scope ∧ .write ∈ scope.permissions ∧
    w.clock < scope.validUntil ∧
      ∀ space, w.docLog.getSpace docId = some space → scope.generation = space.generation
  owner : w.docLog.getSpace docId = none → ∃ did, w.socketToDid ws = some did ∧
    w.docLog.getPersonalDocOwner docId = some did

/-- The rows a step inserts are inserted by a handler whose socket has the
    authority at that moment. -/
def InsertsAuthorized (c : RelayConfig) (a : Action Env RelayCall) (c' : RelayConfig) : Prop :=
  ∀ row ∈ c'.world.docLog.docLog.rows, row ∉ c.world.docLog.docLog.rows →
    ∃ n env ws envelope payload, a = .run n env ∧
      c.pointAt n = some (.payloadHashed ws envelope payload) ∧ row.docId = payload.docId ∧
        InsertAuthority c.world ws row.docId

/-! ## 2. The runs -/

/-- The insert is already decided: its coordinate is taken, or its key generation
    is outdated. -/
def insertRefused (w : Relay) (payload : LogEntryPayload) : Bool :=
  w.docLog.docLog.has (payload.docId, payload.deviceId, payload.seq) ||
    (w.docLog.getSpace payload.docId).any fun space =>
      decide (payload.keyGeneration < space.generation)

/-- A verified capability that would replace a live write scope by one that is
    none. -/
def uselessScope (w : Relay) (env : Env) (checked : Except String CapabilityPayload) : Bool :=
  match env.verdict checked with
  | .ok capability =>
    !(decide (.write ∈ capability.permissions) && decide (w.clock < capability.validUntil))
  | .error _ => false

section

variable (keyOf : Did → Option PublicKey)

/-- The turns that end the authority of `ws` over a document: its close, the
    expiry or replacement of its scope, a first registration or a rotation of the
    space, and the revocation of its device. -/
def endsAuthority (w : Relay) (env : Env) (ws : SocketId)
    (payload : LogEntryPayload) : RelayPoint → Bool
  | .close ws' => decide (ws' = ws)
  | .tick now => (w.getScope ws payload.docId).any fun scope => decide (scope.validUntil ≤ now)
  | .capabilityVerified ws' (.space docId _ checked) =>
    decide (ws' = ws) && decide (docId = payload.docId) && uselessScope w env checked
  | .capabilityVerified ws' (.personal _ docId checked) =>
    decide (ws' = ws) && decide (docId = payload.docId) && uselessScope w env checked
  | .spaceRegisterVerified _ jws =>
    match env.failure, verifySpaceRegisterMessage keyOf jws with
    | none, .ok registration =>
      decide (registration.spaceId = payload.docId) &&
        decide ((w.docLog.registerSpace registration.spaceId
          registration.spaceCapabilityVerificationKey registration.adminDids
          (jws.kid.did?.getD "") w.clock).1 = .registered)
    | _, _ => false
  | .spaceRotateVerified _ _ _ checked =>
    match env.failure, checked with
    | none, .ok rotation =>
      decide (rotation.spaceId = payload.docId) &&
        decide (rotation.newGeneration ≤ payload.keyGeneration) &&
        (w.docLog.getSpace payload.docId).any fun space =>
          decide (rotation.newGeneration = space.generation + 1)
    | _, _ => false
  | .deviceRevokeVerified _ checked =>
    match env.failure, checked with
    | none, .ok revocation =>
      decide (w.socketToDid ws = some revocation.did) &&
        decide (w.socketToDeviceId ws = some revocation.deviceId)
    | _, _ => false
  | _ => false

variable (c : RelayConfig)

def undisturbed (env : Env) (t : RelayPoint) : Bool :=
  c.procs.all fun p =>
    match p.point with
    | some (.payloadHashed ws _ payload) =>
      insertRefused c.world payload || !endsAuthority keyOf c.world env ws payload t
    | _ => true

/-- Runs of fresh verifications in which no authority ends under a waiting
    entry. -/
def steadyRun : Action Env RelayCall → Bool
  | .run n env => (c.pointAt n).all fun t => freshAt c.world env t && undisturbed keyOf c env t
  | _ => true

abbrev SteadyRun (a : Action Env RelayCall) : Prop :=
  steadyRun keyOf c a = true

end

/-! ## 3. What a turn does to the log and the generations -/

section

variable {keyOf : Did → Option PublicKey} {w w' : Relay} {env : Env} {t : RelayPoint}
  {payload : LogEntryPayload}

section

variable (h : Effect keyOf w env t w')
include h

theorem docLog_effect : w'.docLog.docLog = w.docLog.docLog ∨
      ∃ ws envelope payload, t = .payloadHashed ws envelope payload ∧
        (w.docLog.appendEntry payload envelope.entry w.clock).1 = .acceptNewEntry ∧
        w'.docLog = (w.docLog.appendEntry payload envelope.entry w.clock).2 :=
  h.store.log

theorem getSpace_effect {docId : DocId} {space : SpaceRow}
    (hspace : w.docLog.getSpace docId = some space) :
    ∃ space', w'.docLog.getSpace docId = some space' ∧ space.generation ≤ space'.generation := by
  have hstep := h.store.space docId
  rw [hspace] at hstep
  obtain ⟨space', hspace', hle, -⟩ := SpaceStep.run (.single hstep)
  exact ⟨space', hspace', hle⟩

theorem insertRefused_effect
    (hp : insertRefused w payload = true) : insertRefused w' payload = true := by
  simp only [insertRefused, Bool.or_eq_true] at hp ⊢
  rcases hp with hrow | hgen
  · left
    rcases docLog_effect h with hsame | ⟨ws, envelope, p, -, haccept, hlog⟩
    · rw [hsame]; exact hrow
    rw [hlog, (appendEntry_accept haccept).2.2]
    obtain ⟨row, hrow⟩ := Option.isSome_iff_exists.mp hrow
    exact Option.isSome_iff_exists.mpr ⟨row, get?_add_of_some hrow⟩
  · right
    obtain ⟨space, hspace, hlt⟩ := (Option.any_eq_true _ _).mp hgen
    obtain ⟨space', hspace', hle⟩ := getSpace_effect h hspace
    rw [hspace']
    simp only [Option.any_some, decide_eq_true_eq] at hlt ⊢
    omega

end

/-! ## 4. Authority under a waiting entry -/

variable {ws : SocketId} {docId : DocId}

theorem InsertAuthority.frame (h : InsertAuthority w ws docId)
    (hdid : w'.socketToDid ws = w.socketToDid ws)
    (hdevice : w'.socketToDeviceId ws = w.socketToDeviceId ws)
    (hactive : ∀ did deviceId, w.socketToDid ws = some did →
      w.socketToDeviceId ws = some deviceId → w.docLog.isActive did deviceId = true →
        w'.docLog.isActive did deviceId = true)
    (hscope : w'.getScope ws docId = w.getScope ws docId) (hclock : w'.clock = w.clock)
    (hspace : w'.docLog.getSpace docId = w.docLog.getSpace docId)
    (howner : ∀ owner, w.docLog.getPersonalDocOwner docId = some owner →
      w'.docLog.getPersonalDocOwner docId = some owner) : InsertAuthority w' ws docId where
  device := by
    obtain ⟨did, deviceId, hd, hdev, ha⟩ := h.device
    exact ⟨did, deviceId, hdid.trans hd, hdevice.trans hdev, hactive _ _ hd hdev ha⟩
  scope := by
    obtain ⟨scope, hs, hwrite, hvalid, hgen⟩ := h.scope
    exact ⟨scope, hscope.trans hs, hwrite, hclock ▸ hvalid, hspace ▸ hgen⟩
  owner := by
    intro hnone
    obtain ⟨did, hd, ho⟩ := h.owner (hspace ▸ hnone)
    exact ⟨did, hdid.trans hd, howner _ ho⟩

theorem InsertAuthority.cacheScope (h : InsertAuthority w ws docId) {ws' : SocketId}
    {docId' : DocId} {scope : CachedScope} (hscope : ws' = ws ∧ docId' = docId →
      (.write ∈ scope.permissions ∧ w.clock < scope.validUntil) ∧
        ∀ space, w.docLog.getSpace docId = some space → scope.generation = space.generation) :
    InsertAuthority (w.cacheScope ws' docId' scope) ws docId := by
  by_cases hkey : ws' = ws ∧ docId' = docId
  · obtain ⟨⟨hwrite, hvalid⟩, hgen⟩ := hscope hkey
    obtain ⟨rfl, rfl⟩ := hkey
    exact ⟨h.device, ⟨scope, if_pos ⟨rfl, rfl⟩, hwrite, hvalid, hgen⟩, h.owner⟩
  · refine h.frame rfl rfl (fun _ _ _ _ ha => ha) (if_neg ?_) rfl rfl fun _ ho => ho
    rintro ⟨rfl, rfl⟩
    exact hkey ⟨rfl, rfl⟩

theorem InsertAuthority.effect (h : InsertAuthority w ws payload.docId)
    (he : Effect keyOf w env t w') (hfresh : freshAt w env t = true)
    (hquiet : endsAuthority keyOf w env ws payload t = false) :
    insertRefused w' payload = true ∨ InsertAuthority w' ws payload.docId := by
  cases he with
  | sent sent | adminAdded ws' signerDid spaceId change sent
  | adminRemoved ws' signerDid spaceId change sent =>
    right
    exact h.frame rfl rfl (fun _ _ _ _ ha => ha) rfl rfl rfl fun _ ho => ho
  | expired ws' docId hdrop =>
    right
    obtain ⟨scope, sent, hscope, hexpired, rfl⟩ := hdrop
    refine h.frame rfl rfl (fun _ _ _ _ ha => ha) ?_ rfl rfl fun _ ho => ho
    obtain ⟨live, hlive, -, hvalid, -⟩ := h.scope
    have hother : ¬ (ws = ws' ∧ payload.docId = docId) := by
      rintro ⟨rfl, rfl⟩
      cases hlive.symm.trans hscope
      omega
    show (w.getScope ws payload.docId).filter _ = _
    rw [hlive]
    simpa [Option.filter] using hother
  | bound ws' did deviceId connections sent hfree =>
    right
    obtain ⟨did', deviceId', hd, hdev, -⟩ := h.device
    have hne : ws ≠ ws' := by
      rintro rfl
      cases hfree.symm.trans hd
    obtain ⟨devices, hframe⟩ := w.docLog.registerDevice_frame did deviceId w.clock
    refine h.frame (Function.update_of_ne hne _ _) (Function.update_of_ne hne _ _)
      (fun _ _ _ _ ha => isActive_registerDevice ha) rfl rfl ?_ fun owner ho => ?_
    · show getSpace _ _ = _
      rw [hframe]
      rfl
    · show getPersonalDocOwner _ _ = _
      rw [hframe]
      exact ho
  | closed ws' =>
    right
    have hne : ws' ≠ ws := by simpa [endsAuthority] using hquiet
    obtain ⟨hlog, hclock, hscopes, hbound⟩ := w.close_spec ws'
    obtain ⟨hdid, hdevice⟩ := hbound ws (Ne.symm hne)
    refine h.frame hdid hdevice (fun _ _ _ _ ha => hlog ▸ ha) ?_ hclock (by rw [hlog])
      fun _ ho => hlog ▸ ho
    rw [hscopes]
    obtain ⟨live, hlive, -⟩ := h.scope
    rw [hlive]
    simp [Option.filter, Ne.symm hne]
  | ticked now =>
    right
    obtain ⟨live, hlive, hwrite, hvalid, hgen⟩ := h.scope
    have hbefore : now < live.validUntil := by
      simpa [endsAuthority, hlive] using hquiet
    exact ⟨h.device, ⟨live, hlive, hwrite, hbefore, hgen⟩, h.owner⟩
  | cachedSpace ws' docId space checked capability sent hok =>
    right
    have hgen : (w.docLog.getSpace docId).map (·.generation) = some space.generation := by
      simpa [freshAt, capabilityFresh, accepts_of_verdict hok] using hfresh
    have hcached : InsertAuthority (w.cacheScope ws' docId ⟨capability.permissions,
        space.generation, .space, capability.validUntil⟩) ws payload.docId := by
      apply h.cacheScope
      rintro ⟨rfl, rfl⟩
      refine ⟨by simpa [endsAuthority, uselessScope, hok] using hquiet, fun current hcurrent => ?_⟩
      rw [hcurrent] at hgen
      exact (Option.some.inj hgen).symm
    exact hcached.frame rfl rfl (fun _ _ _ _ ha => ha) rfl rfl rfl fun _ ho => ho
  | cachedPersonal ws' socketDid docId checked capability sent hok hclaim =>
    right
    have hunreg : w.docLog.isSpaceRegistered docId = false := by
      simpa [freshAt, capabilityFresh, accepts_of_verdict hok, hclaim] using hfresh
    have hcached : InsertAuthority (w.cacheScope ws' docId ⟨capability.permissions, 0, .personal,
        capability.validUntil⟩) ws payload.docId := by
      apply h.cacheScope
      rintro ⟨rfl, rfl⟩
      refine ⟨by simpa [endsAuthority, uselessScope, hok] using hquiet, fun current hcurrent => ?_⟩
      cases (get?_eq_none_of_has hunreg).symm.trans hcurrent
    obtain ⟨owners, hown⟩ := w.docLog.claimPersonalDocOwner_frame docId socketDid w.clock
    refine hcached.frame rfl rfl (fun did deviceId _ _ ha => ?_) rfl rfl ?_
      fun _ ho => getPersonalDocOwner_claim_of_some ho
    · show isActive _ _ _ = true
      rw [hown]
      exact ha
    · show getSpace _ _ = _
      rw [hown]
      rfl
  | registered ws' jws registration sent henv hverified hreg =>
    right
    have hne : registration.spaceId ≠ payload.docId := by
      simpa [endsAuthority, henv, hverified, hreg] using hquiet
    obtain ⟨-, hspaces, howners⟩ := registerSpace_registered hreg
    obtain ⟨spaces, admins, owners, hframe⟩ := w.docLog.registerSpace_frame registration.spaceId
      registration.spaceCapabilityVerificationKey registration.adminDids
      (jws.kid.did?.getD "") w.clock
    refine h.frame rfl rfl (fun did deviceId _ _ ha => ?_) ?_ rfl
      ((hspaces _).trans (if_neg hne)) fun owner ho => (howners _).trans ((if_neg hne).trans ho)
    · show isActive _ _ _ = true
      rw [hframe]
      exact ha
    · obtain ⟨live, hlive, -⟩ := h.scope
      show (w.getScope ws payload.docId).filter _ = _
      rw [hlive]
      simp [Option.filter, Ne.symm hne]
  | rotated ws' signerDid spaceId rotation space sent henv hspace hnext =>
    by_cases hdoc : rotation.spaceId = payload.docId
    · -- the entry carries an older generation than the new one
      left
      have hlt : payload.keyGeneration < rotation.newGeneration := by
        have hspace' := hdoc ▸ hspace
        simpa [endsAuthority, henv, hdoc, hspace', hnext] using hquiet
      simp only [insertRefused, Bool.or_eq_true]
      right
      show ((w.docLog.rotateSpace _ _ _).getSpace _).any _ = true
      rw [getSpace_rotateSpace, if_pos hdoc, hspace]
      simpa [SpaceRow.rotate] using hlt
    · right
      refine h.frame rfl rfl (fun _ _ _ _ ha => ha) ?_ rfl
        ((getSpace_rotateSpace _ _ _ _ _).trans (if_neg hdoc)) fun _ ho => ho
      obtain ⟨live, hlive, -⟩ := h.scope
      show (w.getScope ws payload.docId).filter _ = _
      rw [hlive]
      simp [Option.filter, Ne.symm hdoc]
  | revoked ws' revocation sent henv =>
    right
    obtain ⟨devices, hframe⟩ := w.docLog.revokeDevice_frame revocation.did revocation.deviceId
      revocation.revokedAt w.clock
    refine h.frame rfl rfl (fun did deviceId hd hdev ha => ?_) rfl rfl ?_ fun owner ho => ?_
    · refine isActive_revokeDevice ha ?_
      rintro ⟨rfl, rfl⟩
      simp [endsAuthority, henv, hd, hdev] at hquiet
    · show getSpace _ _ = _
      rw [hframe]
      rfl
    · show getPersonalDocOwner _ _ = _
      rw [hframe]
      exact ho
  | inserted ws' envelope payload' sent haccept =>
    right
    have hlog := (appendEntry_accept haccept).2.2
    refine h.frame rfl rfl (fun did deviceId _ _ ha => ?_) rfl rfl ?_ fun owner ho => ?_
    · show isActive _ _ _ = true
      rw [hlog]
      exact ha
    · show getSpace _ _ = _
      rw [hlog]
      rfl
    · show getPersonalDocOwner _ _ = _
      rw [hlog]
      exact ho

theorem InsertAuthority.of_admitted (hsound : ScopesSound w) (h : w.EntryAdmitted ws payload) :
    InsertAuthority w ws payload.docId := by
  obtain ⟨hactive, howner, scope, hscope, hvalid, hwrite⟩ := h
  unfold socketActive at hactive
  split at hactive
  · next did deviceId hdid hdevice =>
    refine ⟨⟨did, deviceId, hdid, hdevice, hactive⟩, ⟨scope, hscope, hwrite, hvalid, ?_⟩, ?_⟩
    · intro space hspace
      exact (hsound.registered hscope hspace).2
    intro hnone
    obtain ⟨-, owner, ho⟩ := hsound.unregistered hscope hnone
    have hunreg : w.docLog.isSpaceRegistered payload.docId = false := by
      unfold isSpaceRegistered has
      rw [show w.docLog.spaces.get? payload.docId = none from hnone]
      rfl
    have heq : some owner = some did := by
      simpa [ownerMismatch, hunreg, ho, hdid] using howner
    cases heq
    exact ⟨did, hdid, ho⟩
  · cases hactive

/-! ## 5. Every steady run -/

def Held (w : Relay) (ws : SocketId) (payload : LogEntryPayload) : Prop :=
  insertRefused w payload = true ∨ InsertAuthority w ws payload.docId

def insertContract (keyOf : Did → Option PublicKey) : Contract RelayPoint Env Relay where
  inv := ScopesSound
  rely t w w' := ∀ ws envelope payload, t = .payloadHashed ws envelope payload →
    Held w ws payload → Held w' ws payload
  may t env w := freshAt w env t = true
  guar t env w w' := w' = w.advance keyOf t env ∧
    ∀ ws envelope payload, t = .payloadHashed ws envelope payload → Held w ws payload

theorem meets_insertContract {p : RelayProgram Unit} (h : Turns keyOf p) (w : Relay)
    (hstart : ∀ ws envelope payload, p.point = some (.payloadHashed ws envelope payload) →
      Held w ws payload) :
    Meets (insertContract keyOf) (fun _ _ => True) (fun _ _ => True) p w := by
  induction p generalizing w with
  | ret a | fail e => trivial
  | step t ready upd next ih =>
    intro w' hrely hinv env _ hmay
    obtain ⟨hupd, henter, hnext⟩ := h
    rw [hupd env w']
    refine ⟨hinv.advance t env hmay, ⟨rfl, ?_⟩, ih env w' (hnext env w') _ ?_⟩
    · rintro ws envelope payload rfl
      exact kept_of_star (P := (Held · ws payload)) (fun _ _ h => h ws envelope payload rfl) hrely
        (hstart ws envelope payload rfl)
    intro ws envelope payload hpoint
    obtain ⟨hsame, hadmitted, -⟩ := henter env w' ws envelope payload hpoint
    rw [hsame]
    exact .inr (.of_admitted hinv hadmitted)

theorem steady_of_admits {c : RelayConfig} {n : Nat}
    (hadm : SteadyRun keyOf c (.run n env)) (hpoint : c.pointAt n = some t) :
    freshAt c.world env t = true ∧ undisturbed keyOf c env t = true := by
  have hadm : (c.pointAt n).all _ = true := hadm
  rw [hpoint] at hadm
  simpa only [Option.all_some, Bool.and_eq_true] using hadm

theorem insert_verified (keyOf : Did → Option PublicKey) (docLog : BrokerStore) (clock : Nat) :
    Verified (relaySystem keyOf) (SteadyRun keyOf) (start docLog clock)
      (insertContract keyOf) (fun _ _ => True) (fun _ _ => True) where
  init := start docLog clock
  call := by
    intro c call _ _
    refine meets_insertContract (turns_program call) c.world ?_
    intro ws envelope payload hpoint
    exact absurd hpoint (notAtInsert_program call ws envelope payload)
  may := fun c n env t hadm hpoint _ => (steady_of_admits hadm hpoint).1
  restart := fun c _ _ => start c.world.docLog c.world.clock
  quiet := by
    rintro c n env t w' hadm hpoint - ⟨rfl, -⟩ m t' - hm ws envelope payload rfl hheld
    obtain ⟨hfresh, hquiet⟩ := steady_of_admits hadm hpoint
    have he : Effect keyOf c.world env t (c.world.advance keyOf t env) :=
      effect_advance t
    rcases hheld with hrefused | hauth
    · exact .inl (insertRefused_effect he hrefused)
    obtain ⟨p, hp, hwait⟩ := Option.bind_eq_some_iff.mp hm
    have hkeep := List.all_eq_true.mp hquiet p (List.mem_of_getElem? hp)
    simp only [hwait, Bool.or_eq_true, Bool.not_eq_true'] at hkeep
    rcases hkeep with hrefused | hkeep
    · exact .inl (insertRefused_effect he hrefused)
    · exact hauth.effect he hfresh hkeep
  result := fun _ _ _ _ _ _ _ => trivial
  error := fun _ _ _ _ _ _ _ => trivial

/-- **Every row is inserted with authority** in a steady run: over any store the
    relay was started on, at the moment of the insert. -/
theorem insert_authorized {docLog : BrokerStore} {clock : Nat} {c c' : RelayConfig}
    {a : Action Env RelayCall}
    (h : Reachable (relaySystem keyOf) (SteadyRun keyOf) (start docLog clock) c)
    (hadm : SteadyRun keyOf c a) (hs : c.step (relaySystem keyOf) a = some c') :
    InsertsAuthorized c a c' := by
  intro row hrow hnew
  cases a with
  | call k => rw [Config.world_eq_of_call hs] at hrow; exact absurd hrow hnew
  | crash n => rw [Config.world_eq_of_crash hs] at hrow; exact absurd hrow hnew
  | restart => cases hs; exact absurd hrow hnew
  | run n env =>
    obtain ⟨t, hpoint, hw, hheld⟩ := (insert_verified keyOf docLog clock).guar h hadm hs
    have he : Effect keyOf c.world env t c'.world := by
      rw [hw]
      exact effect_advance t
    rcases docLog_effect he with hsame | ⟨ws, envelope, payload, rfl, haccept, hlog⟩
    · rw [hsame] at hrow
      exact absurd hrow hnew
    obtain ⟨hfree, hgen, happend⟩ := appendEntry_accept haccept
    have hunused : c.world.docLog.docLog.has (payload.docId, payload.deviceId, payload.seq) =
        false := by
      unfold has
      rw [hfree]
      rfl
    -- the accepted insert was not refused, so its socket has the authority
    have hauth : InsertAuthority c.world ws payload.docId := by
      rcases hheld ws envelope payload rfl with hrefused | hauth
      · simp only [insertRefused, hunused, Bool.false_or] at hrefused
        obtain ⟨space, hspace, hlt⟩ := (Option.any_eq_true _ _).mp hrefused
        have hle := hgen space hspace
        simp only [decide_eq_true_eq] at hlt
        omega
      · exact hauth
    rw [hlog, happend] at hrow
    have hrow : row ∈ (c.world.docLog.docLog.add _).rows := hrow
    rw [rows_add_of_free (by exact hunused)] at hrow
    rcases List.mem_append.mp hrow with hold | hrow
    · exact absurd hold hnew
    · cases List.mem_singleton.mp hrow
      exact ⟨n, env, ws, envelope, payload, rfl, hpoint, rfl, hauth⟩

end

/-! ## 6. A member writes -/

/-- The first entry of `did:member` in `space-1`. -/
def memberEntry : LogEntryMessage where
  id := some "message-1"
  toDids := ["did:admin"]
  entry := .compact
    { seq := 0, deviceId := "device-2", docId := "space-1", authorKid := "did:member#sig-0"
      keyGeneration := 0, data := ⟨[], [], []⟩, timestamp := 0 }

def memberWrites : List (Action Env RelayCall) :=
  spaceSetup.append [.call (.presentCapability 2 memberCapability), .run 3 relayEnv,
    .run 3 relayEnv, .call (.logEntry 2 memberEntry), .run 4 relayEnv, .run 4 relayEnv]

def insertsNext (c : RelayConfig) : Bool :=
  ((c.step (relaySystem some) (.run 4 relayEnv)).any fun c' =>
    decide (c.world.docLog.docLog.rows = [] ∧ c'.world.docLog.docLog.rows ≠ []))

/-- Nothing happens under the waiting entry: its row is inserted with
    authority. -/
theorem insert_authorized_member : ∃ c c',
    Reachable (relaySystem some) (SteadyRun some) (start .fresh 0) c ∧
      c.step (relaySystem some) (.run 4 relayEnv) = some c' ∧
      c'.world.docLog.docLog.rows ≠ [] ∧ InsertsAuthorized c (.run 4 relayEnv) c' := by
  obtain ⟨c, hreach, htest⟩ := Reachable.of_exec (relaySystem some) (SteadyRun some)
    (start .fresh 0) memberWrites
    (fun c => insertsNext c && steadyRun some c (.run 4 relayEnv)) (by decide)
  simp only [Bool.and_eq_true, insertsNext, Option.any_eq_true, decide_eq_true_eq] at htest
  obtain ⟨⟨c', hs, -, hrows⟩, hsteady⟩ := htest
  exact ⟨c, c', hreach, hs, hrows, insert_authorized hreach hsteady hs⟩

def hashedOn (ws : SocketId) : RelayPoint → Bool
  | .payloadHashed ws' _ _ => decide (ws' = ws)
  | _ => true

/-- **A revocation inside the `await`.**  The member's device is revoked while the
    payload is being hashed; the row is inserted all the same. -/
theorem insert_revoked : ¬ ∀ c a c', Reachable (relaySystem some) AnyRun (start .fresh 0) c →
      c.step (relaySystem some) a = some c' → InsertsAuthorized c a c' := by
  intro hclaim
  obtain ⟨c, hreach, htest⟩ := Reachable.of_exec (relaySystem some) AnyRun (start .fresh 0)
    (memberWrites.append [.call (.deviceRevoke 1 (.signed
        { kid := .verificationMethod "did:member", signer := "did:member"
          payload := ⟨"did:member", "device-2", "2026-01-01T00:00:00Z"⟩ })), .run 5 relayEnv,
            .run 5 relayEnv])
    (fun c => insertsNext c && decide (c.world.socketToDid 2 = some "did:member") &&
      decide (c.world.socketToDeviceId 2 = some "device-2") &&
      !c.world.docLog.isActive "did:member" "device-2" &&
      (c.pointAt 4).all (hashedOn 2)) (by decide)
  simp only [Bool.and_eq_true, insertsNext, Option.any_eq_true, decide_eq_true_eq,
    Bool.not_eq_true'] at htest
  obtain ⟨⟨⟨⟨⟨c', hs, hbefore, hafter⟩, hdid⟩, hdevice⟩, hrevoked⟩, hsocket⟩ := htest
  obtain ⟨row, hrow⟩ := List.exists_mem_of_ne_nil _ hafter
  obtain ⟨n, env, ws, envelope, payload, hrun, hpoint, -, hauth⟩ :=
    hclaim c _ c' hreach hs row hrow (by rw [hbefore]; exact List.not_mem_nil)
  cases hrun
  rw [hpoint] at hsocket
  have hsocket : ws = 2 := by simpa [hashedOn] using hsocket
  subst hsocket
  obtain ⟨did, deviceId, hd, hdev, hactive⟩ := hauth.device
  cases hdid.symm.trans hd
  cases hdevice.symm.trans hdev
  rw [hrevoked] at hactive
  cases hactive

end WebOfTrust
