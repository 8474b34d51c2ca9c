/-
  **The registry of spaces.**  A document is either a registered space or belongs to
  one personal owner; a space has one verification key for each generation.

  Neither `await` is guarded.  A document that is registered while the capability of
  its first claimant is being verified ends up as both, and its other admins can no
  longer repeat their registration (`docKind_race`).  The gates of a log entry look at
  the generation before anybody has looked for the stored copy, so a lost receipt
  cannot be made good after a rotation (`resubmission_stale`).  Everything else holds
  in every run: `docKind_exclusive` where no such claim goes through,
  `rotation_linear` for generations, keys and receipts.
-/
import WebOfTrust.RelayInsert

namespace WebOfTrust

open Async Relay BrokerStore KeyedTable Config Option

/-! ## 1. Spaces and personal documents -/

/-- No document is a registered space and has a personal owner. -/
def DocKindExclusive (s : BrokerStore) : Prop :=
  ∀ docId space owner, s.getSpace docId = some space → s.getPersonalDocOwner docId ≠ some owner

/-- A `space-register` frame with the key and the admin set of its registered space is
    answered by a receipt, whoever of the admins has signed it. -/
def ReregisterIdempotent (keyOf : Did → Option PublicKey) (w : Relay) : Prop :=
  ∀ ws jws env payload space, verifySpaceRegisterMessage keyOf jws = .ok payload →
    env.failure = none → w.docLog.getSpace payload.spaceId = some space →
    space.verificationKey = payload.spaceCapabilityVerificationKey →
    (∀ did, did ∈ w.docLog.getSpaceAdmins payload.spaceId ↔ did ∈ payload.adminDids) →
      w.spaceRegisterVerified keyOf ws jws env = w.sendReceipt ws payload.spaceId

/-- The claim of a verified personal capability finds its document unregistered, or is
    refused. -/
def claimsFree (w : Relay) (env : Env) : RelayPoint → Bool
  | .capabilityVerified _ (.personal socketDid docId checked) =>
    !env.accepts checked || !w.docLog.isSpaceRegistered docId ||
      decide ((w.docLog.claimPersonalDocOwner docId socketDid w.clock).1 = .conflict)
  | _ => true

def claimsRun (c : RelayConfig) : Action Env RelayCall → Bool
  | .run n env => (c.pointAt n).all (claimsFree c.world env)
  | _ => true

abbrev ClaimsRun (c : RelayConfig) (a : Action Env RelayCall) : Prop := claimsRun c a = true

section

variable {keyOf : Did → Option PublicKey} {w : Relay} {env : Env} {t : RelayPoint}

theorem docKindExclusive_fresh : DocKindExclusive .fresh := by
  intro docId space owner hspace
  cases hspace

theorem DocKindExclusive.storeEffect {s : BrokerStore} (h : DocKindExclusive w.docLog)
    (he : StoreEffect keyOf w env t s) (hfree : claimsFree w env t = true) :
    DocKindExclusive s := by
  intro docId space owner hspace howner
  cases he with
  | devices devices => exact h docId space owner hspace howner
  | claimed ws socketDid docId' checked payload hok hclaim =>
    obtain ⟨owners, hown⟩ := w.docLog.claimPersonalDocOwner_frame docId' socketDid w.clock
    have hspace : w.docLog.getSpace docId = some space := by
      rw [hown] at hspace
      exact hspace
    by_cases hdoc : docId' = docId
    · -- the claimed document was unregistered, and still is
      subst hdoc
      have hunreg : w.docLog.isSpaceRegistered docId' = false := by
        simpa [claimsFree, ScopesSound.accepts_of_verdict hok, hclaim] using hfree
      cases (get?_eq_none_of_has hunreg).symm.trans hspace
    · rw [getPersonalDocOwner_claim_of_ne hdoc] at howner
      exact h docId space owner hspace howner
  | registered ws jws payload henv hok hreg =>
    -- a registration deletes the owner of what it registers
    obtain ⟨-, hspaces, howners⟩ := registerSpace_registered hreg
    by_cases hdoc : payload.spaceId = docId
    · rw [howners docId, if_pos hdoc] at howner
      cases howner
    rw [hspaces docId, if_neg hdoc] at hspace
    rw [howners docId, if_neg hdoc] at howner
    exact h docId space owner hspace howner
  | rotated ws signer thid payload current henv hcurrent hnext =>
    by_cases hdoc : payload.spaceId = docId
    · subst hdoc
      exact h payload.spaceId current owner hcurrent howner
    · rw [getSpace_rotateSpace, if_neg hdoc] at hspace
      exact h docId space owner hspace howner
  | adminAdded ws signer thid payload henv | adminRemoved ws signer thid payload henv =>
    exact h docId space owner hspace howner
  | inserted ws envelope payload haccept =>
    rw [(appendEntry_accept haccept).2.2] at hspace howner
    exact h docId space owner hspace howner

/-- Where no space has an owner, nothing stands before the comparison with the
    registered key and admins. -/
theorem DocKindExclusive.reregister (h : DocKindExclusive w.docLog) :
    ReregisterIdempotent keyOf w := by
  intro ws jws env payload space hverified henv hspace hkey hadmins
  have hunowned : w.docLog.getPersonalDocOwner payload.spaceId = none := by
    apply eq_none_iff_forall_ne_some.mpr
    intro owner howner
    exact h payload.spaceId space owner hspace howner
  have hsame : sameStringSet (w.docLog.getSpaceAdmins payload.spaceId)
      payload.adminDids = true := by
    simp only [sameStringSet, Bool.and_eq_true, List.all_eq_true, List.contains_iff_mem]
    constructor
    · intro did hdid
      exact (hadmins did).mp hdid
    · intro did hdid
      exact (hadmins did).mpr hdid
  have hreg : (w.docLog.registerSpace payload.spaceId payload.spaceCapabilityVerificationKey
      payload.adminDids (jws.kid.did?.getD "") w.clock).1 = .idempotent := by
    simp [registerSpace, hunowned, hspace, hkey, hsame]
  unfold spaceRegisterVerified verifiedFrame
  simp only [henv, hverified, hreg]

/-- **A document is of one kind**, and a repeated registration is acknowledged, in
    every state of a run in which no personal capability of a registered document
    goes through. -/
theorem docKind_exclusive {docLog : BrokerStore} {clock : Nat} {c : RelayConfig}
    (hstart : DocKindExclusive docLog)
    (h : Reachable (relaySystem keyOf) ClaimsRun (start docLog clock) c) :
    DocKindExclusive c.world.docLog ∧ ReregisterIdempotent keyOf c.world := by
  have hexcl : DocKindExclusive c.world.docLog := by
    refine store_invariant hstart ?_ h
    intro c n env t hadm hpoint hinv
    have hadm : (c.pointAt n).all (claimsFree c.world env) = true := hadm
    rw [hpoint] at hadm
    exact hinv.storeEffect (store_advance t) hadm
  exact ⟨hexcl, hexcl.reregister⟩

end

/-! ## 2. A space that somebody owns -/

/-- The capability that `did:stranger` has issued to itself for `space-1`. -/
def strangerCapability : PresentCapabilityFrame :=
  .present
    { kid := .verificationMethod "did:stranger"
      signer := "did:stranger"
      payload :=
        { spaceId := "space-1", audience := "did:stranger", permissions := [.read, .write]
          generation := 0, validUntil := 100 } }

/-- The stranger presents it before `space-1` is registered. -/
def strangerClaims : List (Action Env RelayCall) :=
  [.call (.register 3 "did:stranger" "device-3"), .run 0 relayEnv,
    .call (.presentCapability 3 strangerCapability), .run 1 relayEnv]

/-- The admin's registration of `space-1`. -/
def adminRegistration : SignedJws SpaceRegisterPayload where
  kid := .verificationMethod "did:admin"
  signer := "did:admin"
  payload := ⟨"space-1", "key-0", ["did:admin"]⟩

def adminRegisters : RelayCall := .spaceRegister 1 (.signed adminRegistration)

/-- The claim is made before the registration, whose signer is somebody else: the
    document stays personal. -/
theorem docKind_exclusive_claimed : ∃ c,
    Reachable (relaySystem some) ClaimsRun (start .fresh 0) c ∧
      c.world.docLog.getPersonalDocOwner "space-1" = some "did:stranger" ∧
        DocKindExclusive c.world.docLog ∧ ReregisterIdempotent some c.world := by
  obtain ⟨c, hreach, htest⟩ := Reachable.of_exec (relaySystem some) ClaimsRun (start .fresh 0)
    (strangerClaims.append [.run 1 relayEnv, .call adminRegisters, .run 2 relayEnv])
    (fun c => decide (c.world.docLog.getPersonalDocOwner "space-1" = some "did:stranger"))
    (by decide)
  simp only [decide_eq_true_eq] at htest
  exact ⟨c, hreach, htest, docKind_exclusive docKindExclusive_fresh hreach⟩

/-- **A registration inside the `await`.**  The space is registered while the
    stranger's capability is being verified.  It is a space with an owner then, and the
    admin's own registration is refused when it is sent again. -/
theorem docKind_race : ∃ c,
    Reachable (relaySystem some) AnyRun (start .fresh 0) c ∧
      ¬ DocKindExclusive c.world.docLog ∧ ¬ ReregisterIdempotent some c.world := by
  obtain ⟨c, hreach, htest⟩ := Reachable.of_exec (relaySystem some) AnyRun (start .fresh 0)
    (strangerClaims.append [.call adminRegisters, .run 2 relayEnv, .run 1 relayEnv])
    (fun c => decide (c.world.docLog.getSpace "space-1" = some ⟨"space-1", "key-0", 0, 0⟩) &&
      decide (c.world.docLog.getSpaceAdmins "space-1" = ["did:admin"]) &&
      decide (c.world.docLog.getPersonalDocOwner "space-1" = some "did:stranger")) (by decide)
  simp only [Bool.and_eq_true, decide_eq_true_eq] at htest
  obtain ⟨⟨hspace, hadmins⟩, howner⟩ := htest
  refine ⟨c, hreach, ?_, ?_⟩
  · intro hexcl
    exact hexcl "space-1" _ _ hspace howner
  intro hidempotent
  have hanswer := hidempotent 1 adminRegistration relayEnv adminRegistration.payload _ rfl rfl
    hspace rfl (by simp [hadmins, adminRegistration])
  have hrefused : (c.world.docLog.registerSpace "space-1" "key-0" ["did:admin"] "did:admin"
      c.world.clock).1 = .personalOwnerConflict := by
    simp [registerSpace, howner]
  have hverified : verifySpaceRegisterMessage some adminRegistration =
      .ok adminRegistration.payload := rfl
  have hsent := congrArg sent hanswer
  unfold spaceRegisterVerified verifiedFrame at hsent
  simp only [relayEnv, hverified] at hsent
  simp only [adminRegistration, JwsKid.did?, getD_some, hrefused] at hsent
  simp [sendError, sendTo, sendReceipt] at hsent

/-! ## 3. Rotations and the entries they outdate -/

/-- An entry that the log already holds, sent again by somebody who may write there. -/
structure Resubmission (w : Relay) (env : Env) (ws : SocketId) (envelope : LogEntryMessage)
    (payload : LogEntryPayload) : Prop where
  verified : env.verdict (verifyLogEntryJws envelope.entry) = .ok payload
  stored : w.docLog.getContentHash payload.docId payload.deviceId payload.seq = some payload
  active : w.socketActive ws = true
  owner : w.ownerMismatch ws payload.docId = false
  scope : (w.checkScope ws payload.docId .write).1 = .granted
  author : w.docLog.didForDevice payload.deviceId = some (didOrKidToDid payload.authorKid)

/-- What a step may do to generations, keys and stored entries, and how it answers. -/
structure RotationStep (c : RelayConfig) (a : Action Env RelayCall) (c' : RelayConfig) :
    Prop where
  spaces : ∀ docId, SpaceStep (c.world.docLog.getSpace docId) (c'.world.docLog.getSpace docId)
  delivered : ∀ n env ws signerDid thid checked messageId, a = .run n env →
    c.pointAt n = some (.spaceRotateVerified ws signerDid thid checked) →
    c'.world.sent = c.world.sent ++ [(ws, .receipt messageId)] →
      ∃ payload space, checked = .ok payload ∧
        c'.world.docLog.getSpace payload.spaceId = some space ∧
        space.generation = payload.newGeneration ∧
        space.verificationKey = payload.newSpaceCapabilityVerificationKey
  /-- No new entry is of an older generation. -/
  gated : ∀ row ∈ c'.world.docLog.docLog.rows, row ∉ c.world.docLog.docLog.rows →
    ∀ space, c.world.docLog.getSpace row.docId = some space →
      space.generation ≤ row.contentHash.keyGeneration
  kept : ∀ docId deviceId seq hash, c.world.docLog.getContentHash docId deviceId seq = some hash →
    c'.world.docLog.getContentHash docId deviceId seq = some hash
  /-- A stored entry that is sent again passes the gates. -/
  resubmitted : ∀ n env ws envelope payload, a = .run n env →
    c.pointAt n = some (.logEntryVerified ws envelope) →
    Resubmission c.world env ws envelope payload →
      c'.pointAt n = some (.payloadHashed ws envelope payload) ∧ c'.world = c.world
  /-- Behind the gates it is acknowledged. -/
  acknowledged : ∀ n env ws envelope payload, a = .run n env →
    c.pointAt n = some (.payloadHashed ws envelope payload) → env.failure = none →
    c.world.docLog.getContentHash payload.docId payload.deviceId payload.seq = some payload →
      c'.world = c.world.sendReceipt ws envelope.messageId

/-- The resubmission, if the step is one, carries no older generation than its space. -/
def ResubmissionCurrent (c : RelayConfig) (a : Action Env RelayCall) : Prop :=
  ∀ n env ws envelope payload space, a = .run n env →
    c.pointAt n = some (.logEntryVerified ws envelope) →
    Resubmission c.world env ws envelope payload →
    c.world.docLog.getSpace payload.docId = some space → space.generation ≤ payload.keyGeneration

def OneKeyPerGeneration (s s' : BrokerStore) : Prop :=
  ∀ docId space space', s.getSpace docId = some space → s'.getSpace docId = some space' →
    space'.generation = space.generation → space'.verificationKey = space.verificationKey

section

variable {keyOf : Did → Option PublicKey} {w : Relay} {env : Env}
  {admits : RelayConfig → Action Env RelayCall → Prop} {docLog : BrokerStore} {clock : Nat}
  {c c' : RelayConfig} {a : Action Env RelayCall} {ws : SocketId} {envelope : LogEntryMessage}

theorem spaceRotateVerified_receipt {thid messageId : String}
    {checked : Except FrameRejection SpaceRotatePayload}
    (h : (w.spaceRotateVerified ws thid checked env).sent =
      w.sent ++ [(ws, .receipt messageId)]) : ∃ payload space, checked = .ok payload ∧
      (w.spaceRotateVerified ws thid checked env).docLog.getSpace payload.spaceId = some space ∧
      space.generation = payload.newGeneration ∧
      space.verificationKey = payload.newSpaceCapabilityVerificationKey := by
  unfold spaceRotateVerified at h ⊢
  split at h
  · next frame herror =>
    -- what a failed verification answers is no receipt
    exfalso
    have hframe : frame = .receipt messageId := by
      have h : w.sent ++ [(ws, frame)] = w.sent ++ [(ws, .receipt messageId)] := h
      simpa using h
    subst hframe
    unfold verifiedFrame at herror
    split at herror
    · cases herror
    · split at herror <;> cases herror
  · next payload hok =>
    obtain ⟨-, rfl⟩ := verifiedFrame_ok hok
    simp only at h ⊢
    split at h
    · simp [sendThreadedError, sendTo] at h
    next space hspace =>
    split at h
    · next hgen =>
      split at h
      · next hkey =>
        refine ⟨payload, space, rfl, ?_, hgen.symm, hkey.symm⟩
        rw [if_pos hgen, if_pos hkey]
        exact hspace
      · simp [sendThreadedError, sendTo] at h
    · next hgen =>
      rw [if_neg hgen]
      split at h
      · simp [sendThreadedError, sendTo] at h
      next hge =>
      rw [if_neg hge]
      split at h
      · simp [sendTo] at h
      next hle =>
      rw [if_neg hle]
      refine ⟨payload, space.rotate payload.newSpaceCapabilityVerificationKey
        payload.newGeneration, rfl, ?_, rfl, rfl⟩
      refine (getSpace_rotateSpace _ _ _ _ _).trans ?_
      rw [if_pos rfl, hspace]
      rfl

theorem logEntryVerified_resubmission {payload : LogEntryPayload}
    (h : Resubmission w env ws envelope payload) : if (w.docLog.getSpace payload.docId).any
        (fun space => decide (payload.keyGeneration < space.generation)) then
      (w.logEntryVerified ws envelope env).1 = none
    else w.logEntryVerified ws envelope env = (some payload, w) := by
  have hscope : w.checkScope ws payload.docId .write = (.granted, w) := by
    rcases w.checkScope_cases ws payload.docId .write with ⟨hw, -⟩ | ⟨hexpired, -⟩
    · exact Prod.ext h.scope hw
    · rw [h.scope] at hexpired
      cases hexpired
  unfold logEntryVerified
  simp only [h.verified, h.active, h.owner, hscope, h.author]
  split
  · simp
  · simp

def GoesToInsert : RelayProgram Unit → Prop
  | .ret _ => True
  | .fail _ => True
  | .step t _ _ next =>
    (∀ ws envelope, t = .logEntryVerified ws envelope → ∀ env w, (next env w).point =
        (w.logEntryVerified ws envelope env).1.map (RelayPoint.payloadHashed ws envelope)) ∧
      ∀ env w, GoesToInsert (next env w)

theorem goesToInsert_twoTurns {α : Type} {t : RelayPoint} {f : Env → Relay → Option α × Relay}
    {u : α → RelayPoint} {g : α → Env → Relay → Relay}
    (ht : ∀ ws envelope, t ≠ .logEntryVerified ws envelope)
    (hu : ∀ a ws envelope, u a ≠ .logEntryVerified ws envelope) :
    GoesToInsert ((turn t f).bind fun found => whenSome found fun a => lastTurn (u a) (g a)) := by
  refine ⟨fun ws envelope h => absurd h (ht ws envelope), fun env w => ?_⟩
  show GoesToInsert (whenSome (f env w).1 _)
  cases (f env w).1 with
  | none => trivial
  | some a => exact ⟨fun ws envelope h => absurd h (hu a ws envelope), fun _ _ => trivial⟩

theorem goesToInsert_program (call : RelayCall) : GoesToInsert (call.program keyOf) := by
  cases call with
  | register ws did deviceId | close ws | tick now => exact ⟨by simp, fun _ _ => trivial⟩
  | presentCapability ws raw => exact goesToInsert_twoTurns (by simp) (by simp)
  | spaceRegister ws raw => cases raw <;> exact ⟨by simp, fun _ _ => trivial⟩
  | spaceRotate ws raw | adminAdd ws raw | adminRemove ws raw | deviceRevoke ws raw =>
    cases raw with
    | malformed message => exact ⟨by simp, fun _ _ => trivial⟩
    | signed jws => exact goesToInsert_twoTurns (by simp) (by simp)
  | logEntry ws envelope =>
    refine ⟨by simp, fun env w => ?_⟩
    show GoesToInsert (if (w.handleSend ws).1 = true then _ else _)
    split
    · constructor
      · rintro ws' envelope' h env w
        cases h
        show (whenSome (w.logEntryVerified ws envelope env).1 _).point = _
        cases (w.logEntryVerified ws envelope env).1 <;> rfl
      · intro env w
        show GoesToInsert (whenSome (w.logEntryVerified ws envelope env).1 _)
        cases (w.logEntryVerified ws envelope env).1 with
        | none => trivial
        | some payload => exact ⟨by simp, fun _ _ => trivial⟩
    · trivial
  | syncRequest ws request =>
    refine ⟨by simp, fun env w => ?_⟩
    show GoesToInsert (if (w.handleSend ws).1 = true then _ else _)
    split
    · exact ⟨by simp, fun _ _ => trivial⟩
    · trivial

theorem pointAt_logEntryVerified {n : Nat}
    (h : Reachable (relaySystem keyOf) admits (start docLog clock) c)
    (hs : c.step (relaySystem keyOf) (.run n env) = some c')
    (hpoint : c.pointAt n = some (.logEntryVerified ws envelope)) : c'.pointAt n =
      (c.world.logEntryVerified ws envelope env).1.map (RelayPoint.payloadHashed ws envelope) := by
  obtain ⟨t, ready, upd, next, hn, -, rfl⟩ := step_run hs
  have ht : t = .logEntryVerified ws envelope := by simpa [pointAt, hn] using hpoint
  have hgoes : GoesToInsert (.step t ready upd next) :=
    h.programs goesToInsert_program (fun _ _ _ _ hp => hp.2) _ (List.mem_of_getElem? hn)
  have hlt : n < c.procs.length := (List.getElem?_eq_some_iff.mp hn).1
  show ((c.procs.set n _)[n]?).bind Async.point = _
  rw [List.getElem?_set_self hlt]
  exact hgoes.1 ws envelope ht env c.world

section

variable (h : Reachable (relaySystem keyOf) AnyRun (start docLog clock) c)
include h

section

variable (hs : c.step (relaySystem keyOf) a = some c')
include hs

theorem store_step :
    c'.world.docLog = c.world.docLog ∨ ∃ n env t, a = .run n env ∧ c.pointAt n = some t ∧
        c'.world = c.world.advance keyOf t env := by
  cases a with
  | call k => exact .inl (congrArg Relay.docLog (world_eq_of_call hs))
  | crash n => exact .inl (congrArg Relay.docLog (world_eq_of_crash hs))
  | restart =>
    cases hs
    exact .inl rfl
  | run n env =>
    obtain ⟨t, hpoint, hw⟩ := step_advance h trivial hs
    exact .inr ⟨n, env, t, rfl, hpoint, hw⟩

theorem spaceStep_step (docId : DocId) :
    SpaceStep (c.world.docLog.getSpace docId) (c'.world.docLog.getSpace docId) := by
  rcases store_step h hs with hsame | ⟨n, env, t, -, -, hw⟩
  · rw [hsame]
    exact .same _
  · rw [hw]
    exact (store_advance t).space docId

omit hs in
theorem oneKey_later (hlater : Config.Later (relaySystem keyOf) c c') :
    OneKeyPerGeneration c.world.docLog c'.world.docLog := by
  have hspaces := (turn_verified keyOf AnyRun docLog clock).later
    (R := fun w w' => ∀ docId, Relation.ReflTransGen SpaceStep (w.docLog.getSpace docId)
      (w'.docLog.getSpace docId))
    (fun _ _ => .refl) (fun _ _ _ h h' docId => (h docId).trans (h' docId))
    (fun t _ _ _ _ hw docId => hw ▸ .single ((store_advance t).space docId)) (fun _ _ _ => .refl)
    h (Relation.ReflTransGen.mono (fun _ _ => Exists.imp fun _ hs => ⟨trivial, hs⟩) _ _ hlater)
  intro docId space space' hspace hspace' hgen
  have hsteps := hspaces docId
  rw [hspace] at hsteps
  obtain ⟨found, hfound, -, hsame⟩ := SpaceStep.run hsteps
  cases hspace'.symm.trans hfound
  rw [hsame hgen]

theorem gated_step {row : DocLogRow}
    (hrow : row ∈ c'.world.docLog.docLog.rows) (hnew : row ∉ c.world.docLog.docLog.rows)
    {space : SpaceRow} (hspace : c.world.docLog.getSpace row.docId = some space) :
    space.generation ≤ row.contentHash.keyGeneration := by
  rcases store_step h hs with hsame | ⟨n, env, t, -, -, hw⟩
  · rw [hsame] at hrow
    exact absurd hrow hnew
  rw [hw] at hrow
  rcases (store_advance (w := c.world) t).log with hlog |
    ⟨ws, envelope, payload, -, haccept, hlog⟩
  · rw [hlog] at hrow
    exact absurd hrow hnew
  obtain ⟨hfree, hgen, happend⟩ := appendEntry_accept haccept
  have hunused : c.world.docLog.docLog.has (payload.docId, payload.deviceId, payload.seq) =
      false := by
    unfold has
    rw [hfree]
    rfl
  rw [hlog, happend] at hrow
  have hrow : row ∈ (c.world.docLog.docLog.add _).rows := hrow
  rw [rows_add_of_free (by exact hunused)] at hrow
  rcases List.mem_append.mp hrow with hold | hrow
  · exact absurd hold hnew
  · cases List.mem_singleton.mp hrow
    exact hgen space hspace

theorem kept_step {docId : DocId} {deviceId : DeviceId} {seq : Nat} {hash : LogEntryPayload}
    (hstored : c.world.docLog.getContentHash docId deviceId seq = some hash) :
    c'.world.docLog.getContentHash docId deviceId seq = some hash := by
  rcases store_step h hs with hsame | ⟨n, env, t, -, -, hw⟩
  · rw [hsame]
    exact hstored
  rw [hw]
  rcases (store_advance (w := c.world) t).log with hlog |
    ⟨ws, envelope, payload, -, haccept, hlog⟩
  · unfold getContentHash at hstored ⊢
    rw [hlog]
    exact hstored
  obtain ⟨row, hrow, hhash⟩ := map_eq_some_iff.mp hstored
  rw [hlog, (appendEntry_accept haccept).2.2]
  exact map_eq_some_iff.mpr ⟨row, get?_add_of_some hrow, hhash⟩

end

end

theorem payloadHashed_stored {payload : LogEntryPayload} (henv : env.failure = none)
    (hstored : w.docLog.getContentHash payload.docId payload.deviceId payload.seq = some payload) :
    w.payloadHashed ws envelope payload env = w.sendReceipt ws envelope.messageId := by
  have hdedup : (w.docLog.appendEntry payload envelope.entry w.clock).1 =
      .idempotentRetransmission := by
    unfold appendEntry
    simp only [hstored, if_true]
  unfold payloadHashed
  simp only [henv, hdedup]

/-- **Rotations are linear** in every run, from any store: one key for each generation,
    receipts that name the installed key, no new entry of an older generation.  A
    stored entry that is sent again is acknowledged exactly as long as its generation
    is not outdated. -/
theorem rotation_linear (h : Reachable (relaySystem keyOf) AnyRun (start docLog clock) c) :
    (∀ c', Config.Later (relaySystem keyOf) c c' → OneKeyPerGeneration c.world.docLog c'.world.docLog) ∧
    ∀ a c', c.step (relaySystem keyOf) a = some c' →
      (RotationStep c a c' ↔ ResubmissionCurrent c a) := by
  refine ⟨fun c' hlater => oneKey_later h hlater, ?_⟩
  intro a c' hs
  -- the gates decide a resubmission by its generation alone
  have gate : ∀ n env ws envelope payload, a = .run n env →
      c.pointAt n = some (.logEntryVerified ws envelope) →
      Resubmission c.world env ws envelope payload → if (c.world.docLog.getSpace payload.docId).any
            (fun space => decide (payload.keyGeneration < space.generation)) then
          c'.pointAt n = none
        else c'.pointAt n = some (.payloadHashed ws envelope payload) ∧ c'.world = c.world := by
    rintro n env ws envelope payload rfl hpoint hagain
    have hgates := logEntryVerified_resubmission hagain
    have hnext := pointAt_logEntryVerified h hs hpoint
    obtain ⟨t, hpoint', hw⟩ := step_advance h trivial hs
    cases hpoint.symm.trans hpoint'
    split
    · next hstale =>
      rw [if_pos hstale] at hgates
      rw [hnext, hgates]
      rfl
    next hcurrent =>
    rw [if_neg hcurrent] at hgates
    rw [hnext, hgates]
    refine ⟨rfl, ?_⟩
    rw [hw]
    show (c.world.logEntryVerified ws envelope env).2 = c.world
    rw [hgates]
  constructor
  · intro hstep n env ws envelope payload space ha hpoint hagain hspace
    obtain ⟨hnext, -⟩ := hstep.resubmitted n env ws envelope payload ha hpoint hagain
    by_contra hlt
    have hgate := gate n env ws envelope payload ha hpoint hagain
    rw [if_pos (by simpa [hspace] using hlt), hnext] at hgate
    cases hgate
  · intro hcurrent
    refine ⟨spaceStep_step h hs, ?_, fun row hrow hnew space hspace =>
      gated_step h hs hrow hnew hspace,
      fun docId deviceId seq hash hstored => kept_step h hs hstored, ?_, ?_⟩
    · rintro n env ws signerDid thid checked messageId rfl hpoint hsent
      obtain ⟨t, hpoint', hw⟩ := step_advance h trivial hs
      cases hpoint.symm.trans hpoint'
      rw [hw] at hsent ⊢
      exact spaceRotateVerified_receipt hsent
    · intro n env ws envelope payload ha hpoint hagain
      have hgate := gate n env ws envelope payload ha hpoint hagain
      rwa [if_neg] at hgate
      intro hstale
      obtain ⟨space, hspace, hlt⟩ := (any_eq_true _ _).mp hstale
      have hle := hcurrent n env ws envelope payload space ha hpoint hagain hspace
      simp only [decide_eq_true_eq] at hlt
      omega
    · rintro n env ws envelope payload rfl hpoint henv hstored
      obtain ⟨t, hpoint', hw⟩ := step_advance h trivial hs
      cases hpoint.symm.trans hpoint'
      rw [hw]
      exact payloadHashed_stored henv hstored

end

/-! ## 4. A lost receipt -/

def memberWrote : List (Action Env RelayCall) :=
  memberWrites.append [.run 4 relayEnv]

def renewedCapability : PresentCapabilityFrame :=
  .present
    { kid := .capability "space-1" 1
      signer := "key-1"
      payload :=
        { spaceId := "space-1", audience := "did:member", permissions := [.read, .write]
          generation := 1, validUntil := 100 } }

/-- Handler `n` is about to look at the member's entry, which the log already holds, and
    the socket, its scope and the author are as the gates want them. -/
def resendsNext (c : RelayConfig) (n : Nat) : Bool :=
  ((c.pointAt n).any fun t =>
    match t with
    | .logEntryVerified ws envelope => decide (ws = 2) && decide (envelope = memberEntry)
    | _ => false) &&
  match verifyLogEntryJws memberEntry.entry with
  | .ok payload =>
    decide (c.world.docLog.getContentHash payload.docId payload.deviceId payload.seq =
      some payload) && c.world.socketActive 2 && !c.world.ownerMismatch 2 payload.docId &&
      decide ((c.world.checkScope 2 payload.docId .write).1 = .granted) &&
      decide (c.world.docLog.didForDevice payload.deviceId = some (didOrKidToDid payload.authorKid))
  | .error _ => false

theorem resubmission_of_resendsNext {c : RelayConfig} {n : Nat} (h : resendsNext c n = true) :
    c.pointAt n = some (.logEntryVerified 2 memberEntry) ∧
      ∃ payload, Resubmission c.world relayEnv 2 memberEntry payload := by
  unfold resendsNext at h
  simp only [Bool.and_eq_true, any_eq_true] at h
  obtain ⟨⟨t, hpoint, ht⟩, hgates⟩ := h
  constructor
  · rw [hpoint]
    split at ht
    · simp only [Bool.and_eq_true, decide_eq_true_eq] at ht
      obtain ⟨rfl, rfl⟩ := ht
      rfl
    · cases ht
  · split at hgates
    · next payload hok =>
      simp only [Bool.and_eq_true, decide_eq_true_eq, Bool.not_eq_true'] at hgates
      obtain ⟨⟨⟨⟨hstored, hactive⟩, howner⟩, hscope⟩, hauthor⟩ := hgates
      exact ⟨payload, hok, hstored, hactive, howner, hscope, hauthor⟩
    · cases hgates

/-- Nothing has been rotated: the entry that is sent again passes. -/
theorem rotation_linear_resent : ∃ c c',
    Reachable (relaySystem some) AnyRun (start .fresh 0) c ∧
      c.step (relaySystem some) (.run 5 relayEnv) = some c' ∧ resendsNext c 5 = true ∧
        RotationStep c (.run 5 relayEnv) c' := by
  obtain ⟨c, hreach, htest⟩ := Reachable.of_exec (relaySystem some) AnyRun (start .fresh 0)
    (memberWrote.append [.call (.logEntry 2 memberEntry), .run 5 relayEnv])
    (fun c => resendsNext c 5 && (c.step (relaySystem some) (.run 5 relayEnv)).isSome &&
      c.world.docLog.spaces.rows.all fun space => decide (space.generation = 0)) (by decide)
  simp only [Bool.and_eq_true, List.all_eq_true, decide_eq_true_eq] at htest
  obtain ⟨⟨hresends, hstep⟩, hgen⟩ := htest
  obtain ⟨c', hs⟩ := isSome_iff_exists.mp hstep
  refine ⟨c, c', hreach, hs, hresends, ((rotation_linear hreach).2 _ c' hs).mpr ?_⟩
  intro n env ws envelope payload space _ _ _ hspace
  rw [hgen space (mem_of_get? hspace)]
  exact Nat.zero_le _

/-- **The fast gate.**  The receipt of the member's entry was lost, the space has been
    rotated, and the member sends the entry again under its renewed capability: it is
    refused, although the log holds it. -/
theorem resubmission_stale :
    ¬ ∀ c a c', Reachable (relaySystem some) AnyRun (start .fresh 0) c →
      c.step (relaySystem some) a = some c' → RotationStep c a c' := by
  intro hclaim
  obtain ⟨c, hreach, htest⟩ := Reachable.of_exec (relaySystem some) AnyRun (start .fresh 0)
    (memberWrote.append [.call (.spaceRotate 1 (adminSigned ⟨"space-1", "key-1", 1⟩)),
      .run 5 relayEnv, .run 5 relayEnv, .call (.presentCapability 2 renewedCapability),
      .run 6 relayEnv, .run 6 relayEnv, .call (.logEntry 2 memberEntry), .run 7 relayEnv])
    (fun c => resendsNext c 7 &&
      (c.step (relaySystem some) (.run 7 relayEnv)).any fun c' => (c'.pointAt 7).isNone)
    (by decide)
  simp only [Bool.and_eq_true, any_eq_true, isNone_iff_eq_none] at htest
  obtain ⟨hresends, c', hs, hrefused⟩ := htest
  obtain ⟨hpoint, payload, hagain⟩ := resubmission_of_resendsNext hresends
  obtain ⟨hnext, -⟩ := (hclaim c _ c' hreach hs).resubmitted 7 relayEnv 2 memberEntry payload rfl
    hpoint hagain
  rw [hrefused] at hnext
  cases hnext

end WebOfTrust
