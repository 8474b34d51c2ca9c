/-
  **The scope cache and what it may outlive.**  A cached scope is the answer to a
  capability that was verified once.  A rotation deletes the scopes of older
  generations, a first registration those of the personal path, so that nobody
  writes on under a superseded capability.

  The handlers read the space before they await the signature check and cache
  after it.  A rotation or a first registration in between is undone by the late
  `cacheScope` (`scopeCache_race`).  Where no verification succeeds on a space that
  has moved on meanwhile, the cache is always sound (`scopeCache_sound`).
-/
import WebOfTrust.RelayTurns

namespace WebOfTrust

open Async Relay BrokerStore

/-! ## 1. The property and the runs -/

/-- No cached scope of a registered space is of an older generation, and none
    comes from the personal path. -/
def ScopeCacheCurrent (w : Relay) : Prop :=
  ∀ ws docId scope space, w.getScope ws docId = some scope → w.docLog.getSpace docId = some space →
      space.generation ≤ scope.generation ∧ scope.path ≠ .personal

def Env.accepts {α : Type} (env : Env) (checked : Except String α) : Bool :=
  env.failure.isNone && checked.isOk

/-- A verification that succeeds finds the space at the generation that was read
    before the `await`; on the personal path, the document still unregistered,
    unless the claim of its owner is refused. -/
def capabilityFresh (w : Relay) (env : Env) : PresentedCapability → Bool
  | .space docId space checked =>
    !env.accepts checked ||
      decide ((w.docLog.getSpace docId).map (·.generation) = some space.generation)
  | .personal socketDid docId checked =>
    !env.accepts checked || !w.docLog.isSpaceRegistered docId ||
      decide ((w.docLog.claimPersonalDocOwner docId socketDid w.clock).1 = .conflict)

def freshAt (w : Relay) (env : Env) : RelayPoint → Bool
  | .capabilityVerified _ presented => capabilityFresh w env presented
  | _ => true

def freshRun (c : RelayConfig) : Action Env RelayCall → Bool
  | .run n env => (c.pointAt n).all (freshAt c.world env)
  | _ => true

abbrev FreshRun (c : RelayConfig) (a : Action Env RelayCall) : Prop := freshRun c a = true

abbrev AnyRun (_ : RelayConfig) (_ : Action Env RelayCall) : Prop := True

/-! ## 2. The invariant -/

/-- The cache agrees with the registry: scopes of a space are of its current
    generation, scopes of any other document are personal and its owner is
    known. -/
structure ScopesSound (w : Relay) : Prop where
  registered : ∀ {ws docId scope space}, w.getScope ws docId = some scope →
    w.docLog.getSpace docId = some space → scope.path = .space ∧ scope.generation = space.generation
  unregistered : ∀ {ws docId scope}, w.getScope ws docId = some scope →
    w.docLog.getSpace docId = none →
      scope.path = .personal ∧ ∃ owner, w.docLog.getPersonalDocOwner docId = some owner

namespace ScopesSound

variable {w w' : Relay}

theorem start (docLog : BrokerStore) (clock : Nat) : ScopesSound (.start docLog clock) where
  registered h := by cases h
  unregistered h := by cases h

section

variable (h : ScopesSound w)
include h

theorem current : ScopeCacheCurrent w := by
  intro ws docId scope space hscope hspace
  obtain ⟨hpath, hgen⟩ := h.registered hscope hspace
  rw [hpath, hgen]
  exact ⟨Nat.le_refl _, by decide⟩

theorem frame (hscope : ∀ ws docId scope, w'.getScope ws docId = some scope →
      w.getScope ws docId = some scope)
    (hspace : ∀ docId, w'.docLog.getSpace docId = w.docLog.getSpace docId)
    (howner : ∀ docId owner, w.docLog.getPersonalDocOwner docId = some owner →
      w'.docLog.getPersonalDocOwner docId = some owner) : ScopesSound w' where
  registered hs hsp := h.registered (hscope _ _ _ hs) (hspace _ ▸ hsp)
  unregistered hs hsp := by
    obtain ⟨hpath, owner, ho⟩ := h.unregistered (hscope _ _ _ hs) (hspace _ ▸ hsp)
    exact ⟨hpath, owner, howner _ _ ho⟩

theorem cachedSpace (ws : SocketId) {docId : DocId} (scope : CachedScope)
    {space : SpaceRow} (hspace : w.docLog.getSpace docId = some space)
    (hpath : scope.path = .space) (hgen : scope.generation = space.generation) :
    ScopesSound (w.cacheScope ws docId scope) where
  registered := by
    intro ws' docId' scope' space' hs hspace'
    rcases getScope_cacheScope hs with ⟨-, rfl, rfl⟩ | ⟨-, hs⟩
    · cases hspace.symm.trans hspace'
      exact ⟨hpath, hgen⟩
    · exact h.registered hs hspace'
  unregistered := by
    intro ws' docId' scope' hs hnone
    rcases getScope_cacheScope hs with ⟨-, rfl, -⟩ | ⟨-, hs⟩
    · cases hspace.symm.trans hnone
    · exact h.unregistered hs hnone

theorem cachedPersonal (ws : SocketId) {docId : DocId}
    (scope : CachedScope) {owner : Did} (hnone : w.docLog.getSpace docId = none)
    (hpath : scope.path = .personal) (howner : w.docLog.getPersonalDocOwner docId = some owner) :
    ScopesSound (w.cacheScope ws docId scope) where
  registered := by
    intro ws' docId' scope' space' hs hspace'
    rcases getScope_cacheScope hs with ⟨-, rfl, -⟩ | ⟨-, hs⟩
    · cases hnone.symm.trans hspace'
    · exact h.registered hs hspace'
  unregistered := by
    intro ws' docId' scope' hs hnone'
    rcases getScope_cacheScope hs with ⟨-, rfl, rfl⟩ | ⟨-, hs⟩
    · exact ⟨hpath, owner, howner⟩
    · exact h.unregistered hs hnone'

theorem forgotten (docId : DocId) (hscope : ∀ ws docId' scope, w'.getScope ws docId' = some scope →
      w.getScope ws docId' = some scope ∧ docId' ≠ docId)
    (hspace : ∀ docId', docId' ≠ docId → w'.docLog.getSpace docId' = w.docLog.getSpace docId')
    (howner : ∀ docId' owner, docId' ≠ docId → w.docLog.getPersonalDocOwner docId' = some owner →
      w'.docLog.getPersonalDocOwner docId' = some owner) : ScopesSound w' where
  registered := by
    intro ws docId' scope space hs hspace'
    obtain ⟨hs, hne⟩ := hscope _ _ _ hs
    exact h.registered hs ((hspace docId' hne).symm.trans hspace')
  unregistered := by
    intro ws docId' scope hs hnone
    obtain ⟨hs, hne⟩ := hscope _ _ _ hs
    obtain ⟨hpath, owner, ho⟩ := h.unregistered hs ((hspace docId' hne).symm.trans hnone)
    exact ⟨hpath, owner, howner _ _ hne ho⟩

end

theorem accepts_of_verdict {env : Env} {checked : Except String CapabilityPayload}
    {payload : CapabilityPayload} (h : env.verdict checked = .ok payload) :
    env.accepts checked = true := by
  obtain ⟨hfail, rfl⟩ := Env.verdict_ok h
  simp [Env.accepts, hfail, Except.isOk, Except.toBool]

variable {keyOf : Did → Option PublicKey}

theorem effect {t : RelayPoint} {env : Env}
    (h : ScopesSound w) (he : Effect keyOf w env t w') (hfresh : freshAt w env t = true) :
    ScopesSound w' := by
  cases he with
  | sent sent | ticked now => exact h.frame (fun _ _ _ hs => hs) (fun _ => rfl) fun _ _ ho => ho
  | expired ws docId hdrop =>
    obtain ⟨scope, sent, -, -, rfl⟩ := hdrop
    exact h.frame (fun _ _ _ hs => (Option.filter_eq_some_iff.mp hs).1) (fun _ => rfl)
      fun _ _ ho => ho
  | bound ws did deviceId connections sent hfree =>
    obtain ⟨devices, hdev⟩ := w.docLog.registerDevice_frame did deviceId w.clock
    rw [hdev]
    exact h.frame (fun _ _ _ hs => hs) (fun _ => rfl) fun _ _ ho => ho
  | closed ws =>
    obtain ⟨hlog, -, hscopes, -⟩ := w.close_spec ws
    refine h.frame (fun ws' docId scope hs => ?_) (fun _ => by rw [hlog])
      fun _ _ ho => by rwa [hlog]
    rw [hscopes] at hs
    exact (Option.filter_eq_some_iff.mp hs).1
  | cachedSpace ws docId space checked payload sent hok =>
    have hgen : (w.docLog.getSpace docId).map (·.generation) = some space.generation := by
      simpa [freshAt, capabilityFresh, accepts_of_verdict hok] using hfresh
    obtain ⟨current, hcurrent, hsame⟩ := Option.map_eq_some_iff.mp hgen
    have hcached :=
      h.cachedSpace ws ⟨payload.permissions, space.generation, .space, payload.validUntil⟩
      hcurrent rfl hsame.symm
    exact hcached.frame (fun _ _ _ hs => hs) (fun _ => rfl) fun _ _ ho => ho
  | cachedPersonal ws socketDid docId checked payload sent hok hclaim =>
    have hunreg : w.docLog.isSpaceRegistered docId = false := by
      simpa [freshAt, capabilityFresh, accepts_of_verdict hok, hclaim] using hfresh
    have howned := getPersonalDocOwner_claim_self hclaim
    -- the claim first, then the scope
    have hclaimed : ScopesSound
        { w with docLog := (w.docLog.claimPersonalDocOwner docId socketDid w.clock).2 } := by
      refine h.frame (fun _ _ _ hs => hs) (fun d => ?_)
        fun _ _ ho => getPersonalDocOwner_claim_of_some ho
      obtain ⟨owners, hown⟩ := w.docLog.claimPersonalDocOwner_frame docId socketDid w.clock
      simp only [hown]
      rfl
    have hnone : (w.docLog.claimPersonalDocOwner docId socketDid w.clock).2.getSpace docId =
        none := by
      obtain ⟨owners, hown⟩ := w.docLog.claimPersonalDocOwner_frame docId socketDid w.clock
      rw [hown]
      exact KeyedTable.get?_eq_none_of_has hunreg
    have hcached :=
      hclaimed.cachedPersonal ws ⟨payload.permissions, 0, .personal, payload.validUntil⟩
      hnone rfl howned
    exact hcached.frame (fun _ _ _ hs => hs) (fun _ => rfl) fun _ _ ho => ho
  | registered ws jws payload sent _ _ hreg =>
    -- all scopes of the document are personal, and they are deleted
    obtain ⟨hnone, hspaces, howners⟩ := registerSpace_registered hreg
    refine h.forgotten payload.spaceId (fun ws' docId' scope' hs => ?_)
      (fun docId' hne => ?_) fun docId' owner hne ho => ?_
    · obtain ⟨hs, hkeep⟩ := Option.filter_eq_some_iff.mp hs
      refine ⟨hs, ?_⟩
      rintro rfl
      obtain ⟨hpath, -⟩ := h.unregistered hs hnone
      simp [hpath] at hkeep
    · exact (hspaces docId').trans (if_neg (Ne.symm hne))
    · exact (howners docId').trans ((if_neg (Ne.symm hne)).trans ho)
  | rotated ws signerDid spaceId payload space sent _ hspace hnext =>
    -- all scopes of the space are of the generation that is replaced
    refine h.forgotten payload.spaceId (fun ws' docId' scope' hs => ?_)
      (fun docId' hne => ?_) fun docId' owner hne ho => ho
    · obtain ⟨hs, hkeep⟩ := Option.filter_eq_some_iff.mp hs
      refine ⟨hs, ?_⟩
      rintro rfl
      obtain ⟨-, hgen⟩ := h.registered hs hspace
      simp [hgen, hnext] at hkeep
    · exact (getSpace_rotateSpace _ _ _ _ _).trans (if_neg (Ne.symm hne))
  | adminAdded ws signerDid spaceId payload sent
  | adminRemoved ws signerDid spaceId payload sent =>
    exact h.frame (fun _ _ _ hs => hs) (fun _ => rfl) fun _ _ ho => ho
  | revoked ws payload sent =>
    obtain ⟨devices, hdev⟩ :=
      w.docLog.revokeDevice_frame payload.did payload.deviceId payload.revokedAt w.clock
    rw [hdev]
    exact h.frame (fun _ _ _ hs => hs) (fun _ => rfl) fun _ _ ho => ho
  | inserted ws envelope payload sent haccept =>
    rw [(appendEntry_accept haccept).2.2]
    exact h.frame (fun _ _ _ hs => hs) (fun _ => rfl) fun _ _ ho => ho

theorem advance (h : ScopesSound w) (t : RelayPoint)
    (env : Env) (hfresh : freshAt w env t = true) : ScopesSound (w.advance keyOf t env) :=
  h.effect (effect_advance t) hfresh

end ScopesSound

/-! ## 3. Every fresh run -/

def scopeContract : Contract RelayPoint Env Relay where
  inv := ScopesSound
  rely _ _ _ := True
  may t env w := freshAt w env t = true
  guar _ _ _ _ := True

variable {keyOf : Did → Option PublicKey}

theorem scope_verified (keyOf : Did → Option PublicKey) (docLog : BrokerStore) (clock : Nat) :
    Verified (relaySystem keyOf) FreshRun (start docLog clock) scopeContract
      (fun _ _ => True) (fun _ _ => True) := by
  refine turns_verified (fun t env w _ hinv hmay => ⟨hinv.advance t env hmay, trivial⟩)
    (fun _ _ _ => trivial) (.start docLog clock) (fun w _ => .start w.docLog w.clock) ?_
  intro c n env t hadm hpoint
  have hadm : (c.pointAt n).all (freshAt c.world env) = true := hadm
  rw [hpoint] at hadm
  exact hadm

/-- **The scope cache is current** in every state that a run of fresh
    verifications reaches, over any store the relay was started on. -/
theorem scopeCache_sound {docLog : BrokerStore} {clock : Nat} {c : RelayConfig}
    (h : Reachable (relaySystem keyOf) FreshRun (start docLog clock) c) :
    ScopeCacheCurrent c.world :=
  ((scope_verified keyOf docLog clock).inv h).current

/-! ## 4. A space, its admin and a member -/

def relayEnv : Env where
  failure := none
  now := 0
  uuid := ""

/-- A frame that `did:admin` has signed. -/
def adminSigned {α : Type} (payload : α) : ControlFrame α :=
  .signed { kid := .verificationMethod "did:admin", signer := "did:admin", payload := payload }

/-- The capability of `did:member` for the first generation of `space-1`. -/
def memberCapability : PresentCapabilityFrame :=
  .present
    { kid := .capability "space-1" 0
      signer := "key-0"
      payload :=
        { spaceId := "space-1", audience := "did:member", permissions := [.read, .write]
          generation := 0, validUntil := 100 } }

/-- The admin registers `space-1` on socket 1, the member connects on socket 2. -/
def spaceSetup : List (Action Env RelayCall) :=
  [.call (.register 1 "did:admin" "device-1"), .run 0 relayEnv,
    .call (.spaceRegister 1 (adminSigned ⟨"space-1", "key-0", ["did:admin"]⟩)), .run 1 relayEnv,
    .call (.register 2 "did:member" "device-2"), .run 2 relayEnv]

/-- The member's capability is verified before the rotation: the rotation deletes
    the scope. -/
theorem scopeCache_sound_rotated : ∃ c,
    Reachable (relaySystem some) FreshRun (start .fresh 0) c ∧
      (c.world.docLog.getSpace "space-1").map (·.generation) = some 1 ∧
      c.world.getScope 2 "space-1" = none ∧ ScopeCacheCurrent c.world := by
  obtain ⟨c, hreach, htest⟩ := Reachable.of_exec (relaySystem some) FreshRun (start .fresh 0)
    (spaceSetup.append [.call (.presentCapability 2 memberCapability), .run 3 relayEnv,
      .run 3 relayEnv, .call (.spaceRotate 1 (adminSigned ⟨"space-1", "key-1", 1⟩)),
      .run 4 relayEnv, .run 4 relayEnv])
    (fun c => decide ((c.world.docLog.getSpace "space-1").map (·.generation) = some 1) &&
      decide (c.world.getScope 2 "space-1" = none)) (by decide)
  simp only [Bool.and_eq_true, decide_eq_true_eq] at htest
  exact ⟨c, hreach, htest.1, htest.2, scopeCache_sound hreach⟩

/-- **The late cache write.**  The rotation is applied while the signature of the
    old capability is being checked; the scope of generation 0 is cached after
    the invalidation, and the removed member writes on. -/
theorem scopeCache_race :
    ¬ ∀ c, Reachable (relaySystem some) AnyRun (start .fresh 0) c →
      ScopeCacheCurrent c.world := by
  intro hclaim
  obtain ⟨c, hreach, htest⟩ := Reachable.of_exec (relaySystem some) AnyRun (start .fresh 0)
    (spaceSetup.append [.call (.presentCapability 2 memberCapability), .run 3 relayEnv,
      .call (.spaceRotate 1 (adminSigned ⟨"space-1", "key-1", 1⟩)), .run 4 relayEnv,
      .run 4 relayEnv, .run 3 relayEnv])
    (fun c => decide (c.world.docLog.getSpace "space-1" = some ⟨"space-1", "key-1", 1, 0⟩) &&
      decide (c.world.getScope 2 "space-1" = some ⟨[.read, .write], 0, .space, 100⟩)) (by decide)
  simp only [Bool.and_eq_true, decide_eq_true_eq] at htest
  obtain ⟨hle, -⟩ := hclaim c hreach 2 "space-1" _ _ htest.2 htest.1
  exact absurd hle (by decide)

end WebOfTrust
