/-
  **Management frames and the admin set.**  `space-rotate`, `admin-add` and
  `admin-remove` look the signer up in the admin set of the space, await the check
  of the signature, and apply the change without looking again.

  An admin that is removed during that `await` still rotates the space
  (`management_removed`).  Where nobody is removed while a frame of theirs waits for
  its check, every change is signed by an admin of the state it is applied to
  (`management_authorized`).
-/
import WebOfTrust.RelayScopes

namespace WebOfTrust

open Async Relay KeyedTable

/-! ## 1. Changes and their signers -/

def RelayPoint.managed : RelayPoint → Option (Did × DocId)
  | .spaceRotateVerified _ signerDid _ (.ok payload) => some (signerDid, payload.spaceId)
  | .adminAddVerified _ signerDid _ (.ok payload) => some (signerDid, payload.spaceId)
  | .adminRemoveVerified _ signerDid _ false (.ok payload) => some (signerDid, payload.spaceId)
  | _ => none

/-- The turn applies its change: the verification has gone through, and a rotation is
    to the next generation. -/
def appliesChange (w : Relay) (env : Env) : RelayPoint → Bool
  | .spaceRotateVerified _ _ _ (.ok payload) => env.failure.isNone &&
      (w.docLog.getSpace payload.spaceId).any fun space =>
        decide (payload.newGeneration = space.generation + 1)
  | .adminAddVerified _ _ _ (.ok _) => env.failure.isNone
  | .adminRemoveVerified _ _ _ false (.ok _) => env.failure.isNone
  | _ => false

def SpaceChanged (s s' : BrokerStore) (spaceId : DocId) : Prop :=
  s'.getSpace spaceId ≠ s.getSpace spaceId ∨
    ∃ did, ¬ (did ∈ s'.getSpaceAdmins spaceId ↔ did ∈ s.getSpaceAdmins spaceId)

/-- Every change that a step applies is signed by an admin of the state it is applied
    to, and a registered space changes in no other way. -/
structure ManagementAuthorized (c : RelayConfig) (a : Action Env RelayCall) (c' : RelayConfig) :
    Prop where
  signed : ∀ n env t signer spaceId, a = .run n env → c.pointAt n = some t →
    t.managed = some (signer, spaceId) → appliesChange c.world env t = true →
      signer ∈ c.world.docLog.getSpaceAdmins spaceId
  managed : ∀ spaceId, c.world.docLog.isSpaceRegistered spaceId = true →
    SpaceChanged c.world.docLog c'.world.docLog spaceId →
      ∃ n env t signer, a = .run n env ∧ c.pointAt n = some t ∧
        t.managed = some (signer, spaceId) ∧ appliesChange c.world env t = true

/-! ## 2. The runs -/

def leavesSigners (c : RelayConfig) (n : Nat) (env : Env) : RelayPoint → Bool
  | .adminRemoveVerified _ _ _ false (.ok payload) => env.failure.isSome ||
      (c.procs.eraseIdx n).all fun p =>
        decide (p.point.bind RelayPoint.managed ≠ some (payload.adminDid, payload.spaceId))
  | _ => true

def signersRun (c : RelayConfig) : Action Env RelayCall → Bool
  | .run n env => (c.pointAt n).all (leavesSigners c n env)
  | _ => true

/-- Runs in which nobody is removed while a frame of theirs waits for its check. -/
abbrev SignersRun (c : RelayConfig) (a : Action Env RelayCall) : Prop := signersRun c a = true

/-! ## 3. The admin table -/

namespace BrokerStore

variable {s : BrokerStore} {spaceId spaceId' : DocId} {did did' : Did}

theorem mem_getSpaceAdmins :
    did ∈ s.getSpaceAdmins spaceId ↔ s.spaceAdmins.has (spaceId, did) = true := by
  unfold getSpaceAdmins
  rw [has_iff]
  simp only [List.mem_map, List.mem_filter, decide_eq_true_eq]
  constructor
  · intro h
    rcases h with ⟨row, ⟨hrow, hspace⟩, hdid⟩
    refine ⟨row, hrow, ?_⟩
    rw [← hspace, ← hdid]
    rfl
  · intro h
    rcases h with ⟨row, hrow, hkey⟩
    exact ⟨row, ⟨hrow, congrArg Prod.fst hkey⟩, congrArg Prod.snd hkey⟩

theorem mem_getSpaceAdmins_addAdmin : did ∈ (s.addAdmin spaceId' did').getSpaceAdmins spaceId ↔
      did ∈ s.getSpaceAdmins spaceId ∨ spaceId' = spaceId ∧ did' = did := by
  rw [mem_getSpaceAdmins, mem_getSpaceAdmins]
  show (s.spaceAdmins.add _).has (spaceId, did) = true ↔ _
  rw [has_add]
  simp only [SpaceAdminRow.key, Bool.or_eq_true, decide_eq_true_eq, Prod.mk.injEq]

theorem mem_getSpaceAdmins_removeAdmin :
    did ∈ (s.removeAdmin spaceId' did').getSpaceAdmins spaceId ↔
      did ∈ s.getSpaceAdmins spaceId ∧ ¬ (spaceId' = spaceId ∧ did' = did) := by
  rw [mem_getSpaceAdmins, mem_getSpaceAdmins]
  show ((s.spaceAdmins.erase (spaceId', did')).get? (spaceId, did)).isSome = true ↔ _
  rw [get?_erase]
  by_cases hk : (spaceId', did') = (spaceId, did)
  · have hsame := Prod.mk.inj hk
    simp [hsame.1, hsame.2]
  · have hne : ¬ (spaceId' = spaceId ∧ did' = did) := fun h => hk (Prod.ext h.1 h.2)
    simp [hk, hne, has]

theorem has_spaceAdmins_registerSpace {key : String} {adminDids : List Did} {signerDid : Did}
    {now : Nat} {k : DocId × Did} (h : s.spaceAdmins.has k = true) :
    (s.registerSpace spaceId key adminDids signerDid now).2.spaceAdmins.has k = true := by
  have kept : ∀ (dids : List Did) (t : KeyedTable SpaceAdminRow.key), t.has k = true →
      (dids.foldl (fun t adminDid => t.add { spaceId := spaceId, adminDid := adminDid }) t).has k
        = true := by
    intro dids
    induction dids with
    | nil =>
      intro t ht
      exact ht
    | cons adminDid rest ih =>
      intro t ht
      apply ih
      rw [has_add, ht]
      rfl
  unfold registerSpace
  split
  · exact h
  split
  · split
    · exact h
    · split <;> exact h
  · exact kept adminDids s.spaceAdmins h

theorem mem_getSpaceAdmins_registerSpace {key : String} {adminDids : List Did} {signerDid : Did}
    {now : Nat} (hne : spaceId' ≠ spaceId) :
    did ∈ (s.registerSpace spaceId' key adminDids signerDid now).2.getSpaceAdmins spaceId ↔
      did ∈ s.getSpaceAdmins spaceId := by
  have added : ∀ (dids : List Did) (t : KeyedTable SpaceAdminRow.key),
      (dids.foldl (fun t adminDid => t.add { spaceId := spaceId', adminDid := adminDid }) t).has
        (spaceId, did) = t.has (spaceId, did) := by
    intro dids
    induction dids with
    | nil =>
      intro t
      rfl
    | cons adminDid rest ih =>
      intro t
      rw [List.foldl_cons, ih, has_add]
      simp [SpaceAdminRow.key, hne]
  rw [mem_getSpaceAdmins, mem_getSpaceAdmins]
  unfold registerSpace
  split
  · rfl
  split
  · split
    · rfl
    · split <;> rfl
  · show (List.foldl _ s.spaceAdmins adminDids).has (spaceId, did) = true ↔ _
    rw [added]

end BrokerStore

/-! ## 4. What a turn does to spaces and admins -/

open BrokerStore

section

variable {keyOf : Did → Option PublicKey} {w : Relay} {env : Env} {t : RelayPoint}
  {s : BrokerStore} {spaceId : DocId} {did : Did}

theorem isAdmin_effect (h : StoreEffect keyOf w env t s)
    (hadmin : did ∈ w.docLog.getSpaceAdmins spaceId)
    (hkeep : ∀ ws signer thid payload, t = .adminRemoveVerified ws signer thid false (.ok payload) →
      env.failure = none → ¬ (payload.spaceId = spaceId ∧ payload.adminDid = did)) :
    did ∈ s.getSpaceAdmins spaceId := by
  cases h with
  | devices devices | rotated ws signer thid payload space henv hspace hnext => exact hadmin
  | claimed ws socketDid docId checked payload hok hclaim =>
    obtain ⟨owners, hown⟩ := w.docLog.claimPersonalDocOwner_frame docId socketDid w.clock
    rw [hown]
    exact hadmin
  | registered ws jws payload henv hok hreg =>
    rw [mem_getSpaceAdmins] at hadmin ⊢
    exact has_spaceAdmins_registerSpace hadmin
  | adminAdded ws signer thid payload henv =>
    exact mem_getSpaceAdmins_addAdmin.mpr (Or.inl hadmin)
  | adminRemoved ws signer thid payload henv =>
    exact mem_getSpaceAdmins_removeAdmin.mpr ⟨hadmin, hkeep ws signer thid payload rfl henv⟩
  | inserted ws envelope payload haccept =>
    rw [(appendEntry_accept haccept).2.2]
    exact hadmin

theorem not_spaceChanged {s s' : BrokerStore} (hspaces : s'.spaces = s.spaces)
    (hadmins : s'.spaceAdmins = s.spaceAdmins) : ¬ SpaceChanged s s' spaceId := by
  intro h
  rcases h with hspace | ⟨did, hdid⟩
  · apply hspace
    unfold getSpace
    rw [hspaces]
  apply hdid
  unfold getSpaceAdmins
  rw [hadmins]

/-- **A registered space changes only by a management turn** that applies its change. -/
theorem managed_of_spaceChanged (h : StoreEffect keyOf w env t s)
    (hreg : w.docLog.isSpaceRegistered spaceId = true)
    (hchange : SpaceChanged w.docLog s spaceId) :
    ∃ signer, t.managed = some (signer, spaceId) ∧ appliesChange w env t = true := by
  cases h with
  | devices devices => exact (not_spaceChanged rfl rfl hchange).elim
  | claimed ws socketDid docId checked payload hok hclaim =>
    obtain ⟨owners, hown⟩ := w.docLog.claimPersonalDocOwner_frame docId socketDid w.clock
    rw [hown] at hchange
    exact (not_spaceChanged rfl rfl hchange).elim
  | registered ws jws payload henv hok hregistered =>
    -- a registration concerns a space that was free
    exfalso
    obtain ⟨hnone, hspaces, -⟩ := registerSpace_registered hregistered
    obtain ⟨space, hspace⟩ := isSpaceRegistered_iff.mp hreg
    have hne : payload.spaceId ≠ spaceId := by
      rintro rfl
      cases hnone.symm.trans hspace
    rcases hchange with hsp | ⟨did, hdid⟩
    · exact hsp ((hspaces spaceId).trans (if_neg hne))
    · exact hdid (mem_getSpaceAdmins_registerSpace hne)
  | rotated ws signer thid payload space henv hspace hnext =>
    have hsame : payload.spaceId = spaceId := by
      by_contra hne
      rcases hchange with hsp | ⟨did, hdid⟩
      · exact hsp ((getSpace_rotateSpace _ _ _ _ _).trans (if_neg hne))
      · exact hdid Iff.rfl
    refine ⟨signer, by rw [← hsame]; rfl, ?_⟩
    simp [appliesChange, henv, hspace, hnext]
  | adminAdded ws signer thid payload henv =>
    have hsame : payload.spaceId = spaceId := by
      by_contra hne
      rcases hchange with hsp | ⟨did, hdid⟩
      · exact hsp rfl
      apply hdid
      rw [mem_getSpaceAdmins_addAdmin]
      simp [hne]
    refine ⟨signer, by rw [← hsame]; rfl, ?_⟩
    simp [appliesChange, henv]
  | adminRemoved ws signer thid payload henv =>
    have hsame : payload.spaceId = spaceId := by
      by_contra hne
      rcases hchange with hsp | ⟨did, hdid⟩
      · exact hsp rfl
      apply hdid
      rw [mem_getSpaceAdmins_removeAdmin]
      simp [hne]
    refine ⟨signer, by rw [← hsame]; rfl, ?_⟩
    simp [appliesChange, henv]
  | inserted ws envelope payload haccept =>
    rw [(appendEntry_accept haccept).2.2] at hchange
    exact (not_spaceChanged rfl rfl hchange).elim

/-- The signer of the change that a turn applies is an admin of the space. -/
def AdminStanding (w : Relay) (t : RelayPoint) : Prop :=
  ∀ signer spaceId, t.managed = some (signer, spaceId) → signer ∈ w.docLog.getSpaceAdmins spaceId

/-- **A handler waits only for what it has looked up**: the signer of its change was an
    admin when it went to wait. -/
def Stands : RelayProgram Unit → Prop
  | .ret _ => True
  | .fail _ => True
  | .step _ _ upd next =>
    (∀ env w t, (next env w).point = some t → AdminStanding (upd env w) t) ∧
      ∀ env w, Stands (next env w)

theorem adminStanding_of_none (h : t.managed = none) : AdminStanding w t := by
  intro signer spaceId hmanaged
  rw [h] at hmanaged
  cases hmanaged

theorem stands_lastTurn {f : Env → Relay → Relay} : Stands (lastTurn t f) := by
  constructor
  · intro env w t' h
    cases h
  · intro env w
    trivial

theorem stands_twoTurns {α : Type} {f : Env → Relay → Option α × Relay} {u : α → RelayPoint}
    {g : α → Env → Relay → Relay}
    (h : ∀ env w a, (f env w).1 = some a → AdminStanding (f env w).2 (u a)) :
    Stands ((turn t f).bind fun found => whenSome found fun a => lastTurn (u a) (g a)) := by
  constructor
  · intro env w t' hpoint
    have hpoint : (whenSome (f env w).1 fun a => lastTurn (u a) (g a)).point = some t' := hpoint
    rcases hfound : (f env w).1 with _ | a
    · rw [hfound] at hpoint
      cases hpoint
    rw [hfound] at hpoint
    cases hpoint
    exact h env w a hfound
  · intro env w
    show Stands (whenSome (f env w).1 fun a => lastTurn (u a) (g a))
    cases (f env w).1 with
    | none => trivial
    | some a => exact stands_lastTurn

theorem stands_dispatch {α : Type} {ws : SocketId} {raw : ControlFrame α}
    {handler : SignedJws α → RelayProgram Unit} (h : ∀ jws, Stands (handler jws)) :
    Stands (dispatch ws raw handler) := by
  cases raw with
  | malformed message => exact stands_lastTurn
  | signed jws => exact h jws

/-- The start of `handleSend` leads to a point at which nothing is managed. -/
theorem stands_send {ws : SocketId} {next : RelayProgram Unit} (hnext : Stands next)
    (hpoint : next.point.bind RelayPoint.managed = none) :
    Stands ((turn (.send ws) fun _ w => w.handleSend ws).bind fun goesOn =>
      if goesOn then next else pure ()) := by
  constructor
  · intro env w t' ht
    apply adminStanding_of_none
    have ht : (if (w.handleSend ws).1 = true then next else pure ()).point = some t' := ht
    split at ht
    · rwa [ht] at hpoint
    · cases ht
  · intro env w
    show Stands (if (w.handleSend ws).1 = true then next else pure ())
    split
    · exact hnext
    · trivial

theorem resolveAdminFrame_some {α : Type} {ws : SocketId} {jws : SignedJws α}
    {signer : Did} {checked : Except FrameRejection α}
    (h : (w.resolveAdminFrame keyOf ws jws spaceId).1 = some (signer, checked)) :
    (w.resolveAdminFrame keyOf ws jws spaceId).2 = w ∧ signer ∈ w.docLog.getSpaceAdmins spaceId ∧
        ∀ payload, checked = .ok payload → payload = jws.payload := by
  have resolved : ∀ signer key, (w.resolveAdminSigner keyOf ws spaceId jws.kid).1 =
      some (signer, key) → (w.resolveAdminSigner keyOf ws spaceId jws.kid).2 = w ∧
        signer ∈ w.docLog.getSpaceAdmins spaceId := by
    intro signer key hsigner
    unfold resolveAdminSigner at hsigner ⊢
    split at hsigner
    · cases hsigner
    next hreg =>
    rw [if_neg hreg]
    split at hsigner
    · cases hsigner
    next did hdid =>
    rcases hkey : keyOf did with _ | key'
    · simp only [hkey] at hsigner
      cases hsigner
    simp only [hkey] at hsigner ⊢
    cases hsigner
    have hadmin := (Option.filter_eq_some_iff.mp hdid).2
    exact ⟨trivial, by simpa using hadmin⟩
  unfold resolveAdminFrame at h ⊢
  split at h
  · cases h
  next found w' hresolve =>
  cases h
  have hr := resolved found.1 found.2 (by rw [hresolve])
  rw [hresolve] at hr
  refine ⟨hr.1, hr.2, ?_⟩
  intro payload hok
  unfold verifyAdminSignedFrame at hok
  split at hok
  · cases hok
  split at hok
  · cases hok
  · cases hok
    rfl

theorem handleAdminRemove_some {ws : SocketId} {jws : SignedJws AdminChangePayload}
    {signer : Did} {selfRetry : Bool} {checked : Except FrameRejection AdminChangePayload}
    (h : (w.handleAdminRemove keyOf ws jws).1 = some (signer, selfRetry, checked)) :
    (w.handleAdminRemove keyOf ws jws).2 = w ∧ (selfRetry = false →
      signer ∈ w.docLog.getSpaceAdmins jws.payload.spaceId ∧
        ∀ payload, checked = .ok payload → payload = jws.payload) := by
  unfold Relay.handleAdminRemove at h ⊢
  dsimp only at h ⊢
  split at h
  · next hretry =>
    rw [if_pos hretry]
    split at h
    · cases h
    next key hkey =>
    cases h
    refine ⟨rfl, ?_⟩
    intro hfalse
    cases hfalse
  · next hretry =>
    rw [if_neg hretry]
    split at h
    · cases h
    next signer' checked' w' hresolve =>
    cases h
    have hr := resolveAdminFrame_some (by rw [hresolve])
    rw [hresolve] at hr
    exact ⟨hr.1, fun _ => hr.2⟩

/-! ## 5. Every run that leaves the signers in place -/

def adminContract (keyOf : Did → Option PublicKey) : Contract RelayPoint Env Relay where
  inv _ := True
  rely t w w' := AdminStanding w t → AdminStanding w' t
  may _ _ _ := True
  guar t env w w' := w' = w.advance keyOf t env ∧ AdminStanding w t

theorem meets_adminContract {p : RelayProgram Unit} (hturns : Turns keyOf p) (h : Stands p)
    (w : Relay) (hstart : ∀ t, p.point = some t → AdminStanding w t) :
    Meets (adminContract keyOf) (fun _ _ => True) (fun _ _ => True) p w := by
  induction p generalizing w with
  | ret a | fail e => trivial
  | step t ready upd next ih =>
    intro w' hrely _ env _ _
    obtain ⟨hupd, -, hnextTurns⟩ := hturns
    obtain ⟨hwaits, hnext⟩ := h
    refine ⟨trivial, ⟨hupd env w', kept_of_star (r := (adminContract keyOf).rely t)
      (P := (AdminStanding · t)) (fun _ _ h => h) hrely (hstart t rfl)⟩, ?_⟩
    apply ih env w' (hnextTurns env w') (hnext env w')
    intro t' hpoint
    exact hwaits env w' t' hpoint

theorem stands_program (call : RelayCall) : Stands (call.program keyOf) := by
  -- a turn that manages nothing may be waited at by anybody
  have free {α : Type} {t : RelayPoint} {f : Env → Relay → Option α × Relay}
      {u : α → RelayPoint} {g : α → Env → Relay → Relay} (hu : ∀ a, (u a).managed = none) :
      Stands ((turn t f).bind fun found => whenSome found fun a => lastTurn (u a) (g a)) :=
    stands_twoTurns fun _ _ a _ => adminStanding_of_none (hu a)
  cases call with
  | register ws did deviceId | close ws | tick now => exact stands_lastTurn
  | presentCapability ws raw => exact free fun _ => rfl
  | spaceRegister ws raw =>
    apply stands_dispatch
    intro jws
    exact stands_lastTurn
  | spaceRotate ws raw | adminAdd ws raw =>
    apply stands_dispatch
    intro jws
    apply stands_twoTurns
    intro env w a hfound signer spaceId hmanaged
    obtain ⟨hw, hadmin, hpayload⟩ := resolveAdminFrame_some hfound
    rcases a with ⟨did, payload | payload⟩
    · cases hmanaged
    cases hmanaged
    rw [hpayload payload rfl, hw]
    exact hadmin
  | adminRemove ws raw =>
    apply stands_dispatch
    intro jws
    apply stands_twoTurns
    intro env w a hfound signer spaceId hmanaged
    obtain ⟨hw, hresolved⟩ := handleAdminRemove_some hfound
    rcases a with ⟨did, selfRetry | selfRetry, payload | payload⟩
    · cases hmanaged
    · cases hmanaged
      obtain ⟨hadmin, hpayload⟩ := hresolved rfl
      rw [hpayload payload rfl, hw]
      exact hadmin
    · cases hmanaged
    · cases hmanaged
  | deviceRevoke ws raw =>
    apply stands_dispatch
    intro jws
    exact free fun _ => rfl
  | logEntry ws envelope => exact stands_send (free fun _ => rfl) rfl
  | syncRequest ws request => exact stands_send stands_lastTurn rfl

theorem managed_program {call : RelayCall} (h : (call.program keyOf).point = some t) :
    t.managed = none := by
  cases call with
  | spaceRegister ws raw | spaceRotate ws raw | adminAdd ws raw | adminRemove ws raw
  | deviceRevoke ws raw => cases raw <;> (cases h; rfl)
  | _ => cases h; rfl

theorem standing_kept {c : RelayConfig} {n m : Nat} {t' : RelayPoint}
    (hadm : SignersRun c (.run n env)) (hpoint : c.pointAt n = some t) (hne : m ≠ n)
    (hm : c.pointAt m = some t') (hstand : AdminStanding c.world t') :
    AdminStanding (c.world.advance keyOf t env) t' := by
  intro signer spaceId hmanaged
  apply isAdmin_effect (store_advance t) (hstand signer spaceId hmanaged)
  rintro ws signer' thid payload rfl henv ⟨rfl, rfl⟩
  have hadm : (c.pointAt n).all (leavesSigners c n env) = true := hadm
  obtain ⟨p, hp, hwait⟩ := Option.bind_eq_some_iff.mp hm
  have hother : p ∈ c.procs.eraseIdx n := List.mem_eraseIdx_iff_getElem?.mpr ⟨m, hne, hp⟩
  rw [hpoint] at hadm
  simp only [Option.all_some, leavesSigners, henv, Option.isSome_none, Bool.false_or] at hadm
  have hleft := List.all_eq_true.mp hadm p hother
  rw [hwait] at hleft
  simp [hmanaged] at hleft

theorem admin_verified (keyOf : Did → Option PublicKey) (docLog : BrokerStore) (clock : Nat) :
    Verified (relaySystem keyOf) SignersRun (start docLog clock) (adminContract keyOf)
      (fun _ _ => True) (fun _ _ => True) where
  init := trivial
  call := by
    intro c call _ _
    apply meets_adminContract (turns_program call) (stands_program call)
    intro t hpoint
    exact adminStanding_of_none (managed_program hpoint)
  may := fun _ _ _ _ _ _ _ => trivial
  restart := fun _ _ _ => trivial
  quiet := by
    rintro c n env t w' hadm hpoint - ⟨rfl, -⟩ m t' hne hm hstand
    exact standing_kept hadm hpoint hne hm hstand
  result := fun _ _ _ _ _ _ _ => trivial
  error := fun _ _ _ _ _ _ _ => trivial

/-- **Every change is signed by an admin of the state it is applied to**, in every run
    in which nobody is removed while a frame of theirs waits for its check. -/
theorem management_authorized {docLog : BrokerStore} {clock : Nat} {c c' : RelayConfig}
    {a : Action Env RelayCall}
    (h : Reachable (relaySystem keyOf) SignersRun (start docLog clock) c)
    (hadm : SignersRun c a) (hs : c.step (relaySystem keyOf) a = some c') :
    ManagementAuthorized c a c' where
  signed := by
    rintro n env t signer spaceId rfl hpoint hmanaged -
    obtain ⟨t', hpoint', -, hstand⟩ := (admin_verified keyOf docLog clock).guar h hadm hs
    cases hpoint.symm.trans hpoint'
    exact hstand signer spaceId hmanaged
  managed := by
    intro spaceId hreg hchange
    cases a with
    | call k =>
      rw [Config.world_eq_of_call hs] at hchange
      exact (not_spaceChanged rfl rfl hchange).elim
    | crash n =>
      rw [Config.world_eq_of_crash hs] at hchange
      exact (not_spaceChanged rfl rfl hchange).elim
    | restart =>
      cases hs
      exact (not_spaceChanged rfl rfl hchange).elim
    | run n env =>
      obtain ⟨t, hpoint, hw, -⟩ := (admin_verified keyOf docLog clock).guar h hadm hs
      rw [hw] at hchange
      obtain ⟨signer, hmanaged, happlies⟩ :=
        managed_of_spaceChanged (store_advance t) hreg hchange
      exact ⟨n, env, t, signer, rfl, hpoint, hmanaged, happlies⟩

end

/-! ## 6. Two admins -/

/-- A frame that `did:member` has signed. -/
def memberSigned {α : Type} (payload : α) : ControlFrame α :=
  .signed { kid := .verificationMethod "did:member", signer := "did:member", payload := payload }

/-- The member is an admin too, and its rotation waits for the check of its signature. -/
def memberRotates : List (Action Env RelayCall) :=
  [.call (.spaceRegister 1 (adminSigned ⟨"space-1", "key-0", ["did:admin", "did:member"]⟩)),
    .run 0 relayEnv, .call (.spaceRotate 2 (memberSigned ⟨"space-1", "key-1", 1⟩)),
    .run 1 relayEnv]

/-- The configurations in which the next turn of handler 1 rotates `space-1` for the
    member. -/
def rotatesNext (c : RelayConfig) : Bool :=
  ((c.step (relaySystem some) (.run 1 relayEnv)).isSome &&
    (c.pointAt 1).any fun t => appliesChange c.world relayEnv t &&
      decide (t.managed = some ("did:member", "space-1")))

/-- Nobody is removed: the rotation is applied, and its signer is an admin. -/
theorem management_authorized_member : ∃ c c',
    Reachable (relaySystem some) SignersRun (start .fresh 0) c ∧
      c.step (relaySystem some) (.run 1 relayEnv) = some c' ∧ rotatesNext c = true ∧
        ManagementAuthorized c (.run 1 relayEnv) c' := by
  obtain ⟨c, hreach, htest⟩ := Reachable.of_exec (relaySystem some) SignersRun
    (start .fresh 0) memberRotates
    (fun c => rotatesNext c && signersRun c (.run 1 relayEnv)) (by decide)
  simp only [Bool.and_eq_true] at htest
  obtain ⟨hnext, hadm⟩ := htest
  have hstep := hnext
  simp only [rotatesNext, Bool.and_eq_true] at hstep
  obtain ⟨c', hs⟩ := Option.isSome_iff_exists.mp hstep.1
  exact ⟨c, c', hreach, hs, hnext, management_authorized hreach hadm hs⟩

/-- **A removal inside the `await`.**  The admin removes the member while the signature
    of the member's rotation is being checked; the rotation is applied all the same. -/
theorem management_removed : ¬ ∀ c a c', Reachable (relaySystem some) AnyRun (start .fresh 0) c →
      c.step (relaySystem some) a = some c' → ManagementAuthorized c a c' := by
  intro hclaim
  obtain ⟨c, hreach, htest⟩ := Reachable.of_exec (relaySystem some) AnyRun (start .fresh 0)
    (memberRotates.append [.call (.adminRemove 1 (adminSigned ⟨"space-1", "did:member"⟩)),
      .run 2 relayEnv, .run 2 relayEnv])
    (fun c => rotatesNext c &&
      decide ("did:member" ∉ c.world.docLog.getSpaceAdmins "space-1")) (by decide)
  simp only [rotatesNext, Bool.and_eq_true, Option.any_eq_true, decide_eq_true_eq] at htest
  obtain ⟨⟨hstep, t, hpoint, happlies, hmanaged⟩, hremoved⟩ := htest
  obtain ⟨c', hs⟩ := Option.isSome_iff_exists.mp hstep
  exact hremoved ((hclaim c _ c' hreach hs).signed 1 relayEnv t "did:member" "space-1" rfl hpoint
    hmanaged happlies)

end WebOfTrust
