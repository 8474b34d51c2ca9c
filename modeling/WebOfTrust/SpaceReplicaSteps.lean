/-
  **What the pieces of a call do** to the encryption keys, the members and the distributions
  of a replica (`SpaceReplica.lean`).

  Most pieces touch none of them.  The others are listed in `Effect`; what holds in every
  run of a replica is derived from this list.
-/
import WebOfTrust.SpaceReplica

namespace WebOfTrust

open List

/-! ## 1. Distributions under way -/

def Distribution.Unstarted (d : Distribution) : Prop :=
  d.stage = .next ∧ d.position = 0 ∧ (d.excludeDid = none ∨ d.excludeDid = d.after.excluded)

def ReplicaOp.Plain : ReplicaOp → Prop
  | .distribute d => Distribution.Unstarted d
  | .completed _ _ => False
  | _ => True

def ReplicaOp.recipient : ReplicaOp → Option Did
  | .distribute ⟨_, _, _, .build did _, _⟩ => some did
  | .distribute ⟨_, _, _, .send did _, _⟩ => some did
  | _ => none

open ReplicaOp

theorem ReplicaOp.Plain.recipient {op : ReplicaOp} (h : Plain op) : recipient op = none := by
  cases op with
  | distribute d =>
    obtain ⟨newGeneration, excludeDid, position, stage, after⟩ := d
    obtain ⟨hstage, -, -⟩ := h
    cases hstage
    rfl
  | _ => rfl

namespace SpaceReplica

def Waits (s : SpaceReplica) (op : ReplicaOp) : Prop := ∃ call ∈ s.calls, op ∈ call

variable {s s' : SpaceReplica} {op : ReplicaOp}

theorem Waits.of_calls (h : Waits s' op) (hcalls : s'.calls = s.calls) : Waits s op := by
  obtain ⟨call, hcall, hop⟩ := h
  exact ⟨call, hcalls ▸ hcall, hop⟩

theorem Waits.spawn {ops : List ReplicaOp} (h : Waits s' op)
    (hcalls : s'.calls = s.calls ++ [ops]) :
    Waits s op ∨ op ∈ ops := by
  obtain ⟨call, hcall, hop⟩ := h
  rw [hcalls, mem_append, mem_singleton] at hcall
  rcases hcall with hcall | rfl
  · exact .inl ⟨call, hcall, hop⟩
  · exact .inr hop

theorem Waits.spawnIn {lane : Lane} {ops : List ReplicaOp} (h : Waits s' op)
    (hs : s' = s.spawnIn lane ops) (hplain : ∀ o ∈ ops, Plain o) :
    Waits s op ∨ Plain op := by
  subst hs
  rcases h.spawn (s := s) rfl with h | h
  · exact .inl h
  right
  rcases mem_cons.mp h with rfl | h
  · trivial
  rcases mem_append.mp h with h | h
  · exact hplain op h
  rw [mem_singleton] at h
  subst h
  trivial

theorem Waits.of_addAdmins {adminEntries : List Did} (h : Waits (s.addAdmins adminEntries) op) :
    Waits s op ∨ op.Plain :=
  (Waits.spawnIn h (s := { s with adminEntries := s.adminEntries ++ adminEntries }) rfl
    (by simp [Plain])).imp_left (·.of_calls rfl)

/-! ## 2. The observer -/

section

variable {s : SpaceReplica} {members : MembersMap} {op : ReplicaOp}

theorem resolutionChain_plain (events : List MembershipEvent) :
    ∀ o ∈ resolutionChain events, Plain o := by
  intro o ho
  simp only [resolutionChain, mem_cons, not_mem_nil, or_false] at ho
  rcases ho with rfl | rfl | rfl <;> trivial

section

variable (s : SpaceReplica)

@[simp] theorem members_membersHandler : s.membersHandler.members = s.members := by
  unfold membersHandler
  split <;> rfl

variable (members : MembersMap)

@[simp] theorem sent_setMembers : (s.setMembers members).sent = s.sent := by
  unfold setMembers membersHandler
  split <;> rfl

@[simp] theorem reports_setMembers : (s.setMembers members).reports = s.reports := by
  unfold setMembers membersHandler
  split <;> rfl

@[simp] theorem fresh_setMembers :
    (s.setMembers members).memberEncryptionKeys.fresh = s.memberEncryptionKeys.fresh := by
  unfold setMembers membersHandler
  split <;> rfl

@[simp] theorem status_membersHandler (did : Did) : s.membersHandler.status did = s.status did := by
  rw [status, events, members_membersHandler]
  rfl

end

theorem mem_entries_setMembers {e : LiveEntry Did EncryptionKey}
    (h : e ∈ (s.setMembers members).memberEncryptionKeys.entries) :
    e ∈ s.memberEncryptionKeys.entries := by
  unfold setMembers membersHandler at h
  split at h
  · exact h
  · exact (LiveMap.mem_entries_keep.mp h).1

theorem pruned_setMembers (hloaded : s.loaded = true) {e : LiveEntry Did EncryptionKey}
    (h : e ∈ (s.setMembers members).memberEncryptionKeys.entries) :
    (s.setMembers members).status e.key ≠ some .removed := by
  rw [setMembers, status_membersHandler]
  unfold setMembers membersHandler at h
  split at h
  · next hskip =>
    -- without events there is no winner
    have hnone := hskip.resolve_left (by simp [hloaded])
    rw [status, hnone]
    simp [membershipStatus, resolveMembershipWinner]
  · exact of_decide_eq_true (LiveMap.mem_entries_keep.mp h).2

theorem Waits.of_setMembers (h : Waits (s.setMembers members) op) : Waits s op ∨ op.Plain := by
  unfold setMembers membersHandler at h
  split at h
  · exact .inl h
  obtain hold | hplain := h.spawnIn rfl (resolutionChain_plain _)
  · exact .inl hold
  · exact .inr hplain

end

/-! ## 3. The list of effects -/

/-- A key that gets into the map where the observer does not look afterwards: a lookup, and
    `addMember` if its event is in the document already, cannot be written, or nobody
    observes it. -/
def keyArrives (cfg : ReplicaConfig) (s : SpaceReplica) (env : ReplicaEnv) : ReplicaOp → Option Did
  | .learn did => env.resolved.map fun _ => did
  | .withGeneration generation (.addMember memberDid _) =>
    if (s.removalGenerations memberDid).any (fun removed => decide (generation ≤ (removed : Int)))
    then none else arrival generation memberDid
  | .withGeneration generation (.addMemberAgain memberDid _ removalGenerations) =>
    if removalGenerations.any (fun removed => decide (generation ≤ (removed : Int)))
    then none else arrival generation memberDid
  | _ => none
where
  arrival (generation : Int) (memberDid : Did) : Option Did :=
    if generation < 0 ∨ s.loaded = false ∨
        s.members.has (MembershipEvent.key ⟨memberDid, .active, generation.toNat, some cfg.did⟩)
          = true then some memberDid
    else none

/-- The effects of a piece on keys, members and distributions, with what follows it. -/
inductive Effect (cfg : ReplicaConfig) (s : SpaceReplica) (env : ReplicaEnv) :
    ReplicaOp → SpaceReplica → List ReplicaOp → Prop where
  | quiet {op : ReplicaOp} {s' : SpaceReplica} {next : List ReplicaOp}
      (hmembers : s'.members = s.members)
      (hkeys : s'.memberEncryptionKeys = s.memberEncryptionKeys) (hsent : s'.sent = s.sent)
      (hreports : s'.reports = s.reports) (hcalls : s'.calls = s.calls)
      (hplain : ∀ o ∈ next, Plain o) : Effect cfg s env op s' next
  | forgot {op : ReplicaOp} {next : List ReplicaOp} (did : Did) (hplain : ∀ o ∈ next, Plain o) :
      Effect cfg s env op { s with memberEncryptionKeys := s.memberEncryptionKeys.delete did } next
  | wrote {op : ReplicaOp} {next : List ReplicaOp} (members : MembersMap)
      (hplain : ∀ o ∈ next, Plain o) :
      Effect cfg s env op (s.setMembers members) next
  | arrived {op : ReplicaOp} {next : List ReplicaOp} (did : Did) (key : EncryptionKey)
      (harrives : keyArrives cfg s env op = some did) (hplain : ∀ o ∈ next, Plain o) :
      Effect cfg s env op { s with memberEncryptionKeys := s.memberEncryptionKeys.set did key } next
  | admitted {op : ReplicaOp} {next : List ReplicaOp} (did : Did) (key : EncryptionKey)
      (members : MembersMap)
      (harrives : s.loaded = false → keyArrives cfg s env op = some did)
      (hplain : ∀ o ∈ next, Plain o) :
      Effect cfg s env op
        ({ s with memberEncryptionKeys := s.memberEncryptionKeys.set did key }.setMembers members)
        next
  | picked (d : Distribution) (e : LiveEntry Did EncryptionKey) (hstage : d.stage = .next)
      (hnext : s.memberEncryptionKeys.next d.position
        (fun did => decide (d.excludeDid ≠ some did)) = some e) :
      Effect cfg s env (.distribute d) s
        [.distribute { d with position := e.position + 1, stage := .build e.key e.value }]
  | built (d : Distribution) (did : Did) (key : EncryptionKey) (hstage : d.stage = .build did key) :
      Effect cfg s env (.distribute d) s [.distribute { d with stage := .send did key }]
  | handed (d : Distribution) (did : Did) (key : EncryptionKey) (hstage : d.stage = .send did key) :
      Effect cfg s env (.distribute d)
        { s with sent := s.sent ++ [⟨did, d.newGeneration, s.status did⟩] }
        [.distribute { d with stage := .next }]
  | finished (d : Distribution) (hstage : d.stage = .next) (hrejects : env.rejects = false)
      (hnext : s.memberEncryptionKeys.next d.position
        (fun did => decide (d.excludeDid ≠ some did)) = none) :
      Effect cfg s env (.distribute d) s (afterDistribution cfg d.newGeneration d.after)
  | reported (newGeneration : Nat) (excluded : Option Did) :
      Effect cfg s env (.completed newGeneration excluded)
        { s with reports := s.reports ++ [s.report newGeneration excluded] } []

/-! ## 4. Every piece has one of the effects -/

section

variable {cfg : ReplicaConfig} {s s' : SpaceReplica} {env : ReplicaEnv} {op : ReplicaOp}
  {next : List ReplicaOp}

abbrev HasEffect (cfg : ReplicaConfig) (s : SpaceReplica) (env : ReplicaEnv) (op : ReplicaOp)
    (o : Outcome) : Prop := Effect cfg s env op o.1 (o.2.getD [])

theorem hasEffect_self {next : Option (List ReplicaOp)}
    (hplain : ∀ o ∈ next.getD [], Plain o) : HasEffect cfg s env op (s, next) :=
  .quiet rfl rfl rfl rfl rfl hplain

theorem hasEffect_unlessRejected {rejects : Bool} (hmembers : s'.members = s.members)
    (hkeys : s'.memberEncryptionKeys = s.memberEncryptionKeys) (hsent : s'.sent = s.sent)
    (hreports : s'.reports = s.reports) (hcalls : s'.calls = s.calls)
    (hplain : ∀ o ∈ next, Plain o) :
    HasEffect cfg s env op (unlessRejected rejects s' next) := by
  unfold unlessRejected
  split
  · exact .quiet hmembers hkeys hsent hreports hcalls (by simp)
  · exact .quiet hmembers hkeys hsent hreports hcalls hplain

theorem hasEffect_writeMembershipEvent (event : MembershipEvent)
    {next : Option (List ReplicaOp)} (hplain : ∀ o ∈ next.getD [], Plain o) :
    HasEffect cfg s env op ((s.writeMembershipEvent event).1, next) := by
  unfold writeMembershipEvent
  split
  · exact hasEffect_self hplain
  · exact .wrote _ hplain

/-- The end of `addMember`, where its key arrives unobserved in the named cases. -/
theorem hasEffect_admitMember {generation : Int} {memberDid : Did} (key : EncryptionKey)
    (harrives : keyArrives cfg s env op = keyArrives.arrival cfg s generation memberDid) :
    HasEffect cfg s env op (s.admitMember cfg memberDid key generation) := by
  unfold admitMember
  simp only
  by_cases hgen : generation < 0
  · rw [if_pos hgen]
    refine .arrived memberDid key ?_ (by simp)
    rw [harrives, keyArrives.arrival, if_pos (.inl hgen)]
  rw [if_neg hgen]
  unfold writeMembershipEvent
  simp only
  split
  · next hhas =>
    -- the event is there already, and no observer runs
    refine .arrived memberDid key ?_ (by simp)
    rw [harrives, keyArrives.arrival, if_pos (.inr (.inr hhas))]
  refine .admitted memberDid key _ ?_ ?_
  · intro hloaded
    rw [harrives, keyArrives.arrival, if_pos (.inr (.inl hloaded))]
  · simp [Plain]

theorem hasEffect_reinviteGuard {generation : Int} {memberDid : Did} (key : EncryptionKey)
    {removalGenerations : List Nat}
    (harrives : keyArrives cfg s env op =
      if removalGenerations.any (fun removed => decide (generation ≤ (removed : Int))) then none
      else keyArrives.arrival cfg s generation memberDid) :
    HasEffect cfg s env op (s.reinviteGuard cfg memberDid key removalGenerations generation) := by
  unfold reinviteGuard
  split
  · exact hasEffect_self (by simp [Plain])
  next hguard =>
  rw [if_neg hguard] at harrives
  exact hasEffect_admitMember key harrives

theorem hasEffect_removeMemberInternal (memberDid : Did) :
    HasEffect cfg s env op (s.removeMemberInternal cfg memberDid) := by
  unfold removeMemberInternal
  simp only
  split
  · exact hasEffect_self (by simp)
  split
  · split <;> exact hasEffect_self (by simp [Plain])
  · exact .forgot memberDid (by simp [Plain])

theorem hasEffect_leaveSpaceInternal (selfPending : Bool) (generation : Int) :
    HasEffect cfg s env op (s.leaveSpaceInternal cfg selfPending generation) := by
  unfold leaveSpaceInternal
  simp only
  split
  · exact hasEffect_self (by simp [Plain])
  split
  · exact hasEffect_self (by simp [Plain])
  split
  · split <;> exact hasEffect_self (by simp [Plain])
  split
  · exact hasEffect_self (by simp [Plain])
  · split <;> exact hasEffect_self (by simp [Plain])

theorem hasEffect_withGeneration (generation : Int) (use : GenerationUse) :
    HasEffect cfg s env (.withGeneration generation use)
      (s.withGeneration cfg env.selfPending generation use) := by
  cases use with
  | addMember memberDid key | addMemberAgain memberDid key removalGenerations =>
    exact hasEffect_reinviteGuard key rfl
  | removeMember memberDid =>
    simp only [withGeneration]
    split
    · exact hasEffect_self (by simp)
    · exact hasEffect_removeMemberInternal memberDid
  | removedEvent memberDid removedKey =>
    refine hasEffect_writeMembershipEvent _ ?_
    split <;> simp [Plain]
  | rotated after =>
    exact hasEffect_self (by simp [Plain, Distribution.Unstarted])
  | commitEvent removedDid newGeneration =>
    simp only [withGeneration]
    split
    · exact hasEffect_self (by simp)
    · refine hasEffect_writeMembershipEvent _ ?_
      split <;> simp [Plain]
  | selfRemoval | enforce events => exact hasEffect_self (by simp [Plain])
  | enforceTransition event =>
    simp only [withGeneration]
    split <;> exact hasEffect_self (by simp [Plain])
  | leaveSpace => exact hasEffect_leaveSpaceInternal env.selfPending generation
  | lastMember => exact .wrote _ (by simp [withGeneration, Plain])

theorem hasEffect_distribute (d : Distribution) :
    HasEffect cfg s env (.distribute d) (s.distribute cfg env.rejects d) := by
  unfold distribute
  split
  · exact hasEffect_self (by simp)
  next hrejects =>
  split
  · next hstage =>
    split
    · next hnext => exact .finished d hstage (by simpa using hrejects) hnext
    · next e hnext => exact .picked d e hstage hnext
  · next did key hstage => exact .built d did key hstage
  · next did key hstage => exact .handed d did key hstage

theorem hasEffect_notify (dids : List Did) (memberDid : Did) (removedKey : Option EncryptionKey) :
    HasEffect cfg s env op (s.notify cfg dids memberDid removedKey) := by
  unfold notify
  split
  · exact hasEffect_self (by simp)
  · split <;> exact hasEffect_self (by simp [Plain])

theorem hasEffect_learn (did : Did) :
    HasEffect cfg s env (.learn did) (s.learn env.resolved did) := by
  unfold learn
  split
  · exact hasEffect_self (by simp)
  next key hresolved =>
  refine .arrived did key ?_ (by simp [Plain])
  simp [keyArrives, hresolved]

theorem hasEffect_runTwoPhaseRemoval (removal : RemovalOutcome) (removedDid : Did)
    (removedKey : Option EncryptionKey) (canonical : Bool) :
    HasEffect cfg s env op (s.runTwoPhaseRemoval removal removedDid removedKey canonical) := by
  unfold runTwoPhaseRemoval
  split
  · exact hasEffect_self (by simp)
  · exact hasEffect_self (by simp)
  · exact .quiet rfl rfl rfl rfl rfl (by simp [Plain])

theorem hasEffect_commitRemoval (removedDid : Did) (newGeneration : Nat)
    (removedKey : Option EncryptionKey) (canonical : Bool) :
    HasEffect cfg s env op (s.commitRemoval cfg removedDid newGeneration removedKey canonical) := by
  refine .forgot removedDid ?_
  intro o ho
  simp only [commitRemoval, Option.getD_some, mem_append, mem_singleton] at ho
  rcases ho with ho | rfl
  · split at ho
    · cases ho
    rw [mem_singleton] at ho
    subst ho
    trivial
  refine ⟨rfl, rfl, ?_⟩
  -- only a departing member is left out, and it is the one that is removed
  by_cases hself : removedDid = cfg.did
  · right
    simp [hself, AfterRotation.excluded]
  · exact .inl (if_neg hself)

theorem mem_afterDistribution {newGeneration : Nat} {after : AfterRotation} {o : ReplicaOp}
    (h : o ∈ afterDistribution cfg newGeneration after) :
    o = .completed newGeneration after.excluded ∨ o.Plain := by
  cases after with
  | reinvite memberDid key removalGenerations =>
    simp only [afterDistribution, mem_cons, not_mem_nil, or_false] at h
    rcases h with rfl | rfl
    · exact .inl rfl
    · exact .inr trivial
  | removal memberDid removedKey =>
    simp only [afterDistribution, mem_cons, not_mem_nil, or_false] at h
    rcases h with rfl | rfl | rfl
    · exact .inr trivial
    · exact .inr trivial
    · exact .inl rfl
  | commitRemoval removedDid removedKey canonical =>
    simp only [afterDistribution, mem_append, mem_cons, not_mem_nil, or_false] at h
    rcases h with ((hnotify | rfl | rfl) | hcleanup) | rfl
    · right
      split at hnotify
      · cases hnotify
      rw [mem_singleton] at hnotify
      subst hnotify
      trivial
    · exact .inr trivial
    · exact .inr trivial
    · right
      split at hcleanup
      · rw [mem_singleton] at hcleanup
        subst hcleanup
        trivial
      · cases hcleanup
    · exact .inl rfl

theorem runOp_effect (cfg : ReplicaConfig) (env : ReplicaEnv) (k : Nat) (s : SpaceReplica)
    (op : ReplicaOp) : HasEffect cfg s env op (s.runOp cfg env k op) := by
  cases op with
  | await => exact hasEffect_unlessRejected rfl rfl rfl rfl rfl (by simp)
  | settle | awaitTurn lane => exact hasEffect_self (by simp)
  | release lane => exact .quiet rfl rfl rfl rfl rfl (by simp [runOp])
  | saveSpaceMetadata =>
    simp only [runOp]
    split
    · exact hasEffect_self (by simp)
    · exact hasEffect_unlessRejected rfl rfl rfl rfl rfl (by simp)
  | getCurrentGeneration use | removeMemberSecure memberDid canonical =>
    exact hasEffect_unlessRejected rfl rfl rfl rfl rfl (by simp [Plain])
  | withGeneration generation use => exact hasEffect_withGeneration generation use
  | addMember memberDid key withActivity | removeMember memberDid withActivity
  | resolvePendingMemberUpdates =>
    simp only [runOp]
    split
    · exact hasEffect_self (by simp)
    · split <;> exact hasEffect_self (by simp [Plain])
  | stageRotation after | enforce events | leaveSpace =>
    simp only [runOp]
    split <;> exact hasEffect_self (by simp [Plain])
  | commitRotation newGeneration after =>
    simp only [runOp]
    split
    · exact hasEffect_self (by simp)
    · exact .quiet rfl rfl rfl rfl rfl (by simp [Plain])
  | distribute d => exact hasEffect_distribute d
  | completed newGeneration excluded => exact .reported newGeneration excluded
  | notifyRemoved memberDid removedKey => exact hasEffect_self (by simp [Plain])
  | notify dids memberDid removedKey => exact hasEffect_notify dids memberDid removedKey
  | learn did => exact hasEffect_learn did
  | runTwoPhaseRemoval removedDid removedKey canonical =>
    exact hasEffect_runTwoPhaseRemoval env.removal removedDid removedKey canonical
  | commitRemoval removedDid newGeneration removedKey canonical =>
    exact hasEffect_commitRemoval removedDid newGeneration removedKey canonical
  | enforceCandidates candidates =>
    cases candidates with
    | nil => exact hasEffect_self (by simp)
    | cons event rest =>
      exact .quiet rfl rfl rfl rfl rfl (by simp [runOp, enforceCandidates, Plain])
  | leaveConfirmed =>
    refine hasEffect_self ?_
    rw [Option.getD_some]
    split <;> simp [Plain]
  | cleanup => exact .quiet rfl rfl rfl rfl rfl (by simp [runOp, Plain])

theorem Effect.waits (h : Effect cfg s env op s' next) {o : ReplicaOp} (ho : Waits s' o) :
    Waits s o ∨ o.Plain := by
  cases h with
  | quiet hmembers hkeys hsent hreports hcalls hplain => exact .inl (ho.of_calls hcalls)
  | forgot did hplain | arrived did key harrives hplain | handed d did key hstage
  | reported newGeneration excluded => exact .inl (ho.of_calls rfl)
  | wrote members hplain | admitted did key members harrives hplain =>
    exact (ho.of_setMembers).imp (·.of_calls rfl) id
  | picked d e hstage hnext | built d did key hstage | finished d hstage hrejects hnext =>
    exact .inl ho

theorem run_effect {k : Nat} {s'' : SpaceReplica} (h : s.run cfg env k = some s'') :
    ∃ op rest s' next, s.calls[k]? = some (op :: rest) ∧ Effect cfg s env op s' next ∧
      s''.members = s'.members ∧ s''.memberEncryptionKeys = s'.memberEncryptionKeys ∧
      s''.sent = s'.sent ∧ s''.reports = s'.reports ∧
      ∀ o, Waits s'' o → Waits s' o ∨ o ∈ next ∨ Waits s o := by
  unfold run at h
  split at h
  · next op rest hcall =>
    split at h
    · have heffect := runOp_effect cfg env k s op
      have hmem : (op :: rest) ∈ s.calls := mem_of_getElem? hcall
      split at h
      · next s' ops hrun =>
        cases h
        rw [hrun] at heffect
        refine ⟨op, rest, s', ops, hcall, heffect, rfl, rfl, rfl, rfl, ?_⟩
        rintro o ⟨call, hin, ho⟩
        rcases mem_or_eq_of_mem_set hin with hin | rfl
        · exact .inl ⟨call, hin, ho⟩
        rcases mem_append.mp ho with ho | ho
        · exact .inr (.inl ho)
        · exact .inr (.inr ⟨_, hmem, mem_cons_of_mem _ ho⟩)
      · next s' hrun =>
        cases h
        rw [hrun] at heffect
        refine ⟨op, rest, s', [], hcall, heffect, rfl, rfl, rfl, rfl, ?_⟩
        rintro o ⟨call, hin, ho⟩
        rcases mem_or_eq_of_mem_set hin with hin | rfl
        · exact .inl ⟨call, hin, ho⟩
        · cases ho
    · cases h
  · cases h

/-- Every other input leaves keys and members alone and starts a call, but for a change of
    the document from outside and a restart. -/
theorem step_cases {i : ReplicaInput} (h : s.step cfg i = some s') :
    (∃ k env, i = .run k env ∧ s.run cfg env k = some s') ∨
      (∃ entries, i = .remoteUpdate entries ∧ s' = s.remoteUpdate entries) ∨
      (∃ members admins, i = .restart members admins ∧ s' = s.restore members admins) ∨
      (s'.members = s.members ∧ s'.memberEncryptionKeys = s.memberEncryptionKeys ∧
        s'.sent = s.sent ∧ s'.reports = s.reports ∧ ∀ o, Waits s' o → Waits s o ∨ o.Plain) := by
  cases i with
  | addMember memberDid key withActivity | removeMember memberDid withActivity =>
    cases h
    refine .inr (.inr (.inr ⟨rfl, rfl, rfl, rfl, fun o ho => ?_⟩))
    exact ho.spawnIn rfl (by simp [Plain])
  | leaveSpace =>
    cases h
    refine .inr (.inr (.inr ⟨rfl, rfl, rfl, rfl, fun o ho => ?_⟩))
    exact (ho.spawn rfl).imp_right (by simp +contextual [Plain])
  | recoverPendingRemoval removedDid canonical =>
    simp only [SpaceReplica.step] at h
    split at h
    · cases h
      refine .inr (.inr (.inr ⟨rfl, rfl, rfl, rfl, fun o ho => ?_⟩))
      exact (ho.spawn rfl).imp_right (by simp +contextual [Plain])
    · cases h
  | promoteToAdmin memberDid =>
    simp only [SpaceReplica.step] at h
    split at h
    · cases h
      refine .inr (.inr (.inr ⟨rfl, rfl, rfl, rfl, fun o ho => ?_⟩))
      rcases ho.spawn rfl with ho | ho
      · exact ho.of_addAdmins
      · exact .inr (by simp_all [Plain])
    · cases h
  | remoteUpdate entries => exact .inr (.inl ⟨entries, rfl, (Option.some.inj h).symm⟩)
  | remoteAdmins adminEntries =>
    cases h
    exact .inr (.inr (.inr ⟨rfl, rfl, rfl, rfl, fun o ho => ho.of_addAdmins⟩))
  | importGeneration generation | metadataSynced metadata =>
    cases h
    exact .inr (.inr (.inr ⟨rfl, rfl, rfl, rfl, fun o ho => .inl (ho.of_calls rfl)⟩))
  | restart members adminEntries =>
    exact .inr (.inr (.inl ⟨members, adminEntries, rfl, (Option.some.inj h).symm⟩))
  | run k env => exact .inl ⟨k, env, rfl, h⟩

end

end SpaceReplica

end WebOfTrust
