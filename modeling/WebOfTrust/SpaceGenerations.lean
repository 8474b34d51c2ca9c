/-
  **The generation of a space on its devices and at the broker.**

  Any number of replicas of one space (`SpaceReplica.lean`) work with one broker
  (`Relay.lean`).  A two-phase removal activates a generation after the broker has
  acknowledged it, and other devices get theirs from one that has activated them.  With a
  log, only the re-invite guard rotates without the broker: a device at the broker's
  generation is then ahead of it, and its capability is refused (`reinvite_runs_ahead`).
  Where only devices that are behind do so, nobody is ever ahead (`never_ahead`).
-/
import WebOfTrust.RelaySpaces
import WebOfTrust.RotationRecipients

namespace WebOfTrust

open Async List

/-! ## 1. Devices and their broker -/

structure GenerationSystem where
  relay : RelayConfig
  /-- The generations of the `space-rotate` frames that the broker has acknowledged. -/
  acknowledged : List Nat
  replicas : List (ReplicaConfig × SpaceReplica)

inductive SystemInput where
  /-- Anything that the broker does, for whomever. -/
  | relay (a : Action Env RelayCall)
  /-- Another device gets the keys up to a generation: a member that was invited, or a device
      of the same identity that has them from the personal document. -/
  | join (cfg : ReplicaConfig) (members : MembersMap) (adminEntries : List Did)
      (createdBy : Option Did) (senderDid : Did) (generation : Nat)
  | device (n : Nat) (i : ReplicaInput)

/-- Call `k` is about to stage a rotation that the broker is not asked for. -/
def SpaceReplica.stages (s : SpaceReplica) (k : Nat) : Bool :=
  match s.calls[k]? with
  | some (.stageRotation _ :: _) => true
  | _ => false

namespace GenerationSystem

section

variable (keyOf : Did → Option PublicKey) (spaceId : DocId) (s : GenerationSystem)

def held : Nat :=
  ((s.relay.world.docLog.getSpace spaceId).map (·.generation)).getD 0

def acknowledges (c c' : RelayConfig) : Action Env RelayCall → Option Nat
  | .run n _ =>
    match c.pointAt n with
    | some (.spaceRotateVerified ws _ _ (.ok payload)) =>
      if payload.spaceId = spaceId ∧
          c'.world.sent = c.world.sent ++ [(ws, .receipt payload.spaceId)] then
        some payload.newGeneration
      else none
    | _ => none
  | _ => none

def circulates (generation : Nat) : Bool :=
  s.replicas.any fun r => decide ((generation : Int) ≤ r.2.generation)

/-- A removal is enforced where the broker has acknowledged its generation; a key that is
    imported comes from a device that has it. -/
def allows : ReplicaInput → Bool
  | .run _ env =>
    match env.removal with
    | .enforced newGeneration => decide (newGeneration ∈ s.acknowledged)
    | _ => true
  | .importGeneration generation => s.circulates generation
  | _ => true

def step : SystemInput → Option GenerationSystem
  | .relay a =>
    (s.relay.step (relaySystem keyOf) a).map fun relay =>
      { s with
        relay := relay
        acknowledged := s.acknowledged ++ (acknowledges spaceId s.relay relay a).toList }
  | .join cfg members adminEntries createdBy senderDid generation =>
    if s.circulates generation = true then
      some { s with
          replicas := s.replicas ++
            [(cfg, .joined cfg members adminEntries createdBy senderDid generation)] }
    else none
  | .device n i =>
    match s.replicas[n]? with
    | some (cfg, r) =>
      if s.allows i = true then
        (r.step cfg i).map fun r' => { s with replicas := s.replicas.set n (cfg, r') }
      else none
    | none => none

/-- The creator has created the space; the broker has acknowledged no rotation of it. -/
def start (cfg : ReplicaConfig) (docLog : BrokerStore) (clock : Nat) : GenerationSystem where
  relay := { world := Relay.start docLog clock, procs := [] }
  acknowledged := []
  replicas := [(cfg, .created cfg)]

/-- No device is ahead of the broker.  The generation check finds what it presents current,
    or tells it that it is behind. -/
def NeverAhead : Prop :=
  ∀ r ∈ s.replicas, ∀ space, s.relay.world.docLog.getSpace spaceId = some space →
    r.2.generation ≤ space.generation ∧
      ∀ ws did (jws : SignedJws CapabilityPayload), jws.payload.spaceId = spaceId →
        (jws.payload.generation : Int) = r.2.generation →
          jws.payload.generation = space.generation ∨
            s.relay.world.presentSpaceCapability ws did jws =
              (none, s.relay.world.sendError ws "CAPABILITY_GENERATION_STALE"
                ("Capability generation is older than the current space generation; " ++
                  "obtain a renewed capability."))

def stagesBehind : SystemInput → Bool
  | .device n (.run k _) =>
    (s.replicas[n]?).all fun r =>
      !r.2.stages k || decide (r.2.generation < (s.held spaceId : Int))
  | _ => true

abbrev StagesBehind (i : SystemInput) : Prop :=
  stagesBehind spaceId s i = true

end

end GenerationSystem

/-! ## 2. What a replica does to its generation -/

/-- The piece activates no generation of its own above `g`. -/
def ReplicaOp.Within (g : Int) : ReplicaOp → Prop
  | .commitRotation newGeneration _ => (newGeneration : Int) ≤ g
  | _ => True

open SpaceReplica

namespace SpaceReplica

/-- Neither the replica nor a rotation that it has staged is above `g`. -/
structure Within (g : Int) (s : SpaceReplica) : Prop where
  generation : s.generation ≤ g
  calls : ∀ call ∈ s.calls, ∀ op ∈ call, op.Within g

/-- A piece keeps its replica, and what comes after it, from going above `g`. -/
structure Outcome.Within (g : Int) (o : Outcome) : Prop where
  replica : o.1.Within g
  next : ∀ op ∈ o.2.getD [], op.Within g

section

variable {g : Int} {cfg : ReplicaConfig} {s s' : SpaceReplica} {env : ReplicaEnv}
  {op : ReplicaOp} {k : Nat} {next : Option (List ReplicaOp)}

theorem Within.mono {g' : Int} (h : s.Within g) (hle : g ≤ g') : s.Within g' := by
  refine ⟨Int.le_trans h.generation hle, ?_⟩
  intro call hcall op hop
  have hwithin := h.calls call hcall op hop
  cases op with
  | commitRotation newGeneration after => exact Int.le_trans hwithin hle
  | _ => trivial

section

variable (h : s.Within g)
include h

theorem Within.same (hgeneration : s'.generation = s.generation)
    (hcalls : s'.calls = s.calls) : s'.Within g :=
  ⟨hgeneration ▸ h.generation, hcalls ▸ h.calls⟩

theorem Within.spawn {ops : List ReplicaOp} (hops : ∀ op ∈ ops, op.Within g) :
    (s.spawn ops).Within g := by
  refine ⟨h.generation, ?_⟩
  intro call hcall
  rcases mem_append.mp hcall with hcall | hcall
  · exact h.calls call hcall
  · rw [mem_singleton] at hcall
    exact hcall ▸ hops

theorem Within.spawnIn {lane : Lane} {ops : List ReplicaOp}
    (hops : ∀ op ∈ ops, op.Within g) : (s.spawnIn lane ops).Within g := by
  have hspawn : (s.spawn (.awaitTurn lane :: (ops ++ [.release lane]))).Within g := by
    apply h.spawn
    intro op hop
    simp only [mem_cons, mem_append, not_mem_nil, or_false] at hop
    rcases hop with rfl | hop | rfl
    · trivial
    · exact hops op hop
    · trivial
  exact hspawn.same rfl rfl

theorem Within.setMembers (members : MembersMap) : (s.setMembers members).Within g := by
  unfold SpaceReplica.setMembers membersHandler
  split
  · exact h.same rfl rfl
  apply Within.spawnIn
  · exact h.same rfl rfl
  · simp [resolutionChain, ReplicaOp.Within]

theorem Within.writeMembershipEvent (event : MembershipEvent) :
    (s.writeMembershipEvent event).1.Within g := by
  unfold SpaceReplica.writeMembershipEvent
  split
  · exact h
  · exact h.setMembers _

theorem Within.addAdmins (adminEntries : List Did) : (s.addAdmins adminEntries).Within g := by
  apply Within.spawnIn
  · exact h.same rfl rfl
  · simp [ReplicaOp.Within]

theorem Within.reinviteGuard {memberDid : Did} {key : EncryptionKey}
    {removalGenerations : List Nat} {generation : Int} :
    (s.reinviteGuard cfg memberDid key removalGenerations generation).Within g := by
  unfold SpaceReplica.reinviteGuard
  split
  · exact ⟨h, by simp [ReplicaOp.Within]⟩
  have hset : { s with
      memberEncryptionKeys := s.memberEncryptionKeys.set memberDid key }.Within g :=
    h.same rfl rfl
  unfold admitMember
  simp only
  split
  · exact ⟨hset, by simp⟩
  split
  · exact ⟨hset.writeMembershipEvent _, by simp [ReplicaOp.Within]⟩
  · exact ⟨hset.writeMembershipEvent _, by simp⟩

theorem Within.removeMemberInternal (memberDid : Did) :
    (s.removeMemberInternal cfg memberDid).Within g := by
  unfold SpaceReplica.removeMemberInternal
  simp only
  split
  · exact ⟨h, by simp⟩
  split
  · split <;> exact ⟨h, by simp [ReplicaOp.Within]⟩
  · exact ⟨h.same rfl rfl, by simp [ReplicaOp.Within]⟩

theorem Within.leaveSpaceInternal (selfPending : Bool) (generation : Int) :
    (s.leaveSpaceInternal cfg selfPending generation).Within g := by
  unfold SpaceReplica.leaveSpaceInternal
  simp only
  split
  · exact ⟨h, by simp [ReplicaOp.Within]⟩
  split
  · exact ⟨h, by simp [ReplicaOp.Within]⟩
  split
  · split <;> exact ⟨h, by simp [ReplicaOp.Within]⟩
  split
  · exact ⟨h, by simp [ReplicaOp.Within]⟩
  · split <;> exact ⟨h, by simp [ReplicaOp.Within]⟩

theorem Within.withGeneration (selfPending : Bool) (generation : Int)
    (use : GenerationUse) : (s.withGeneration cfg selfPending generation use).Within g := by
  cases use with
  | addMember memberDid key | addMemberAgain memberDid key removalGenerations =>
    exact h.reinviteGuard
  | removeMember memberDid =>
    simp only [SpaceReplica.withGeneration]
    split
    · exact ⟨h, by simp⟩
    · exact h.removeMemberInternal memberDid
  | removedEvent memberDid removedKey =>
    refine ⟨h.writeMembershipEvent _, ?_⟩
    rw [SpaceReplica.withGeneration, Option.getD_some]
    split <;> simp [ReplicaOp.Within]
  | rotated after => exact ⟨h, by simp [SpaceReplica.withGeneration, ReplicaOp.Within]⟩
  | commitEvent removedDid newGeneration =>
    simp only [SpaceReplica.withGeneration]
    split
    · exact ⟨h, by simp⟩
    refine ⟨h.writeMembershipEvent _, ?_⟩
    rw [commitMembershipEvent, Option.getD_some]
    split <;> simp [ReplicaOp.Within]
  | selfRemoval | enforce events =>
    exact ⟨h, by simp [SpaceReplica.withGeneration, ReplicaOp.Within]⟩
  | enforceTransition event =>
    simp only [SpaceReplica.withGeneration]
    split <;> exact ⟨h, by simp [ReplicaOp.Within]⟩
  | leaveSpace => exact h.leaveSpaceInternal selfPending generation
  | lastMember =>
    exact ⟨h.setMembers _, by simp [SpaceReplica.withGeneration, ReplicaOp.Within]⟩

end

theorem afterDistribution_within {newGeneration : Nat} {after : AfterRotation} :
    ∀ op ∈ afterDistribution cfg newGeneration after, op.Within g := by
  cases after with
  | reinvite memberDid key removalGenerations | removal memberDid removedKey =>
    simp [afterDistribution, ReplicaOp.Within]
  | commitRemoval removedDid removedKey canonical =>
    simp only [afterDistribution]
    split_ifs <;> simp [ReplicaOp.Within]

section

variable (h : s.Within g)
include h

theorem Within.distribute (rejects : Bool) (d : Distribution) :
    (s.distribute cfg rejects d).Within g := by
  unfold SpaceReplica.distribute
  split
  · exact ⟨h, by simp⟩
  split
  · split
    · exact ⟨h, afterDistribution_within⟩
    · exact ⟨h, by simp [ReplicaOp.Within]⟩
  · exact ⟨h, by simp [ReplicaOp.Within]⟩
  · exact ⟨h.same rfl rfl, by simp [ReplicaOp.Within]⟩

theorem Within.runTwoPhaseRemoval {removal : RemovalOutcome}
    (henforced : ∀ newGeneration, removal = .enforced newGeneration → (newGeneration : Int) ≤ g)
    (removedDid : Did) (removedKey : Option EncryptionKey) (canonical : Bool) :
    (s.runTwoPhaseRemoval removal removedDid removedKey canonical).Within g := by
  unfold SpaceReplica.runTwoPhaseRemoval
  split
  · exact ⟨h, by simp⟩
  · exact ⟨h, by simp⟩
  next newGeneration =>
  refine ⟨⟨?_, h.calls⟩, by simp [ReplicaOp.Within]⟩
  exact Int.max_le.mpr ⟨h.generation, henforced newGeneration rfl⟩

theorem Within.unlessRejected {rejects : Bool} {next : List ReplicaOp}
    (hnext : ∀ op ∈ next, op.Within g) : (unlessRejected rejects s next).Within g := by
  unfold SpaceReplica.unlessRejected
  split
  · exact ⟨h, by simp⟩
  · exact ⟨h, hnext⟩

theorem Within.runOp (hop : op.Within g)
    (henforced : ∀ newGeneration, env.removal = .enforced newGeneration → (newGeneration : Int) ≤ g)
    (hstages : ∀ after, op = .stageRotation after → s.generation < g) :
    (s.runOp cfg env k op).Within g := by
  cases op with
  | await => exact h.unlessRejected (by simp)
  | settle | awaitTurn lane => exact ⟨h, by simp [runOp]⟩
  | release lane => exact ⟨h.same rfl rfl, by simp [runOp]⟩
  | saveSpaceMetadata =>
    simp only [runOp]
    split
    · exact ⟨h, by simp⟩
    apply Within.unlessRejected
    · exact h.same rfl rfl
    · simp
  | getCurrentGeneration use => exact h.unlessRejected (by simp [ReplicaOp.Within])
  | withGeneration generation use => exact h.withGeneration env.selfPending generation use
  | addMember memberDid key withActivity | removeMember memberDid withActivity
  | resolvePendingMemberUpdates =>
    simp only [runOp]
    split
    · exact ⟨h, by simp⟩
    · split <;> exact ⟨h, by simp [ReplicaOp.Within]⟩
  | stageRotation after =>
    have hlt := hstages after rfl
    simp only [runOp]
    split
    · exact ⟨h, by simp⟩
    refine ⟨h, ?_⟩
    simp only [Option.getD_some, mem_singleton, forall_eq, ReplicaOp.Within]
    omega
  | commitRotation newGeneration after =>
    simp only [runOp]
    split
    · exact ⟨h, by simp⟩
    · refine ⟨⟨?_, h.calls⟩, by simp [ReplicaOp.Within]⟩
      exact Int.max_le.mpr ⟨h.generation, hop⟩
  | distribute d => exact h.distribute env.rejects d
  | completed newGeneration excluded =>
    exact ⟨h.same rfl rfl, by simp [runOp]⟩
  | notifyRemoved memberDid removedKey =>
    exact ⟨h, by simp [runOp, ReplicaOp.Within]⟩
  | notify dids memberDid removedKey =>
    simp only [runOp, notify]
    split
    · exact ⟨h, by simp⟩
    · split <;> exact ⟨h, by simp [ReplicaOp.Within]⟩
  | learn did =>
    simp only [runOp, learn]
    split
    · exact ⟨h, by simp⟩
    · exact ⟨h.same rfl rfl, by simp [ReplicaOp.Within]⟩
  | removeMemberSecure memberDid canonical =>
    exact h.unlessRejected (by simp [ReplicaOp.Within])
  | runTwoPhaseRemoval removedDid removedKey canonical =>
    exact h.runTwoPhaseRemoval henforced removedDid removedKey canonical
  | commitRemoval removedDid newGeneration removedKey canonical =>
    refine ⟨h.same rfl rfl, ?_⟩
    simp only [runOp, commitRemoval, Option.getD_some]
    split_ifs <;> simp [ReplicaOp.Within]
  | enforce events | leaveSpace =>
    simp only [runOp]
    split <;> exact ⟨h, by simp [ReplicaOp.Within]⟩
  | enforceCandidates candidates =>
    cases candidates with
    | nil => exact ⟨h, by simp [runOp, enforceCandidates]⟩
    | cons event rest =>
      refine ⟨h.same rfl rfl, ?_⟩
      simp [runOp, enforceCandidates, ReplicaOp.Within]
  | leaveConfirmed =>
    refine ⟨h, ?_⟩
    rw [runOp, Option.getD_some]
    split <;> simp [ReplicaOp.Within]
  | cleanup => exact ⟨h.same rfl rfl, by simp [runOp, ReplicaOp.Within]⟩

theorem Within.run (henforced : ∀ newGeneration, env.removal = .enforced newGeneration →
      (newGeneration : Int) ≤ g)
    (hstages : s.stages k = true → s.generation < g) (hrun : s.run cfg env k = some s') :
    s'.Within g := by
  unfold SpaceReplica.run at hrun
  split at hrun
  · next op rest hcall =>
    split at hrun
    · have hwaiting : ∀ o ∈ op :: rest, o.Within g :=
        h.calls _ (mem_of_getElem? hcall)
      have houtcome : (s.runOp cfg env k op).Within g := by
        refine h.runOp (hwaiting op mem_cons_self) henforced ?_
        rintro after rfl
        exact hstages (by simp [stages, hcall])
      split at hrun
      · next s₁ ops hop =>
        cases hrun
        rw [hop] at houtcome
        refine ⟨houtcome.replica.generation, ?_⟩
        intro call hmem o ho
        rcases mem_or_eq_of_mem_set hmem with hmem | rfl
        · exact houtcome.replica.calls call hmem o ho
        rcases mem_append.mp ho with ho | ho
        · exact houtcome.next o ho
        · exact hwaiting o (mem_cons_of_mem _ ho)
      · next s₁ hop =>
        cases hrun
        rw [hop] at houtcome
        refine ⟨houtcome.replica.generation, ?_⟩
        intro call hmem o ho
        rcases mem_or_eq_of_mem_set hmem with hmem | rfl
        · exact houtcome.replica.calls call hmem o ho
        · cases ho
    · cases hrun
  · cases hrun

end

theorem Within.step {i : ReplicaInput} (h : s.Within g)
    (himport : ∀ generation, i = .importGeneration generation → (generation : Int) ≤ g)
    (hrun : ∀ k env, i = .run k env →
      (∀ newGeneration, env.removal = .enforced newGeneration → (newGeneration : Int) ≤ g) ∧
        (s.stages k = true → s.generation < g))
    (hstep : s.step cfg i = some s') : s'.Within g := by
  cases i with
  | addMember memberDid key withActivity | removeMember memberDid withActivity =>
    cases hstep
    exact h.spawnIn (by simp [ReplicaOp.Within])
  | leaveSpace =>
    cases hstep
    exact h.spawn (by simp [ReplicaOp.Within])
  | recoverPendingRemoval removedDid canonical =>
    simp only [SpaceReplica.step] at hstep
    split at hstep
    · cases hstep
      exact h.spawn (by simp [ReplicaOp.Within])
    · cases hstep
  | promoteToAdmin memberDid =>
    simp only [SpaceReplica.step] at hstep
    split at hstep
    · cases hstep
      exact (h.addAdmins _).spawn (by simp [ReplicaOp.Within])
    · cases hstep
  | remoteUpdate entries =>
    cases hstep
    unfold remoteUpdate
    simp only
    split
    · exact h
    · exact h.setMembers _
  | remoteAdmins adminEntries =>
    cases hstep
    exact h.addAdmins adminEntries
  | importGeneration generation =>
    cases hstep
    exact ⟨Int.max_le.mpr ⟨h.generation, himport generation rfl⟩, h.calls⟩
  | metadataSynced metadata =>
    cases hstep
    exact h.same rfl rfl
  | restart members adminEntries =>
    cases hstep
    apply Within.spawnIn
    · exact ⟨h.generation, by simp⟩
    · simp [ReplicaOp.Within]
  | run k env => exact h.run (hrun k env rfl).1 (hrun k env rfl).2 hstep

end

end SpaceReplica

/-! ## 3. Generations at the broker and ahead of it -/

namespace GenerationSystem

section

variable {keyOf : Did → Option PublicKey} {spaceId : DocId} {docLog : BrokerStore} {clock : Nat}
  {s s' : GenerationSystem}

/-- Nothing is above what the broker holds: no acknowledgement, no device and nothing that a
    device has staged. -/
structure HeldInv (keyOf : Did → Option PublicKey) (spaceId : DocId) (docLog : BrokerStore)
    (clock : Nat) (s : GenerationSystem) : Prop where
  relay : Reachable (relaySystem keyOf) AnyRun (Relay.start docLog clock) s.relay
  acknowledged : ∀ generation ∈ s.acknowledged, generation ≤ s.held spaceId
  replicas : ∀ r ∈ s.replicas, r.2.Within (s.held spaceId)

theorem held_of_getSpace {space : SpaceRow}
    (h : s.relay.world.docLog.getSpace spaceId = some space) :
    s.held spaceId = space.generation := by
  simp [held, h]

theorem held_le_of_spaceStep (h : Relay.SpaceStep (s.relay.world.docLog.getSpace spaceId)
      (s'.relay.world.docLog.getSpace spaceId)) :
    s.held spaceId ≤ s'.held spaceId := by
  unfold held
  generalize s.relay.world.docLog.getSpace spaceId = before at h ⊢
  generalize s'.relay.world.docLog.getSpace spaceId = after at h ⊢
  cases h with
  | same => exact Nat.le_refl _
  | registered space hzero => exact Nat.zero_le _
  | rotated space key => exact Nat.le_succ _

theorem held_of_acknowledges {c' : RelayConfig} {a : Action Env RelayCall} {generation : Nat}
    (h : Reachable (relaySystem keyOf) AnyRun (Relay.start docLog clock) s.relay)
    (hs : s.relay.step (relaySystem keyOf) a = some c')
    (hack : acknowledges spaceId s.relay c' a = some generation) :
    ∃ space, c'.world.docLog.getSpace spaceId = some space ∧ space.generation = generation := by
  unfold acknowledges at hack
  split at hack
  · next n env =>
    split at hack
    · next ws signerDid thid payload hpoint =>
      split at hack
      · next hreceipt =>
        cases hack
        obtain ⟨t, ht, hworld⟩ := step_advance h trivial hs
        cases ht.symm.trans hpoint
        have hsent := hreceipt.2
        rw [hworld] at hsent
        obtain ⟨payload', space, hpayload, hspace, hgeneration, -⟩ :=
          spaceRotateVerified_receipt hsent
        cases hpayload
        refine ⟨space, ?_, hgeneration⟩
        rw [hworld, ← hreceipt.1]
        exact hspace
      · cases hack
    · cases hack
  · cases hack

section

variable (h : HeldInv keyOf spaceId docLog clock s)
include h

theorem HeldInv.relayStep {a : Action Env RelayCall}
    {c' : RelayConfig} (hs : s.relay.step (relaySystem keyOf) a = some c') :
    HeldInv keyOf spaceId docLog clock { s with
        relay := c'
        acknowledged := s.acknowledged ++ (acknowledges spaceId s.relay c' a).toList } := by
  have hle : s.held spaceId ≤ held spaceId { s with
        relay := c'
        acknowledged := s.acknowledged ++ (acknowledges spaceId s.relay c' a).toList } :=
    held_le_of_spaceStep (spaceStep_step h.relay hs spaceId)
  refine ⟨h.relay.step trivial hs, ?_, ?_⟩
  · intro generation hgeneration
    rcases mem_append.mp hgeneration with hold | hnew
    · exact Nat.le_trans (h.acknowledged generation hold) hle
    · obtain ⟨space, hspace, rfl⟩ := held_of_acknowledges h.relay hs (Option.mem_toList.mp hnew)
      exact Nat.le_of_eq (held_of_getSpace hspace).symm
  · intro r hr
    exact (h.replicas r hr).mono (Int.ofNat_le.mpr hle)

theorem HeldInv.le_of_circulates {generation : Nat} (hcirculates : s.circulates generation = true) :
    (generation : Int) ≤ s.held spaceId := by
  simp only [circulates, any_eq_true, decide_eq_true_eq] at hcirculates
  obtain ⟨r, hr, hle⟩ := hcirculates
  exact Int.le_trans hle (h.replicas r hr).generation

theorem HeldInv.deviceStep {n : Nat} {i : ReplicaInput} {cfg : ReplicaConfig} {r r' : SpaceReplica}
    (hbehind : StagesBehind spaceId s (.device n i)) (hr : s.replicas[n]? = some (cfg, r))
    (hallows : s.allows i = true) (hs : r.step cfg i = some r') :
    HeldInv keyOf spaceId docLog clock { s with replicas := s.replicas.set n (cfg, r') } := by
  refine ⟨h.relay, h.acknowledged, ?_⟩
  intro q hq
  rcases mem_or_eq_of_mem_set hq with hq | rfl
  · exact h.replicas q hq
  have hwithin : r.Within (s.held spaceId) := h.replicas _ (mem_of_getElem? hr)
  refine hwithin.step ?_ ?_ hs
  · rintro generation rfl
    exact h.le_of_circulates hallows
  rintro k env rfl
  constructor
  · intro newGeneration henforced
    simp only [allows, henforced, decide_eq_true_eq] at hallows
    exact Int.ofNat_le.mpr (h.acknowledged newGeneration hallows)
  · intro hstages
    simpa [StagesBehind, stagesBehind, hr, hstages] using hbehind

theorem HeldInv.step {i : SystemInput}
    (hbehind : StagesBehind spaceId s i) (hs : s.step keyOf spaceId i = some s') :
    HeldInv keyOf spaceId docLog clock s' := by
  cases i with
  | relay a =>
    obtain ⟨c', hc', rfl⟩ := Option.map_eq_some_iff.mp hs
    exact h.relayStep hc'
  | join cfg members adminEntries createdBy senderDid generation =>
    simp only [GenerationSystem.step] at hs
    split at hs
    · next hcirculates =>
      cases hs
      refine ⟨h.relay, h.acknowledged, ?_⟩
      intro r hr
      rcases mem_append.mp hr with hr | hr
      · exact h.replicas r hr
      · cases mem_singleton.mp hr
        exact ⟨h.le_of_circulates hcirculates, by simp [joined]⟩
    · cases hs
  | device n i =>
    simp only [GenerationSystem.step] at hs
    split at hs
    · next cfg r hr =>
      split at hs
      · next hallows =>
        obtain ⟨r', hr', rfl⟩ := Option.map_eq_some_iff.mp hs
        exact h.deviceStep hbehind hr hallows hr'
      · cases hs
    · cases hs

end

theorem HeldInv.start (cfg : ReplicaConfig) :
    HeldInv keyOf spaceId docLog clock (start cfg docLog clock) := by
  refine ⟨.start, by simp [GenerationSystem.start], ?_⟩
  intro r hr
  cases mem_singleton.mp hr
  refine ⟨?_, by simp [created]⟩
  simp [created]

theorem HeldInv.neverAhead (h : HeldInv keyOf spaceId docLog clock s) : NeverAhead spaceId s := by
  intro r hr space hspace
  have hle : r.2.generation ≤ space.generation := by
    have hwithin := (h.replicas r hr).generation
    rwa [held_of_getSpace hspace] at hwithin
  refine ⟨hle, ?_⟩
  intro ws did jws hdoc hgeneration
  rcases Nat.lt_or_ge jws.payload.generation space.generation with hlt | hge
  · right
    simp [Relay.presentSpaceCapability, hdoc, hspace, hlt]
  · left
    omega

/-- **No device is ahead of the broker**, in every run in which only devices that are behind
    it stage rotations that it is not asked for. -/
theorem never_ahead {cfg : ReplicaConfig}
    (h : Machine.Reaches (step keyOf spaceId) (StagesBehind spaceId) (start cfg docLog clock) s) :
    NeverAhead spaceId s := by
  have hinv : HeldInv keyOf spaceId docLog clock s :=
    h.invariant (.start cfg) fun _ _ _ hinv hbehind hs => hinv.step hbehind hs
  exact hinv.neverAhead

theorem verifySpaceCapabilityJws_of_ne {jws : SignedJws CapabilityPayload} {publicKey : PublicKey}
    {did : Did} {expectedGeneration now : Nat}
    (h : jws.payload.generation ≠ expectedGeneration) :
    ∃ message, verifySpaceCapabilityJws jws publicKey spaceId did expectedGeneration now =
      .error message := by
  unfold verifySpaceCapabilityJws
  split_ifs <;> exact ⟨_, rfl⟩

end

/-- The creator of `space-1`. -/
def admin : ReplicaConfig := { alice with did := "did:admin" }

def registers : List SystemInput :=
  [.relay (.call (.register 1 "did:admin" "device-1")), .relay (.run 0 relayEnv),
    .relay (.call adminRegisters), .relay (.run 1 relayEnv)]

def rotates : List SystemInput :=
  [.relay (.call (.spaceRotate 1 (adminSigned ⟨"space-1", "key-1", 1⟩))),
    .relay (.run 2 relayEnv), .relay (.run 2 relayEnv)]

/-- Call `k` of the creator goes on for `n` pieces; no removal ends. -/
def goesOn (k n : Nat) : List SystemInput :=
  replicate n (.device 0 (.run k { smoothly 0 with removal := .pending }))

/-- The creator invites `did:bob`; this is call `k`. -/
def invitesBob (k n : Nat) : List SystemInput :=
  .device 0 (.addMember "did:bob" [2] false) :: goesOn k n

/-- Then it removes `did:bob`; the removal goes to the broker, and is enforced. -/
def removesBob : List SystemInput :=
  registers ++ invitesBob 0 8 ++ .device 0 (.removeMember "did:bob" false) :: goesOn 2 5 ++
    rotates ++ (runs 2 18 1).map (.device 0)

/-- The removal takes the device to generation 1 and leaves it there with the broker. -/
theorem never_ahead_removal : ∃ s,
    Machine.Reaches (step some "space-1") (StagesBehind "space-1") (start admin .fresh 0) s ∧
      s.held "space-1" = 1 ∧ (∃ r ∈ s.replicas, r.2.generation = 1) ∧ NeverAhead "space-1" s := by
  obtain ⟨s, hreach, htest⟩ := Machine.Reaches.of_exec (step some "space-1")
    (StagesBehind "space-1") (start admin .fresh 0) removesBob
    (fun s => decide (s.held "space-1" = 1) && s.replicas.any fun r => decide (r.2.generation = 1))
    (by decide +kernel)
  simp only [Bool.and_eq_true, any_eq_true, decide_eq_true_eq] at htest
  exact ⟨s, hreach, htest.1, htest.2, never_ahead hreach⟩

/-- **A re-invite leaves the broker behind.**  The creator invites `did:bob` again, whose
    removal is of the generation that both have: the guard rotates to generation 2 without
    the broker, which refuses every capability of that generation. -/
theorem reinvite_runs_ahead : ∃ s,
    Machine.Reaches (step some "space-1") (fun _ _ => True) (start admin .fresh 0) s ∧
      ¬ NeverAhead "space-1" s ∧
        ∃ r ∈ s.replicas, ∃ space, s.relay.world.docLog.getSpace "space-1" = some space ∧
          ∀ (jws : SignedJws CapabilityPayload) did now,
            (jws.payload.generation : Int) = r.2.generation →
              ∃ message, verifySpaceCapabilityJws jws space.verificationKey "space-1" did
                space.generation now = .error message := by
  obtain ⟨s, hreach, htest⟩ := Machine.Reaches.of_exec (step some "space-1") (fun _ _ => True)
    (start admin .fresh 0) (removesBob ++ invitesBob 4 6)
    (fun s => decide (s.relay.world.docLog.getSpace "space-1" = some ⟨"space-1", "key-1", 1, 0⟩) &&
      s.replicas.any fun r => decide (r.2.generation = 2))
    (by decide +kernel)
  simp only [Bool.and_eq_true, any_eq_true, decide_eq_true_eq] at htest
  obtain ⟨hspace, r, hr, hgeneration⟩ := htest
  refine ⟨s, hreach, ?_, r, hr, _, hspace, ?_⟩
  · intro hnever
    have hle := (hnever r hr _ hspace).1
    rw [hgeneration] at hle
    exact absurd hle (by decide)
  · intro jws did now hjws
    apply verifySpaceCapabilityJws_of_ne
    rw [hgeneration] at hjws
    intro hone
    rw [hone] at hjws
    exact absurd hjws (by decide)

end GenerationSystem

end WebOfTrust
