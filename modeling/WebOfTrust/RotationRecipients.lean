/-
  **Who a rotation is handed to**: nobody that the document says was removed.

  The keys of removed members leave the map only when the document changes.  A lookup for
  the farewell notice of a removed member puts its key back, and the next rotation goes to
  it (`farewell_rekeys_removed`).  A removal that comes in while a message to the member is
  being built is too late for that message.  Apart from these, the map holds nobody that
  is removed (`rotations_spare_removed`).
-/
import WebOfTrust.SpaceReplicaSteps

namespace WebOfTrust

open MembershipEvent KeyedTable List

namespace SpaceReplica

/-! ## 1. The condition -/

def recipients (s : SpaceReplica) : List Did := s.calls.flatten.filterMap ReplicaOp.recipient

/-- The DIDs that nothing would take back if a step removed them: messages to them are being
    built, or their keys are in a map whose document nobody observes.  A restart loses the
    calls and prunes the map. -/
def exposed (s : SpaceReplica) : ReplicaInput → List Did
  | .restart _ _ => []
  | _ =>
    s.recipients ++ if s.loaded = true then [] else s.memberEncryptionKeys.entries.map (·.key)

/-- The DID whose key a step puts into the map where the observer does not look afterwards. -/
def arrives (cfg : ReplicaConfig) (s : SpaceReplica) : ReplicaInput → Option Did
  | .run k env =>
    match s.calls[k]? with
    | some (op :: _) => keyArrives cfg s env op
    | _ => none
  | _ => none

def statusAfter (cfg : ReplicaConfig) (s : SpaceReplica) (i : ReplicaInput) (did : Did) :
    Option MembershipStatus := (s.step cfg i).bind (·.status did)

/-- No key of a removed member arrives unobserved, and nobody is removed while a message to
    it is being built. -/
def Observed (cfg : ReplicaConfig) (s : SpaceReplica) (i : ReplicaInput) : Prop :=
  (∀ did ∈ arrives cfg s i, statusAfter cfg s i did ≠ some .removed) ∧
    ∀ did ∈ s.exposed i, statusAfter cfg s i did ≠ some .removed

instance (cfg : ReplicaConfig) (s : SpaceReplica) (i : ReplicaInput) :
    Decidable (Observed cfg s i) :=
  inferInstanceAs (Decidable (_ ∧ _))

/-! ## 2. The invariant -/

structure RecipientInv (s : SpaceReplica) : Prop where
  keys : ∀ e ∈ s.memberEncryptionKeys.entries, s.status e.key ≠ some .removed
  waiting : ∀ op did, Waits s op → op.recipient = some did → s.status did ≠ some .removed
  sent : ∀ m ∈ s.sent, m.status ≠ some .removed

section

variable {cfg : ReplicaConfig} {s s' : SpaceReplica} {env : ReplicaEnv} {op : ReplicaOp}
  {next : List ReplicaOp}

theorem mem_recipients {did : Did} (h : Waits s op) (hop : op.recipient = some did) :
    did ∈ s.recipients := by
  obtain ⟨call, hcall, hin⟩ := h
  exact mem_filterMap.mpr ⟨op, mem_flatten.mpr ⟨call, hcall, hin⟩, hop⟩

section

variable (h : Effect cfg s env op s' next)
include h

/-- Where a key in the map comes from: the observer has looked at it, it has just arrived
    unobserved, or it was there and nothing else has changed. -/
theorem Effect.key_cases {e : LiveEntry Did EncryptionKey}
    (he : e ∈ s'.memberEncryptionKeys.entries) :
    s'.status e.key ≠ some .removed ∨ keyArrives cfg s env op = some e.key ∨
      ((∃ e' ∈ s.memberEncryptionKeys.entries, e'.key = e.key) ∧
        (s'.members = s.members ∨ s.loaded = false)) := by
  cases h with
  | quiet hmembers hkeys hsent hreports hcalls hplain =>
    rw [hkeys] at he
    exact .inr (.inr ⟨⟨e, he, rfl⟩, .inl hmembers⟩)
  | forgot did hplain =>
    exact .inr (.inr ⟨⟨e, (LiveMap.mem_entries_delete.mp he).1, rfl⟩, .inl rfl⟩)
  | wrote members hplain =>
    rcases Bool.eq_false_or_eq_true s.loaded with hloaded | hloaded
    · exact .inl (pruned_setMembers hloaded he)
    · exact .inr (.inr ⟨⟨e, mem_entries_setMembers he, rfl⟩, .inr hloaded⟩)
  | arrived did key harrives hplain =>
    rcases LiveMap.mem_entries_set he with ⟨e', he', -, hkey⟩ | ⟨-, hkey⟩
    · exact .inr (.inr ⟨⟨e', he', hkey⟩, .inl rfl⟩)
    · exact .inr (.inl (hkey ▸ harrives))
  | admitted did key members harrives hplain =>
    rcases Bool.eq_false_or_eq_true s.loaded with hloaded | hloaded
    · exact .inl (pruned_setMembers (s := { s with
        memberEncryptionKeys := s.memberEncryptionKeys.set did key }) hloaded he)
    rcases LiveMap.mem_entries_set (mem_entries_setMembers he) with
      ⟨e', he', -, hkey⟩ | ⟨-, hkey⟩
    · exact .inr (.inr ⟨⟨e', he', hkey⟩, .inr hloaded⟩)
    · exact .inr (.inl (hkey ▸ harrives hloaded))
  | picked d e' hstage hnext | built d did key hstage | handed d did key hstage
  | finished d hstage hrejects hnext | reported newGeneration excluded =>
    exact .inr (.inr ⟨⟨e, he, rfl⟩, .inl rfl⟩)

theorem Effect.next_recipient {o : ReplicaOp} {did : Did}
    (ho : o ∈ next) (hdid : o.recipient = some did) :
    (∃ e ∈ s.memberEncryptionKeys.entries, e.key = did ∧ s' = s) ∨ op.recipient = some did := by
  have hno : o.Plain → False := by
    intro hplain
    cases hplain.recipient.symm.trans hdid
  cases h with
  | quiet hmembers hkeys hsent hreports hcalls hplain | forgot did' hplain
  | wrote members hplain | arrived did' key harrives hplain
  | admitted did' key members harrives hplain => exact (hno (hplain o ho)).elim
  | picked d e hstage hnext =>
    rw [mem_singleton] at ho
    subst ho
    exact .inl ⟨e, LiveMap.mem_of_next hnext, Option.some.inj hdid, rfl⟩
  | built d did' key hstage =>
    rw [mem_singleton] at ho
    subst ho
    obtain ⟨newGeneration, excludeDid, position, stage, after⟩ := d
    cases hstage
    exact .inr hdid
  | handed d did' key hstage =>
    rw [mem_singleton] at ho
    subst ho
    cases hdid
  | finished d hstage hrejects hnext =>
    rcases mem_afterDistribution ho with rfl | hplain
    · cases hdid
    · exact (hno hplain).elim
  | reported newGeneration excluded => cases ho

theorem Effect.sent_cases {m : SentRotation} (hm : m ∈ s'.sent) :
    m ∈ s.sent ∨ (op.recipient = some m.recipient ∧ m.status = s.status m.recipient) := by
  cases h with
  | quiet hmembers hkeys hsent hreports hcalls hplain => exact .inl (hsent ▸ hm)
  | forgot did hplain | arrived did key harrives hplain | picked d e hstage hnext
  | built d did key hstage | finished d hstage hrejects hnext | reported newGeneration excluded =>
    exact .inl hm
  | wrote members hplain | admitted did key members harrives hplain =>
    exact .inl (by simpa using hm)
  | handed d did key hstage =>
    rcases mem_append.mp hm with hm | hm
    · exact .inl hm
    rw [mem_singleton] at hm
    subst hm
    obtain ⟨newGeneration, excludeDid, position, stage, after⟩ := d
    cases hstage
    exact .inr ⟨rfl, rfl⟩

end

section

variable (hinv : RecipientInv s)
include hinv

theorem RecipientInv.run {k : Nat}
    (hobserved : Observed cfg s (.run k env)) (h : s.run cfg env k = some s') :
    RecipientInv s' := by
  obtain ⟨op, rest, s₁, next, hcall, heffect, hmembers, hkeys, hsent, -, hwaits⟩ := run_effect h
  have hstatus : ∀ did, s'.status did = s₁.status did := by
    intro did
    rw [status, status, events, events, hmembers]
  have hafter : ∀ did, statusAfter cfg s (.run k env) did = s'.status did := by
    intro did
    simp [statusAfter, step, h]
  have harrives : arrives cfg s (.run k env) = keyArrives cfg s env op := by
    simp [arrives, hcall]
  obtain ⟨hobs, hexposed⟩ := hobserved
  simp only [hafter, harrives] at hobs hexposed
  have hop : Waits s op := ⟨_, mem_of_getElem? hcall, mem_cons_self⟩
  have hwaiting : ∀ o did, Waits s o → o.recipient = some did → s'.status did ≠ some .removed := by
    intro o did ho hdid
    exact hexposed did (mem_append_left _ (mem_recipients ho hdid))
  refine ⟨?_, ?_, ?_⟩
  · intro e he
    rw [hkeys] at he
    rcases heffect.key_cases he with hpruned | harrived | ⟨⟨e', he', hkey⟩, hsame | hloaded⟩
    · rw [hstatus]
      exact hpruned
    · exact hobs e.key harrived
    · rw [hstatus, status, events, hsame, ← hkey]
      exact hinv.keys e' he'
    · -- nobody observes the document: the step has not removed the member
      apply hexposed e.key
      apply mem_append_right
      rw [if_neg (by simp [hloaded])]
      exact mem_map.mpr ⟨e', he', hkey⟩
  · intro o did ho hdid
    rcases hwaits o ho with ho | ho | ho
    · rcases heffect.waits ho with ho | hplain
      · exact hwaiting o did ho hdid
      · cases hplain.recipient.symm.trans hdid
    · rcases heffect.next_recipient ho hdid with ⟨e, he, hkey, hsame⟩ | hdid
      · rw [hstatus, hsame, ← hkey]
        exact hinv.keys e he
      · exact hwaiting op did hop hdid
    · exact hwaiting o did ho hdid
  · intro m hm
    rw [hsent] at hm
    rcases heffect.sent_cases hm with hm | ⟨hdid, hm⟩
    · exact hinv.sent m hm
    · rw [hm]
      exact hinv.waiting op _ hop hdid

theorem RecipientInv.same (hmembers : s'.members = s.members)
    (hkeys : s'.memberEncryptionKeys = s.memberEncryptionKeys) (hsent : s'.sent = s.sent)
    (hwaits : ∀ o, Waits s' o → Waits s o ∨ o.Plain) : RecipientInv s' := by
  have hstatus : ∀ did, s'.status did = s.status did := by
    intro did
    rw [status, status, events, events, hmembers]
  refine ⟨?_, ?_, ?_⟩
  · intro e he
    rw [hstatus]
    exact hinv.keys e (hkeys ▸ he)
  · intro o did ho hdid
    rw [hstatus]
    rcases hwaits o ho with ho | hplain
    · exact hinv.waiting o did ho hdid
    · cases hplain.recipient.symm.trans hdid
  · intro m hm
    exact hinv.sent m (hsent ▸ hm)

theorem RecipientInv.remoteUpdate {entries : List MembersEntry}
    (hobserved : Observed cfg s (.remoteUpdate entries)) :
    RecipientInv (s.remoteUpdate entries) := by
  have hafter : ∀ did, statusAfter cfg s (.remoteUpdate entries) did =
      (s.remoteUpdate entries).status did := fun did => rfl
  have hexposed := hobserved.2
  simp only [hafter] at hexposed
  unfold SpaceReplica.remoteUpdate at hexposed ⊢
  simp only at hexposed ⊢
  split_ifs at hexposed ⊢ with hsame
  · exact hinv
  refine ⟨?_, ?_, ?_⟩
  · intro e he
    rcases Bool.eq_false_or_eq_true s.loaded with hloaded | hloaded
    · exact pruned_setMembers hloaded he
    apply hexposed e.key
    apply mem_append_right
    rw [if_neg (by simp [hloaded])]
    exact mem_map_of_mem (mem_entries_setMembers he)
  · intro o did ho hdid
    rcases ho.of_setMembers with ho | hplain
    · exact hexposed did (mem_append_left _ (mem_recipients ho hdid))
    · cases hplain.recipient.symm.trans hdid
  · intro m hm
    rw [sent_setMembers] at hm
    exact hinv.sent m hm

theorem RecipientInv.restore {members : MembersMap} {adminEntries : List Did} : RecipientInv
    (s.restore members adminEntries) := by
  refine ⟨?_, ?_, hinv.sent⟩
  · intro e he
    exact of_decide_eq_true (LiveMap.mem_entries_keep.mp he).2
  intro o did ho hdid
  rcases ho.spawnIn rfl (by simp [ReplicaOp.Plain]) with ⟨call, hcall, -⟩ | hplain
  · cases hcall
  · cases hplain.recipient.symm.trans hdid

theorem RecipientInv.step {i : ReplicaInput}
    (hobserved : Observed cfg s i) (h : s.step cfg i = some s') : RecipientInv s' := by
  rcases step_cases h with ⟨k, env, rfl, hrun⟩ | ⟨entries, rfl, rfl⟩ | ⟨members, admins, rfl, rfl⟩ |
    ⟨hmembers, hkeys, hsent, -, hwaits⟩
  · exact hinv.run hobserved hrun
  · exact hinv.remoteUpdate hobserved
  · exact hinv.restore
  · exact hinv.same hmembers hkeys hsent hwaits

end

theorem status_created : (created cfg).status cfg.did = some .active := by
  have hevents : (created cfg).events = [⟨cfg.did, .active, 0, none⟩] := by
    simp [events, created, readMembershipEvents, put, has, add, entry, key, Option.filter]
  rw [status, hevents]
  simp [membershipStatus, resolveMembershipWinner, membershipChallenge]

theorem RecipientInv.start (h : Starts cfg s) : RecipientInv s := by
  cases h with
  | created =>
    refine ⟨?_, ?_, by simp [created]⟩
    · intro e he
      rcases LiveMap.mem_entries_set (m := .empty) he with ⟨e', he', -⟩ | ⟨-, hkey⟩
      · cases he'
      rw [hkey]
      rw [status_created]
      simp
    · rintro op did ⟨call, hcall, -⟩
      cases hcall
  | joined members adminEntries createdBy senderDid generation =>
    refine ⟨by simp [joined], ?_, by simp [joined]⟩
    rintro op did ⟨call, hcall, -⟩
    cases hcall

end

/-! ## 3. Rotations and removed members -/

/-- **A removed member gets no further key**, in every run in which no key of a removed
    member arrives unobserved and nobody is removed while a message to it is being built. -/
theorem rotations_spare_removed {cfg : ReplicaConfig} {s₀ s : SpaceReplica}
    (hstart : Starts cfg s₀) (h : Machine.Reaches (step cfg) (Observed cfg) s₀ s) :
    ∀ m ∈ s.sent, m.status ≠ some .removed := by
  have hinv : RecipientInv s :=
    h.invariant (.start hstart) fun _ _ _ hinv hobserved hs => hinv.step hobserved hs
  exact hinv.sent

/-- Nothing is refused, every key is found, and a removal reaches the given generation. -/
def smoothly (newGeneration : Nat) : ReplicaEnv where
  rejects := false
  resolved := some [0]
  removal := .enforced newGeneration
  selfPending := false
  ownRemovalConfirmed := false

/-- Call `k` goes on for `n` pieces. -/
def runs (k n newGeneration : Nat) : List ReplicaInput :=
  replicate n (.run k (smoothly newGeneration))

def alice : ReplicaConfig := ⟨"did:alice", [1], true, ["wss://broker"]⟩

def bob : ReplicaConfig := ⟨"did:bob", [2], true, ["wss://broker"]⟩

/-- Four members, of whom the first two are admins, and `did:erin`, who has left. -/
def bobJoined : SpaceReplica :=
  joined bob ((["did:alice", "did:bob", "did:carol", "did:dave", "did:erin"].map fun did =>
      entry ⟨did, .active, 0, none⟩).foldl put (empty.put (entry ⟨"did:erin", .removed, 1, none⟩)))
    ["did:alice", "did:bob"] (some "did:alice") "did:alice" 0

/-- `alice` invites `did:bob` and removes it again. -/
def inviteAndRemove : List ReplicaInput :=
  .addMember "did:bob" [2] false :: runs 0 8 0 ++ .removeMember "did:bob" false :: runs 2 23 1

/-- The creator knows the keys of all members: its rotation goes to its own other devices. -/
theorem rotations_spare_removed_creator : ∃ s,
    Machine.Reaches (step alice) (Observed alice) (created alice) s ∧
      (∃ m ∈ s.sent, m.recipient = "did:alice" ∧ m.newGeneration = 1) ∧
        ∀ m ∈ s.sent, m.status ≠ some .removed := by
  obtain ⟨s, hreach, htest⟩ := Machine.Reaches.of_exec (step alice) (Observed alice)
    (created alice) inviteAndRemove
    (fun s => s.sent.any fun m => decide (m.recipient = "did:alice" ∧ m.newGeneration = 1))
    (by decide +kernel)
  simp only [any_eq_true, decide_eq_true_eq] at htest
  exact ⟨s, hreach, htest, rotations_spare_removed .created hreach⟩

/-- `bob` removes `did:carol`. -/
def removeCarol : List ReplicaInput := .removeMember "did:carol" false :: runs 0 28 1

/-- Then `bob` invites `did:erin` again. -/
def removeAndReinvite : List ReplicaInput :=
  removeCarol ++ .addMember "did:erin" [3] false :: runs 2 17 0

/-- **The farewell gives the key back.**  An invited admin has no key of `did:carol`, looks
    it up to tell it about its removal, and keeps it.  The rotation before the next
    re-invite, which no change of the document precedes, goes to `did:carol`. -/
theorem farewell_rekeys_removed : ∃ s₀ s, Starts bob s₀ ∧
    Machine.Reaches (step bob) (fun _ _ => True) s₀ s ∧
      ∃ m ∈ s.sent, m.recipient = "did:carol" ∧ m.newGeneration = 2 ∧ m.status = some .removed := by
  obtain ⟨s, hreach, htest⟩ := Machine.Reaches.of_exec (step bob) (fun _ _ => True) bobJoined
    removeAndReinvite
    (fun s => s.sent.any fun m =>
      decide (m.recipient = "did:carol" ∧ m.newGeneration = 2 ∧ m.status = some .removed))
    (by decide +kernel)
  simp only [any_eq_true, decide_eq_true_eq] at htest
  exact ⟨bobJoined, s, .joined .., hreach, htest⟩

end SpaceReplica

end WebOfTrust
