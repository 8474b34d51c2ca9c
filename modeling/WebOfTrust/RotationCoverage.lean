/-
  **Who a rotation reaches**: the members that the map of encryption keys knows.

  A device fills the map by inviting members itself.  One that was invited, or restores the
  space from the metadata of its creation, starts with an empty map; its rotations reach
  nobody, and nothing says so (`invited_admin_reaches_nobody`).  Where the map holds every
  member at the end of a distribution, every member has got the key, although the map
  changes while it is iterated (`rotations_reach_members`).
-/
import WebOfTrust.RotationRecipients

namespace WebOfTrust

open LiveMap ReplicaOp List

namespace SpaceReplica

/-! ## 1. Members and reports -/

section

-- The DIDs whose encryption key the DID resolver can supply.
variable (cfg : ReplicaConfig) (supplies : Did → Bool)

/-- A member that has to get the key: the own identity, for its other devices, and whoever
    has an encryption key. -/
def Entitled (did : Did) : Prop := did = cfg.did ∨ supplies did = true

instance (did : Did) : Decidable (Entitled cfg supplies did) :=
  inferInstanceAs (Decidable (_ ∨ _))

/-- The rotation was handed out for every member of its moment but the one it removes. -/
def ReachesMembers (r : RotationReport) : Prop :=
  ∀ did ∈ r.activeMembers, Entitled cfg supplies did → some did ≠ r.excluded → did ∈ r.sentTo

variable (s : SpaceReplica)

def ending : ReplicaInput → Option Distribution
  | .run k env =>
    match s.calls[k]? with
    | some (.distribute d :: _) =>
      if d.stage = .next ∧ env.rejects = false ∧ (s.memberEncryptionKeys.next d.position
            fun did => decide (d.excludeDid ≠ some did)) = none then some d
      else none
    | _ => none
  | _ => none

/-- The rotations that are distributed and not yet complete, by the member they remove.  A
    restart loses them. -/
def finishing : ReplicaInput → List (Option Did)
  | .restart _ _ => []
  | _ =>
    s.calls.flatten.filterMap fun
      | .completed _ excluded => some excluded
      | _ => none

def membersAfter (i : ReplicaInput) : List Did :=
  (s.step cfg i).elim [] (·.activeMembers)

/-- The map holds every member when a distribution ends, and nobody becomes a member between
    that and the end of the rotation. -/
def KnowsMembers (i : ReplicaInput) : Prop :=
  (∀ d ∈ s.ending i, ∀ did ∈ s.activeMembers, Entitled cfg supplies did →
    some did ≠ d.after.excluded → s.memberEncryptionKeys.has did = true) ∧
  ∀ excluded ∈ s.finishing i, ∀ did ∈ s.membersAfter cfg i, Entitled cfg supplies did →
    some did ≠ excluded → did ∈ s.activeMembers

instance (s : SpaceReplica) (i : ReplicaInput) : Decidable (KnowsMembers cfg supplies s i) :=
  inferInstanceAs (Decidable (_ ∧ _))

end

/-! ## 2. The invariant -/

def Handed (s : SpaceReplica) (did : Did) (newGeneration : Nat) : Prop :=
  ∃ m ∈ s.sent, m.recipient = did ∧ m.newGeneration = newGeneration

/-- What is true of a distribution under way: the entries before its position are served,
    but for the one it is at work on. -/
structure Underway (s : SpaceReplica) (d : Distribution) : Prop where
  position : d.position ≤ s.memberEncryptionKeys.fresh
  excludes : d.excludeDid = none ∨ d.excludeDid = d.after.excluded
  served : ∀ e ∈ s.memberEncryptionKeys.entries, e.position < d.position →
    d.excludeDid ≠ some e.key →
      Handed s e.key d.newGeneration ∨ (ReplicaOp.distribute d).recipient = some e.key

structure CoverageInv (cfg : ReplicaConfig) (supplies : Did → Bool) (s : SpaceReplica) : Prop where
  underway : ∀ d, Waits s (.distribute d) → Underway s d
  distributed : ∀ newGeneration excluded, Waits s (.completed newGeneration excluded) →
    ∀ did ∈ s.activeMembers, Entitled cfg supplies did → some did ≠ excluded →
      Handed s did newGeneration
  reports : ∀ r ∈ s.reports, ReachesMembers cfg supplies r

section

variable {cfg : ReplicaConfig} {supplies : Did → Bool} {s s' : SpaceReplica} {env : ReplicaEnv}
  {op : ReplicaOp} {next : List ReplicaOp} {d : Distribution} {newGeneration : Nat}
  {excluded : Option Did}

theorem Underway.of_unstarted (h : d.Unstarted) : Underway s d := by
  obtain ⟨-, hposition, hexcludes⟩ := h
  refine ⟨by omega, hexcludes, ?_⟩
  intro e he hlt
  omega

section

variable (h : Effect cfg s env op s' next)
include h

theorem Effect.entry_cases : s.memberEncryptionKeys.fresh ≤ s'.memberEncryptionKeys.fresh ∧
      ∀ e ∈ s'.memberEncryptionKeys.entries,
        (∃ e' ∈ s.memberEncryptionKeys.entries, e'.position = e.position ∧ e'.key = e.key) ∨
          s.memberEncryptionKeys.fresh ≤ e.position := by
  have hset : ∀ {m : LiveMap Did EncryptionKey} {did : Did} {key : EncryptionKey},
      ∀ e ∈ (m.set did key).entries,
        (∃ e' ∈ m.entries, e'.position = e.position ∧ e'.key = e.key) ∨ m.fresh ≤ e.position := by
    intro m did key e he
    exact (mem_entries_set he).imp_right fun h => h.1.ge
  cases h with
  | quiet hmembers hkeys hsent hreports hcalls hplain =>
    rw [hkeys]
    exact ⟨Nat.le_refl _, fun e he => .inl ⟨e, he, rfl, rfl⟩⟩
  | forgot did hplain =>
    exact ⟨Nat.le_refl _, fun e he => .inl ⟨e, (mem_entries_delete.mp he).1, rfl, rfl⟩⟩
  | wrote members hplain =>
    rw [fresh_setMembers]
    exact ⟨Nat.le_refl _, fun e he => .inl ⟨e, mem_entries_setMembers he, rfl, rfl⟩⟩
  | arrived did key harrives hplain => exact ⟨fresh_le_set .., hset⟩
  | admitted did key members harrives hplain =>
    rw [fresh_setMembers]
    exact ⟨fresh_le_set .., fun e he => hset e (mem_entries_setMembers he)⟩
  | picked d e hstage hnext | built d did key hstage | handed d did key hstage
  | finished d hstage hrejects hnext | reported newGeneration excluded =>
    exact ⟨Nat.le_refl _, fun e he => .inl ⟨e, he, rfl, rfl⟩⟩

theorem Effect.handed_mono {did : Did}
    (hhanded : Handed s did newGeneration) : Handed s' did newGeneration := by
  obtain ⟨m, hm, hdid, hgen⟩ := hhanded
  refine ⟨m, ?_, hdid, hgen⟩
  cases h with
  | quiet hmembers hkeys hsent hreports hcalls hplain => exact hsent ▸ hm
  | wrote members hplain | admitted did key members harrives hplain =>
    rw [sent_setMembers]
    exact hm
  | handed d did key hstage => exact mem_append_left _ hm
  | _ => exact hm

omit h in
theorem Underway.mono (hunder : Underway s d) (h : Effect cfg s env op s' next) :
    Underway s' d := by
  obtain ⟨hfresh, hentries⟩ := h.entry_cases
  refine ⟨Nat.le_trans hunder.position hfresh, hunder.excludes, ?_⟩
  intro e he hlt hexcluded
  rcases hentries e he with ⟨e', he', hposition, hkey⟩ | hnew
  · rw [← hkey] at hexcluded ⊢
    exact (hunder.served e' he' (hposition ▸ hlt) hexcluded).imp_left h.handed_mono
  -- the new entry stands behind the position
  have hle := hunder.position
  omega

theorem Effect.underway_next
    (hunder : ∀ d, op = .distribute d → Underway s d) (ho : .distribute d ∈ next) :
    Underway s' d := by
  cases h with
  | quiet hmembers hkeys hsent hreports hcalls hplain | forgot did hplain | wrote members hplain
  | arrived did key harrives hplain | admitted did key members harrives hplain =>
    exact .of_unstarted (hplain _ ho)
  | picked d' e hstage hnext =>
    rw [mem_singleton, distribute.injEq] at ho
    subst ho
    have hold := hunder d' rfl
    refine ⟨s.memberEncryptionKeys.position_lt e (mem_of_next hnext), hold.excludes, ?_⟩
    intro e' he' hlt hexcluded
    rcases visited_of_next hnext he' (by simpa using hexcluded) (Nat.lt_succ_iff.mp hlt)
      with hbefore | rfl
    · rcases hold.served e' he' hbefore hexcluded with hhanded | hrecipient
      · exact .inl hhanded
      obtain ⟨newGeneration, excludeDid, position, stage, after⟩ := d'
      cases hstage
      cases hrecipient
    · exact .inr rfl
  | built d' did key hstage =>
    rw [mem_singleton, distribute.injEq] at ho
    subst ho
    have hold := hunder d' rfl
    refine ⟨hold.position, hold.excludes, ?_⟩
    intro e he hlt hexcluded
    rcases hold.served e he hlt hexcluded with hhanded | hrecipient
    · exact .inl hhanded
    obtain ⟨newGeneration, excludeDid, position, stage, after⟩ := d'
    cases hstage
    exact .inr hrecipient
  | handed d' did key hstage =>
    rw [mem_singleton, distribute.injEq] at ho
    subst ho
    have hold := hunder d' rfl
    refine ⟨hold.position, hold.excludes, ?_⟩
    intro e he hlt hexcluded
    left
    rcases hold.served e he hlt hexcluded with ⟨m, hm, hdid, hgen⟩ | hrecipient
    · exact ⟨m, mem_append_left _ hm, hdid, hgen⟩
    obtain ⟨newGeneration, excludeDid, position, stage, after⟩ := d'
    cases hstage
    cases hrecipient
    exact ⟨_, mem_append_right _ (mem_singleton_self _), rfl, rfl⟩
  | finished d' hstage hrejects hnext =>
    rcases mem_afterDistribution ho with heq | hplain
    · cases heq
    · exact .of_unstarted hplain
  | reported newGeneration excluded => cases ho

theorem Effect.completed_next (ho : .completed newGeneration excluded ∈ next) :
    ∃ d, op = .distribute d ∧ d.stage = .next ∧ env.rejects = false ∧
      s.memberEncryptionKeys.next d.position (fun did => decide (d.excludeDid ≠ some did)) = none ∧
      s' = s ∧ newGeneration = d.newGeneration ∧ excluded = d.after.excluded := by
  cases h with
  | quiet hmembers hkeys hsent hreports hcalls hplain | forgot did hplain | wrote members hplain
  | arrived did key harrives hplain | admitted did key members harrives hplain =>
    exact (hplain _ ho).elim
  | picked d e hstage hnext | built d did key hstage | handed d did key hstage =>
    cases mem_singleton.mp ho
  | finished d hstage hrejects hnext =>
    rcases mem_afterDistribution ho with heq | hplain
    · cases heq
      exact ⟨d, rfl, hstage, hrejects, hnext, rfl, rfl, rfl⟩
    · exact hplain.elim
  | reported newGeneration excluded => cases ho

end

theorem Underway.ended (hunder : Underway s d) (hstage : d.stage = .next)
    (hnext : s.memberEncryptionKeys.next d.position
      (fun did => decide (d.excludeDid ≠ some did)) = none) {did : Did}
    (hhas : s.memberEncryptionKeys.has did = true) (hexcluded : some did ≠ d.after.excluded) :
    Handed s did d.newGeneration := by
  obtain ⟨e, he, rfl⟩ := has_iff.mp hhas
  have hnot : d.excludeDid ≠ some e.key := by
    rcases hunder.excludes with hnone | hafter
    · simp [hnone]
    · rw [hafter]
      exact hexcluded.symm
  have hlt := lt_of_next_none hnext he (by simpa using hnot)
  rcases hunder.served e he hlt hnot with hhanded | hrecipient
  · exact hhanded
  obtain ⟨newGeneration, excludeDid, position, stage, after⟩ := d
  cases hstage
  cases hrecipient

theorem mem_finishing {i : ReplicaInput} (h : Waits s (.completed newGeneration excluded))
    (hi : ∀ members admins, i ≠ .restart members admins) : excluded ∈ s.finishing i := by
  obtain ⟨call, hcall, hin⟩ := h
  have hmem : excluded ∈ s.calls.flatten.filterMap fun
      | .completed _ excluded => some excluded
      | _ => none :=
    mem_filterMap.mpr ⟨_, mem_flatten.mpr ⟨call, hcall, hin⟩, rfl⟩
  cases i with
  | restart members admins => exact absurd rfl (hi members admins)
  | _ => exact hmem

theorem reachesMembers_report
    (h : ∀ did ∈ s.activeMembers, Entitled cfg supplies did → some did ≠ excluded →
      Handed s did newGeneration) :
    ReachesMembers cfg supplies (s.report newGeneration excluded) := by
  intro did hactive hentitled hexcluded
  obtain ⟨m, hm, hdid, hgen⟩ := h did hactive hentitled hexcluded
  exact mem_map.mpr ⟨m, mem_filter.mpr ⟨hm, by simpa using hgen⟩, hdid⟩

theorem Effect.reports_next (h : Effect cfg s env op s' next) (hinv : CoverageInv cfg supplies s)
    (hop : Waits s op) : ∀ r ∈ s'.reports, ReachesMembers cfg supplies r := by
  cases h with
  | quiet hmembers hkeys hsent hreports hcalls hplain =>
    rw [hreports]
    exact hinv.reports
  | wrote members hplain | admitted did key members harrives hplain =>
    rw [reports_setMembers]
    exact hinv.reports
  | reported newGeneration excluded =>
    intro r hr
    rcases mem_append.mp hr with hr | hr
    · exact hinv.reports r hr
    rw [mem_singleton] at hr
    subst hr
    exact reachesMembers_report (hinv.distributed newGeneration excluded hop)
  | _ => exact hinv.reports

section

variable (hinv : CoverageInv cfg supplies s)
include hinv

theorem CoverageInv.run {k : Nat}
    (hknows : KnowsMembers cfg supplies s (.run k env)) (h : s.run cfg env k = some s') :
    CoverageInv cfg supplies s' := by
  obtain ⟨op, rest, s₁, next, hcall, heffect, hmembers, hkeys, hsent, hreports, hwaits⟩ :=
    run_effect h
  have hop : Waits s op := ⟨_, mem_of_getElem? hcall, mem_cons_self⟩
  have hafter : s.membersAfter cfg (.run k env) = s'.activeMembers := by
    simp [membersAfter, step, h]
  have hunderway : ∀ d, Underway s₁ d → Underway s' d := by
    intro d hd
    refine ⟨hkeys ▸ hd.position, hd.excludes, ?_⟩
    intro e he hlt hexcluded
    rw [hkeys] at he
    refine (hd.served e he hlt hexcluded).imp_left ?_
    rintro ⟨m, hm, hrecipient⟩
    exact ⟨m, hsent ▸ hm, hrecipient⟩
  have hmono : ∀ did newGeneration, Handed s did newGeneration → Handed s' did newGeneration := by
    intro did newGeneration hhanded
    obtain ⟨m, hm, hrecipient⟩ := heffect.handed_mono hhanded
    exact ⟨m, hsent ▸ hm, hrecipient⟩
  -- who is a member after the step was one before, as long as a rotation is being finished
  have hdistributed : ∀ newGeneration excluded, Waits s (.completed newGeneration excluded) →
      ∀ did ∈ s'.activeMembers, Entitled cfg supplies did → some did ≠ excluded →
        Handed s' did newGeneration := by
    intro newGeneration excluded hwaiting did hactive hentitled hexcluded
    have hbefore := hknows.2 excluded (mem_finishing hwaiting (by simp)) did (hafter ▸ hactive)
      hentitled hexcluded
    exact hmono did newGeneration
      (hinv.distributed newGeneration excluded hwaiting did hbefore hentitled hexcluded)
  refine ⟨?_, ?_, ?_⟩
  · intro d hd
    apply hunderway
    rcases hwaits _ hd with hd | hd | hd
    · rcases heffect.waits hd with hd | hplain
      · exact (hinv.underway d hd).mono heffect
      · exact .of_unstarted hplain
    · refine heffect.underway_next ?_ hd
      rintro d' rfl
      exact hinv.underway d' hop
    · exact (hinv.underway d hd).mono heffect
  · intro newGeneration excluded hwaiting
    rcases hwaits _ hwaiting with hwaiting | hnext | hwaiting
    · rcases heffect.waits hwaiting with hwaiting | hplain
      · exact hdistributed newGeneration excluded hwaiting
      · exact hplain.elim
    · -- the piece is the end of a distribution
      obtain ⟨d, rfl, hstage, hrejects, hnone, hs₁, hgen, hexcl⟩ := heffect.completed_next hnext
      intro did hactive hentitled hexcluded
      rw [hgen]
      rw [hexcl] at hexcluded
      have hending : s.ending (.run k env) = some d := by
        simp only [ending, hcall]
        rw [if_pos ⟨hstage, hrejects, hnone⟩]
      have hsame : s'.activeMembers = s.activeMembers := by
        rw [activeMembers, activeMembers, events, events, hmembers, hs₁]
      refine hmono did d.newGeneration ((hinv.underway d hop).ended hstage hnone ?_ hexcluded)
      exact hknows.1 d hending did (hsame ▸ hactive) hentitled hexcluded
    · exact hdistributed newGeneration excluded hwaiting
  · rw [hreports]
    exact heffect.reports_next hinv hop

theorem CoverageInv.same (hmembers : s'.members = s.members)
    (hkeys : s'.memberEncryptionKeys = s.memberEncryptionKeys) (hsent : s'.sent = s.sent)
    (hreports : s'.reports = s.reports) (hwaits : ∀ o, Waits s' o → Waits s o ∨ o.Plain) :
    CoverageInv cfg supplies s' := by
  have hhanded : ∀ did newGeneration, Handed s' did newGeneration ↔ Handed s did newGeneration := by
    intro did newGeneration
    rw [Handed, Handed, hsent]
  refine ⟨?_, ?_, ?_⟩
  · intro d hd
    rcases hwaits _ hd with hd | hplain
    · have hold := hinv.underway d hd
      refine ⟨hkeys ▸ hold.position, hold.excludes, ?_⟩
      intro e he hlt hexcluded
      rw [hhanded]
      exact hold.served e (hkeys ▸ he) hlt hexcluded
    · exact .of_unstarted hplain
  · intro newGeneration excluded hwaiting did hactive hentitled hexcluded
    rw [hhanded]
    rw [activeMembers, events, hmembers] at hactive
    rcases hwaits _ hwaiting with hwaiting | hplain
    · exact hinv.distributed newGeneration excluded hwaiting did hactive hentitled hexcluded
    · exact hplain.elim
  · rw [hreports]
    exact hinv.reports

theorem CoverageInv.remoteUpdate {entries : List MembersEntry}
    (hknows : KnowsMembers cfg supplies s (.remoteUpdate entries)) :
    CoverageInv cfg supplies (s.remoteUpdate entries) := by
  have hafter : s.membersAfter cfg (.remoteUpdate entries) =
      (s.remoteUpdate entries).activeMembers := rfl
  have hbefore := hknows.2
  rw [hafter] at hbefore
  unfold SpaceReplica.remoteUpdate at hbefore ⊢
  simp only at hbefore ⊢
  split_ifs at hbefore ⊢ with hsame
  · exact hinv
  refine ⟨?_, ?_, ?_⟩
  · intro d hd
    rcases hd.of_setMembers with hd | hplain
    · have hold := hinv.underway d hd
      refine ⟨by rw [fresh_setMembers]; exact hold.position, hold.excludes, ?_⟩
      intro e he hlt hexcluded
      rw [Handed, sent_setMembers]
      exact hold.served e (mem_entries_setMembers he) hlt hexcluded
    · exact .of_unstarted hplain
  · intro newGeneration excluded hwaiting did hactive hentitled hexcluded
    rw [Handed, sent_setMembers]
    rcases hwaiting.of_setMembers with hwaiting | hplain
    · exact hinv.distributed newGeneration excluded hwaiting did
        (hbefore excluded (mem_finishing hwaiting (by simp)) did hactive hentitled hexcluded)
        hentitled hexcluded
    · exact hplain.elim
  · rw [reports_setMembers]
    exact hinv.reports

theorem CoverageInv.restore {members : MembersMap} {adminEntries : List Did} :
    CoverageInv cfg supplies (s.restore members adminEntries) := by
  have hplain : ∀ o, Waits (s.restore members adminEntries) o → o.Plain := by
    intro o ho
    rcases ho.spawnIn rfl (by simp [Plain]) with ⟨call, hcall, -⟩ | hplain
    · cases hcall
    · exact hplain
  refine ⟨?_, ?_, hinv.reports⟩
  · intro d hd
    exact .of_unstarted (hplain _ hd)
  · intro newGeneration excluded hwaiting
    exact (hplain _ hwaiting).elim

theorem CoverageInv.step {i : ReplicaInput}
    (hknows : KnowsMembers cfg supplies s i) (h : s.step cfg i = some s') :
    CoverageInv cfg supplies s' := by
  rcases step_cases h with ⟨k, env, rfl, hrun⟩ | ⟨entries, rfl, rfl⟩ | ⟨members, admins, rfl, rfl⟩ |
    ⟨hmembers, hkeys, hsent, hreports, hwaits⟩
  · exact hinv.run hknows hrun
  · exact hinv.remoteUpdate hknows
  · exact hinv.restore
  · exact hinv.same hmembers hkeys hsent hreports hwaits

end

theorem CoverageInv.start (h : Starts cfg s) : CoverageInv cfg supplies s := by
  have hcalls : s.calls = [] := by cases h <;> rfl
  have hreports : s.reports = [] := by cases h <;> rfl
  have hnone : ∀ o, ¬ Waits s o := by
    rintro o ⟨call, hcall, -⟩
    rw [hcalls] at hcall
    cases hcall
  refine ⟨fun d hd => (hnone _ hd).elim, fun _ _ hwaiting => (hnone _ hwaiting).elim, ?_⟩
  simp [hreports]

end

/-! ## 3. Rotations and members -/

/-- **Every member gets the new key**, in every run in which the map knows the members when
    a distribution ends, and nobody joins before the rotation is complete. -/
theorem rotations_reach_members {cfg : ReplicaConfig} {supplies : Did → Bool}
    {s₀ s : SpaceReplica} (hstart : Starts cfg s₀)
    (h : Machine.Reaches (step cfg) (KnowsMembers cfg supplies) s₀ s) :
    ∀ r ∈ s.reports, ReachesMembers cfg supplies r := by
  have hinv : CoverageInv cfg supplies s :=
    h.invariant (.start hstart) fun _ _ _ hinv hknows hs => hinv.step hknows hs
  exact hinv.reports

/-- The creator invites two members and removes one: the rotation reaches the other, and its own
    devices. -/
theorem rotations_reach_members_creator : ∃ s,
    Machine.Reaches (step alice) (KnowsMembers alice fun _ => true) (created alice) s ∧
      (∃ r ∈ s.reports, r.newGeneration = 1 ∧ r.sentTo = ["did:alice", "did:dave"]) ∧
        ∀ r ∈ s.reports, ReachesMembers alice (fun _ => true) r := by
  obtain ⟨s, hreach, htest⟩ := Machine.Reaches.of_exec (step alice)
    (KnowsMembers alice fun _ => true) (created alice)
    (.addMember "did:bob" [2] false :: runs 0 8 0 ++ .addMember "did:dave" [3] false ::
      runs 2 8 0 ++ .removeMember "did:bob" false :: runs 4 29 1)
    (fun s => s.reports.any fun r =>
      decide (r.newGeneration = 1 ∧ r.sentTo = ["did:alice", "did:dave"]))
    (by decide +kernel)
  simp only [any_eq_true, decide_eq_true_eq] at htest
  exact ⟨s, hreach, htest, rotations_reach_members .created hreach⟩

/-- **An invited admin reaches nobody.**  `bob` removes `did:carol`; the rotation is complete
    and `did:alice`, `did:dave` and the own other devices have got no key. -/
theorem invited_admin_reaches_nobody : ∃ s₀ s, Starts bob s₀ ∧
    Machine.Reaches (step bob) (fun _ _ => True) s₀ s ∧
      ∃ r ∈ s.reports, r.newGeneration = 1 ∧ r.excluded = some "did:carol" ∧
        r.activeMembers = ["did:alice", "did:bob", "did:dave"] ∧ r.sentTo = [] ∧
          ¬ ReachesMembers bob (fun _ => true) r := by
  obtain ⟨s, hreach, htest⟩ := Machine.Reaches.of_exec (step bob) (fun _ _ => True) bobJoined
    removeCarol
    (fun s => s.reports.any fun r =>
      decide (r = ⟨1, some "did:carol", ["did:alice", "did:bob", "did:dave"], []⟩))
    (by decide +kernel)
  simp only [any_eq_true, decide_eq_true_eq] at htest
  obtain ⟨r, hr, rfl⟩ := htest
  refine ⟨bobJoined, s, .joined .., hreach, _, hr, rfl, rfl, rfl, rfl, ?_⟩
  intro hreaches
  cases hreaches "did:alice" (by simp) (.inr rfl) (by simp)

end SpaceReplica

end WebOfTrust
