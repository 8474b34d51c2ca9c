/-
  **Every driver keeps the records honest.**  One contract for all programs of the
  secure removal: what a driver knows at the point where it is suspended (`Aware`),
  what a step can do to the store (`RemovalEffect`), and that neither is disturbed
  by other drivers.

  A single piece of knowledge is not safe from them: that the durable record still
  carries the staging, between the commit gate and the end of the commit.  It is
  part of the contract only for `exclusive` runs.
-/
import WebOfTrust.SecureRemovalRecords

namespace WebOfTrust

open Async Grows PendingRemoval PendingRemovals List

/-! ## 1. The contract -/

def RemovalPhase.rank : RemovalPhase → Nat
  | .staged => 0
  | .brokerConfirmed => 1
  | .committed => 2
  | .adminRemoved => 3
  | .localCleanup => 4
  | .complete => 5

structure PhaseWrite (copy removal : PendingRemoval) : Prop where
  staging : removal.staging = copy.staging
  phase : copy.phase.rank ≤ removal.phase.rank
  admin : ∀ url ∈ copy.adminRemoveConfirmedBrokerUrls.getD [],
    url ∈ removal.adminRemoveConfirmedBrokerUrls.getD []
  confirmed : (∀ url ∈ removal.homeBrokerSet, url ∈ removal.confirmedBrokerUrls) ∨
    copy.phase.preCommit = false ∧ removal.confirmedBrokerUrls = copy.confirmedBrokerUrls

def Aware (exclusive : Bool) (w : RemovalWorld) : RemovalPoint → Prop
  | .put removal expect => Known w removal ∧ removal.stagingId.isSome = true ∧
      ∀ id, expect = .staging id → removal.stagingId ≠ some id
  | .markBrokerConfirmed removal brokerUrl => Known w removal ∧
      removal.stagingId.isSome = true ∧ (brokerUrl, removal.rotateFrame) ∈ w.accepted
  | .persistPhase copy removal => Known w removal ∧ PhaseWrite copy removal
  | .commit removal _ => Enforced w removal ∧ (exclusive = true → Carries w removal)
  | .delete removal => Known w removal ∧ Removable w removal
  | _ => True

def Written (env : RemovalEnv) (w w' : RemovalWorld) (removal : PendingRemoval)
    (expect : WriteExpectation) : Prop :=
  env.failure = none ∧ matchesStagingExpectation
        (w.removals.getPendingRemoval removal.spaceId removal.removedDid) (some expect) = true ∧
      w'.removals = w.removals.put removal.toStored

def RemovalEffect (env : RemovalEnv) (w w' : RemovalWorld) : RemovalPoint → Prop
  | .put removal expect => w'.removals = w.removals ∨ Written env w w' removal expect
  | .persistPhase _ removal => w'.removals = w.removals ∨
      Written env w w' removal (pendingRemovalWriteExpectation (some removal))
  | .markBrokerConfirmed removal brokerUrl => w'.removals = w.removals ∨
      w'.removals = (w.removals.markBrokerConfirmed removal.spaceId removal.removedDid brokerUrl
        (some removal.binding)).2
  | .delete removal => w'.removals = w.removals ∨ env.failure = none ∧
      w'.removals = (w.removals.deletePendingRemoval removal.spaceId removal.removedDid
        (some (pendingRemovalWriteExpectation (some removal)))).2
  | _ => w'.removals = w.removals

def RemovalRely (exclusive : Bool) (t : RemovalPoint) (w w' : RemovalWorld) : Prop :=
  Grows w w' ∧ ∀ removal step, t = .commit removal step → exclusive = true →
      Carries w removal → Carries w' removal

section

variable (fingerprint : Nat → StagedRemovalKeyMaterial → String) (exclusive : Bool)

def freshStaging (w : RemovalWorld) (env : RemovalEnv) : RemovalPoint → Bool
  | .mint _ => w.minted.all fun m => decide (m.stagingId ≠ some env.randomId)
  | _ => true

def removalContract : Contract RemovalPoint RemovalEnv RemovalWorld where
  inv := RemovalInv fingerprint
  rely := RemovalRely exclusive
  may t env w := freshStaging w env t = true
  guar t env w w' := Grows w w' ∧ Aware exclusive w t ∧ RemovalEffect env w w' t

def ErrorKnown (err : RemovalError) (w : RemovalWorld) : Prop :=
  ∀ spaceId removedDid winner,
    err = .stagingConflict spaceId removedDid (some winner) → Known w winner

/-- A program of the secure removal keeps the contract and ends in `Q`. -/
def Drives {α : Type} (Q : α → RemovalWorld → Prop) (p : RemovalProgram α)
    (w : RemovalWorld) : Prop :=
  Meets (removalContract fingerprint exclusive) (fun a w' => Grows w w' ∧ Q a w')
    (fun err w' => Grows w w' ∧ ErrorKnown err w') p w

end

variable {fingerprint : Nat → StagedRemovalKeyMaterial → String} {exclusive : Bool}
  {α β : Type} {w w' : RemovalWorld} {r s copy removal : PendingRemoval} {t : RemovalPoint}

theorem RemovalRely.star (h : Relation.ReflTransGen (RemovalRely exclusive t) w w') :
    RemovalRely exclusive t w w' := by
  refine relies_of_star (fun w => ⟨refl w, fun _ _ _ _ h => h⟩) ?_ h
  intro w₁ w₂ w₃ h₁ h₂
  refine ⟨h₁.1.trans h₂.1, fun removal step ht hx hc => ?_⟩
  exact h₂.2 removal step ht hx (h₁.2 removal step ht hx hc)

theorem removalEffect_of_eq {env : RemovalEnv} (h : w'.removals = w.removals) :
    RemovalEffect env w w' t := by
  cases t <;> first | exact h | exact .inl h

theorem errorKnown_of_ne {err : RemovalError}
    (h : ∀ spaceId removedDid winner, err ≠ .stagingConflict spaceId removedDid (some winner)) :
    ErrorKnown err w :=
  fun spaceId removedDid winner he => absurd he (h spaceId removedDid winner)

theorem errorKnown_message (text : String) : ErrorKnown (.message text) w :=
  errorKnown_of_ne (by simp)

theorem errorKnown_pending (r : PendingRemoval) : ErrorKnown (.pending r) w :=
  errorKnown_of_ne (by simp [RemovalError.pending])

/-! ## 2. Rules -/

namespace Drives

variable {Q Q' : α → RemovalWorld → Prop} {R : β → RemovalWorld → Prop} {p : RemovalProgram α}

theorem ret {a : α} (h : Q a w) : Drives fingerprint exclusive Q (.ret a) w := ⟨refl w, h⟩

theorem fail {err : RemovalError} (h : ErrorKnown err w) :
    Drives fingerprint exclusive Q (.fail err) w :=
  ⟨refl w, h⟩

theorem message (text : String) : Drives fingerprint exclusive Q (.fail (.message text)) w :=
  fail (errorKnown_message text)

theorem pending (r : PendingRemoval) : Drives fingerprint exclusive Q (.fail (.pending r)) w :=
  fail (errorKnown_pending r)

theorem post (hp : Drives fingerprint exclusive Q p w)
    (h : ∀ a w', Grows w w' → Q a w' → Q' a w') : Drives fingerprint exclusive Q' p w :=
  hp.mono (fun a w' hq => ⟨hq.1, h a w' hq.1 hq.2⟩) fun _ _ he => he

theorem after (hg : Grows w w') (hp : Drives fingerprint exclusive Q p w') :
    Meets (removalContract fingerprint exclusive) (fun a w'' => Grows w w'' ∧ Q a w'')
      (fun err w'' => Grows w w'' ∧ ErrorKnown err w'') p w' :=
  hp.mono (fun _ _ hq => ⟨hg.trans hq.1, hq.2⟩) fun _ _ he => ⟨hg.trans he.1, he.2⟩

theorem bind {f : α → RemovalProgram β} (hp : Drives fingerprint exclusive Q p w)
    (hf : ∀ a w', Grows w w' → Q a w' → Drives fingerprint exclusive R (f a) w') :
    Drives fingerprint exclusive R (p.bind f) w :=
  meets_bind (hp.mono (fun a w' hq => (hf a w' hq.1 hq.2).after hq.1) fun _ _ he => he)

theorem handle {h : RemovalError → RemovalProgram α} (hp : Drives fingerprint exclusive Q p w)
    (hh : ∀ err w', Grows w w' → ErrorKnown err w' → Drives fingerprint exclusive Q (h err) w') :
    Drives fingerprint exclusive Q (p.tryCatch h) w :=
  meets_tryCatch (hp.mono (fun _ _ hq => hq) fun err w' he => (hh err w' he.1 he.2).after he.1)

theorem atomic {f : RemovalEnv → RemovalWorld → Except RemovalError α × RemovalWorld}
    (haware : ∀ w', RemovalRely exclusive t w w' → RemovalInv fingerprint w' → Aware exclusive w' t)
    (h : ∀ env w', RemovalRely exclusive t w w' → RemovalInv fingerprint w' →
      freshStaging w' env t = true → RemovalInv fingerprint (f env w').2 ∧ Grows w' (f env w').2 ∧
          RemovalEffect env w' (f env w').2 t ∧ (∀ a, (f env w').1 = .ok a → Q a (f env w').2) ∧
              ∀ err, (f env w').1 = .error err → ErrorKnown err (f env w').2) :
    Drives fingerprint exclusive Q (Async.atomic t f) w := by
  refine meets_atomic fun w' hrely hinv env hmay => ?_
  have hr := RemovalRely.star hrely
  obtain ⟨hinv', hgrow, heffect, hok, herr⟩ := h env w' hr hinv hmay
  have hg := hr.1.trans hgrow
  exact ⟨hinv', ⟨hgrow, haware w' hr hinv, heffect⟩, fun a ha => ⟨hg, hok a ha⟩,
    fun err he => ⟨hg, herr err he⟩⟩

theorem attempt {f : RemovalEnv → RemovalWorld → α × RemovalWorld}
    (haware : ∀ w', RemovalRely exclusive t w w' → RemovalInv fingerprint w' → Aware exclusive w' t)
    (h : ∀ env w', RemovalRely exclusive t w w' → RemovalInv fingerprint w' →
      freshStaging w' env t = true → env.failure = none →
        RemovalInv fingerprint (f env w').2 ∧ Grows w' (f env w').2 ∧
          RemovalEffect env w' (f env w').2 t ∧ Q (f env w').1 (f env w').2) :
    Drives fingerprint exclusive Q (WebOfTrust.attempt t f) w := by
  refine Drives.atomic haware fun env w' hr hinv hmay => ?_
  cases hfailure : env.failure with
  | some text =>
    refine ⟨hinv, refl w', removalEffect_of_eq rfl, ?_, ?_⟩
    · intro a ha
      cases ha
    intro err he
    cases he
    exact errorKnown_message text
  | none =>
    obtain ⟨hinv', hgrow, heffect, hq⟩ := h env w' hr hinv hmay hfailure
    refine ⟨hinv', hgrow, heffect, ?_, ?_⟩
    · intro a ha
      cases ha
      exact hq
    · intro err he
      cases he

theorem read {g : RemovalEnv → RemovalWorld → α}
    (haware : ∀ w', RemovalRely exclusive t w w' → RemovalInv fingerprint w' → Aware exclusive w' t)
    (h : ∀ env w', RemovalRely exclusive t w w' → RemovalInv fingerprint w' → Q (g env w') w') :
    Drives fingerprint exclusive Q (WebOfTrust.attempt t fun env w => (g env w, w)) w :=
  attempt haware fun env w' hr hinv _ _ =>
    ⟨hinv, refl w', removalEffect_of_eq rfl, h env w' hr hinv⟩

end Drives

def Unaware (t : RemovalPoint) : Prop := ∀ exclusive w, Aware exclusive w t

theorem drives_ask {g : RemovalEnv → RemovalWorld → α} (ht : Unaware t) :
    Drives fingerprint exclusive (fun _ _ => True) (attempt t fun env w => (g env w, w)) w :=
  Drives.read (fun w' _ _ => ht exclusive w') fun _ _ _ _ => trivial

theorem drives_put {expect : WriteExpectation} (heffect : ∀ env w w', RemovalEffect env w w' t ↔
      (w'.removals = w.removals ∨ Written env w w' removal expect))
    (hknown : Known w removal) (haware : ∀ w', Grows w w' → Aware exclusive w' t) :
    Drives fingerprint exclusive (fun _ _ => True) (putPendingRemoval t removal expect) w := by
  refine Drives.atomic (fun w' hr _ => haware w' hr.1) fun env w' hr hinv _ => ?_
  cases hfailure : env.failure with
  | some text =>
    refine ⟨hinv, refl w', removalEffect_of_eq rfl, fun _ _ => trivial, ?_⟩
    intro err he
    cases he
    exact errorKnown_message text
  | none =>
    dsimp only
    cases hput : w'.removals.putPendingRemoval removal (some expect) with
    | ok removals =>
      obtain ⟨hmatch, rfl⟩ := putPendingRemoval_ok hput
      refine ⟨hinv.put (hknown.grow hr.1), store _ _,
        (heffect _ _ _).mpr (.inr ⟨hfailure, hmatch, rfl⟩), fun _ _ => trivial, ?_⟩
      intro err he
      cases he
    | error existing =>
      have hexisting := putPendingRemoval_error hput
      refine ⟨hinv, refl w', removalEffect_of_eq rfl, fun _ _ => trivial, ?_⟩
      intro err he spaceId removedDid winner heq
      cases he
      cases heq
      exact hinv.knownOf hexisting.symm

/-! ## 3. Staging -/

theorem drives_getPendingRemoval (spaceId : DocId) (removedDid : Did) :
    Drives fingerprint exclusive (fun o w' => ∀ r, o = some r → Known w' r)
      (getPendingRemoval spaceId removedDid) w :=
  Drives.read (fun _ _ _ => trivial) fun _ _ _ hinv _ hr => hinv.knownOf hr

structure Fresh (w w' : RemovalWorld) (r : PendingRemoval) : Prop where
  known : Known w' r
  bound : r.stagingId.isSome = true
  new : ∀ s, Known w s → s.stagingId.isSome = true → r.stagingId ≠ s.stagingId

theorem Fresh.since {w₁ w₂ w₃ : RemovalWorld} (h : Fresh w₂ w₃ r) (hg : Grows w₁ w₂) :
    Fresh w₁ w₃ r :=
  ⟨h.known, h.bound, fun s hs => h.new s (hs.grow hg)⟩

structure Mintable (w : RemovalWorld) (r : PendingRemoval) : Prop where
  home : ∀ url ∈ r.confirmedBrokerUrls, url ∈ r.homeBrokerSet
  unconfirmed : r.phase = .staged → r.confirmedBrokerUrls = []
  settled : r.phase ≠ .staged → r.phase.preCommit = false ∧ w.inherited = true

theorem Mintable.known (h : Mintable w r) (id : String) :
    Known { w with minted := w.minted ++ [r.bound fingerprint id] } (r.bound fingerprint id) where
  home := h.home
  minted _ := by
    refine ⟨r.bound fingerprint id, mem_append_right _ (mem_singleton_self _), rfl,
      ?_, ?_, h.settled⟩
    · intro hp url hurl
      have hnil : r.confirmedBrokerUrls = [] := h.unconfirmed hp
      have hmem : url ∈ r.confirmedBrokerUrls := hurl
      rw [hnil] at hmem
      cases hmem
    · intro hp hpost
      rw [hp] at hpost
      cases hpost
  identified hid := by cases hid

theorem drives_mintStaging {record : RemovalEnv → PendingRemoval} {template : PendingRemoval}
    (hmint : ∀ env w', Grows w w' → RemovalInv fingerprint w' → Mintable w' (record env)) :
    Drives fingerprint exclusive (fun r w' => Fresh w w' r)
      (mintStaging fingerprint record template) w := by
  refine Drives.attempt (fun _ _ _ => trivial) fun env w' hr hinv hmay _ => ?_
  have hfresh : ∀ m ∈ w'.minted, m.stagingId ≠ some env.randomId := by
    simpa [freshStaging] using hmay
  have hmintable := hmint env w' hr.1 hinv
  refine ⟨hinv.mint (by simp [isBound, bound]) hfresh,
    mint w' _, removalEffect_of_eq rfl, hmintable.known env.randomId, rfl, ?_⟩
  intro s hs hsome hid
  obtain ⟨m, hm⟩ := (hs.grow hr.1).minted hsome
  exact hfresh m hm.mem ((stagingId_of_staging hm.staging).trans hid.symm)

section

variable (deps : SecureRemovalDeps) (spaceId : DocId) (removedDid : Did)

variable (activityEntry : Option String)

variable (canonical : Bool)

theorem mintable_stagingTemplate (newGeneration : Nat) (env : RemovalEnv) :
    Mintable w { stagingTemplate deps spaceId removedDid activityEntry canonical newGeneration with
        stagedKeyMaterial := env.randomMaterial, createdAt := env.now } where
  home := by intro url hurl; cases hurl
  unconfirmed _ := rfl
  settled h := absurd rfl h

theorem Known.mintable_rebased (h : Known w r) (hinv : RemovalInv fingerprint w)
    (hbound : ¬ r.isBound fingerprint = true) : Mintable w r.rebased := by
  unfold rebased
  split
  · refine ⟨fun url hurl => ?_, fun _ => rfl, fun hne => absurd rfl hne⟩
    cases hurl
  next hpost =>
  have hnone : r.stagingId = none := by
    cases hid : r.stagingId with
    | none => rfl
    | some id => exact absurd (hinv.isBound h (by rw [hid]; rfl)) hbound
  refine ⟨h.home, fun hstaged => ?_, fun _ => ⟨by simpa using hpost, h.identified hnone⟩⟩
  rw [hstaged] at hpost
  exact absurd rfl hpost

theorem drives_stageRemovalCandidate : Drives fingerprint exclusive (fun r w' => Fresh w w' r)
      (stageRemovalCandidate fingerprint deps spaceId removedDid activityEntry canonical) w := by
  refine Drives.bind (drives_ask fun _ _ => trivial) fun current w₁ hg _ => ?_
  split
  · exact Drives.message _
  · exact (drives_mintStaging fun env _ _ _ => mintable_stagingTemplate _ _ _ _ _ _ env).post
      fun r w₂ _ h => h.since hg

theorem aware_put {expect : WriteExpectation} (hfresh : Fresh w w' r)
    (hexpect : ∀ id, expect = .staging id → ∃ s, Known w s ∧ s.stagingId = some id) :
    ∀ w'', Grows w' w'' → Aware exclusive w'' (.put r expect) := by
  intro w'' hg
  refine ⟨hfresh.known.grow hg, hfresh.bound, fun id he => ?_⟩
  obtain ⟨s, hs, hid⟩ := hexpect id he
  exact hid ▸ hfresh.new s hs (by rw [hid]; rfl)

theorem expectation_known (hr : Known w r) (id : String)
    (h : pendingRemovalWriteExpectation (some r) = .staging id) :
    ∃ s, Known w s ∧ s.stagingId = some id := by
  rcases hid : r.stagingId with _ | id'
  · simp only [pendingRemovalWriteExpectation, hid, legacyWriteExpectation] at h
    cases h
  simp only [pendingRemovalWriteExpectation, hid] at h
  cases h
  exact ⟨r, hr, hid⟩

variable (targetGeneration : Option Nat)

theorem drives_stageRemoval
    {replaces : Option PendingRemoval} (hreplaces : ∀ s, replaces = some s → Known w s) :
    Drives fingerprint exclusive (fun r w' => Known w' r)
      (stageRemoval fingerprint deps spaceId removedDid activityEntry canonical targetGeneration
        replaces) w := by
  refine Drives.bind (drives_stageRemovalCandidate deps spaceId removedDid activityEntry canonical)
    fun removal w₁ hg hfresh => ?_
  split
  · exact Drives.message _
  refine Drives.handle (Drives.bind (drives_put (fun _ _ _ => Iff.rfl) hfresh.known
    (aware_put hfresh ?_)) fun _ w₂ hg₂ _ => Drives.ret (hfresh.known.grow hg₂)) ?_
  · intro id he
    cases replaces with
    | none => cases he
    | some s => exact expectation_known (hreplaces s rfl) id he
  intro err w₂ _ herr
  split
  · next winner =>
    have hwinner : Known w₂ winner := herr _ _ winner rfl
    split
    · exact Drives.message _
    split
    · exact Drives.message _
    · exact Drives.ret hwinner
  · exact Drives.fail herr

/-! ## 4. Phase writes and binding -/

theorem drives_persistPhase (hknown : Known w removal) (hwrite : PhaseWrite copy removal) :
    Drives fingerprint exclusive (fun _ _ => True) (persistPhase copy removal) w := by
  refine Drives.handle (drives_put (fun _ _ _ => Iff.rfl) hknown
    fun w' hg => ⟨hknown.grow hg, hwrite⟩) fun err w' _ herr => ?_
  split
  · exact Drives.pending _
  · exact Drives.fail herr

theorem drives_deleteOwnStaging (hr : Known w removal) (hremovable : Removable w removal) :
    Drives fingerprint exclusive (fun _ _ => True) (deleteOwnStaging removal) w := by
  refine Drives.attempt (fun w' hrely _ => ⟨hr.grow hrely.1, hremovable.grow hrely.1⟩)
    fun env w' _ hinv _ hfailure => ?_
  refine ⟨?_, store _ _, .inr ⟨hfailure, rfl⟩, trivial⟩
  rcases deletePendingRemoval_cases w'.removals removal.spaceId
    removal.removedDid (pendingRemovalWriteExpectation (some removal)) with hsame | ⟨-, herase⟩
  · exact hinv.grow hsame rfl (store _ _)
  · simp only [herase]
    exact hinv.erase _

theorem isSome_of_isBound (h : r.isBound fingerprint = true) : r.stagingId.isSome = true := by
  simp only [isBound, Bool.and_eq_true] at h
  exact h.1

section

variable (hr : Known w r)
include hr

theorem drives_bindStagingMaterial :
    Drives fingerprint exclusive (fun s w' => Known w' s ∧ s.stagingId.isSome = true)
      (bindStagingMaterial fingerprint r) w := by
  unfold bindStagingMaterial
  split
  · next hbound =>
    refine Drives.bind (drives_ask fun _ _ => trivial) fun stored w₁ hg _ => ?_
    split
    · exact Drives.pending _
    · exact Drives.ret ⟨hr.grow hg, isSome_of_isBound hbound⟩
  next hunbound =>
  refine Drives.bind (drives_mintStaging fun _ w' hg hinv =>
    (hr.grow hg).mintable_rebased hinv hunbound) fun s w₁ hg hfresh => ?_
  refine Drives.handle (Drives.bind (drives_put (fun _ _ _ => Iff.rfl) hfresh.known
    (aware_put hfresh (expectation_known hr))) fun _ w₂ hg₂ _ =>
      Drives.ret ⟨hfresh.known.grow hg₂, hfresh.bound⟩) fun err w₂ _ herr => ?_
  split
  · next winner =>
    split
    · next hbound =>
      exact Drives.ret ⟨herr _ _ winner rfl, isSome_of_isBound hbound⟩
    · exact Drives.pending _
  · exact Drives.pending _
  · exact Drives.fail herr

/-! ## 5. Broker confirmations -/

omit hr in
theorem drives_sendSpaceRotate (brokerUrl : String) (frame : RotateFrame) :
    Drives fingerprint exclusive (fun _ w' => (brokerUrl, frame) ∈ w'.accepted)
      (sendSpaceRotate brokerUrl frame) w := by
  refine Drives.atomic (fun _ _ _ => trivial) fun env w' _ hinv _ => ?_
  have herror : ∀ {w₁ : RemovalWorld} err, env.reply.outcome = .error err → ErrorKnown err w₁ := by
    intro w₁ err he
    cases hreply : env.reply with
    | receipt => rw [hreply] at he; cases he
    | lost accepted => rw [hreply] at he; cases he; exact errorKnown_message _
    | rejected code generation =>
      rw [hreply] at he
      cases he
      exact errorKnown_of_ne (by simp)
  by_cases haccepted : env.reply.accepted = true
  · rw [if_pos haccepted]
    have hg := install w' brokerUrl frame
    refine ⟨hinv.grow rfl rfl hg, hg, removalEffect_of_eq rfl, fun _ _ => ?_, herror⟩
    exact mem_append_right _ (mem_singleton_self _)
  rw [if_neg haccepted]
  refine ⟨hinv, refl w', removalEffect_of_eq rfl, fun a ha => ?_, herror⟩
  cases hreply : env.reply with
  | receipt => simp [hreply, BrokerReply.accepted] at haccepted
  | lost accepted | rejected code generation => simp [hreply, BrokerReply.outcome] at ha

theorem drives_markBrokerConfirmed (hid : r.stagingId.isSome = true)
    {brokerUrl : String} (haccepted : (brokerUrl, r.rotateFrame) ∈ w.accepted) :
    Drives fingerprint exclusive (fun _ _ => True) (markBrokerConfirmed r brokerUrl) w := by
  refine Drives.attempt (fun w' hrely _ => ⟨hr.grow hrely.1, hid, hrely.1.accepted _ haccepted⟩)
    fun env w' hrely hinv _ _ => ?_
  have hinv' := hinv.markBrokerConfirmed (hr.grow hrely.1) hid (hrely.1.accepted _ haccepted)
  exact ⟨hinv', store _ _, .inr rfl, trivial⟩

theorem drives_handleGenerationGap (currentGeneration : Option Nat) :
    Drives fingerprint exclusive (fun o w' => ∀ s, o = some s → Known w' s)
      (handleGenerationGap fingerprint deps r currentGeneration) w := by
  unfold handleGenerationGap
  split
  · refine Drives.ret fun s hs => ?_
    cases hs
  refine Drives.bind (drives_ask fun _ _ => trivial) fun localGeneration w₁ hg₁ _ => ?_
  split
  · exact Drives.fail (errorKnown_of_ne (by simp))
  refine Drives.bind (Q := fun _ _ => True) ?_ fun complete w₂ hg₂ _ => ?_
  · refine Drives.attempt (fun _ _ _ => trivial) fun env w' _ hinv _ _ => ?_
    have hg := setKeys (SpaceKeys.generation_importKeys (w'.keys r.spaceId) env.importedKeys)
    exact ⟨hinv.grow rfl rfl hg, hg, removalEffect_of_eq rfl, trivial⟩
  split
  · refine Drives.ret fun s hs => ?_
    cases hs
  refine Drives.bind (drives_stageRemovalCandidate deps r.spaceId r.removedDid
    r.activityEntry r.canonicalSelfRemovalRotation) fun restaged w₃ hg₃ hfresh => ?_
  split
  · exact Drives.message _
  refine Drives.bind (drives_put (fun _ _ _ => Iff.rfl) hfresh.known (aware_put hfresh
    (expectation_known (hr.grow (hg₁.trans hg₂))))) fun _ w₄ hg₄ _ => ?_
  refine Drives.ret fun s hs => ?_
  cases hs
  exact hfresh.known.grow hg₄

theorem drives_handleGenerationTaken : Drives fingerprint exclusive (fun _ _ => True)
      (handleGenerationTaken fingerprint deps r) w := by
  refine Drives.bind (Q := fun current w' => current = (w'.keys r.spaceId).generation)
    (Drives.read (fun _ _ _ => trivial) fun _ _ _ _ => rfl) fun current w₁ hg₁ hcurrent => ?_
  split
  · next hcanonical =>
    have hremovable : Removable w₁ r := .inr ⟨hcanonical.1, hcurrent ▸ hcanonical.2⟩
    exact Drives.bind (drives_deleteOwnStaging (hr.grow hg₁) hremovable) fun _ _ _ _ =>
      Drives.ret trivial
  split
  · refine Drives.bind (drives_stageRemoval deps r.spaceId r.removedDid r.activityEntry
      r.canonicalSelfRemovalRotation none fun s hs => ?_) fun _ _ _ _ => Drives.ret trivial
    cases hs
    exact hr.grow hg₁
  · exact Drives.ret trivial

def Accounted (w : RemovalWorld) (r : PendingRemoval) (urls : List String) : Prop :=
  ∀ url ∈ urls, url ∈ r.confirmedBrokerUrls ∨
    url ∈ r.homeBrokerSet ∧ (url, r.rotateFrame) ∈ w.accepted

omit hr in
theorem Accounted.grow {urls : List String} (h : Accounted w r urls) (hg : Grows w w') :
    Accounted w' r urls := by
  intro url hurl
  rcases h url hurl with hold | ⟨hhome, hacc⟩
  · exact .inl hold
  · exact .inr ⟨hhome, hg.accepted _ hacc⟩

def EnforcementKnown (r : PendingRemoval) : Enforcement → RemovalWorld → Prop
  | .confirmed urls, w => Accounted w r urls
  | .restaged s, w => Known w s
  | .superseded, _ => True

theorem drives_handleRotateError {err : RemovalError} (herr : ErrorKnown err w) :
    Drives fingerprint exclusive (fun e w' => EnforcementKnown r e w')
      (handleRotateError fingerprint deps r err) w := by
  unfold handleRotateError
  split
  · exact Drives.fail herr
  · refine Drives.bind (drives_handleGenerationGap deps hr _) fun restaged w₁ _ hrestaged => ?_
    split
    · next s => exact Drives.ret (hrestaged s rfl)
    · exact Drives.pending _
  · refine Drives.bind (drives_handleGenerationTaken deps hr) fun fulfilled w₁ _ _ => ?_
    split
    · exact Drives.ret trivial
    · exact Drives.pending _
  · split
    · exact Drives.fail herr
    · exact Drives.pending _
  · exact Drives.pending _

theorem drives_rotateBroker (hid : r.stagingId.isSome = true) (brokerUrl : String) :
    Drives fingerprint exclusive
      (fun o w' => (o = none → (brokerUrl, r.rotateFrame) ∈ w'.accepted) ∧
        ∀ e, o = some e → EnforcementKnown r e w')
      (Async.tryCatch (do
          sendSpaceRotate brokerUrl r.rotateFrame
          let outcome ← markBrokerConfirmed r brokerUrl
          if outcome = .recorded ∨ outcome = .alreadyConfirmed then pure none
          else throw (.pending r))
        fun err => do
          let ended ← handleRotateError fingerprint deps r err
          pure (some ended)) w := by
  refine Drives.handle ?_ fun err w₁ hg herr => ?_
  · refine Drives.bind (drives_sendSpaceRotate brokerUrl r.rotateFrame) fun _ w₁ hg₁ hacc => ?_
    refine Drives.bind (drives_markBrokerConfirmed (hr.grow hg₁) hid hacc)
      fun outcome w₂ hg₂ _ => ?_
    split
    · refine Drives.ret ⟨fun _ => hg₂.accepted _ hacc, fun e he => ?_⟩
      cases he
    · exact Drives.pending _
  · refine Drives.bind (drives_handleRotateError deps (hr.grow hg) herr) fun ended w₂ _ hended => ?_
    refine Drives.ret ⟨fun hnone => ?_, fun e he => ?_⟩
    · cases hnone
    · cases he
      exact hended

end

/-- **The confirmation loop.**  The induction is on the brokers that are left; every
    broker that was skipped or asked is accounted for. -/
theorem drives_confirmBrokers (hid : r.stagingId.isSome = true) :
    ∀ (brokers confirmed : List String) (w : RemovalWorld), Known w r →
      (∀ url ∈ brokers, url ∈ r.homeBrokerSet) → Accounted w r confirmed →
        Drives fingerprint exclusive (fun e w' => EnforcementKnown r e w')
          (confirmBrokers fingerprint deps r r.rotateFrame brokers confirmed) w := by
  intro brokers
  induction brokers with
  | nil =>
    intro confirmed w _ _ hacc
    exact Drives.ret hacc
  | cons brokerUrl rest ih =>
    intro confirmed w hr hhome hacc
    have hrest : ∀ url ∈ rest, url ∈ r.homeBrokerSet :=
      fun url hurl => hhome url (mem_cons_of_mem _ hurl)
    unfold confirmBrokers
    split
    · exact ih confirmed w hr hrest hacc
    refine Drives.bind (drives_rotateBroker deps hr hid brokerUrl) fun failed w₁ hg hfailed => ?_
    split
    · next ended => exact Drives.ret (hfailed.2 ended rfl)
    refine ih _ w₁ (hr.grow hg) hrest fun url hurl => ?_
    rcases mem_append.mp hurl with hold | hnew
    · exact hacc.grow hg url hold
    · cases mem_singleton.mp hnew
      exact .inr ⟨hhome _ mem_cons_self, hfailed.1 rfl⟩

/-! ## 6. The commit -/

/-- What holds from the commit gate to the end of the commit. -/
structure Committing (exclusive : Bool) (w : RemovalWorld) (r : PendingRemoval) : Prop where
  enforced : Enforced w r
  carries : exclusive = true → Carries w r

variable {step : CommitStep}

theorem Committing.rely (h : Committing exclusive w r)
    (hrely : RemovalRely exclusive (.commit r step) w w') : Committing exclusive w' r where
  enforced := h.enforced.grow hrely.1
  carries hx := hrely.2 r step rfl hx (h.carries hx)

theorem Carries.frame (h : Carries w r) (hremovals : w'.removals = w.removals) : Carries w' r := by
  obtain ⟨s, hs, hid, hstaging⟩ := h
  exact ⟨s, hremovals ▸ hs, hid, hstaging⟩

theorem drives_commitStep
    {f : RemovalEnv → RemovalWorld → α × RemovalWorld} (h : Committing exclusive w r)
    {Q : α → RemovalWorld → Prop}
    (hf : ∀ env w, (f env w).2.removals = w.removals ∧ (f env w).2.minted = w.minted ∧
      Grows w (f env w).2 ∧ Q (f env w).1 (f env w).2) :
    Drives fingerprint exclusive (fun a w' => Committing exclusive w' r ∧ Q a w')
      (attempt (.commit r step) f) w := by
  refine Drives.attempt (fun w' hrely _ => ?_) fun env w' hrely hinv _ _ => ?_
  · exact ⟨(h.rely hrely).enforced, (h.rely hrely).carries⟩
  obtain ⟨hremovals, hminted, hg, hq⟩ := hf env w'
  refine ⟨hinv.grow hremovals hminted hg, hg, removalEffect_of_eq hremovals, ⟨?_, ?_⟩, hq⟩
  · exact (h.rely hrely).enforced.grow hg
  · exact fun hx => ((h.rely hrely).carries hx).frame hremovals

/-- **The commit gate**: the stored record is of the driver's staging, and its
    confirmations are those of the driver's material. -/
theorem drives_assertMaterialConfirmed (hr : Known w r) (hid : r.stagingId.isSome = true)
    (hpre : r.phase.preCommit = true) :
    Drives fingerprint exclusive (fun _ w' => Committing exclusive w' r)
      (assertMaterialConfirmed r) w := by
  refine Drives.bind (Q := fun stored w' => ∀ s, stored = some s →
      s.stagingId = r.stagingId → (∀ url ∈ r.homeBrokerSet, url ∈ s.confirmedBrokerUrls) →
        Committing exclusive w' r) (Drives.read (fun _ _ _ => trivial) ?_)
    fun stored w₁ _ hstored => ?_
  · intro env w' hrely hinv s hs hsid hconf
    have hr' : Known w' r := hr.grow hrely.1
    have hs' : Known w' s := hinv.knownOf hs
    have hstaging : s.staging = r.staging :=
      hinv.staging_unique hs' hr' (hsid ▸ hid) hsid
    obtain ⟨m, hm⟩ := hs'.minted (hsid ▸ hid)
    obtain ⟨m', hm'⟩ := hr'.minted hid
    -- both go back to one identity, which was minted before the commit
    have hmm : m = m' := hinv.mint_unique hm.mem hm'.mem
      ((stagingId_of_staging hm.staging).trans (hsid.trans (stagingId_of_staging hm'.staging).symm))
    have hstaged : m.phase = .staged := by
      by_contra hne
      have hpost := (hm'.settled (hmm ▸ hne)).1
      rw [hpre] at hpost
      cases hpost
    refine ⟨fun url hurl => ?_, fun _ => ⟨s, hs, hsid ▸ hid, hstaging⟩⟩
    have haccepted := hm.confirmed hstaged url (hconf url hurl)
    rwa [rotateFrame_of_staging hstaging] at haccepted
  · split
    · next hbound =>
      obtain ⟨s, hs, hmatch⟩ := (Option.any_eq_true _ _).mp hbound
      simp only [Bool.and_eq_true, decide_eq_true_eq, all_eq_true, contains_iff_mem] at hmatch
      exact Drives.ret (hstored s hs hmatch.1.1.1 hmatch.2)
    · exact Drives.pending _

section

variable (h : Committing exclusive w r)
include h

theorem drives_saveKeys {f : RemovalEnv → SpaceKeys → SpaceKeys}
    (hf : ∀ env k, k.generation ≤ (f env k).generation) :
    Drives fingerprint exclusive (fun _ w' => Committing exclusive w' r) (saveKeys r step f) w :=
  (drives_commitStep (Q := fun _ _ => True) h fun env w =>
    ⟨rfl, rfl, setKeys (hf env (w.keys r.spaceId)), trivial⟩).post fun _ _ _ hq => hq.1

theorem drives_readKeys (f : SpaceKeys → α) :
    Drives fingerprint exclusive (fun _ w' => Committing exclusive w' r) (readKeys r step f) w :=
  (drives_commitStep (Q := fun _ _ => True) h fun _ w =>
    ⟨rfl, rfl, Grows.refl w, trivial⟩).post fun _ _ _ hq => hq.1

theorem drives_provisionCapability :
    Drives fingerprint exclusive (fun _ w' => Committing exclusive w' r)
      (provisionCapabilityForGeneration deps r) w :=
  Drives.bind (drives_saveKeys h fun _ _ => Int.le_refl _) fun _ _ _ h₁ =>
    drives_saveKeys h₁ fun _ _ => Int.le_refl _

theorem drives_commitStagedRotation :
    Drives fingerprint exclusive (fun _ w' => Committing exclusive w' r)
      (commitStagedRotation deps r) w := by
  refine Drives.bind (drives_readKeys h _) fun current w₁ _ h₁ => ?_
  split
  · exact Drives.bind (drives_saveKeys h₁ fun _ k => k.generation_saveKey _ _) fun _ _ _ h₂ =>
      drives_provisionCapability deps h₂
  split
  · refine Drives.bind (drives_readKeys h₁ _) fun storedKey w₂ _ h₂ => ?_
    split
    · exact Drives.message _
    refine Drives.bind (drives_readKeys h₂ _) fun storedCapVk w₃ _ h₃ => ?_
    split
    · exact Drives.message _
    refine Drives.bind (drives_readKeys h₃ _) fun ownCapability w₄ _ h₄ => ?_
    split
    · exact Drives.ret h₄
    · exact drives_provisionCapability deps h₄
  · exact Drives.message _

theorem drives_commitRemoval :
    Drives fingerprint exclusive (fun _ w' => r.commit ∈ w'.commits) (commitRemoval r) w :=
  (drives_commitStep (Q := fun _ w' => r.commit ∈ w'.commits) h fun _ w =>
    ⟨rfl, rfl, commit w _, mem_append_right _ (mem_singleton_self _)⟩).post fun _ _ _ hq => hq.2

end

theorem rank_le_of_preCommit {phase : RemovalPhase} (h : phase.preCommit = true) :
    phase.rank ≤ RemovalPhase.brokerConfirmed.rank := by
  cases phase with
  | staged | brokerConfirmed => decide
  | _ => cases h

theorem drives_commitEnforced (hr : Known w r)
    (hid : r.stagingId.isSome = true) {confirmed : List String} (hacc : Accounted w r confirmed)
    (hall : ∀ url ∈ r.homeBrokerSet, url ∈ confirmed) :
    Drives fingerprint exclusive (fun s w' => Known w' s ∧ s.phase.preCommit = false)
      (commitEnforced deps r confirmed) w := by
  unfold commitEnforced
  split
  · next hpost => exact Drives.ret ⟨hr, by simpa using hpost⟩
  next hpre =>
  have hpre : r.phase.preCommit = true := by simpa using hpre
  let enforced : PendingRemoval :=
    { r with confirmedBrokerUrls := confirmed, phase := .brokerConfirmed }
  have henforced : Known w enforced :=
    hr.change rfl hacc (fun hpost => by rw [hpre] at hpost; cases hpost) fun hpost => by
      cases hpost
  have hwrite : PhaseWrite r enforced := by
    refine ⟨rfl, ?_, fun _ hurl => hurl, .inl hall⟩
    exact rank_le_of_preCommit hpre
  refine Drives.bind (drives_persistPhase henforced hwrite) fun _ w₁ hg₁ _ => ?_
  refine Drives.bind (drives_assertMaterialConfirmed (henforced.grow hg₁) hid rfl)
    fun _ w₂ hg₂ h₂ => ?_
  refine Drives.bind (drives_commitStagedRotation deps h₂) fun _ w₃ hg₃ h₃ => ?_
  refine Drives.bind (drives_commitRemoval h₃) fun _ w₄ hg₄ hcommit => ?_
  let committed : PendingRemoval :=
    { enforced with
      committed := some true
      phase := if r.removedDid = deps.ownerDid then .committed else .localCleanup }
  have hpost : committed.phase.preCommit = false ∧ 1 ≤ committed.phase.rank := by
    show (if r.removedDid = deps.ownerDid then RemovalPhase.committed
      else .localCleanup).preCommit = false ∧ 1 ≤ (if r.removedDid = deps.ownerDid then
        RemovalPhase.committed else .localCleanup).rank
    split <;> decide
  have hcommitted : Known w₄ committed :=
    (henforced.grow (hg₁.trans (hg₂.trans (hg₃.trans hg₄)))).advance rfl rfl hpost.1
      (.inr hcommit)
  have hwrite' : PhaseWrite enforced committed :=
    ⟨rfl, hpost.2, fun _ hurl => hurl, .inl hall⟩
  exact Drives.bind (drives_persistPhase hcommitted hwrite') fun _ w₅ hg₅ _ =>
    Drives.ret ⟨hcommitted.grow hg₅, hpost.1⟩

/-! ## 7. After the commit -/

theorem drives_sendAdminRemove (removal : PendingRemoval) (brokerUrl : String) :
    Drives fingerprint exclusive (fun _ _ => True) (sendAdminRemove removal brokerUrl) w := by
  refine Drives.atomic (fun _ _ _ => trivial) fun env w' _ hinv _ => ?_
  refine ⟨?_, ?_, ?_, fun _ _ => trivial, fun err he => ?_⟩
  · dsimp only
    split
    · exact hinv.grow rfl rfl (of_eq rfl rfl rfl rfl rfl)
    · exact hinv
  · dsimp only
    split
    · exact of_eq rfl rfl rfl rfl rfl
    · exact refl w'
  · dsimp only
    split
    · exact removalEffect_of_eq rfl
    · exact removalEffect_of_eq rfl
  · cases hreply : env.reply with
    | receipt => rw [hreply] at he; cases he
    | lost accepted => rw [hreply] at he; cases he; exact errorKnown_message _
    | rejected code generation =>
      rw [hreply] at he
      cases he
      exact errorKnown_of_ne (by simp)

theorem drives_advancePhase {phase : RemovalPhase} (hr : Known w r)
    (hpost : r.phase.preCommit = false) (hphase : phase.preCommit = false)
    (hle : r.phase.rank ≤ phase.rank) :
    Drives fingerprint exclusive (fun s w' => Known w' s ∧ s.phase = phase)
      (advancePhase r phase) w := by
  have hadvanced : Known w { r with phase := phase } := hr.advance rfl rfl hphase (.inl hpost)
  have hwrite : PhaseWrite r { r with phase := phase } :=
    ⟨rfl, hle, fun _ hurl => hurl, .inr ⟨hpost, rfl⟩⟩
  exact Drives.bind (drives_persistPhase hadvanced hwrite) fun _ w₁ hg _ =>
    Drives.ret ⟨hadvanced.grow hg, rfl⟩

theorem drives_handBackAdmin :
    ∀ (brokers : List String) (r : PendingRemoval) (w : RemovalWorld), Known w r →
      r.phase.preCommit = false →
        Drives fingerprint exclusive (fun s w' => Known w' s ∧ s.phase = r.phase)
          (handBackAdmin r brokers) w := by
  intro brokers
  induction brokers with
  | nil =>
    intro r w hr _
    exact Drives.ret ⟨hr, rfl⟩
  | cons brokerUrl rest ih =>
    intro r w hr hpost
    unfold handBackAdmin
    dsimp only
    split
    · exact ih r w hr hpost
    refine Drives.bind (Q := fun _ _ => True) ?_ fun _ w₁ hg₁ _ => ?_
    · refine Drives.handle (drives_sendAdminRemove r brokerUrl) fun err w₁ _ herr => ?_
      split
      · split
        · exact Drives.fail herr
        · exact Drives.fail (errorKnown_of_ne (by simp))
      · exact Drives.fail (errorKnown_of_ne (by simp))
    · let brokerUrls := r.adminRemoveConfirmedBrokerUrls.getD [] ++ [brokerUrl]
      let confirmed : PendingRemoval :=
        { r with adminRemoveConfirmedBrokerUrls := some brokerUrls }
      have hconfirmed : Known w₁ confirmed := (hr.grow hg₁).advance rfl rfl hpost (.inl hpost)
      have hwrite : PhaseWrite r confirmed :=
        ⟨rfl, Nat.le_refl _, fun _ hurl => mem_append_left _ hurl, .inr ⟨hpost, rfl⟩⟩
      exact Drives.bind (drives_persistPhase hconfirmed hwrite) fun _ w₂ hg₂ _ =>
        ih confirmed w₂ (hconfirmed.grow hg₂) hpost

theorem drives_requireAdminRemoveDeps (r : PendingRemoval) :
    Drives fingerprint exclusive (fun _ _ => True) (requireAdminRemoveDeps deps r) w := by
  unfold requireAdminRemoveDeps
  split
  · exact Drives.ret trivial
  · exact Drives.message _

section

variable (hr : Known w r)
include hr

theorem drives_finalizeSelfLeave (hphase : r.phase = .adminRemoved) :
    Drives fingerprint exclusive (fun s w' => Known w' s ∧ s.phase = .localCleanup)
      (finalizeSelfLeave r) w := by
  refine Drives.bind (Q := fun _ _ => True) ?_ fun _ w₁ hg _ => ?_
  · refine Drives.attempt (fun _ _ _ => trivial) fun env w' _ hinv _ _ => ?_
    have hg : Grows w' { w' with finalized := w'.finalized ++ [(r.spaceId, r.removedDid,
        r.newGeneration)] } := of_eq rfl rfl rfl rfl rfl
    exact ⟨hinv.grow rfl rfl hg, hg, removalEffect_of_eq rfl, trivial⟩
  · exact drives_advancePhase (hr.grow hg) (by rw [hphase]; rfl) rfl (by rw [hphase]; decide)

section

variable (hpost : r.phase.preCommit = false)
include hpost

theorem drives_removeOwnAdmin :
    Drives fingerprint exclusive (fun s w' => Known w' s ∧ s.phase.preCommit = false)
      (removeOwnAdmin deps r) w := by
  unfold removeOwnAdmin
  split
  · next hself =>
    refine Drives.bind (drives_requireAdminRemoveDeps deps r) fun _ w₁ hg₁ _ => ?_
    refine Drives.bind (drives_ask fun _ _ => trivial) fun _ w₂ hg₂ _ => ?_
    refine Drives.bind (drives_handBackAdmin r.homeBrokerSet r w₂ (hr.grow (hg₁.trans hg₂)) hpost)
      fun s w₃ _ hs => ?_
    have hcommitted : s.phase = .committed := hs.2.trans hself.2
    refine (drives_advancePhase hs.1 (by rw [hcommitted]; rfl) rfl
      (by rw [hcommitted]; decide)).post fun s' w₄ _ hs' => ⟨hs'.1, by rw [hs'.2]; rfl⟩
  · exact Drives.ret ⟨hr, hpost⟩

theorem drives_finalizeOwnLeave :
    Drives fingerprint exclusive (fun s w' => Known w' s ∧ s.phase.preCommit = false)
      (finalizeOwnLeave deps r) w := by
  unfold finalizeOwnLeave
  split
  · next hself =>
    refine Drives.bind (drives_requireAdminRemoveDeps deps r) fun _ w₁ hg₁ _ => ?_
    exact (drives_finalizeSelfLeave (hr.grow hg₁) hself.2).post fun _ _ _ hs =>
      ⟨hs.1, by rw [hs.2]; rfl⟩
  · exact Drives.ret ⟨hr, hpost⟩

theorem drives_completeRemoval :
    Drives fingerprint exclusive (fun _ _ => True) (completeRemoval r) w := by
  refine Drives.bind (Q := fun s w' => Known w' s ∧ s.phase.preCommit = false) ?_
    fun s w₁ _ hs => ?_
  · unfold completeCleanup
    split
    · next hphase =>
      exact (drives_advancePhase hr hpost rfl (by rw [hphase]; decide)).post
        fun _ _ _ hs => ⟨hs.1, by rw [hs.2]; rfl⟩
    · exact Drives.ret ⟨hr, hpost⟩
  · exact Drives.bind (drives_deleteOwnStaging hs.1 (.inl hs.2)) fun _ _ _ _ =>
      Drives.ret trivial

end

/-! ## 8. Whole drivers -/

omit hr in
theorem drives_finalizeTerminal (deps : ResolvedDeps) (hr : Known w r) :
    Drives fingerprint exclusive (fun s w' => Known w' s) (finalizeTerminal deps r) w := by
  unfold finalizeTerminal
  split
  · next hphase =>
    refine Drives.bind (Q := fun _ _ => True) ?_ fun _ w₁ hg₁ _ => ?_
    · cases deps with
      | full full => exact drives_requireAdminRemoveDeps full r
      | finalization => exact Drives.ret trivial
      | cleanup => exact Drives.message _
    · exact (drives_finalizeSelfLeave (hr.grow hg₁) hphase).post fun _ _ _ hs => hs.1
  · exact Drives.ret hr

omit hr in
theorem drives_finishTerminal (deps : ResolvedDeps) (hr : Known w r) :
    Drives fingerprint exclusive (fun e w' => ∀ s, e = .ok s → Known w' s)
      (finishTerminal deps r) w := by
  refine Drives.bind (drives_finalizeTerminal deps hr) fun s w₁ _ hs => ?_
  split
  · next hphase =>
    refine Drives.bind (drives_deleteOwnStaging hs (.inl (by rw [hphase]; rfl)))
      fun _ _ _ _ => Drives.ret fun s' hs' => ?_
    cases hs'
  split
  · next hphase =>
    refine Drives.bind (drives_completeRemoval hs (by rw [hphase]; rfl))
      fun _ _ _ _ => Drives.ret fun s' hs' => ?_
    cases hs'
  refine Drives.ret fun s' hs' => ?_
  cases hs'
  exact hs

theorem drives_enforceRemoval :
    Drives fingerprint exclusive (fun e w' => Known w' e.1 ∧ e.1.stagingId.isSome = true ∧
      EnforcementKnown e.1 e.2 w') (enforceRemoval fingerprint deps r) w := by
  refine Drives.bind (drives_bindStagingMaterial hr) fun s w₁ _ hs => ?_
  refine Drives.bind (drives_ask fun _ _ => trivial) fun _ w₂ hg₂ _ => ?_
  refine Drives.bind (drives_confirmBrokers deps hs.2 s.homeBrokerSet s.confirmedBrokerUrls w₂
    (hs.1.grow hg₂) (fun _ hurl => hurl) fun _ hurl => .inl hurl) fun e w₃ hg₃ he => ?_
  exact Drives.ret ⟨hs.1.grow (hg₂.trans hg₃), hs.2, he⟩

theorem drives_finishEnforced (hid : r.stagingId.isSome = true) {confirmed : List String}
    (hacc : Accounted w r confirmed) :
    Drives fingerprint exclusive (fun _ _ => True) (finishEnforced deps r confirmed) w := by
  unfold finishEnforced
  split
  · exact Drives.pending _
  next hall =>
  have hall : ∀ url ∈ r.homeBrokerSet, url ∈ confirmed := by simpa using hall
  refine Drives.bind (drives_commitEnforced deps hr hid hacc hall) fun s₁ w₁ _ h₁ => ?_
  refine Drives.bind (drives_removeOwnAdmin deps h₁.1 h₁.2) fun s₂ w₂ _ h₂ => ?_
  refine Drives.bind (drives_finalizeOwnLeave deps h₂.1 h₂.2) fun s₃ w₃ _ h₃ => ?_
  exact drives_completeRemoval h₃.1 h₃.2

end

theorem drives_driveOnce (deps : ResolvedDeps) {again : PendingRemoval → RemovalProgram Bool}
    (hagain : ∀ s w', Known w' s → Drives fingerprint exclusive (fun _ _ => True) (again s) w')
    (hr : Known w r) :
    Drives fingerprint exclusive (fun _ _ => True) (driveOnce fingerprint deps again r) w := by
  refine Drives.bind (drives_finishTerminal deps hr) fun left w₁ _ hleft => ?_
  split
  · exact Drives.ret trivial
  next s =>
  split
  · refine Drives.bind (drives_enforceRemoval _ (hleft s rfl)) fun e w₂ _ he => ?_
    split
    · exact Drives.ret trivial
    · exact hagain _ _ he.2.2
    · exact drives_finishEnforced _ he.1 he.2.1 he.2.2
  · exact Drives.message _

theorem drives_driveRemovalToCompletion (deps : ResolvedDeps) :
    ∀ (restages : Nat) (r : PendingRemoval) (w : RemovalWorld), Known w r →
      Drives fingerprint exclusive (fun _ _ => True)
        (driveRemovalToCompletion fingerprint deps restages r) w := by
  intro restages
  induction restages with
  | zero => exact fun r w hr => drives_driveOnce deps (fun s w' _ => Drives.pending s) hr
  | succ restages ih => exact fun r w hr => drives_driveOnce deps ih hr

theorem drives_drive (deps : ResolvedDeps) (restages : Nat) (hr : Known w r) :
    Drives fingerprint exclusive (fun _ _ => True) (drive fingerprint deps restages r) w :=
  Drives.bind (drives_driveRemovalToCompletion deps restages r w hr) fun _ _ _ _ =>
    Drives.ret trivial

theorem drives_runTwoPhaseRemoval (restages : Nat) : Drives fingerprint exclusive (fun _ _ => True)
      (runTwoPhaseRemoval fingerprint deps spaceId removedDid activityEntry canonical
        targetGeneration restages) w := by
  unfold runTwoPhaseRemoval
  split
  · exact Drives.message _
  split
  · exact Drives.message _
  split
  · exact Drives.message _
  refine Drives.bind (drives_getPendingRemoval spaceId removedDid) fun existing w₁ _ h₁ => ?_
  split
  · next r => exact drives_drive (.full deps) restages (h₁ r rfl)
  refine Drives.bind (drives_stageRemoval deps spaceId removedDid activityEntry canonical
    targetGeneration fun s hs => ?_) fun r w₂ _ h₂ => ?_
  · cases hs
  · exact drives_drive (.full deps) restages h₂

end

section

variable (resolveDeps : PendingRemoval → Option ResolvedDeps)

theorem drives_recoverRemoval (restages : Nat) (hr : Known w r) :
    Drives fingerprint exclusive (fun _ _ => True)
      (recoverRemoval fingerprint resolveDeps restages r) w := by
  unfold recoverRemoval
  split
  · next hphase =>
    exact Drives.handle (Drives.bind (drives_deleteOwnStaging hr (.inl (by rw [hphase]; rfl)))
      fun _ _ _ _ => Drives.ret trivial) fun _ _ _ _ => Drives.ret trivial
  split
  · exact Drives.ret trivial
  · next deps _ =>
    exact Drives.handle (drives_drive deps restages hr) fun _ _ _ _ => Drives.ret trivial

theorem drives_recoverPendingRemovals (restages : Nat) :
    Drives fingerprint exclusive (fun _ _ => True)
      (recoverPendingRemovals fingerprint resolveDeps restages) w := by
  refine Drives.bind (Q := fun pending w' => ∀ r ∈ pending, Known w' r)
    (Drives.read (fun _ _ _ => trivial) fun _ _ _ hinv r hr => hinv.knownOf_list hr)
    fun pending w₁ hg₁ hpending => ?_
  induction pending generalizing w₁ with
  | nil => exact Drives.ret trivial
  | cons r rest ih =>
    refine Drives.bind (drives_recoverRemoval resolveDeps restages
      (hpending r mem_cons_self)) fun _ w₂ hg₂ _ => ?_
    exact ih w₂ (hg₁.trans hg₂) fun s hs => (hpending s (mem_cons_of_mem _ hs)).grow hg₂

end

theorem drives_call (call : RemovalCall) (w : RemovalWorld) :
    Drives fingerprint exclusive (fun _ _ => True) ((removalSystem fingerprint).call call) w := by
  cases call with
  | run deps spaceId removedDid activityEntry canonical targetGeneration restages =>
    exact drives_runTwoPhaseRemoval _ _ _ _ _ _ _
  | recover resolveDeps restages => exact drives_recoverPendingRemovals _ _
  | otherRotation brokerUrl frame =>
    refine Drives.attempt (fun _ _ _ => trivial) fun env w' _ hinv _ _ => ?_
    dsimp only
    split
    · have hg := install w' brokerUrl frame
      exact ⟨hinv.grow rfl rfl hg, hg, removalEffect_of_eq rfl, trivial⟩
    · exact ⟨hinv, refl w', removalEffect_of_eq rfl, trivial⟩
  | keyRotation spaceId generation key =>
    refine Drives.attempt (fun _ _ _ => trivial) fun env w' _ hinv _ _ => ?_
    have hg := setKeys ((w'.keys spaceId).generation_saveKey generation key)
    exact ⟨hinv.grow rfl rfl hg, hg, removalEffect_of_eq rfl, trivial⟩

end WebOfTrust
