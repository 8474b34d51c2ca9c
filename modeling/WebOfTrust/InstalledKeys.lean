/-
  **A key that a broker may have installed is of one generation.**  Every frame that
  any driver sends is that of a record which was staged with a key of its own; a
  record that is bound or restaged takes either the very same frame or a key that was
  never in use.  So no key comes back for another generation or another space, in
  any run in which keys are drawn at random.
-/
import WebOfTrust.RestagedRemoval

namespace WebOfTrust

open Async PendingRemovals KeyedTable List

/-! ## 1. Keys in use -/

section

variable (inherited : List RotateFrame)

section

variable (w : RemovalWorld)

def framesInUse : List RotateFrame :=
  inherited ++ w.minted.map PendingRemoval.rotateFrame ++ w.accepted.map Prod.snd

def Used (r : PendingRemoval) : Prop :=
  r.rotateFrame ∈ framesInUse inherited w

/-- A key stands in one frame, and the store holds frames in use only. -/
structure KeysInUse (inherited : List RotateFrame) (w : RemovalWorld) : Prop where
  unique : ∀ f ∈ framesInUse inherited w, ∀ g ∈ framesInUse inherited w,
    f.newCapVerificationKey = g.newCapVerificationKey → f = g
  stored : ∀ k row, w.removals.get? k = some row → Used inherited w row.load

/-- A key that is drawn is not in use; another admin's frame does not take a key that
    is in use for another frame. -/
def freshKey (env : RemovalEnv) : RemovalPoint → Bool
  | .mint _ => (framesInUse inherited w).all fun f =>
      decide (f.newCapVerificationKey ≠ env.randomMaterial.capVerificationKey)
  | .otherRotation _ frame => (framesInUse inherited w).all fun f =>
      decide (f.newCapVerificationKey = frame.newCapVerificationKey → f = frame)
  | _ => true

def UseGrows (w w' : RemovalWorld) : Prop :=
  ∀ f ∈ framesInUse inherited w, f ∈ framesInUse inherited w'

def SendsUsed : RemovalPoint → Prop
  | .sendSpaceRotate _ frame => frame ∈ framesInUse inherited w
  | _ => True

end

def useContract : Contract RemovalPoint RemovalEnv RemovalWorld where
  inv := KeysInUse inherited
  rely _ := UseGrows inherited
  may t env w := freshKey inherited w env t = true
  guar t _ w w' := UseGrows inherited w w' ∧ SendsUsed inherited w t

def ErrorUsed (err : RemovalError) (w : RemovalWorld) : Prop :=
  ∀ spaceId removedDid winner,
    err = .stagingConflict spaceId removedDid (some winner) → Used inherited w winner

end

/-- A program keeps the keys apart and ends in `Q`. -/
def Uses {α : Type} (inherited : List RotateFrame) (Q : α → RemovalWorld → Prop)
    (p : RemovalProgram α) (w : RemovalWorld) : Prop :=
  Meets (useContract inherited) (fun a w' => UseGrows inherited w w' ∧ Q a w')
    (fun err w' => UseGrows inherited w w' ∧ ErrorUsed inherited err w') p w

variable {fingerprint : Nat → StagedRemovalKeyMaterial → String} {inherited : List RotateFrame}
  {α β : Type} {w w' w'' : RemovalWorld} {r s removal : PendingRemoval} {t : RemovalPoint}

namespace UseGrows

theorem refl (w : RemovalWorld) : UseGrows inherited w w := fun _ h => h

theorem trans (h : UseGrows inherited w w') (h' : UseGrows inherited w' w'') :
    UseGrows inherited w w'' :=
  fun f hf => h' f (h f hf)

theorem of_eq (hm : w'.minted = w.minted) (ha : w'.accepted = w.accepted) :
    UseGrows inherited w w' := by
  intro f hf
  unfold framesInUse
  rw [hm, ha]
  exact hf

theorem star (h : Relation.ReflTransGen (UseGrows inherited) w w') : UseGrows inherited w w' :=
  relies_of_star refl (fun _ _ _ => trans) h

end UseGrows

theorem Used.grow (h : Used inherited w r) (hg : UseGrows inherited w w') : Used inherited w' r :=
  hg _ h

theorem Used.of_frame (h : Used inherited w r) (hs : s.rotateFrame = r.rotateFrame) :
    Used inherited w s := by
  unfold Used
  rwa [hs]

theorem errorUsed_of_ne {err : RemovalError}
    (h : ∀ spaceId removedDid winner, err ≠ .stagingConflict spaceId removedDid (some winner)) :
    ErrorUsed inherited err w :=
  fun spaceId removedDid winner he => absurd he (h spaceId removedDid winner)

theorem mem_framesInUse_mint {m : PendingRemoval} {f : RotateFrame} :
    f ∈ framesInUse inherited { w with minted := w.minted ++ [m] } ↔
      f ∈ framesInUse inherited w ∨ f = m.rotateFrame := by
  simp only [framesInUse, map_append, mem_append, map_cons, map_nil, mem_singleton]
  grind

theorem mem_framesInUse_install {brokerUrl : String} {frame f : RotateFrame} :
    f ∈ framesInUse inherited (w.install brokerUrl frame) ↔
      f ∈ framesInUse inherited w ∨ f = frame := by
  simp only [framesInUse, RemovalWorld.install, map_append, mem_append, map_cons,
    map_nil, mem_singleton]
  grind

open UseGrows

namespace KeysInUse

section

variable (h : KeysInUse inherited w)
include h

theorem usedOf {spaceId : DocId} {removedDid : Did}
    (hr : w.removals.getPendingRemoval spaceId removedDid = some r) : Used inherited w r := by
  obtain ⟨row, hrow, rfl⟩ := Option.map_eq_some_iff.mp hr
  exact h.stored _ row hrow

theorem usedOf_list (hr : r ∈ w.removals.listPendingRemovals) : Used inherited w r := by
  obtain ⟨row, hrow, rfl⟩ := mem_map.mp hr
  exact h.stored _ row (mem_rows_iff.mp hrow)

theorem of_eq (hr : w'.removals = w.removals)
    (hm : w'.minted = w.minted) (ha : w'.accepted = w.accepted) : KeysInUse inherited w' := by
  have hframes : framesInUse inherited w' = framesInUse inherited w := by
    unfold framesInUse
    rw [hm, ha]
  refine ⟨hframes ▸ h.unique, fun k row hrow => ?_⟩
  exact (h.stored k row (hr ▸ hrow)).grow (UseGrows.of_eq hm ha)

theorem extend {frame : RotateFrame} (hr : w'.removals = w.removals)
    (hframes : ∀ f, f ∈ framesInUse inherited w' ↔ f ∈ framesInUse inherited w ∨ f = frame)
    (hkey : ∀ f ∈ framesInUse inherited w,
      f.newCapVerificationKey = frame.newCapVerificationKey → f = frame) :
    KeysInUse inherited w' where
  unique := by
    intro f hf g hg hfg
    rcases (hframes f).mp hf with hf | rfl
    · rcases (hframes g).mp hg with hg | rfl
      · exact h.unique f hf g hg hfg
      · exact hkey f hf hfg
    rcases (hframes g).mp hg with hg | rfl
    · exact (hkey g hg hfg.symm).symm
    · rfl
  stored k row hrow := (hframes _).mpr (.inl (h.stored k row (hr ▸ hrow)))

theorem put (hr : Used inherited w r) :
    KeysInUse inherited { w with removals := w.removals.put r.toStored } where
  unique := h.unique
  stored k row hrow := by
    rw [get?_put] at hrow
    split at hrow
    · cases hrow
      exact hr
    · exact h.stored k row hrow

theorem erase (k : DocId × Did) :
    KeysInUse inherited { w with removals := w.removals.erase k } where
  unique := h.unique
  stored k' row hrow := by
    rw [get?_erase] at hrow
    split at hrow
    · cases hrow
    · exact h.stored k' row hrow

theorem markBrokerConfirmed (spaceId : DocId) (removedDid : Did)
    (brokerUrl : String) (binding : BrokerConfirmationBinding) :
    KeysInUse inherited { w with
      removals := (w.removals.markBrokerConfirmed spaceId removedDid brokerUrl
        (some binding)).2 } := by
  rcases markBrokerConfirmed_cases w.removals spaceId removedDid brokerUrl
    binding with ⟨hsame, -⟩ | ⟨row, hrow, -, -, -, hput⟩
  · exact h.of_eq hsame rfl rfl
  refine ⟨h.unique, fun k row' hrow' => ?_⟩
  simp only [hput] at hrow'
  rw [get?_put] at hrow'
  split at hrow'
  · cases hrow'
    exact h.stored _ row hrow
  · exact h.stored k row' hrow'

end

end KeysInUse

/-! ## 2. Rules -/

namespace Uses

variable {Q Q' : α → RemovalWorld → Prop} {R : β → RemovalWorld → Prop} {p : RemovalProgram α}

theorem ret {a : α} (h : Q a w) : Uses inherited Q (.ret a) w := ⟨refl w, h⟩

theorem fail {err : RemovalError} (h : ErrorUsed inherited err w) :
    Uses inherited Q (.fail err) w :=
  ⟨refl w, h⟩

theorem message (text : String) : Uses inherited Q (.fail (.message text)) w :=
  fail (errorUsed_of_ne (by simp))

theorem pending (r : PendingRemoval) : Uses inherited Q (.fail (.pending r)) w :=
  fail (errorUsed_of_ne (by simp [RemovalError.pending]))

theorem after (hg : UseGrows inherited w w') (hp : Uses inherited Q p w') :
    Meets (useContract inherited) (fun a w'' => UseGrows inherited w w'' ∧ Q a w'')
      (fun err w'' => UseGrows inherited w w'' ∧ ErrorUsed inherited err w'') p w' :=
  hp.mono (fun _ _ hq => ⟨hg.trans hq.1, hq.2⟩) fun _ _ he => ⟨hg.trans he.1, he.2⟩

theorem bind {f : α → RemovalProgram β} (hp : Uses inherited Q p w)
    (hf : ∀ a w', UseGrows inherited w w' → Q a w' → Uses inherited R (f a) w') :
    Uses inherited R (p.bind f) w :=
  meets_bind (hp.mono (fun a w' hq => (hf a w' hq.1 hq.2).after hq.1) fun _ _ he => he)

theorem handle {h : RemovalError → RemovalProgram α} (hp : Uses inherited Q p w)
    (hh : ∀ err w', UseGrows inherited w w' → ErrorUsed inherited err w' →
      Uses inherited Q (h err) w') :
    Uses inherited Q (p.tryCatch h) w :=
  meets_tryCatch (hp.mono (fun _ _ hq => hq) fun err w' he => (hh err w' he.1 he.2).after he.1)

theorem atomic {f : RemovalEnv → RemovalWorld → Except RemovalError α × RemovalWorld}
    (hsends : ∀ w', UseGrows inherited w w' → SendsUsed inherited w' t)
    (h : ∀ env w', UseGrows inherited w w' → KeysInUse inherited w' →
      freshKey inherited w' env t = true →
        KeysInUse inherited (f env w').2 ∧ UseGrows inherited w' (f env w').2 ∧
          (∀ a, (f env w').1 = .ok a → Q a (f env w').2) ∧
            ∀ err, (f env w').1 = .error err → ErrorUsed inherited err (f env w').2) :
    Uses inherited Q (Async.atomic t f) w := by
  refine meets_atomic fun w' hrely hinv env hmay => ?_
  have hr := star hrely
  obtain ⟨hinv', hgrow, hok, herr⟩ := h env w' hr hinv hmay
  have hg := hr.trans hgrow
  exact ⟨hinv', ⟨hgrow, hsends w' hr⟩, fun a ha => ⟨hg, hok a ha⟩, fun err he => ⟨hg, herr err he⟩⟩

variable {f : RemovalEnv → RemovalWorld → α × RemovalWorld}

theorem attempt (hsends : ∀ w, SendsUsed inherited w t)
    (h : ∀ env w', UseGrows inherited w w' → KeysInUse inherited w' →
      freshKey inherited w' env t = true →
        KeysInUse inherited (f env w').2 ∧ UseGrows inherited w' (f env w').2 ∧
          Q (f env w').1 (f env w').2) :
    Uses inherited Q (WebOfTrust.attempt t f) w := by
  refine Uses.atomic (fun w' _ => hsends w') fun env w' hr hinv hmay => ?_
  cases env.failure with
  | some text =>
    refine ⟨hinv, refl w', ?_, ?_⟩
    · intro a ha
      cases ha
    intro err he
    cases he
    exact errorUsed_of_ne (by simp)
  | none =>
    obtain ⟨hinv', hgrow, hq⟩ := h env w' hr hinv hmay
    refine ⟨hinv', hgrow, ?_, ?_⟩
    · intro a ha
      cases ha
      exact hq
    · intro err he
      cases he

theorem ask (hsends : ∀ w, SendsUsed inherited w t)
    (hf : ∀ env w, (f env w).2.removals = w.removals ∧ (f env w).2.minted = w.minted ∧
      (f env w).2.accepted = w.accepted) :
    Uses inherited (fun _ _ => True) (WebOfTrust.attempt t f) w := by
  refine attempt hsends fun env w' _ hinv _ => ?_
  obtain ⟨hr, hm, ha⟩ := hf env w'
  exact ⟨hinv.of_eq hr hm ha, of_eq hm ha, trivial⟩

end Uses

theorem uses_put {expect : WriteExpectation} (hsends : ∀ w, SendsUsed inherited w t)
    (hr : Used inherited w removal) :
    Uses inherited (fun _ _ => True) (putPendingRemoval t removal expect) w := by
  refine Uses.atomic (fun w' _ => hsends w') fun env w' hg hinv _ => ?_
  cases env.failure with
  | some text =>
    refine ⟨hinv, refl w', fun _ _ => trivial, ?_⟩
    intro err he
    cases he
    exact errorUsed_of_ne (by simp)
  | none =>
    dsimp only
    cases hput : w'.removals.putPendingRemoval removal (some expect) with
    | ok removals =>
      obtain ⟨-, rfl⟩ := putPendingRemoval_ok hput
      refine ⟨hinv.put (hr.grow hg), of_eq rfl rfl, fun _ _ => trivial, ?_⟩
      intro err he
      cases he
    | error existing =>
      have hexisting := putPendingRemoval_error hput
      refine ⟨hinv, refl w', fun _ _ => trivial, ?_⟩
      intro err he spaceId removedDid winner heq
      cases he
      cases heq
      exact hinv.usedOf hexisting.symm

/-! ## 3. Staging and binding -/

theorem unchanged (w : RemovalWorld) :
    w.removals = w.removals ∧ w.minted = w.minted ∧ w.accepted = w.accepted :=
  ⟨rfl, rfl, rfl⟩

theorem uses_mintStaging {record : RemovalEnv → PendingRemoval} {template : PendingRemoval}
    (hkey : ∀ env w', UseGrows inherited w w' → KeysInUse inherited w' →
      freshKey inherited w' env (.mint template) = true → ∀ f ∈ framesInUse inherited w',
        f.newCapVerificationKey = (record env).rotateFrame.newCapVerificationKey →
          f = (record env).rotateFrame) :
    Uses inherited (fun r w' => Used inherited w' r)
      (mintStaging fingerprint record template) w := by
  refine Uses.attempt (fun _ => trivial) fun env w' hg hinv hmay => ?_
  refine ⟨hinv.extend rfl (fun f => mem_framesInUse_mint) ?_,
    fun f hf => mem_framesInUse_mint.mpr (.inl hf), mem_framesInUse_mint.mpr (.inr rfl)⟩
  exact hkey env w' hg hinv hmay

section

variable (deps : SecureRemovalDeps)

theorem uses_stageRemovalCandidate (spaceId : DocId)
    (removedDid : Did) (activityEntry : Option String) (canonical : Bool) :
    Uses inherited (fun r w' => Used inherited w' r)
      (stageRemovalCandidate fingerprint deps spaceId removedDid activityEntry canonical) w := by
  refine Uses.bind (Uses.ask (fun _ => trivial) fun _ w => unchanged w) fun current w₁ _ _ => ?_
  split
  · exact Uses.message _
  refine uses_mintStaging fun env w' _ _ hmay f hf hsame => ?_
  have hnew : f.newCapVerificationKey ≠ env.randomMaterial.capVerificationKey := by
    simpa using all_eq_true.mp hmay f hf
  exact absurd hsame hnew

theorem uses_stageRemoval (spaceId : DocId) (removedDid : Did)
    (activityEntry : Option String) (canonical : Bool) (targetGeneration : Option Nat)
    (replaces : Option PendingRemoval) :
    Uses inherited (fun r w' => Used inherited w' r)
      (stageRemoval fingerprint deps spaceId removedDid activityEntry canonical targetGeneration
        replaces) w := by
  refine Uses.bind (uses_stageRemovalCandidate deps spaceId removedDid activityEntry canonical)
    fun removal w₁ _ hused => ?_
  split
  · exact Uses.message _
  refine Uses.handle (Uses.bind (uses_put (fun _ => trivial) hused)
    fun _ w₂ hg _ => Uses.ret (hused.grow hg)) fun err w₂ _ herr => ?_
  split
  · next winner =>
    split
    · exact Uses.message _
    split
    · exact Uses.message _
    · exact Uses.ret (herr _ _ winner rfl)
  · exact Uses.fail herr

theorem rotateFrame_rebased (r : PendingRemoval) : r.rebased.rotateFrame = r.rotateFrame := by
  unfold PendingRemoval.rebased
  split <;> rfl

theorem uses_bindStagingMaterial (hr : Used inherited w removal) :
    Uses inherited (fun r w' => Used inherited w' r)
      (bindStagingMaterial fingerprint removal) w := by
  unfold bindStagingMaterial
  split
  · refine Uses.bind (Uses.ask (fun _ => trivial) fun _ w => unchanged w) fun stored w₁ hg _ => ?_
    split
    · exact Uses.pending _
    · exact Uses.ret (hr.grow hg)
  refine Uses.bind (uses_mintStaging fun env w' hg hinv _ f hf hsame => ?_)
    fun adopted w₁ _ hadopted => ?_
  · have hframe := (hr.grow hg).of_frame (rotateFrame_rebased removal)
    exact hinv.unique f hf _ hframe hsame
  refine Uses.handle (Uses.bind (uses_put (fun _ => trivial) hadopted)
    fun _ w₂ hg _ => Uses.ret (hadopted.grow hg)) fun err w₂ _ herr => ?_
  split
  · next winner =>
    split
    · exact Uses.ret (herr _ _ winner rfl)
    · exact Uses.pending _
  · exact Uses.pending _
  · exact Uses.fail herr

theorem uses_persistPhase {copy : PendingRemoval} (hr : Used inherited w removal) :
    Uses inherited (fun _ _ => True) (persistPhase copy removal) w := by
  refine Uses.handle (uses_put (fun _ => trivial) hr) fun err w' _ herr => ?_
  split
  · exact Uses.pending _
  · exact Uses.fail herr

theorem uses_deleteOwnStaging (removal : PendingRemoval) :
    Uses inherited (fun _ _ => True) (deleteOwnStaging removal) w := by
  refine Uses.attempt (fun _ => trivial) fun env w' _ hinv _ => ⟨?_, of_eq rfl rfl, trivial⟩
  rcases deletePendingRemoval_cases w'.removals removal.spaceId
    removal.removedDid (pendingRemovalWriteExpectation (some removal)) with hsame | ⟨-, herase⟩
  · exact hinv.of_eq hsame rfl rfl
  · simp only [herase]
    exact hinv.erase _

/-! ## 4. Broker confirmations -/

theorem uses_handleGenerationGap (r : PendingRemoval) (currentGeneration : Option Nat) :
    Uses inherited (fun found w' => ∀ s ∈ found, Used inherited w' s)
      (handleGenerationGap fingerprint deps r currentGeneration) w := by
  unfold handleGenerationGap
  split
  · exact Uses.ret fun _ hs => by cases hs
  refine Uses.bind (Uses.ask (fun _ => trivial) fun _ w => unchanged w)
    fun localGeneration w₁ _ _ => ?_
  split
  · exact Uses.fail (errorUsed_of_ne fun _ _ _ he => by cases he)
  refine Uses.bind (Uses.ask (fun _ => trivial) fun _ _ => ⟨rfl, rfl, rfl⟩)
    fun complete w₂ _ _ => ?_
  split
  · exact Uses.ret fun _ hs => by cases hs
  refine Uses.bind (uses_stageRemovalCandidate _ _ _ _ _) fun restaged w₃ _ hused => ?_
  split
  · exact Uses.message _
  refine Uses.bind (uses_put (fun _ => trivial) hused) fun _ w₄ hg _ => Uses.ret ?_
  intro s hs
  cases hs
  exact hused.grow hg

theorem uses_handleGenerationTaken (r : PendingRemoval) :
    Uses inherited (fun _ _ => True) (handleGenerationTaken fingerprint deps r) w := by
  refine Uses.bind (Uses.ask (fun _ => trivial) fun _ w => unchanged w) fun current w₁ _ _ => ?_
  split
  · exact Uses.bind (uses_deleteOwnStaging r) fun _ _ _ _ => Uses.ret trivial
  split
  · exact Uses.bind (uses_stageRemoval _ _ _ _ _ _ _) fun _ _ _ _ => Uses.ret trivial
  · exact Uses.ret trivial

def EnforcementUsed (inherited : List RotateFrame) (e : Enforcement) (w : RemovalWorld) : Prop :=
  ∀ s, e = .restaged s → Used inherited w s

theorem uses_handleRotateError (r : PendingRemoval)
    {err : RemovalError} (herr : ErrorUsed inherited err w) :
    Uses inherited (EnforcementUsed inherited) (handleRotateError fingerprint deps r err) w := by
  unfold handleRotateError
  split
  · exact Uses.fail herr
  · refine Uses.bind (uses_handleGenerationGap deps r _) fun found w₁ _ hfound => ?_
    split
    · next restaged =>
      refine Uses.ret fun s hs => ?_
      cases hs
      exact hfound restaged rfl
    · exact Uses.pending _
  · refine Uses.bind (uses_handleGenerationTaken deps r) fun fulfilled w₁ _ _ => ?_
    split
    · exact Uses.ret fun _ hs => by cases hs
    · exact Uses.pending _
  · split
    · exact Uses.fail herr
    · exact Uses.pending _
  · exact Uses.pending _

theorem uses_sendSpaceRotate (brokerUrl : String) (hr : Used inherited w r) :
    Uses inherited (fun _ _ => True) (sendSpaceRotate brokerUrl r.rotateFrame) w := by
  refine Uses.atomic (fun w' hg => hr.grow hg) fun env w' hg hinv _ => ?_
  have hused : r.rotateFrame ∈ framesInUse inherited w' := hr.grow hg
  refine ⟨?_, ?_, fun _ _ => trivial, ?_⟩
  · dsimp only
    split
    · exact hinv.extend rfl (fun f => mem_framesInUse_install) fun f hf hsame =>
        hinv.unique f hf _ hused hsame
    · exact hinv
  · dsimp only
    split
    · exact fun f hf => mem_framesInUse_install.mpr (.inl hf)
    · exact refl w'
  · intro err he
    refine errorUsed_of_ne fun spaceId removedDid winner hne => ?_
    subst hne
    unfold BrokerReply.outcome at he
    split at he <;> cases he

theorem uses_markBrokerConfirmed (r : PendingRemoval) (brokerUrl : String) :
    Uses inherited (fun _ _ => True) (markBrokerConfirmed r brokerUrl) w :=
  Uses.attempt (fun _ => trivial) fun _ _ _ hinv _ =>
    ⟨hinv.markBrokerConfirmed _ _ _ _, of_eq rfl rfl, trivial⟩

theorem uses_confirmBrokers :
    ∀ (brokers confirmed : List String) (w : RemovalWorld), Used inherited w r →
      Uses inherited (EnforcementUsed inherited)
        (confirmBrokers fingerprint deps r r.rotateFrame brokers confirmed) w := by
  intro brokers
  induction brokers with
  | nil => exact fun confirmed w _ => Uses.ret (by rintro _ ⟨⟩)
  | cons brokerUrl rest ih =>
    intro confirmed w hr
    unfold confirmBrokers
    split
    · exact ih confirmed w hr
    refine Uses.bind (Q := fun failed w' => ∀ ended ∈ failed, EnforcementUsed inherited ended w')
      (Uses.handle ?_ fun err w₁ _ herr => ?_) fun failed w₁ hg hfailed => ?_
    · refine Uses.bind (uses_sendSpaceRotate brokerUrl hr) fun _ w₁ _ _ => ?_
      refine Uses.bind (uses_markBrokerConfirmed r brokerUrl) fun outcome w₂ _ _ => ?_
      split
      · exact Uses.ret (by rintro _ ⟨⟩)
      · exact Uses.pending _
    · refine Uses.bind (uses_handleRotateError deps r herr) fun ended w₂ _ hended => ?_
      refine Uses.ret fun e he => ?_
      cases he
      exact hended
    split
    · next ended => exact Uses.ret (hfailed ended rfl)
    · exact ih _ w₁ (hr.grow hg)

/-! ## 5. The commit and what follows it -/

theorem uses_commitStep {step : CommitStep} {f : RemovalEnv → RemovalWorld → α × RemovalWorld}
    (hf : ∀ env w, (f env w).2.removals = w.removals ∧ (f env w).2.minted = w.minted ∧
      (f env w).2.accepted = w.accepted) :
    Uses inherited (fun _ _ => True) (attempt (.commit r step) f) w :=
  Uses.ask (fun _ => trivial) hf

theorem uses_readKeys (step : CommitStep) (f : SpaceKeys → α) :
    Uses inherited (fun _ _ => True) (readKeys r step f) w :=
  uses_commitStep fun _ w => unchanged w

theorem uses_saveKeys (step : CommitStep) (f : RemovalEnv → SpaceKeys → SpaceKeys) :
    Uses inherited (fun _ _ => True) (saveKeys r step f) w :=
  uses_commitStep fun _ _ => ⟨rfl, rfl, rfl⟩

theorem uses_provision (r : PendingRemoval) :
    Uses inherited (fun _ _ => True) (provisionCapabilityForGeneration deps r) w :=
  Uses.bind (uses_saveKeys _ _) fun _ _ _ _ => uses_saveKeys _ _

theorem uses_commitStagedRotation (r : PendingRemoval) :
    Uses inherited (fun _ _ => True) (commitStagedRotation deps r) w := by
  refine Uses.bind (uses_readKeys _ _) fun current w₁ _ _ => ?_
  split
  · exact Uses.bind (uses_saveKeys _ _) fun _ _ _ _ => uses_provision deps r
  split
  · refine Uses.bind (uses_readKeys _ _) fun storedKey w₂ _ _ => ?_
    split
    · exact Uses.message _
    refine Uses.bind (uses_readKeys _ _) fun storedCapVk w₃ _ _ => ?_
    split
    · exact Uses.message _
    refine Uses.bind (uses_readKeys _ _) fun ownCapability w₄ _ _ => ?_
    split
    · exact Uses.ret trivial
    · exact uses_provision deps r
  · exact Uses.message _

theorem uses_assertMaterialConfirmed (r : PendingRemoval) :
    Uses inherited (fun _ _ => True) (assertMaterialConfirmed r) w := by
  refine Uses.bind (Uses.ask (fun _ => trivial) fun _ w => unchanged w) fun stored w₁ _ _ => ?_
  split
  · exact Uses.ret trivial
  · exact Uses.pending _

theorem uses_commitEnforced (hr : Used inherited w r) (confirmed : List String) :
    Uses inherited (fun s w' => Used inherited w' s) (commitEnforced deps r confirmed) w := by
  unfold commitEnforced
  split
  · exact Uses.ret hr
  refine Uses.bind (uses_persistPhase (hr.of_frame rfl)) fun _ w₁ hg₁ _ => ?_
  refine Uses.bind (uses_assertMaterialConfirmed _) fun _ w₂ hg₂ _ => ?_
  refine Uses.bind (uses_commitStagedRotation deps _) fun _ w₃ hg₃ _ => ?_
  refine Uses.bind (uses_commitStep fun _ _ => ⟨rfl, rfl, rfl⟩) fun _ w₄ hg₄ _ => ?_
  have hr' := hr.grow (((hg₁.trans hg₂).trans hg₃).trans hg₄)
  exact Uses.bind (uses_persistPhase (hr'.of_frame rfl)) fun _ w₅ hg₅ _ =>
    Uses.ret ((hr'.grow hg₅).of_frame rfl)

theorem uses_requireAdminRemoveDeps (r : PendingRemoval) :
    Uses inherited (fun _ _ => True) (requireAdminRemoveDeps deps r) w := by
  unfold requireAdminRemoveDeps
  split
  · exact Uses.ret trivial
  · exact Uses.message _

theorem uses_advancePhase (hr : Used inherited w r) (phase : RemovalPhase) :
    Uses inherited (fun s w' => Used inherited w' s) (advancePhase r phase) w :=
  Uses.bind (uses_persistPhase (hr.of_frame rfl)) fun _ _ hg _ =>
    Uses.ret ((hr.grow hg).of_frame rfl)

theorem uses_finalizeSelfLeave (hr : Used inherited w r) :
    Uses inherited (fun s w' => Used inherited w' s) (finalizeSelfLeave r) w :=
  Uses.bind (Uses.ask (fun _ => trivial) fun _ _ => ⟨rfl, rfl, rfl⟩) fun _ _ hg _ =>
    uses_advancePhase (hr.grow hg) .localCleanup

theorem uses_sendAdminRemove (r : PendingRemoval) (brokerUrl : String) :
    Uses inherited (fun _ _ => True) (sendAdminRemove r brokerUrl) w := by
  refine Uses.atomic (fun _ _ => trivial) fun env w' _ hinv _ => ?_
  refine ⟨?_, ?_, fun _ _ => trivial, ?_⟩
  · dsimp only
    split
    · exact hinv.of_eq rfl rfl rfl
    · exact hinv
  · dsimp only
    split
    · exact of_eq rfl rfl
    · exact refl w'
  · intro err he
    refine errorUsed_of_ne fun spaceId removedDid winner hne => ?_
    subst hne
    unfold BrokerReply.outcome at he
    split at he <;> cases he

theorem uses_handBackAdmin :
    ∀ (brokers : List String) (r : PendingRemoval) (w : RemovalWorld), Used inherited w r →
      Uses inherited (fun s w' => Used inherited w' s) (handBackAdmin r brokers) w := by
  intro brokers
  induction brokers with
  | nil => exact fun r w hr => Uses.ret hr
  | cons brokerUrl rest ih =>
    intro r w hr
    unfold handBackAdmin
    dsimp only
    split
    · exact ih r w hr
    refine Uses.bind (Uses.handle (uses_sendAdminRemove r brokerUrl) fun err w₁ _ herr => ?_)
      fun _ w₁ hg₁ _ => ?_
    · split
      · split
        · exact Uses.fail herr
        · exact Uses.fail (errorUsed_of_ne fun _ _ _ he => by cases he)
      · exact Uses.fail (errorUsed_of_ne fun _ _ _ he => by cases he)
    · exact Uses.bind (uses_persistPhase ((hr.grow hg₁).of_frame rfl)) fun _ w₂ hg₂ _ =>
        ih _ w₂ (((hr.grow hg₁).grow hg₂).of_frame rfl)

theorem uses_removeOwnAdmin (hr : Used inherited w r) :
    Uses inherited (fun s w' => Used inherited w' s) (removeOwnAdmin deps r) w := by
  unfold removeOwnAdmin
  split
  · refine Uses.bind (uses_requireAdminRemoveDeps deps r) fun _ w₁ hg₁ _ => ?_
    refine Uses.bind (Uses.ask (fun _ => trivial) fun _ w => unchanged w) fun _ w₂ hg₂ _ => ?_
    exact Uses.bind (uses_handBackAdmin r.homeBrokerSet r w₂ (hr.grow (hg₁.trans hg₂)))
      fun s w₃ _ hs => uses_advancePhase hs .adminRemoved
  · exact Uses.ret hr

theorem uses_finalizeOwnLeave (hr : Used inherited w r) :
    Uses inherited (fun s w' => Used inherited w' s) (finalizeOwnLeave deps r) w := by
  unfold finalizeOwnLeave
  split
  · exact Uses.bind (uses_requireAdminRemoveDeps deps r) fun _ _ hg _ =>
      uses_finalizeSelfLeave (hr.grow hg)
  · exact Uses.ret hr

theorem uses_completeRemoval (hr : Used inherited w r) :
    Uses inherited (fun _ _ => True) (completeRemoval r) w := by
  refine Uses.bind (Q := fun s w' => Used inherited w' s) ?_ fun s w₁ _ _ =>
    Uses.bind (uses_deleteOwnStaging s) fun _ _ _ _ => Uses.ret trivial
  unfold completeCleanup
  split
  · exact uses_advancePhase hr .complete
  · exact Uses.ret hr

/-! ## 6. Drivers -/

theorem uses_finalizeTerminal (deps : ResolvedDeps) (hr : Used inherited w r) :
    Uses inherited (fun s w' => Used inherited w' s) (finalizeTerminal deps r) w := by
  unfold finalizeTerminal
  split
  · refine Uses.bind (Q := fun _ _ => True) ?_ fun _ w₁ hg _ =>
      uses_finalizeSelfLeave (hr.grow hg)
    cases deps with
    | full full => exact uses_requireAdminRemoveDeps full r
    | finalization => exact Uses.ret trivial
    | cleanup => exact Uses.message _
  · exact Uses.ret hr

theorem uses_finishTerminal (deps : ResolvedDeps) (hr : Used inherited w r) :
    Uses inherited (fun e w' => ∀ s, e = .ok s → Used inherited w' s)
      (finishTerminal deps r) w := by
  refine Uses.bind (uses_finalizeTerminal deps hr) fun s w₁ _ hs => ?_
  split
  · exact Uses.bind (uses_deleteOwnStaging s) fun _ _ _ _ => Uses.ret fun _ hs => by cases hs
  split
  · exact Uses.bind (uses_completeRemoval hs) fun _ _ _ _ => Uses.ret fun _ hs => by cases hs
  refine Uses.ret fun s' hs' => ?_
  cases hs'
  exact hs

theorem uses_enforceRemoval (hr : Used inherited w r) :
    Uses inherited (fun e w' => Used inherited w' e.1 ∧ EnforcementUsed inherited e.2 w')
      (enforceRemoval fingerprint deps r) w := by
  refine Uses.bind (uses_bindStagingMaterial hr) fun s w₁ _ hs => ?_
  refine Uses.bind (Uses.ask (fun _ => trivial) fun _ w => unchanged w) fun _ w₂ hg₂ _ => ?_
  refine Uses.bind (uses_confirmBrokers deps s.homeBrokerSet s.confirmedBrokerUrls w₂
    (hs.grow hg₂)) fun e w₃ hg₃ he => ?_
  exact Uses.ret ⟨hs.grow (hg₂.trans hg₃), he⟩

theorem uses_finishEnforced (hr : Used inherited w r) (confirmed : List String) :
    Uses inherited (fun _ _ => True) (finishEnforced deps r confirmed) w := by
  unfold finishEnforced
  split
  · exact Uses.pending _
  refine Uses.bind (uses_commitEnforced deps hr confirmed) fun s₁ w₁ _ h₁ => ?_
  refine Uses.bind (uses_removeOwnAdmin deps h₁) fun s₂ w₂ _ h₂ => ?_
  exact Uses.bind (uses_finalizeOwnLeave deps h₂) fun s₃ w₃ _ h₃ => uses_completeRemoval h₃

theorem uses_driveOnce (deps : ResolvedDeps) {again : PendingRemoval → RemovalProgram Bool}
    (hagain : ∀ s w', Used inherited w' s → Uses inherited (fun _ _ => True) (again s) w')
    (hr : Used inherited w r) :
    Uses inherited (fun _ _ => True) (driveOnce fingerprint deps again r) w := by
  refine Uses.bind (uses_finishTerminal deps hr) fun left w₁ _ hleft => ?_
  split
  · exact Uses.ret trivial
  next s =>
  split
  · refine Uses.bind (uses_enforceRemoval _ (hleft s rfl)) fun e w₂ _ he => ?_
    split
    · exact Uses.ret trivial
    · exact hagain _ _ (he.2 _ rfl)
    · exact uses_finishEnforced _ he.1 _
  · exact Uses.message _

theorem uses_driveRemovalToCompletion (deps : ResolvedDeps) :
    ∀ (restages : Nat) (r : PendingRemoval) (w : RemovalWorld), Used inherited w r →
      Uses inherited (fun _ _ => True)
        (driveRemovalToCompletion fingerprint deps restages r) w := by
  intro restages
  induction restages with
  | zero => exact fun r w hr => uses_driveOnce deps (fun s w' _ => Uses.pending s) hr
  | succ restages ih => exact fun r w hr => uses_driveOnce deps ih hr

theorem uses_drive (deps : ResolvedDeps) (restages : Nat) (hr : Used inherited w r) :
    Uses inherited (fun _ _ => True) (drive fingerprint deps restages r) w :=
  Uses.bind (uses_driveRemovalToCompletion deps restages r w hr) fun _ _ _ _ => Uses.ret trivial

theorem uses_runTwoPhaseRemoval (spaceId : DocId) (removedDid : Did)
    (activityEntry : Option String) (canonical : Bool) (targetGeneration : Option Nat)
    (restages : Nat) :
    Uses inherited (fun _ _ => True) (runTwoPhaseRemoval fingerprint deps spaceId removedDid
      activityEntry canonical targetGeneration restages) w := by
  unfold runTwoPhaseRemoval
  split
  · exact Uses.message _
  split
  · exact Uses.message _
  split
  · exact Uses.message _
  refine Uses.bind (Q := fun found w' => ∀ r ∈ found, Used inherited w' r)
    (Uses.attempt (fun _ => trivial) fun _ _ _ hinv _ =>
      ⟨hinv, refl _, fun r hr => hinv.usedOf hr⟩) fun existing w₁ _ h₁ => ?_
  split
  · next r => exact uses_drive (.full deps) restages (h₁ r rfl)
  · exact Uses.bind (uses_stageRemoval _ _ _ _ _ _ _) fun r w₂ _ h₂ =>
      uses_drive (.full deps) restages h₂

end

section

variable (resolveDeps : PendingRemoval → Option ResolvedDeps)

theorem uses_recoverRemoval (restages : Nat) (hr : Used inherited w r) :
    Uses inherited (fun _ _ => True) (recoverRemoval fingerprint resolveDeps restages r) w := by
  unfold recoverRemoval
  split
  · exact Uses.handle (Uses.bind (uses_deleteOwnStaging r) fun _ _ _ _ => Uses.ret trivial)
      fun _ _ _ _ => Uses.ret trivial
  split
  · exact Uses.ret trivial
  · next deps _ =>
    exact Uses.handle (uses_drive deps restages hr) fun _ _ _ _ => Uses.ret trivial

theorem uses_recoverPendingRemovals (restages : Nat) : Uses inherited (fun _ _ => True)
      (recoverPendingRemovals fingerprint resolveDeps restages) w := by
  refine Uses.bind (Q := fun pending w' => ∀ r ∈ pending, Used inherited w' r)
    (Uses.attempt (fun _ => trivial) fun _ _ _ hinv _ =>
      ⟨hinv, refl _, fun r hr => hinv.usedOf_list hr⟩) fun pending w₁ hg₁ hpending => ?_
  induction pending generalizing w₁ with
  | nil => exact Uses.ret trivial
  | cons r rest ih =>
    refine Uses.bind (uses_recoverRemoval resolveDeps restages (hpending r mem_cons_self))
      fun _ w₂ hg₂ _ => ?_
    exact ih w₂ (hg₁.trans hg₂) fun s hs => (hpending s (mem_cons_of_mem _ hs)).grow hg₂

end

theorem uses_call (call : RemovalCall) (w : RemovalWorld) :
    Uses inherited (fun _ _ => True) ((removalSystem fingerprint).call call) w := by
  cases call with
  | run deps spaceId removedDid activityEntry canonical targetGeneration restages =>
    exact uses_runTwoPhaseRemoval _ _ _ _ _ _ _
  | recover resolveDeps restages => exact uses_recoverPendingRemovals _ _
  | otherRotation brokerUrl frame =>
    refine Uses.attempt (fun _ => trivial) fun env w' _ hinv hmay => ?_
    dsimp only
    split
    · refine ⟨hinv.extend rfl (fun f => mem_framesInUse_install) fun f hf hsame => ?_,
        fun f hf => mem_framesInUse_install.mpr (.inl hf), trivial⟩
      exact of_decide_eq_true (all_eq_true.mp hmay f hf) hsame
    · exact ⟨hinv, refl w', trivial⟩
  | keyRotation spaceId generation key =>
    exact Uses.ask (fun _ => trivial) fun _ _ => ⟨rfl, rfl, rfl⟩

/-! ## 7. All runs -/

def storedFrames (w : RemovalWorld) : List RotateFrame :=
  w.removals.listPendingRemovals.map PendingRemoval.rotateFrame

def freshKeys (inherited : List RotateFrame) (c : RemovalConfig) :
    Action RemovalEnv RemovalCall → Bool
  | .run n env => (c.pointAt n).all (freshKey inherited c.world env)
  | _ => true

abbrev FreshKeys (inherited : List RotateFrame) (c : RemovalConfig)
    (a : Action RemovalEnv RemovalCall) : Prop :=
  freshKeys inherited c a = true

theorem keys_verified (hw : KeysInUse inherited w) :
    Verified (removalSystem fingerprint) (FreshKeys inherited) w (useContract inherited)
      (fun _ _ => True) (fun _ _ => True) where
  init := hw
  call := fun c call _ _ =>
    (uses_call call c.world).mono (fun _ _ _ => trivial) fun _ _ _ => trivial
  may := by
    intro c n env t hadm hpoint _
    have hadm : (c.pointAt n).all (freshKey inherited c.world env) = true := hadm
    rw [hpoint] at hadm
    exact hadm
  restart := fun c _ hinv => hinv
  quiet := fun _ _ _ _ _ _ _ _ hguar _ _ _ _ => hguar.1
  result := fun _ _ _ _ _ _ _ => trivial
  error := fun _ _ _ _ _ _ _ => trivial

/-- No key of an accepted frame is stored or sent in another one. -/
def InstalledKeysKept (S : System RemovalPoint RemovalEnv RemovalWorld RemovalError Unit
    RemovalCall) (c : RemovalConfig) : Prop :=
  ∀ brokerUrl frame, (brokerUrl, frame) ∈ c.world.accepted →
    (∀ r ∈ c.world.removals.listPendingRemovals,
      r.stagedKeyMaterial.capVerificationKey = frame.newCapVerificationKey →
        r.rotateFrame = frame) ∧
    ∀ n env c' other sent, c.step S (.run n env) = some c' →
      c.pointAt n = some (.sendSpaceRotate other sent) →
        sent.newCapVerificationKey = frame.newCapVerificationKey → sent = frame

theorem installedKeysKept {c : RemovalConfig} (hw : KeysInUse inherited w)
    (h : Reachable (removalSystem fingerprint) (FreshKeys inherited) w c) :
    InstalledKeysKept (removalSystem fingerprint) c := by
  have V : Verified (removalSystem fingerprint) (FreshKeys inherited) w (useContract inherited)
      (fun _ _ => True) (fun _ _ => True) := keys_verified hw
  have hinv := V.inv h
  intro brokerUrl frame haccepted
  have hframe : frame ∈ framesInUse inherited c.world :=
    mem_append_right _ (mem_map.mpr ⟨_, haccepted, rfl⟩)
  refine ⟨fun r hr hkey => hinv.unique _ (hinv.usedOf_list hr) _ hframe hkey, ?_⟩
  intro n env c' other sent hs hpoint hkey
  have hadm : FreshKeys inherited c (.run n env) := by
    show (c.pointAt n).all _ = true
    rw [hpoint]
    rfl
  obtain ⟨t, ht, -, hsends⟩ := V.guar h hadm hs
  cases hpoint.symm.trans ht
  exact hinv.unique _ hsends _ hframe hkey

/-! ## 8. Restaging -/

/-- **Restaging after a generation conflict.**  At a broker's answer, each step of the
    driver leaves the store alone, or replaces the own staging by a fresh candidate
    for the generation after the one converged to, or drops the staging of a canonical
    self-removal that another rotation has fulfilled.  And no key that a broker may
    have installed is ever used for another generation. -/
theorem restaging_after_conflict (fingerprint : Nat → StagedRemovalKeyMaterial → String)
    (deps : SecureRemovalDeps) (own : PendingRemoval) (code : BrokerErrorCode)
    (currentGeneration : Option Nat) (steps : List (RemovalEnv × RemovalWorld))
    (w : RemovalWorld) (c : RemovalConfig) (hw : KeysInUse (storedFrames w) w)
    (h : Reachable (removalSystem fingerprint) (FreshKeys (storedFrames w)) w c) :
    Along (Restages fingerprint deps own code currentGeneration) []
      ((handleRotateError fingerprint deps own
        (.controlFrameRejected code currentGeneration)).trace steps) ∧
    InstalledKeysKept (removalSystem fingerprint) c :=
  ⟨handles_handleRotateError.sound (along_iff.mpr fun _ _ _ => trivial), installedKeysKept hw h⟩

theorem freshWorld_keysInUse : KeysInUse (storedFrames freshWorld) freshWorld where
  unique f hf := by cases hf
  stored k row hrow := by cases hrow

/-- A member's removal is accepted by its broker; the regular removal of another
    device is told that its generation is taken. -/
theorem restaging_after_removal : ∃ c,
    Reachable (removalSystem onlyFingerprint) (FreshKeys (storedFrames freshWorld)) freshWorld c ∧
      c.world.accepted ≠ [] ∧ InstalledKeysKept (removalSystem onlyFingerprint) c ∧
      Along (Restages onlyFingerprint adminDeps waitingRemoval .generationTaken none) []
        ((handleRotateError onlyFingerprint adminDeps waitingRemoval
          (.controlFrameRejected .generationTaken none)).trace
            (replicate 4 (removalEnv, waitingWorld.setKeys "space-1"
              (SpaceKeys.none.saveKey 1 [9])))) := by
  obtain ⟨c, hreach, htest⟩ := Reachable.of_exec (removalSystem onlyFingerprint)
    (FreshKeys (storedFrames freshWorld)) freshWorld memberConfirmed
    (fun c => !c.world.accepted.isEmpty) (by decide)
  obtain ⟨hrestages, hkept⟩ := restaging_after_conflict onlyFingerprint adminDeps waitingRemoval
    .generationTaken none (replicate 4 (removalEnv, waitingWorld.setKeys "space-1"
      (SpaceKeys.none.saveKey 1 [9]))) freshWorld c freshWorld_keysInUse hreach
  refine ⟨c, hreach, ?_, hkept, hrestages⟩
  simpa using htest

/-- **A staging that is neither replaced nor left.**  A canonical self-removal is told
    that its generation is taken, and the rotation that took it is here: the staging is
    dropped. -/
theorem canonical_staging_dropped : ¬ ∀ own code currentGeneration steps,
      Along (fun history v => v.after.removals = v.before.removals ∨
          Replaced onlyFingerprint adminDeps own code currentGeneration history v) []
        ((handleRotateError onlyFingerprint adminDeps own
          (.controlFrameRejected code currentGeneration)).trace steps) := by
  intro hclaim
  have h := hclaim { waitingRemoval with canonicalSelfRemovalRotation := true } .generationTaken
    none (replicate 2 (removalEnv, waitingWorld.setKeys "space-1" (SpaceKeys.none.saveKey 1 [9])))
  obtain ⟨-, hdelete | hreplaced, -⟩ := h
  · have hrows := congrArg (fun t : PendingRemovals => t.rows.length) hdelete
    exact absurd hrows (by decide)
  obtain ⟨earlier, read, drawn, generation, hhistory, -⟩ := hreplaced
  have hlength := congrArg length hhistory
  simp at hlength

end WebOfTrust
