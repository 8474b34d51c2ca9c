/-
  **A recovery pass ends what a crash left behind.**  One driver at a time, honest
  brokers, and nobody else takes the staged generation: from every configuration
  that such a run can reach, a recovery pass whose steps do not fail ends every
  removal with the staged generation active, `commitRemoval` executed and the record
  deleted.

  When another admin's rotation takes the generation first, the record of a
  canonical self-removal is deleted without a commit of its own
  (`recovery_superseded`).
-/
import WebOfTrust.SecureRemovalResume
import WebOfTrust.SecureRemovalCommit

namespace WebOfTrust

open Async Resumes KeyedTable PendingRemovals List

variable {fingerprint : Nat → StagedRemovalKeyMaterial → String} {home : DocId → List String}
  {cooperative : Bool} {α : Type} {w w' : RemovalWorld} {r s : PendingRemoval}

/-! ## 1. Phases behind the rotation -/

/-- What `resolveDeps` offers is enough for what is left of a removal. -/
def Sufficient : ResolvedDeps → PendingRemoval → Prop
  | .full deps, r =>
      r.removedDid = deps.ownerDid ∨ r.phase = .adminRemoved → deps.adminRemove = true
  | .finalization, r => r.phase = .adminRemoved ∨ r.phase = .localCleanup
  | .cleanup, r => r.phase = .localCleanup

section

variable {deps : ResolvedDeps}

theorem resumes_finalizeTerminal
    (hdeps : cooperative = true → Sufficient deps r) (h : HeldRecord fingerprint home w r) :
    Resumes fingerprint home cooperative (r.spaceId, r.removedDid)
      (fun s w' => HeldRecord fingerprint home w' s ∧ s.staging = r.staging ∧
        (r.phase = .adminRemoved ∧ s.phase = .localCleanup ∨ r.phase ≠ .adminRemoved ∧ s = r))
      (finalizeTerminal deps r) w := by
  unfold finalizeTerminal
  split
  · next hadmin =>
    have hpost : r.phase.preCommit = false := by
      rw [hadmin]
      rfl
    refine bind (Q := fun _ w' => HeldRecord fingerprint home w' r) ?_ ?_
    · cases deps with
      | full deps => exact resumes_requireAdminRemoveDeps (fun hco => hdeps hco (.inr hadmin)) h
      | finalization => exact ret h
      | cleanup =>
        refine fail ?_ (.message _)
        rcases hco : cooperative with _ | _
        · rfl
        have hcleanup : r.phase = .localCleanup := hdeps hco
        rw [hadmin] at hcleanup
        cases hcleanup
    · intro _ w₁ h₁
      refine (resumes_finalizeSelfLeave h₁ hpost).post ?_
      intro s w₂ hs
      rcases hs with ⟨h₂, hstaging, hphase⟩
      exact ⟨h₂, hstaging, .inl ⟨hadmin, hphase⟩⟩
  · next hadmin => exact ret ⟨h, rfl, .inr ⟨hadmin, rfl⟩⟩

/-- What is left after the terminal phases: nothing, or the whole rotation. -/
def AfterTerminal (fingerprint : Nat → StagedRemovalKeyMaterial → String)
    (home : DocId → List String) (r : PendingRemoval) (left : Except Bool PendingRemoval)
    (w : RemovalWorld) : Prop :=
  match left with
  | .error _ => Resumed w r
  | .ok s => s = r ∧ HeldRecord fingerprint home w r ∧ r.phase ≠ .adminRemoved ∧
      r.phase ≠ .localCleanup

theorem resumes_finishTerminal
    (hdeps : cooperative = true → Sufficient deps r) (h : HeldRecord fingerprint home w r) :
    Resumes fingerprint home cooperative (r.spaceId, r.removedDid)
      (AfterTerminal fingerprint home r) (finishTerminal deps r) w := by
  refine bind (resumes_finalizeTerminal hdeps h) ?_
  intro s w₁ hs
  rcases hs with ⟨h₁, hstaging, hphase⟩
  rw [← key_of_staging hstaging]
  split
  · next hcomplete =>
    have hpost : s.phase.preCommit = false := by
      rw [hcomplete]
      rfl
    refine bind (resumes_deleteOwnStaging h₁ hpost) ?_
    intro _ w₂ h₂
    exact ret (h₂.of_staging hstaging)
  · split
    · next hcleanup =>
      have hpost : s.phase.preCommit = false := by
        rw [hcleanup]
        rfl
      refine bind (resumes_completeRemoval h₁ hpost) ?_
      intro _ w₂ h₂
      exact ret (h₂.of_staging hstaging)
    · next hcleanup =>
      rcases hphase with ⟨-, hphase⟩ | ⟨hadmin, rfl⟩
      · exact absurd hphase hcleanup
      · exact ret ⟨rfl, h₁, hadmin, hcleanup⟩

/-! ## 2. A driver -/

theorem resumes_enforceRemoval (deps : SecureRemovalDeps) (h : HeldRecord fingerprint home w r) :
    Resumes fingerprint home cooperative (r.spaceId, r.removedDid)
      (fun p w' => p.1 = r ∧ ∃ urls, p.2 = .confirmed urls ∧
        HeldRecord fingerprint home w' (r.confirming urls) ∧ (∀ url ∈ r.homeBrokerSet, url ∈ urls) ∧
            (r.phase.preCommit = false → urls = r.confirmedBrokerUrls))
      (enforceRemoval fingerprint deps r) w := by
  refine bind (resumes_bindStagingMaterial h) ?_
  intro s w₁ hs
  rcases hs with ⟨rfl, h₁⟩
  refine bind (Q := fun _ w' => HeldRecord fingerprint home w' s) (read fun _ _ => h₁) ?_
  intro _ w₂ h₂
  have hsame : s.confirming s.confirmedBrokerUrls = s := rfl
  refine bind (resumes_confirmBrokers deps s.homeBrokerSet s.confirmedBrokerUrls w₂
    (hsame ▸ h₂) fun _ hurl => hurl) ?_
  intro e w₃ he
  rcases he with ⟨urls, rfl, h₃, hall, -, hpost⟩
  exact ret ⟨rfl, urls, rfl, h₃, hall, hpost⟩

/-- **A driver of a stored removal runs to its end.** -/
theorem resumes_driveOnce (again : PendingRemoval → RemovalProgram Bool)
    (hdeps : cooperative = true → Sufficient deps r) (h : HeldRecord fingerprint home w r) :
    Resumes fingerprint home cooperative (r.spaceId, r.removedDid) (fun _ w' => Resumed w' r)
      (driveOnce fingerprint deps again r) w := by
  refine bind (resumes_finishTerminal hdeps h) ?_
  intro left w₁ hleft
  rcases left with done | s
  · exact ret hleft
  rcases hleft with ⟨rfl, h₁, hadmin, hcleanup⟩
  have missing : cooperative = true → ∀ deps, deps = .finalization ∨ deps = .cleanup →
      ¬ Sufficient deps s := by
    intro _ deps hcase hsuff
    rcases hcase with rfl | rfl
    · rcases hsuff with hphase | hphase
      · exact hadmin hphase
      · exact hcleanup hphase
    · exact hcleanup hsuff
  have deferred : deps = .finalization ∨ deps = .cleanup → cooperative = false := by
    intro hcase
    cases hco : cooperative with
    | false => rfl
    | true => exact absurd (hdeps hco) (missing hco deps hcase)
  cases deps with
  | finalization => exact fail (deferred (.inl rfl)) (.message _)
  | cleanup => exact fail (deferred (.inr rfl)) (.message _)
  | full deps =>
    refine bind (resumes_enforceRemoval deps h₁) ?_
    intro p w₂ hp
    rcases p with ⟨s', e⟩
    rcases hp with ⟨hs', urls, he, h₂, hall, hsame⟩
    have hs' : s' = s := hs'
    have he : e = .confirmed urls := he
    subst hs' he
    exact resumes_finishEnforced (fun hco hself => hdeps hco (.inl hself)) h₂ hall hsame

theorem resumes_drive (restages : Nat)
    (hdeps : cooperative = true → Sufficient deps r) (h : HeldRecord fingerprint home w r) :
    Resumes fingerprint home cooperative (r.spaceId, r.removedDid) (fun _ w' => Resumed w' r)
      (drive fingerprint deps restages r) w := by
  refine bind (Q := fun _ w' => Resumed w' r) ?_ fun _ _ hr => ret hr
  cases restages with
  | zero | succ restages => exact resumes_driveOnce _ hdeps h

end

/-! ## 3. Staging -/

theorem ResumeInv.of_eq (h : ResumeInv fingerprint home w) (hremovals : w'.removals = w.removals)
    (hkeys : w'.keys = w.keys) (hbrokers : w'.brokers = w.brokers)
    (hcommits : w'.commits = w.commits) : ResumeInv fingerprint home w' where
  unique := by
    rw [hremovals]
    exact h.unique
  sound := by
    intro k row hrow
    rw [hremovals] at hrow
    obtain ⟨r, rfl, hr⟩ := h.sound k row hrow
    refine ⟨r, rfl, ResumeInv.recordSound_frame hr ?_ ?_ ?_⟩
    · rw [hkeys]
    · intro url
      rw [hbrokers]
    intro c hc
    rw [hcommits]
    exact hc
  idle := by
    rw [hremovals, hkeys, hbrokers]
    exact h.idle
  future := by
    rw [hkeys]
    exact h.future

structure Stageable (home : DocId → List String) (deps : SecureRemovalDeps) (spaceId : DocId)
    (w : RemovalWorld) : Prop where
  brokers : deps.homeBrokerSet = home spaceId
  free : ∀ did, w.removals.get? (spaceId, did) = none

variable {deps : SecureRemovalDeps} {spaceId : DocId} {removedDid : Did}
  {resolveDeps : PendingRemoval → Option ResolvedDeps} {k : DocId × Did}
  {row : StoredPendingRemoval}

section

variable (h : Stageable home deps spaceId w)
include h

theorem Stageable.recordSound
    (hinv : ResumeInv fingerprint home w) (hcurrent : 0 ≤ (w.keys spaceId).generation)
    (hspace : r.spaceId = spaceId) (hhome : r.homeBrokerSet = deps.homeBrokerSet)
    (hnone : r.confirmedBrokerUrls = []) (hphase : r.phase = .staged)
    (hgeneration : r.newGeneration = ((w.keys spaceId).generation + 1).toNat)
    (hbound : r.isBound fingerprint = true) : RecordSound fingerprint home w r where
  bound := hbound
  home := by rw [hhome, h.brokers, hspace]
  confirmed url hurl := by
    rw [hnone] at hurl
    cases hurl
  staged _ := by
    refine ⟨.inl ?_, ?_⟩
    · rw [hspace, hgeneration]
      omega
    intro url hurl
    left
    rw [hhome, h.brokers] at hurl
    have hidle := hinv.idle spaceId h.free hcurrent url hurl
    rw [hspace, hgeneration]
    omega
  committed hpost := by
    rw [hphase] at hpost
    cases hpost

variable (activityEntry : Option String)

theorem resumes_stageRemovalCandidate (canonical : Bool) :
    Resumes fingerprint home false (spaceId, removedDid)
      (fun s w' => s.toStored.key = (spaceId, removedDid) ∧ Stageable home deps spaceId w' ∧
        RecordSound fingerprint home w' s)
      (stageRemovalCandidate fingerprint deps spaceId removedDid activityEntry canonical) w := by
  refine bind (Q := fun current w' => current = (w'.keys spaceId).generation ∧
    Stageable home deps spaceId w') (read fun _ _ => ⟨rfl, h⟩) ?_
  intro current w₁ hcurrent
  rcases hcurrent with ⟨rfl, h₁⟩
  split
  · exact fail rfl (.message _)
  next hknown =>
  refine Resumes.attempt fun hinv env => ?_
  refine ⟨hinv.of_eq rfl rfl rfl rfl, OthersKept.of_eq rfl rfl rfl rfl, rfl,
    ⟨h₁.brokers, h₁.free⟩, ?_⟩
  refine ResumeInv.recordSound_frame (w := w₁) ?_ rfl (fun _ => rfl) fun _ hc => hc
  refine h₁.recordSound hinv (by omega) rfl rfl rfl rfl rfl ?_
  simp [PendingRemoval.isBound, PendingRemoval.bound]

theorem Resumes.putAbsent
    (hkey : r.toStored.key = (spaceId, removedDid)) (hsound : RecordSound fingerprint home w r)
    {t : RemovalPoint} :
    Resumes fingerprint home cooperative (spaceId, removedDid)
      (fun _ w' => HeldRecord fingerprint home w' r) (putPendingRemoval t r .absent) w := by
  have hspace : r.spaceId = spaceId := congrArg Prod.fst hkey
  refine put ?_ hkey fun hinv => ?_
  · have hnone : w.removals.getPendingRemoval r.spaceId r.removedDid = none := by
      simp [PendingRemovals.getPendingRemoval, hspace, h.free]
    rw [hnone]
    rfl
  · have hinv' := hinv.write (s := r) (by
      intro did row hrow
      rw [hspace, h.free] at hrow
      cases hrow) hsound
    have hstored : StoredAs { w with removals := w.removals.put r.toStored } r :=
      (get?_put _ _ _).trans (if_pos rfl)
    exact ⟨hinv', hstored.held hinv'⟩

theorem resumes_stageRemoval (canonical : Bool) (targetGeneration : Option Nat) :
    Resumes fingerprint home false (spaceId, removedDid)
      (fun s w' => s.toStored.key = (spaceId, removedDid) ∧ HeldRecord fingerprint home w' s)
      (stageRemoval fingerprint deps spaceId removedDid activityEntry canonical targetGeneration
        none) w := by
  refine bind (resumes_stageRemovalCandidate h activityEntry canonical) ?_
  intro s w₁ hs
  rcases hs with ⟨hkey, h₁, hsound⟩
  split
  · exact fail rfl (.message _)
  refine handle ?_ ?_
  · refine bind (putAbsent h₁ hkey hsound) ?_
    intro _ w₂ h₂
    exact ret ⟨hkey, h₂⟩
  intro err w₂ hco herr
  cases herr with
  | message text => exact fail rfl (.message text)
  | pending _ _ _ _ => exact fail rfl (.pending ..)

end

def OnlyRemoval (w : RemovalWorld) (spaceId : DocId) (removedDid : Did) : Prop :=
  ∀ did row, w.removals.get? (spaceId, did) = some row → did = removedDid

theorem resumes_runTwoPhaseRemoval (hbrokers : deps.homeBrokerSet = home spaceId)
    (honly : OnlyRemoval w spaceId removedDid) (activityEntry : Option String) (canonical : Bool)
    (targetGeneration : Option Nat) (restages : Nat) :
    Resumes fingerprint home false (spaceId, removedDid) (fun _ _ => True)
      (runTwoPhaseRemoval fingerprint deps spaceId removedDid activityEntry canonical
        targetGeneration restages) w := by
  unfold runTwoPhaseRemoval
  split
  · exact fail rfl (.message _)
  split
  · exact fail rfl (.message _)
  split
  · exact fail rfl (.message _)
  refine bind (Q := fun existing w' => OnlyRemoval w' spaceId removedDid ∧
    ResumeInv fingerprint home w' ∧ existing = w'.removals.getPendingRemoval spaceId removedDid)
    (read fun hinv _ => ⟨honly, hinv, rfl⟩) ?_
  intro existing w₁ hexisting
  rcases hexisting with ⟨honly₁, hinv₁, hget⟩
  cases hrow : w₁.removals.get? (spaceId, removedDid) with
  | some row =>
    obtain ⟨r, rfl, -⟩ := hinv₁.sound _ _ hrow
    have hkey : r.toStored.key = (spaceId, removedDid) := key_of_get? hrow
    have hspace : r.spaceId = spaceId := congrArg Prod.fst hkey
    have hdid : r.removedDid = removedDid := congrArg Prod.snd hkey
    subst hspace hdid
    have hstored : StoredAs w₁ r := hrow
    rw [hstored.get] at hget
    subst hget
    exact (resumes_drive restages (fun hco => by cases hco) (hstored.held hinv₁)).post
      fun _ _ _ => trivial
  | none =>
    have hnone : existing = none := by
      rw [hget]
      simp [PendingRemovals.getPendingRemoval, hrow]
    subst hnone
    have hfree : Stageable home deps spaceId w₁ := by
      refine ⟨hbrokers, fun did => ?_⟩
      cases hother : w₁.removals.get? (spaceId, did) with
      | none => rfl
      | some row =>
        cases honly₁ did row hother
        cases hrow.symm.trans hother
    refine bind (resumes_stageRemoval hfree activityEntry canonical targetGeneration) ?_
    intro s w₂ hs
    rcases hs with ⟨hkey, h₂⟩
    have hkey : (s.spaceId, s.removedDid) = (spaceId, removedDid) := hkey
    rw [← hkey]
    exact (resumes_drive restages (fun hco => by cases hco) h₂).post fun _ _ _ => trivial

/-! ## 4. A recovery pass -/

def Recoverable (resolveDeps : PendingRemoval → Option ResolvedDeps) (r : PendingRemoval) : Prop :=
  r.phase = .complete ∨ ∃ deps, resolveDeps r = some deps ∧ Sufficient deps r

/-- **One record of a pass.**  An error ends only this record's turn. -/
theorem alone_recoverRemoval {restages : Nat}
    (hdeps : cooperative = true → Recoverable resolveDeps r) (h : HeldRecord fingerprint home w r) :
    Alone (resumeContract fingerprint home cooperative)
      (fun _ w' => OthersKept (r.spaceId, r.removedDid) w w' ∧ (cooperative = true → Resumed w' r))
      (fun _ _ => False) (recoverRemoval fingerprint resolveDeps restages r) w := by
  have caught : ∀ {p : RemovalProgram Unit},
      Resumes fingerprint home cooperative (r.spaceId, r.removedDid) (fun _ w' => Resumed w' r)
        p w →
      Alone (resumeContract fingerprint home cooperative)
        (fun _ w' => OthersKept (r.spaceId, r.removedDid) w w' ∧
          (cooperative = true → Resumed w' r))
        (fun _ _ => False) (p.tryCatch fun _ => .ret ()) w := by
    intro p hp
    apply alone_tryCatch
    refine hp.mono ?_ ?_
    · intro _ w' hr
      exact ⟨hr.1, fun _ => hr.2⟩
    intro _ w' he
    refine ⟨he.1, fun hco => ?_⟩
    rw [he.2.1] at hco
    cases hco
  unfold recoverRemoval
  split
  · next hcomplete =>
    have hpost : r.phase.preCommit = false := by
      rw [hcomplete]
      rfl
    apply caught
    exact bind (resumes_deleteOwnStaging h hpost) fun _ _ hr => ret hr
  · next hcomplete =>
    split
    · next hnone =>
      refine ⟨OthersKept.refl _ w, fun hco => ?_⟩
      rcases hdeps hco with hphase | ⟨deps, hsome, -⟩
      · exact absurd hphase hcomplete
      · rw [hnone] at hsome
        cases hsome
    · next deps hsome =>
      apply caught
      refine resumes_drive restages (fun hco => ?_) h
      rcases hdeps hco with hphase | ⟨deps', hsome', hsuff⟩
      · exact absurd hphase hcomplete
      · cases hsome.symm.trans hsome'
        exact hsuff

/-- Before the records `rest` of a pass: they are stored as listed, one to a space,
    and the removal `r` is among them or has come to its end. -/
structure PassInv (fingerprint : Nat → StagedRemovalKeyMaterial → String)
    (home : DocId → List String) (cooperative : Bool) (r : PendingRemoval)
    (rest : List PendingRemoval) (w : RemovalWorld) : Prop where
  held : ∀ s ∈ rest, HeldRecord fingerprint home w s
  apart : rest.Pairwise fun s s' => s.spaceId ≠ s'.spaceId
  target : cooperative = true → r ∈ rest ∨ Resumed w r ∧ ∀ s ∈ rest, s.spaceId ≠ r.spaceId

theorem Resumed.others (h : Resumed w r) (hk : OthersKept k w w') (hspace : r.spaceId ≠ k.1) :
    Resumed w' r where
  gone := by
    rw [hk.removals]
    · exact h.gone
    · rintro rfl
      exact hspace rfl
  active := by
    rw [hk.keys _ hspace]
    exact h.active
  installed url hurl := (hk.brokers url _ hspace).trans (h.installed url hurl)
  commit := hk.commits _ h.commit

theorem PassInv.tail {rest : List PendingRemoval}
    (h : PassInv fingerprint home cooperative r (s :: rest) w)
    (hk : OthersKept (s.spaceId, s.removedDid) w w')
    (hdone : cooperative = true → r = s → Resumed w' r) :
    PassInv fingerprint home cooperative r rest w' := by
  have happart := pairwise_cons.mp h.apart
  constructor
  · intro s' hs'
    have hheld := h.held s' (mem_cons_of_mem _ hs')
    have hspace : s'.spaceId ≠ s.spaceId := fun heq => happart.1 s' hs' heq.symm
    constructor
    · unfold StoredAs
      rw [hk.removals]
      · exact hheld.stored
      · intro heq
        exact hspace (congrArg Prod.fst heq)
    · exact ResumeInv.recordSound_frame hheld.sound (hk.keys _ hspace)
        (fun url => hk.brokers url _ hspace) hk.commits
  · exact happart.2
  · intro hco
    rcases h.target hco with hmem | ⟨hresumed, hspaces⟩
    · rcases mem_cons.mp hmem with rfl | hrest
      · right
        exact ⟨hdone hco rfl, fun s' hs' heq => happart.1 s' hs' heq.symm⟩
      · left
        exact hrest
    right
    refine ⟨hresumed.others hk ?_, fun s' hs' => hspaces s' (mem_cons_of_mem _ hs')⟩
    exact fun heq => hspaces s mem_cons_self heq.symm

theorem PassInv.of_list (h : ResumeInv fingerprint home w)
    (hr : cooperative = true → StoredAs w r) :
    PassInv fingerprint home cooperative r w.removals.listPendingRemovals w := by
  have stored : ∀ row ∈ w.removals.rows, row.load.toStored = row := by
    intro row hrow
    obtain ⟨s, rfl, -⟩ := h.sound _ _ (mem_rows_iff.mp hrow)
    rfl
  have listed : ∀ s ∈ w.removals.listPendingRemovals, StoredAs w s := by
    intro s hs
    obtain ⟨row, hrow, rfl⟩ := mem_map.mp hs
    have hget := mem_rows_iff.mp hrow
    have hsame := stored row hrow
    unfold StoredAs
    rw [hsame]
    exact hget
  refine ⟨fun s hs => (listed s hs).held h, ?_, fun hco => .inl ?_⟩
  · have hnodup : w.removals.rows.Pairwise fun row row' => row.key ≠ row'.key :=
      pairwise_map.mp w.removals.keys_nodup
    refine pairwise_map.mpr (hnodup.imp_of_mem ?_)
    intro row row' hrow hrow' hne heq
    exact hne (h.unique _ _ _ _ (mem_rows_iff.mp hrow) (mem_rows_iff.mp hrow') heq)
  · exact mem_map.mpr ⟨r.toStored, mem_of_get? (hr hco), rfl⟩

/-- **A pass ends the removal `r`**, when nothing fails and no answer is lost. -/
theorem alone_recoverPendingRemovals (restages : Nat)
    (hr : cooperative = true → StoredAs w r ∧ Recoverable resolveDeps r) :
    Alone (resumeContract fingerprint home cooperative)
      (fun _ w' => cooperative = true → Resumed w' r) (fun _ _ => cooperative = false)
      (recoverPendingRemovals fingerprint resolveDeps restages) w := by
  have listing : Resumes fingerprint home cooperative ("", "")
      (PassInv fingerprint home cooperative r)
      (WebOfTrust.attempt .listPendingRemovals fun _ w => (w.removals.listPendingRemovals, w)) w :=
    read fun hinv _ => PassInv.of_list hinv fun hco => (hr hco).1
  refine alone_bind (Alone.mono ?_ (fun _ _ he => he.2.1) listing)
  intro pending w₁ hpass
  have loop := alone_forEach (K := resumeContract fingerprint home cooperative)
    (E := fun (_ : RemovalError) _ => False) (J := PassInv fingerprint home cooperative r)
    (f := recoverRemoval fingerprint resolveDeps restages) ?_ hpass.2
  · refine loop.mono ?_ fun _ _ he => he.elim
    intro _ w₂ hdone hco
    rcases hdone.target hco with hmem | ⟨hresumed, -⟩
    · cases hmem
    · exact hresumed
  intro s rest w₂ hpass₂
  have hheld := hpass₂.held s mem_cons_self
  by_cases htarget : cooperative = true ∧ r = s
  · obtain ⟨hco, rfl⟩ := htarget
    refine (alone_recoverRemoval (fun hco => (hr hco).2) hheld).mono ?_ fun _ _ he => he
    intro _ w₃ hdone
    exact hpass₂.tail hdone.1 fun hco _ => hdone.2 hco
  have hother : Alone (resumeContract fingerprint home false)
      (fun _ w' => OthersKept (s.spaceId, s.removedDid) w₂ w' ∧ (false = true → Resumed w' s))
      (fun _ _ => False) (recoverRemoval fingerprint resolveDeps restages s) w₂ :=
    alone_recoverRemoval (fun hco => by cases hco) hheld
  have hmay : ∀ t i w, (resumeContract fingerprint home cooperative).may t i w →
      (resumeContract fingerprint home false).may t i w := by
    intro t i w₃ hmay
    exact ⟨hmay.1, fun hco => by cases hco⟩
  refine Alone.mono ?_ (fun _ _ he => he) (Alone.restrict hmay rfl rfl hother)
  intro _ w₃ hdone
  exact hpass₂.tail hdone.1 fun hco heq => absurd ⟨hco, heq⟩ htarget

/-! ## 5. Runs -/

instance (w : RemovalWorld) (env : RemovalEnv) : (t : RemovalPoint) → Decidable (Honest w env t)
  | .sendSpaceRotate _ _ => inferInstanceAs (Decidable (_ ∨ _ ∨ _ ∧ _))
  | .sendAdminRemove _ _ => inferInstanceAs (Decidable (_ ∨ ∃ _, _))
  | .getPendingRemoval .. | .listPendingRemovals | .currentGeneration .. | .mint .. | .put ..
  | .checkBinding .. | .createRotateFrame .. | .markBrokerConfirmed .. | .catchUp ..
  | .persistPhase .. | .gate .. | .commit .. | .createAdminRemoveFrame ..
  | .finalizeSelfLeave .. | .delete .. | .otherRotation .. | .keyRotation .. => isTrue trivial

def Quiet (c : RemovalConfig) : Prop := ∀ p ∈ c.procs, p.point = none

instance (c : RemovalConfig) : Decidable (Quiet c) := decidableBAll _ _

/-- Which calls a run admits: one removal to a space, by a driver that knows the
    brokers of that space; `undisturbed`, no other admin's rotation. -/
def admitsCall (home : DocId → List String) (undisturbed : Bool) (w : RemovalWorld) :
    RemovalCall → Prop
  | .run deps spaceId removedDid _ _ _ _ => deps.homeBrokerSet = home spaceId ∧
      ∀ row ∈ w.removals.rows, row.spaceId = spaceId → row.removedDid = removedDid
  | .recover _ _ => True
  | .otherRotation _ _ => undisturbed = false
  | .keyRotation _ _ _ => undisturbed = false

def ResumeRun (home : DocId → List String) (undisturbed : Bool) (c : RemovalConfig) :
    Action RemovalEnv RemovalCall → Prop
  | .call k => Quiet c ∧ admitsCall home undisturbed c.world k
  | .run n env => (∀ p ∈ c.procs.eraseIdx n, p.point = none) ∧
      ∀ t ∈ c.pointAt n, Honest c.world env t
  | .crash _ => True
  | .restart => True

instance (home : DocId → List String) (undisturbed : Bool) (w : RemovalWorld) :
    (k : RemovalCall) → Decidable (admitsCall home undisturbed w k)
  | .run .. => inferInstanceAs (Decidable (_ ∧ _))
  | .recover .. => isTrue trivial
  | .otherRotation .. => inferInstanceAs (Decidable (_ = _))
  | .keyRotation .. => inferInstanceAs (Decidable (_ = _))

instance (home : DocId → List String) (undisturbed : Bool) (c : RemovalConfig) :
    (a : Action RemovalEnv RemovalCall) → Decidable (ResumeRun home undisturbed c a)
  | .call _ => inferInstanceAs (Decidable (_ ∧ _))
  | .run _ _ => inferInstanceAs (Decidable (_ ∧ _))
  | .crash _ => isTrue trivial
  | .restart => isTrue trivial

/-- No removal has been staged yet, and brokers and device agree on every space. -/
structure Unstaged (home : DocId → List String) (w : RemovalWorld) : Prop where
  empty : w.removals.rows = []
  unminted : w.minted = []
  modern : w.inherited = false
  brokers : ∀ spaceId, 0 ≤ (w.keys spaceId).generation → ∀ url ∈ home spaceId,
    ((w.brokers url spaceId).generation : Int) = (w.keys spaceId).generation
  keys : ∀ spaceId, NoFuture (w.keys spaceId)

theorem Unstaged.get (h : Unstaged home w) (k : DocId × Did) : w.removals.get? k = none := by
  apply get?_eq_none_iff.mpr
  rw [h.empty]
  intro row hrow
  cases hrow

theorem Unstaged.inv (h : Unstaged home w) : ResumeInv fingerprint home w where
  unique := by
    intro k k' row row' hrow
    rw [h.get] at hrow
    cases hrow
  sound := by
    intro k row hrow
    rw [h.get] at hrow
    cases hrow
  idle := fun spaceId _ => h.brokers spaceId
  future := h.keys

theorem Unstaged.legacy (h : Unstaged home w) : LegacyStore w where
  unminted := h.unminted
  legacy := by
    intro k row hrow
    rw [h.get] at hrow
    cases hrow

variable {c c' : RemovalConfig}

private def anyRemoval : PendingRemoval := stagingTemplate ⟨"", [], 0, false⟩ "" "" none false 0

theorem resume_verified (hw : Unstaged home w) :
    Verified (removalSystem fingerprint) (ResumeRun home true) w
      (resumeContract fingerprint home false) (fun _ _ => True) (fun _ _ => True) where
  init := hw.inv
  call := by
    intro c k hadm _
    have noRely : ∀ t s s', (resumeContract fingerprint home false).rely t s s' → s' = s :=
      fun _ _ _ h => h
    cases k with
    | run deps spaceId removedDid activityEntry canonical targetGeneration restages =>
      obtain ⟨-, hbrokers, honly⟩ := hadm
      have hspace : OnlyRemoval c.world spaceId removedDid := by
        intro did row hrow
        have hkey : row.key = (spaceId, did) := key_of_get? hrow
        rw [← honly row (mem_of_get? hrow) (congrArg Prod.fst hkey)]
        exact (congrArg Prod.snd hkey).symm
      apply Alone.meets noRely
      exact (resumes_runTwoPhaseRemoval hbrokers hspace activityEntry canonical targetGeneration
        restages).mono (fun _ _ _ => trivial) fun _ _ _ => trivial
    | recover resolveDeps restages =>
      apply Alone.meets noRely
      -- no removal is singled out
      have hnone : false = true → StoredAs c.world anyRemoval ∧
        Recoverable resolveDeps anyRemoval := by
        intro hco
        cases hco
      exact (alone_recoverPendingRemovals restages hnone).mono (fun _ _ _ => trivial)
        fun _ _ _ => trivial
    | otherRotation brokerUrl frame | keyRotation spaceId generation key => cases hadm.2
  may := by
    intro c n env t hadm hpoint _
    refine ⟨hadm.2 t hpoint, fun hco => ?_⟩
    cases hco
  restart := fun _ _ hinv => hinv
  quiet := by
    intro c n env t w' hadm _ _ _ m t' hm hpoint
    -- nobody else is suspended
    obtain ⟨p, hp, hwait⟩ := Option.bind_eq_some_iff.mp hpoint
    have hnone := hadm.1 p (mem_eraseIdx_iff_getElem?.mpr ⟨m, hm, hp⟩)
    rw [hnone] at hwait
    cases hwait
  result := fun _ _ _ _ _ _ _ => trivial
  error := fun _ _ _ _ _ _ _ => trivial

/-- A removal that nobody has overtaken: the staged generation is the next one of the
    device, or the one that it has just activated. -/
theorem ResumeInv.next_generation (hinv : ResumeInv fingerprint home w) (hr : StoredAs w r) :
    (w.keys r.spaceId).generation + 1 = r.newGeneration ∨
      (w.keys r.spaceId).generation = r.newGeneration := by
  have hsound := hr.recordSound hinv
  rcases hphase : r.phase.preCommit with _ | _
  · exact .inr (hsound.committed hphase).1.1
  rcases (hsound.staged hphase).1 with hbehind | hactive
  · exact .inl hbehind
  · exact .inr hactive.1

def RecoversIn (fingerprint : Nat → StagedRemovalKeyMaterial → String)
    (resolveDeps : PendingRemoval → Option ResolvedDeps) (restages : Nat)
    (input : RemovalPoint → RemovalWorld → RemovalEnv) (c c' : RemovalConfig) : Prop :=
  ∃ c₁, c.step (removalSystem fingerprint) (.call (.recover resolveDeps restages)) = some c₁ ∧
    RunsTo (removalSystem fingerprint) input c.procs.length c₁ c'

/-- The world answers honestly, no answer is lost and no step fails. -/
def Answers (input : RemovalPoint → RemovalWorld → RemovalEnv) : Prop :=
  ∀ t w, Honest w (input t w) t ∧ Smooth (input t w)

theorem recovers_of_reachable (hw : Unstaged home w)
    (h : Reachable (removalSystem fingerprint) (ResumeRun home true) w c) (hr : StoredAs c.world r)
    (hdeps : Recoverable resolveDeps r) (restages : Nat)
    {input : RemovalPoint → RemovalWorld → RemovalEnv} (hinput : Answers input) :
    ∃ c', RecoversIn fingerprint resolveDeps restages input c c' ∧ Resumed c'.world r := by
  have hinv : (resumeContract fingerprint home true).inv c.world := (resume_verified hw).inv h
  have hpass : Alone (resumeContract fingerprint home true)
      (fun _ w' => true = true → Resumed w' r) (fun _ _ => true = false)
      (recoverPendingRemovals fingerprint resolveDeps restages) c.world :=
    alone_recoverPendingRemovals restages fun _ => ⟨hr, hdeps⟩
  have hmay : ∀ t s, ResumeInv fingerprint home s →
      (resumeContract fingerprint home true).may t (input t s) s :=
    fun t s _ => ⟨(hinput t s).1, fun _ => (hinput t s).2⟩
  let c₁ : RemovalConfig := { c with
    procs := c.procs ++ [recoverPendingRemovals fingerprint resolveDeps restages] }
  have hproc : c₁.procs[c.procs.length]? =
      some (recoverPendingRemovals fingerprint resolveDeps restages) := by
    simp [c₁]
  obtain ⟨c', hruns, hend⟩ := RunsTo.of_alone (S := removalSystem fingerprint) hmay hproc hinv hpass
  refine ⟨c', ⟨c₁, rfl, hruns⟩, ?_⟩
  rcases hend with ⟨_, -, hdone⟩ | ⟨_, -, hco⟩
  · exact hdone rfl
  · cases hco

/-! ## 6. Deletions -/

def DeletionJustified (w : RemovalWorld) (r : PendingRemoval) : Prop :=
  r.commit ∈ w.commits ∨ r.canonicalSelfRemovalRotation = true ∧
    (r.newGeneration : Int) ≤ (w.keys r.spaceId).generation

theorem delete_of_gone {t : RemovalPoint} {env : RemovalEnv} (heffect : RemovalEffect env w w' t)
    (hrow : w.removals.get? k = some row) (hgone : w'.removals.get? k = none) :
    ∃ removal, t = .delete removal ∧ k = (removal.spaceId, removal.removedDid) ∧
      matchesStagingExpectation (some row.load)
        (some (pendingRemovalWriteExpectation (some removal))) = true := by
  have kept : w'.removals = w.removals → False := by
    intro hsame
    rw [hsame, hrow] at hgone
    cases hgone
  have put : ∀ new : StoredPendingRemoval, w'.removals = w.removals.put new → False := by
    intro new hput
    rw [hput, get?_put] at hgone
    split at hgone
    · cases hgone
    · rw [hrow] at hgone
      cases hgone
  cases t with
  | put removal expect | persistPhase copy removal =>
    rcases heffect with hsame | ⟨-, -, hput⟩
    · exact (kept hsame).elim
    · exact (put _ hput).elim
  | markBrokerConfirmed removal brokerUrl =>
    rcases heffect with hsame | hmark
    · exact (kept hsame).elim
    rcases markBrokerConfirmed_cases w.removals removal.spaceId
      removal.removedDid brokerUrl removal.binding with ⟨hsame, -⟩ | ⟨row', -, -, -, -, hput⟩
    · exact (kept (hmark.trans hsame)).elim
    · exact (put _ (hmark.trans hput)).elim
  | delete removal =>
    rcases heffect with hsame | ⟨-, hdelete⟩
    · exact (kept hsame).elim
    rcases deletePendingRemoval_cases w.removals removal.spaceId
      removal.removedDid (pendingRemovalWriteExpectation (some removal)) with
        hsame | ⟨hmatch, herase⟩
    · exact (kept (hdelete.trans hsame)).elim
    rw [hdelete, herase, get?_erase] at hgone
    split at hgone
    · next heq =>
      subst heq
      have hget : w.removals.getPendingRemoval removal.spaceId removal.removedDid =
          some row.load := by
        simp [PendingRemovals.getPendingRemoval, hrow]
      rw [hget] at hmatch
      exact ⟨removal, rfl, rfl, hmatch⟩
    · rw [hrow] at hgone
      cases hgone
  | _ => exact (kept heffect).elim

theorem deletion_justified (hw : Unstaged home w)
    (h : Reachable (removalSystem fingerprint) (RemovalRun false) w c)
    {a : Action RemovalEnv RemovalCall} (ha : RemovalRun false c a)
    (hs : c.step (removalSystem fingerprint) a = some c')
    (hrow : c.world.removals.get? k = some row) (hgone : c'.world.removals.get? k = none) :
    DeletionJustified c.world row.load := by
  have V : Verified (removalSystem fingerprint) (RemovalRun false) w
      (removalContract fingerprint false) (fun _ _ => True) (fun _ _ => True) :=
        removal_verified hw.legacy
  have modern : ∀ {c : RemovalConfig},
      Reachable (removalSystem fingerprint) (RemovalRun false) w c → c.world.inherited = false := by
    intro c hreach
    induction hreach with
    | start => exact hw.modern
    | @step c c₁ a hc ha hs ih =>
      cases a with
      | call call => exact (Config.world_eq_of_call hs) ▸ ih
      | run n env =>
        obtain ⟨t, -, hgrow, -⟩ := V.guar hc ha hs
        exact hgrow.inherited.trans ih
      | crash n => exact (Config.world_eq_of_crash hs) ▸ ih
      | restart =>
        cases hs
        exact ih
  have unchanged : c'.world = c.world → False := by
    intro hsame
    rw [hsame, hrow] at hgone
    cases hgone
  cases a with
  | call call => exact (unchanged (Config.world_eq_of_call hs)).elim
  | crash n => exact (unchanged (Config.world_eq_of_crash hs)).elim
  | restart =>
    cases hs
    exact (unchanged rfl).elim
  | run n env =>
    obtain ⟨t, -, -, haware, heffect⟩ := V.guar h ha hs
    obtain ⟨removal, rfl, hkey, hmatch⟩ := delete_of_gone heffect hrow hgone
    obtain ⟨hknown, hremovable⟩ := haware
    have hinv := V.inv h
    have hid : removal.stagingId.isSome = true := by
      cases hsome : removal.stagingId with
      | some id => rfl
      | none =>
        have hinherited := hknown.identified hsome
        rw [modern h] at hinherited
        cases hinherited
    have hsid : row.load.stagingId = removal.stagingId := stagingId_of_matches hid hmatch
    have hstaging : row.load.staging = removal.staging :=
      hinv.staging_unique (hinv.known k row hrow) hknown (hsid ▸ hid) hsid
    have hspace : row.load.spaceId = removal.spaceId := congrArg Staging.spaceId hstaging
    rcases hremovable with hpost | ⟨hcanonical, hgen⟩
    · left
      obtain ⟨m, hm⟩ := hknown.minted hid
      have hstaged : m.phase = .staged := by
        by_contra hne
        have hinherited := (hm.settled hne).2
        rw [modern h] at hinherited
        cases hinherited
      rw [commit_of_staging hstaging]
      exact hm.committed hstaged hpost
    · right
      have hcan : row.load.canonicalSelfRemovalRotation = removal.canonicalSelfRemovalRotation :=
        congrArg Staging.canonicalSelfRemovalRotation hstaging
      have hnew : row.load.newGeneration = removal.newGeneration :=
        congrArg Staging.newGeneration hstaging
      rw [hcan, hnew, hspace]
      exact ⟨hcanonical, hgen⟩

/-! ## 7. Every crash point -/

/-- **A crashed removal is resumed**, wherever the crash came: a recovery pass activates
    the staged generation, the next one of the device, commits, and deletes the record.
    And in every run at all, no record is deleted before its commit but that of a
    canonical removal whose generation is there. -/
theorem removal_resumes (hw : Unstaged home w) :
    (∀ c r, Reachable (removalSystem fingerprint) (ResumeRun home true) w c → Quiet c →
      StoredAs c.world r → ∀ resolveDeps, Recoverable resolveDeps r → ∀ restages input,
        Answers input → ∃ c', RecoversIn fingerprint resolveDeps restages input c c' ∧
          Resumed c'.world r ∧ ((c.world.keys r.spaceId).generation + 1 = r.newGeneration ∨
            (c.world.keys r.spaceId).generation = r.newGeneration)) ∧
      ∀ c a c' k row, Reachable (removalSystem fingerprint) (RemovalRun false) w c →
        RemovalRun false c a → c.step (removalSystem fingerprint) a = some c' →
          c.world.removals.get? k = some row → c'.world.removals.get? k = none →
            DeletionJustified c.world row.load := by
  constructor
  · intro c r h _ hr resolveDeps hdeps restages input hinput
    obtain ⟨c', hrecovers, hresumed⟩ := recovers_of_reachable hw h hr hdeps restages hinput
    have hinv := (resume_verified hw).inv h
    exact ⟨c', hrecovers, hresumed, ResumeInv.next_generation hinv hr⟩
  · intro c a c' k row h ha hs hrow hgone
    exact deletion_justified hw h ha hs hrow hgone

def oneBroker (_ : DocId) : List String := ["broker-1"]

theorem freshWorld_unstaged : Unstaged oneBroker freshWorld where
  empty := rfl
  unminted := rfl
  modern := rfl
  brokers _ _ _ _ := rfl
  keys _ _ _ := rfl

def honestInput : RemovalPoint → RemovalWorld → RemovalEnv
  | .sendSpaceRotate brokerUrl frame, w =>
      { removalEnv with reply := (w.brokers brokerUrl frame.spaceId).reply frame }
  | _, _ => removalEnv

theorem reply_ne_lost (b : BrokerSpace) (frame : RotateFrame) (accepted : Bool) :
    b.reply frame ≠ .lost accepted := by
  unfold BrokerSpace.reply
  repeat' split
  all_goals simp

theorem honestInput_answers : Answers honestInput := by
  intro t w
  cases t with
  | sendSpaceRotate brokerUrl frame => exact ⟨.inl rfl, rfl, fun _ => reply_ne_lost _ _ _⟩
  | sendAdminRemove removal brokerUrl =>
    exact ⟨.inl rfl, rfl, fun accepted h => by cases h⟩
  | _ => exact ⟨trivial, rfl, fun accepted h => by cases h⟩

def removeCanonical : Action RemovalEnv RemovalCall :=
  .call (.run adminDeps "space-1" "did:member" none true none 0)

def memberRecord (c : RemovalConfig) : Option StoredPendingRemoval :=
  (c.world.removals.get? ("space-1", "did:member")).filter fun row =>
    decide (row.load.toStored = row)

theorem storedAs_of_memberRecord (h : memberRecord c = some row) : StoredAs c.world row.load := by
  obtain ⟨hget, hformat⟩ := Option.filter_eq_some_iff.mp h
  have hkey : row.key = ("space-1", "did:member") := key_of_get? hget
  unfold StoredAs
  rw [of_decide_eq_true hformat]
  show c.world.removals.get? row.key = some row
  rw [hkey]
  exact hget

/-- The device goes down when the broker has accepted the frame but the device has not
    noted it, and a recovery pass ends the removal; a driver that is not interrupted
    deletes the record after its commit. -/
theorem removal_resumes_accepted :
    (∃ c c' row, Reachable (removalSystem onlyFingerprint) (ResumeRun oneBroker true) freshWorld c ∧
      memberRecord c = some row ∧
      RecoversIn onlyFingerprint (fun _ => some (.full adminDeps)) 0 honestInput c c' ∧
      Resumed c'.world row.load) ∧
    ∃ c c' row, Reachable (removalSystem onlyFingerprint) (RemovalRun false) freshWorld c ∧
      c.step (removalSystem onlyFingerprint) (.run 0 removalEnv) = some c' ∧
      memberRecord c = some row ∧ c'.world.removals.get? ("space-1", "did:member") = none ∧
      DeletionJustified c.world row.load := by
  constructor
  · obtain ⟨c, hreach, htest⟩ := Reachable.of_exec (removalSystem onlyFingerprint)
      (ResumeRun oneBroker true) freshWorld
      (removeMember :: (replicate 7 (.run 0 removalEnv)).append [.restart])
      (fun c => decide (Quiet c) && (memberRecord c).isSome) (by decide)
    simp only [Bool.and_eq_true, decide_eq_true_eq, Option.isSome_iff_exists] at htest
    obtain ⟨hquiet, row, hrow⟩ := htest
    have hdeps : Recoverable (fun _ => some (.full adminDeps)) row.load :=
      .inr ⟨.full adminDeps, rfl, fun _ => rfl⟩
    obtain ⟨c', hrecovers, hresumed, -⟩ := (removal_resumes freshWorld_unstaged).1 c row.load
      hreach hquiet (storedAs_of_memberRecord hrow) _ hdeps 0 honestInput honestInput_answers
    exact ⟨c, c', row, hreach, hrow, hrecovers, hresumed⟩
  · obtain ⟨c, hreach, htest⟩ := Reachable.of_exec (removalSystem onlyFingerprint)
      (RemovalRun false) freshWorld (removeMember :: replicate 17 (.run 0 removalEnv))
      (fun c => (memberRecord c).isSome && decide (RemovalRun false c (.run 0 removalEnv)) &&
        (c.step (removalSystem onlyFingerprint) (.run 0 removalEnv)).any fun c' =>
          (c'.world.removals.get? ("space-1", "did:member")).isNone) (by decide)
    simp only [Bool.and_eq_true, decide_eq_true_eq, Option.isSome_iff_exists, Option.any_eq_true,
      Option.isNone_iff_eq_none] at htest
    obtain ⟨⟨⟨row, hrow⟩, hadm⟩, c', hs, hgone⟩ := htest
    have hget := (Option.filter_eq_some_iff.mp hrow).1
    exact ⟨c, c', row, hreach, hs, hrow, hgone,
      (removal_resumes freshWorld_unstaged).2 c _ c' _ row hreach hadm hs hget hgone⟩

/-- **Overtaken.**  Another admin's rotation takes the staged generation, and its key
    reaches the device: the recovery deletes the record and never commits. -/
theorem recovery_superseded :
    ¬ ∀ c r, Reachable (removalSystem onlyFingerprint) (ResumeRun oneBroker false) freshWorld c →
      Quiet c → StoredAs c.world r →
        ∃ c', RecoversIn onlyFingerprint (fun _ => some (.full adminDeps)) 0 honestInput c c' ∧
          Resumed c'.world r := by
  intro hclaim
  obtain ⟨c, hreach, htest⟩ := Reachable.of_exec (removalSystem onlyFingerprint)
    (ResumeRun oneBroker false) freshWorld
    (removeCanonical :: (replicate 4 (.run 0 removalEnv)).append [.restart,
      .call (.otherRotation "broker-1" ⟨"space-1", 1, [9]⟩), .run 0 removalEnv,
      .call (.keyRotation "space-1" 1 [8]), .run 1 removalEnv])
    (fun c => decide (Quiet c) && (memberRecord c).isSome &&
      ((c.step (removalSystem onlyFingerprint)
        (.call (.recover (fun _ => some (.full adminDeps)) 0))).bind
          (RunsTo.run (removalSystem onlyFingerprint) honestInput c.procs.length 20)).any
            fun c' => c'.world.commits.isEmpty) (by decide)
  simp only [Bool.and_eq_true, decide_eq_true_eq, Option.isSome_iff_exists, Option.any_eq_true,
    List.isEmpty_iff] at htest
  obtain ⟨⟨hquiet, row, hrow⟩, c₂, hrun, hnone⟩ := htest
  obtain ⟨c₁, hcall, hrun⟩ := Option.bind_eq_some_iff.mp hrun
  obtain ⟨c', ⟨c₁', hcall', hruns⟩, hresumed⟩ :=
    hclaim c row.load hreach hquiet (storedAs_of_memberRecord hrow)
  cases hcall.symm.trans hcall'
  cases hruns.unique (RunsTo.of_run hrun)
  have hcommit := hresumed.commit
  rw [hnone] at hcommit
  cases hcommit

end WebOfTrust
