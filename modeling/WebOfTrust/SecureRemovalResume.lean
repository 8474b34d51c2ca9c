/-
  **Resuming a removal.**  One driver at a time, honest brokers, and nobody else
  rotates the space.  A crash can leave a removal behind at any await; what lies in
  the store, in the key store and at the brokers then still fits together
  (`ResumeInv`), and a driver that starts from there runs to the end.

  `Resumes` says so for drivers that may be cut off (`cooperative` is false: a
  broker's answer can be lost, a step can fail) and for drivers left to finish.
-/
import WebOfTrust.SecureRemovalDrivers

namespace WebOfTrust

open Async KeyedTable Staging BrokerReply List

/-! ## 1. What fits together -/

def Activating (k : SpaceKeys) (r : PendingRemoval) : Prop :=
  k.generation + 1 = r.newGeneration ∨ k.generation = r.newGeneration ∧
      k.contentKey r.newGeneration = some r.stagedKeyMaterial.contentKey ∧
      ∀ key, k.capVerificationKey r.newGeneration = some key →
        key = r.stagedKeyMaterial.capVerificationKey

def Activated (k : SpaceKeys) (r : PendingRemoval) : Prop :=
  k.generation = r.newGeneration ∧
    k.contentKey r.newGeneration = some r.stagedKeyMaterial.contentKey

def Installed (w : RemovalWorld) (r : PendingRemoval) (brokerUrl : String) : Prop :=
  w.brokers brokerUrl r.spaceId = .install r.rotateFrame

section

variable (fingerprint : Nat → StagedRemovalKeyMaterial → String) (home : DocId → List String)
  (cooperative : Bool)

structure RecordSound (w : RemovalWorld) (r : PendingRemoval) : Prop where
  bound : r.isBound fingerprint = true
  home : r.homeBrokerSet = home r.spaceId
  confirmed : ∀ url ∈ r.confirmedBrokerUrls, Installed w r url
  staged : r.phase.preCommit = true → Activating (w.keys r.spaceId) r ∧
    ∀ url ∈ r.homeBrokerSet, (w.brokers url r.spaceId).generation + 1 = r.newGeneration ∨
      Installed w r url
  committed : r.phase.preCommit = false → Activated (w.keys r.spaceId) r ∧
    (∀ url ∈ r.homeBrokerSet, url ∈ r.confirmedBrokerUrls) ∧ r.commit ∈ w.commits

/-- Store, keys and brokers fit together; one removal to a space. -/
structure ResumeInv (w : RemovalWorld) : Prop where
  unique : ∀ k k' row row', w.removals.get? k = some row → w.removals.get? k' = some row' →
    k.1 = k'.1 → k = k'
  sound : ∀ k row, w.removals.get? k = some row →
    ∃ r, row = r.toStored ∧ RecordSound fingerprint home w r
  idle : ∀ spaceId, (∀ did, w.removals.get? (spaceId, did) = none) →
    0 ≤ (w.keys spaceId).generation → ∀ url ∈ home spaceId,
      ((w.brokers url spaceId).generation : Int) = (w.keys spaceId).generation
  future : ∀ spaceId (g : Nat), (w.keys spaceId).generation < g →
    (w.keys spaceId).capVerificationKey g = none

def Honest (w : RemovalWorld) (env : RemovalEnv) : RemovalPoint → Prop
  | .sendSpaceRotate brokerUrl frame =>
      env.reply = (w.brokers brokerUrl frame.spaceId).reply frame ∨ env.reply = .lost false ∨
          env.reply = .lost true ∧ (w.brokers brokerUrl frame.spaceId).reply frame = .receipt
  | .sendAdminRemove _ _ => env.reply = .receipt ∨ ∃ accepted, env.reply = .lost accepted
  | _ => True

def Smooth (env : RemovalEnv) : Prop := env.failure = none ∧ ∀ accepted, env.reply ≠ .lost accepted

def resumeContract : Contract RemovalPoint RemovalEnv RemovalWorld where
  inv := ResumeInv fingerprint home
  rely _ w w' := w' = w
  may t env w := Honest w env t ∧ (cooperative = true → Smooth env)
  guar _ _ _ _ := True

structure OthersKept (k : DocId × Did) (w w' : RemovalWorld) : Prop where
  removals : ∀ k', k' ≠ k → w'.removals.get? k' = w.removals.get? k'
  keys : ∀ spaceId, spaceId ≠ k.1 → w'.keys spaceId = w.keys spaceId
  brokers : ∀ url spaceId, spaceId ≠ k.1 → w'.brokers url spaceId = w.brokers url spaceId
  commits : ∀ c ∈ w.commits, c ∈ w'.commits

inductive Deferred : RemovalError → Prop where
  | message (text : String) : Deferred (.message text)
  | pending (spaceId : DocId) (removedDid : Did) (targetGeneration : Nat)
      (stage : RemovalPendingStage) :
      Deferred (.pendingNotEnforced spaceId removedDid targetGeneration stage)

/-- A driver of the removal under `k` ends in `Q`; unless everybody cooperates it may
    also be deferred. -/
def Resumes {α : Type} (k : DocId × Did) (Q : α → RemovalWorld → Prop) (p : RemovalProgram α)
    (w : RemovalWorld) : Prop :=
  Alone (resumeContract fingerprint home cooperative) (fun a w' => OthersKept k w w' ∧ Q a w')
    (fun err w' => OthersKept k w w' ∧ cooperative = false ∧ Deferred err) p w

end

variable {fingerprint : Nat → StagedRemovalKeyMaterial → String} {home : DocId → List String}
  {cooperative : Bool} {α β : Type} {w w' : RemovalWorld} {r s : PendingRemoval}
  {k : DocId × Did} {t : RemovalPoint} {urls : List String} {deps : SecureRemovalDeps}

namespace OthersKept

theorem refl (k : DocId × Did) (w : RemovalWorld) : OthersKept k w w where
  removals _ _ := rfl
  keys _ _ := rfl
  brokers _ _ _ := rfl
  commits _ h := h

theorem trans {w₁ w₂ w₃ : RemovalWorld} (h : OthersKept k w₁ w₂) (h' : OthersKept k w₂ w₃) :
    OthersKept k w₁ w₃ where
  removals k' hk' := (h'.removals k' hk').trans (h.removals k' hk')
  keys spaceId hs := (h'.keys spaceId hs).trans (h.keys spaceId hs)
  brokers url spaceId hs := (h'.brokers url spaceId hs).trans (h.brokers url spaceId hs)
  commits c hc := h'.commits c (h.commits c hc)

theorem of_eq (hr : w'.removals = w.removals) (hk : w'.keys = w.keys)
    (hb : w'.brokers = w.brokers) (hc : w'.commits = w.commits) : OthersKept k w w' where
  removals _ _ := by rw [hr]
  keys _ _ := by rw [hk]
  brokers _ _ _ := by rw [hb]
  commits _ h := hc ▸ h

variable (w : RemovalWorld)

theorem setKeys (keys : SpaceKeys) : OthersKept k w (w.setKeys k.1 keys) where
  removals _ _ := rfl
  keys _ hs := Function.update_of_ne hs _ _
  brokers _ _ _ := rfl
  commits _ h := h

theorem install (brokerUrl : String) {frame : RotateFrame}
    (hframe : frame.spaceId = k.1) : OthersKept k w (w.install brokerUrl frame) where
  removals _ _ := rfl
  keys _ _ := rfl
  brokers url spaceId hs := by
    show Function.update w.brokers brokerUrl _ url spaceId = _
    by_cases hurl : url = brokerUrl
    · subst hurl
      rw [Function.update_self, Function.update_of_ne (hframe ▸ hs)]
    · rw [Function.update_of_ne hurl]
  commits _ h := h

theorem put {row : StoredPendingRemoval} (hrow : row.key = k) :
    OthersKept k w { w with removals := w.removals.put row } where
  removals k' hk' := by
    show (w.removals.put row).get? k' = _
    rw [get?_put, if_neg]
    rw [hrow]
    exact fun heq => hk' heq.symm
  keys _ _ := rfl
  brokers _ _ _ := rfl
  commits _ h := h

theorem erase : OthersKept k w { w with removals := w.removals.erase k } where
  removals k' hk' := by
    show (w.removals.erase k).get? k' = _
    rw [get?_erase, if_neg]
    exact fun heq => hk' heq.symm
  keys _ _ := rfl
  brokers _ _ _ := rfl
  commits _ h := h

theorem commit (c : RemovalCommit) : OthersKept k w { w with commits := w.commits ++ [c] } where
  removals _ _ := rfl
  keys _ _ := rfl
  brokers _ _ _ := rfl
  commits _ h := mem_append_left _ h

end OthersKept

def StoredAs (w : RemovalWorld) (r : PendingRemoval) : Prop :=
  w.removals.get? (r.spaceId, r.removedDid) = some r.toStored

theorem StoredAs.get (h : StoredAs w r) :
    w.removals.getPendingRemoval r.spaceId r.removedDid = some r := by
  unfold PendingRemovals.getPendingRemoval
  rw [h]
  rfl

theorem toStored_injective (h : r.toStored = s.toStored) : r = s :=
  congrArg StoredPendingRemoval.load h

theorem StoredAs.recordSound (h : StoredAs w r) (hinv : ResumeInv fingerprint home w) :
    RecordSound fingerprint home w r := by
  obtain ⟨s, hs, hsound⟩ := hinv.sound _ _ h
  cases toStored_injective hs
  exact hsound

/-! ## 2. Rules -/

open OthersKept

namespace Resumes

variable {Q Q' : α → RemovalWorld → Prop} {R : β → RemovalWorld → Prop} {p : RemovalProgram α}

theorem ret {a : α} (h : Q a w) : Resumes fingerprint home cooperative k Q (.ret a) w :=
  ⟨refl k w, h⟩

theorem fail {err : RemovalError} (h : cooperative = false) (herr : Deferred err) :
    Resumes fingerprint home cooperative k Q (.fail err) w :=
  ⟨refl k w, h, herr⟩

theorem post (hp : Resumes fingerprint home cooperative k Q p w)
    (h : ∀ a w', Q a w' → Q' a w') : Resumes fingerprint home cooperative k Q' p w :=
  hp.mono (fun a w' hq => ⟨hq.1, h a w' hq.2⟩) fun _ _ he => he

theorem after (hk : OthersKept k w w') (hp : Resumes fingerprint home cooperative k Q p w') :
    Alone (resumeContract fingerprint home cooperative) (fun a w'' => OthersKept k w w'' ∧ Q a w'')
      (fun err w'' => OthersKept k w w'' ∧ cooperative = false ∧ Deferred err) p w' :=
  hp.mono (fun _ _ hq => ⟨hk.trans hq.1, hq.2⟩) fun _ _ he => ⟨hk.trans he.1, he.2⟩

theorem bind {f : α → RemovalProgram β} (hp : Resumes fingerprint home cooperative k Q p w)
    (hf : ∀ a w', Q a w' → Resumes fingerprint home cooperative k R (f a) w') :
    Resumes fingerprint home cooperative k R (p.bind f) w :=
  alone_bind (hp.mono (fun a w' hq => (hf a w' hq.2).after hq.1) fun _ _ he => he)

theorem handle {h : RemovalError → RemovalProgram α}
    (hp : Resumes fingerprint home cooperative k Q p w)
    (hh : ∀ err w', cooperative = false → Deferred err →
      Resumes fingerprint home cooperative k Q (h err) w') :
    Resumes fingerprint home cooperative k Q (p.tryCatch h) w :=
  alone_tryCatch (hp.mono (fun _ _ hq => hq) fun err w' he =>
    (hh err w' he.2.1 he.2.2).after he.1)

theorem atomic {f : RemovalEnv → RemovalWorld → Except RemovalError α × RemovalWorld}
    (h : ResumeInv fingerprint home w → ∀ env, Honest w env t → (cooperative = true → Smooth env) →
        ResumeInv fingerprint home (f env w).2 ∧ OthersKept k w (f env w).2 ∧
          (∀ a, (f env w).1 = .ok a → Q a (f env w).2) ∧
            ∀ err, (f env w).1 = .error err → cooperative = false ∧ Deferred err) :
    Resumes fingerprint home cooperative k Q (Async.atomic t f) w := by
  refine alone_atomic fun hinv env hmay => ?_
  obtain ⟨hinv', hkept, hok, herr⟩ := h hinv env hmay.1 hmay.2
  exact ⟨hinv', trivial, fun a ha => ⟨hkept, hok a ha⟩, fun err he => ⟨hkept, herr err he⟩⟩

theorem uncooperative_of_failure {env : RemovalEnv} {text : String}
    (hsmooth : cooperative = true → Smooth env) (hfailure : env.failure = some text) :
    cooperative = false := by
  by_contra hco
  have hnone := (hsmooth (by simpa using hco)).1
  rw [hfailure] at hnone
  cases hnone

theorem attempt {f : RemovalEnv → RemovalWorld → α × RemovalWorld}
    (h : ResumeInv fingerprint home w → ∀ env,
      ResumeInv fingerprint home (f env w).2 ∧ OthersKept k w (f env w).2 ∧
        Q (f env w).1 (f env w).2) :
    Resumes fingerprint home cooperative k Q (WebOfTrust.attempt t f) w := by
  refine Resumes.atomic fun hinv env _ hsmooth => ?_
  cases hfailure : env.failure with
  | some text =>
    refine ⟨hinv, refl k w, ?_, ?_⟩
    · intro a ha
      cases ha
    intro err he
    cases he
    exact ⟨uncooperative_of_failure hsmooth hfailure, .message text⟩
  | none =>
    obtain ⟨hinv', hkept, hq⟩ := h hinv env
    refine ⟨hinv', hkept, ?_, ?_⟩
    · intro a ha
      cases ha
      exact hq
    · intro err he
      cases he

theorem read {g : RemovalEnv → RemovalWorld → α}
    (h : ResumeInv fingerprint home w → ∀ env, Q (g env w) w) :
    Resumes fingerprint home cooperative k Q (WebOfTrust.attempt t fun env w => (g env w, w)) w :=
  attempt fun hinv env => ⟨hinv, refl k w, h hinv env⟩

theorem put {removal : PendingRemoval} {expect : WriteExpectation} {Q : Unit → RemovalWorld → Prop}
    (hmatch : matchesStagingExpectation
      (w.removals.getPendingRemoval removal.spaceId removal.removedDid) (some expect) = true)
    (hk : removal.toStored.key = k)
    (h : ResumeInv fingerprint home w →
      ResumeInv fingerprint home { w with removals := w.removals.put removal.toStored } ∧
        Q () { w with removals := w.removals.put removal.toStored }) :
    Resumes fingerprint home cooperative k Q (putPendingRemoval t removal expect) w := by
  refine Resumes.atomic fun hinv env _ hsmooth => ?_
  cases hfailure : env.failure with
  | some text =>
    refine ⟨hinv, refl k w, ?_, ?_⟩
    · intro a ha
      cases ha
    intro err he
    cases he
    exact ⟨uncooperative_of_failure hsmooth hfailure, .message text⟩
  | none =>
    obtain ⟨hinv', hq⟩ := h hinv
    have hput : w.removals.putPendingRemoval removal (some expect) =
        .ok (w.removals.put removal.toStored) := by
      simp only [PendingRemovals.putPendingRemoval, hmatch, if_true]
    simp only [hput]
    refine ⟨hinv', OthersKept.put w hk, ?_, ?_⟩
    · intro a ha
      cases ha
      exact hq
    · intro err he
      cases he

end Resumes

/-! ## 3. What a step of the driver does to the invariant -/

namespace ResumeInv

theorem recordSound_frame (h : RecordSound fingerprint home w r)
    (hkeys : w'.keys r.spaceId = w.keys r.spaceId)
    (hbrokers : ∀ url, w'.brokers url r.spaceId = w.brokers url r.spaceId)
    (hcommits : ∀ c ∈ w.commits, c ∈ w'.commits) : RecordSound fingerprint home w' r where
  bound := h.bound
  home := h.home
  confirmed url hurl := (hbrokers url).trans (h.confirmed url hurl)
  staged hpre := by
    obtain ⟨hkeysOk, hbrokersOk⟩ := h.staged hpre
    refine ⟨hkeys ▸ hkeysOk, fun url hurl => ?_⟩
    rcases hbrokersOk url hurl with hbehind | hinstalled
    · exact .inl (by rw [hbrokers url]; exact hbehind)
    · exact .inr ((hbrokers url).trans hinstalled)
  committed hpost := by
    obtain ⟨hactive, hconf, hcommit⟩ := h.committed hpost
    exact ⟨hkeys ▸ hactive, hconf, hcommits _ hcommit⟩

section

variable (h : ResumeInv fingerprint home w)
include h

/-- A change of keys, brokers or commits that only concerns the space of a stored
    record. -/
theorem change (hs : StoredAs w r) (hremovals : w'.removals = w.removals)
    (hkept : OthersKept (r.spaceId, r.removedDid) w w')
    (hfuture : ∀ g : Nat, (w'.keys r.spaceId).generation < g →
      (w'.keys r.spaceId).capVerificationKey g = none)
    (hsound : RecordSound fingerprint home w' r) : ResumeInv fingerprint home w' where
  unique := by
    rw [hremovals]
    exact h.unique
  sound := by
    intro k row hrow
    rw [hremovals] at hrow
    obtain ⟨s, rfl, hold⟩ := h.sound k row hrow
    refine ⟨s, rfl, ?_⟩
    by_cases hspace : s.spaceId = r.spaceId
    · have hkey : s.toStored.key = k := key_of_get? hrow
      have hsame : k = (r.spaceId, r.removedDid) :=
        h.unique k _ _ _ hrow hs (by rw [← hkey]; exact hspace)
      have hrow' : w.removals.get? (r.spaceId, r.removedDid) = some s.toStored := hsame ▸ hrow
      cases toStored_injective (Option.some.inj (hrow'.symm.trans hs))
      exact hsound
    · exact recordSound_frame hold (hkept.keys _ hspace) (fun url => hkept.brokers url _ hspace)
        hkept.commits
  idle := by
    intro spaceId hnone hgen url hurl
    rw [hremovals] at hnone
    have hspace : spaceId ≠ r.spaceId := by
      rintro rfl
      cases (hnone r.removedDid).symm.trans hs
    rw [hkept.keys _ hspace] at hgen ⊢
    rw [hkept.brokers _ _ hspace]
    exact h.idle spaceId hnone hgen url hurl
  future := by
    intro spaceId g hg
    by_cases hspace : spaceId = r.spaceId
    · subst hspace
      exact hfuture g hg
    · rw [hkept.keys _ hspace] at hg ⊢
      exact h.future spaceId g hg

theorem write (hfree : ∀ did row, w.removals.get? (s.spaceId, did) = some row → did = s.removedDid)
    (hsound : RecordSound fingerprint home w s) :
    ResumeInv fingerprint home { w with removals := w.removals.put s.toStored } where
  unique := by
    have only : ∀ k row, (w.removals.put s.toStored).get? k = some row →
        k.1 = s.spaceId → k = (s.spaceId, s.removedDid) := by
      intro k row hrow hspace
      rw [get?_put] at hrow
      split at hrow
      · next heq => exact heq.symm
      obtain ⟨space, did⟩ := k
      cases hspace
      exact congrArg _ (hfree did row hrow)
    intro k k' row row' hrow hrow' hspace
    by_cases hs : k.1 = s.spaceId
    · rw [only k row hrow hs, only k' row' hrow' (hspace ▸ hs)]
    have hne : s.toStored.key ≠ k := by
      rintro rfl
      exact hs rfl
    have hne' : s.toStored.key ≠ k' := by
      rintro rfl
      exact hs hspace
    have hrow₁ : (w.removals.put s.toStored).get? k = some row := hrow
    have hrow₂ : (w.removals.put s.toStored).get? k' = some row' := hrow'
    rw [get?_put, if_neg hne] at hrow₁
    rw [get?_put, if_neg hne'] at hrow₂
    exact h.unique k k' row row' hrow₁ hrow₂ hspace
  sound := by
    intro k row hrow
    have hrow : (w.removals.put s.toStored).get? k = some row := hrow
    rw [get?_put] at hrow
    split at hrow
    · cases hrow
      exact ⟨s, rfl, recordSound_frame hsound rfl (fun _ => rfl) fun _ hc => hc⟩
    · obtain ⟨r, rfl, hr⟩ := h.sound k row hrow
      exact ⟨r, rfl, recordSound_frame hr rfl (fun _ => rfl) fun _ hc => hc⟩
  idle := by
    intro spaceId hnone hgen url hurl
    refine h.idle spaceId (fun did => ?_) hgen url hurl
    have hget : (w.removals.put s.toStored).get? (spaceId, did) = none := hnone did
    rw [get?_put] at hget
    split at hget
    · cases hget
    · exact hget
  future := h.future

theorem erase (hs : StoredAs w r) (hpost : r.phase.preCommit = false) : ResumeInv fingerprint home
      { w with removals := w.removals.erase (r.spaceId, r.removedDid) } where
  unique := by
    intro k k' row row' hrow hrow' hspace
    have hrow : (w.removals.erase (r.spaceId, r.removedDid)).get? k = some row := hrow
    have hrow' : (w.removals.erase (r.spaceId, r.removedDid)).get? k' = some row' := hrow'
    rw [get?_erase] at hrow hrow'
    split at hrow
    · cases hrow
    split at hrow'
    · cases hrow'
    · exact h.unique k k' row row' hrow hrow' hspace
  sound := by
    intro k row hrow
    have hrow : (w.removals.erase (r.spaceId, r.removedDid)).get? k = some row := hrow
    rw [get?_erase] at hrow
    split at hrow
    · cases hrow
    · obtain ⟨s, rfl, hsound⟩ := h.sound k row hrow
      exact ⟨s, rfl, recordSound_frame hsound rfl (fun _ => rfl) fun _ hc => hc⟩
  idle := by
    intro spaceId hnone hgen url hurl
    by_cases hspace : spaceId = r.spaceId
    · -- every home broker has installed the generation that is active
      subst hspace
      have hsound := hs.recordSound h
      obtain ⟨hactive, hconf, -⟩ := hsound.committed hpost
      have hinstalled := hsound.confirmed url (hconf url (hsound.home ▸ hurl))
      show ((w.brokers url r.spaceId).generation : Int) = (w.keys r.spaceId).generation
      rw [hinstalled, hactive.1]
      rfl
    · refine h.idle spaceId (fun did => ?_) hgen url hurl
      have hget : (w.removals.erase (r.spaceId, r.removedDid)).get? (spaceId, did) = none :=
        hnone did
      rw [get?_erase, if_neg] at hget
      · exact hget
      · intro heq
        exact hspace (congrArg Prod.fst heq).symm
  future := h.future

end

end ResumeInv

/-! ## 4. Enforcement -/

structure HeldRecord (fingerprint : Nat → StagedRemovalKeyMaterial → String)
    (home : DocId → List String) (w : RemovalWorld) (r : PendingRemoval) : Prop where
  stored : StoredAs w r
  sound : RecordSound fingerprint home w r

theorem StoredAs.held (h : StoredAs w r) (hinv : ResumeInv fingerprint home w) :
    HeldRecord fingerprint home w r :=
  ⟨h, h.recordSound hinv⟩

theorem RecordSound.isSome (h : RecordSound fingerprint home w r) : r.stagingId.isSome = true :=
  isSome_of_isBound h.bound

theorem matches_own (hid : r.stagingId.isSome = true) (hstaging : s.staging = r.staging) :
    matchesStagingExpectation (some s) (some (pendingRemovalWriteExpectation (some r))) = true := by
  obtain ⟨id, hsome⟩ := Option.isSome_iff_exists.mp hid
  have hsid : s.stagingId = some id := (stagingId_of_staging hstaging).trans hsome
  simp [pendingRemovalWriteExpectation, hsome, matchesStagingExpectation, hsid]

theorem resumes_bindStagingMaterial (h : HeldRecord fingerprint home w r) :
    Resumes fingerprint home cooperative k (fun s w' => s = r ∧ HeldRecord fingerprint home w' r)
      (bindStagingMaterial fingerprint r) w := by
  unfold bindStagingMaterial
  rw [if_pos h.sound.bound]
  refine Resumes.bind (Q := fun stored w' => stored = some r ∧ HeldRecord fingerprint home w' r)
    (Resumes.read fun _ _ => ⟨h.stored.get, h⟩) ?_
  rintro stored w₁ ⟨rfl, h₁⟩
  rw [if_neg (by simp)]
  exact Resumes.ret ⟨rfl, h₁⟩

theorem reply_of_behind {b : BrokerSpace} {frame : RotateFrame}
    (h : b.generation + 1 = frame.newGeneration) : b.reply frame = .receipt := by
  unfold BrokerSpace.reply
  rw [if_neg (by omega), if_neg (by omega), if_neg (by omega)]

theorem reply_install (frame : RotateFrame) :
    (BrokerSpace.install frame).reply frame = .receipt := by
  simp [BrokerSpace.reply, BrokerSpace.install]

theorem installed_install (w : RemovalWorld) (r : PendingRemoval) (brokerUrl : String) :
    Installed (w.install brokerUrl r.rotateFrame) r brokerUrl := by
  show Function.update w.brokers brokerUrl _ brokerUrl r.spaceId = _
  rw [Function.update_self]
  exact Function.update_self _ _ _

theorem Installed.install {url : String} (h : Installed w r url) (brokerUrl : String) :
    Installed (w.install brokerUrl r.rotateFrame) r url := by
  by_cases hurl : url = brokerUrl
  · subst hurl
    exact installed_install w r url
  show Function.update w.brokers brokerUrl _ url r.spaceId = _
  rw [Function.update_of_ne hurl]
  exact h

theorem RecordSound.install (h : RecordSound fingerprint home w r)
    (hpre : r.phase.preCommit = true) (brokerUrl : String) :
    RecordSound fingerprint home (w.install brokerUrl r.rotateFrame) r where
  bound := h.bound
  home := h.home
  confirmed url hurl := (h.confirmed url hurl).install brokerUrl
  staged _ := by
    obtain ⟨hkeys, hbrokers⟩ := h.staged hpre
    refine ⟨hkeys, fun url hurl => ?_⟩
    by_cases hsame : url = brokerUrl
    · subst hsame
      exact .inr (installed_install w r url)
    rcases hbrokers url hurl with hbehind | hinstalled
    · left
      show (Function.update w.brokers brokerUrl _ url r.spaceId).generation + 1 = _
      rw [Function.update_of_ne hsame]
      exact hbehind
    · exact .inr (hinstalled.install brokerUrl)
  committed hpost := by
    rw [hpre] at hpost
    cases hpost

theorem ResumeInv.install (h : ResumeInv fingerprint home w) (hs : StoredAs w r)
    (hpre : r.phase.preCommit = true) (brokerUrl : String) :
    ResumeInv fingerprint home (w.install brokerUrl r.rotateFrame) :=
  h.change hs rfl (OthersKept.install w brokerUrl rfl) (h.future r.spaceId)
    ((hs.recordSound h).install hpre brokerUrl)

theorem resumes_sendSpaceRotate (h : HeldRecord fingerprint home w r)
    (hpre : r.phase.preCommit = true) {brokerUrl : String} (hurl : brokerUrl ∈ r.homeBrokerSet) :
    Resumes fingerprint home cooperative (r.spaceId, r.removedDid)
      (fun _ w' => HeldRecord fingerprint home w' r ∧ Installed w' r brokerUrl)
      (sendSpaceRotate brokerUrl r.rotateFrame) w := by
  have hreply : (w.brokers brokerUrl r.spaceId).reply r.rotateFrame = .receipt := by
    rcases (h.sound.staged hpre).2 brokerUrl hurl with hbehind | hinstalled
    · exact reply_of_behind hbehind
    · rw [hinstalled]
      exact reply_install _
  refine Resumes.atomic fun hinv env hhonest hsmooth => ?_
  have lost : ∀ accepted, env.reply = .lost accepted → cooperative = false := by
    intro accepted hlost
    cases hco : cooperative with
    | false => rfl
    | true => exact absurd hlost ((hsmooth hco).2 accepted)
  have hinv' := hinv.install h.stored hpre brokerUrl
  have hstored : StoredAs (w.install brokerUrl r.rotateFrame) r := h.stored
  rcases hhonest with hrule | hlost | ⟨hlost, -⟩
  · have hreceipt : env.reply = .receipt := hrule.trans hreply
    simp only [hreceipt, accepted, if_true]
    refine ⟨hinv', install w brokerUrl rfl, ?_, ?_⟩
    · intro a _
      exact ⟨hstored.held hinv', installed_install w r brokerUrl⟩
    · intro err he
      cases he
  · simp only [hlost, accepted, Bool.false_eq_true, if_false]
    refine ⟨hinv, refl _ w, ?_, ?_⟩
    · intro a ha
      cases ha
    intro err he
    cases he
    exact ⟨lost _ hlost, .message _⟩
  · simp only [hlost, accepted, if_true]
    refine ⟨hinv', install w brokerUrl rfl, ?_, ?_⟩
    · intro a ha
      cases ha
    intro err he
    cases he
    exact ⟨lost _ hlost, .message _⟩

def PendingRemoval.confirming (r : PendingRemoval) (urls : List String) : PendingRemoval :=
  { r with confirmedBrokerUrls := urls }

open PendingRemoval

theorem matches_binding (hbound : r.isBound fingerprint = true) (urls : List String) :
    matchesConfirmationBinding (r.confirming urls).toStored (some r.binding) = true := by
  simp only [isBound, Bool.and_eq_true, decide_eq_true_eq] at hbound
  obtain ⟨id, hid⟩ := Option.isSome_iff_exists.mp hbound.1
  simp [matchesConfirmationBinding, binding, confirming, toStored, hid, hbound.2]

theorem RecordSound.confirming (h : RecordSound fingerprint home w r)
    (hpre : r.phase.preCommit = true) (hurls : ∀ url ∈ urls, Installed w r url) :
    RecordSound fingerprint home w (r.confirming urls) where
  bound := h.bound
  home := h.home
  confirmed := hurls
  staged := h.staged
  committed hpost := by
    have hpost : r.phase.preCommit = false := hpost
    rw [hpre] at hpost
    cases hpost

theorem ResumeInv.alone_in_space (h : ResumeInv fingerprint home w) (hs : StoredAs w r) :
    ∀ did row, w.removals.get? (r.spaceId, did) = some row → did = r.removedDid :=
  fun _ _ hrow => congrArg Prod.snd (h.unique _ _ _ _ hrow hs rfl)

theorem resumes_markBrokerConfirmed {confirmed : List String}
    (h : HeldRecord fingerprint home w (r.confirming confirmed)) (hpre : r.phase.preCommit = true)
    {brokerUrl : String} (hurl : brokerUrl ∈ r.homeBrokerSet) (hnew : brokerUrl ∉ confirmed)
    (hinstalled : Installed w r brokerUrl) :
    Resumes fingerprint home cooperative (r.spaceId, r.removedDid)
      (fun outcome w' => outcome = .recorded ∧
        HeldRecord fingerprint home w' (r.confirming (confirmed ++ [brokerUrl])))
      (markBrokerConfirmed r brokerUrl) w := by
  have hget : w.removals.get? (r.spaceId, r.removedDid) =
      some (r.confirming confirmed).toStored := h.stored
  have hbinding : matchesConfirmationBinding (r.confirming confirmed).toStored (some r.binding) =
      true := matches_binding h.sound.bound confirmed
  have hmark : w.removals.markBrokerConfirmed r.spaceId r.removedDid brokerUrl (some r.binding) =
      (.recorded, w.removals.put (r.confirming (confirmed ++ [brokerUrl])).toStored) := by
    have hhome : brokerUrl ∈ (r.confirming confirmed).toStored.homeBrokerSet := hurl
    have hfree : brokerUrl ∉ (r.confirming confirmed).toStored.confirmedBrokerUrls := hnew
    simp [PendingRemovals.markBrokerConfirmed, PendingRemovals.confirmationOutcome, hget, hhome,
      hfree, hbinding, update]
    rfl
  refine Resumes.attempt fun hinv env => ?_
  simp only [hmark]
  have hsound : RecordSound fingerprint home w (r.confirming (confirmed ++ [brokerUrl])) := by
    refine RecordSound.confirming (r := r.confirming confirmed) h.sound hpre fun url hmem => ?_
    rcases mem_append.mp hmem with hold | hsame
    · exact h.sound.confirmed url hold
    · cases mem_singleton.mp hsame
      exact hinstalled
  have hinv' := hinv.write (s := r.confirming (confirmed ++ [brokerUrl]))
    (fun did row hrow => hinv.alone_in_space h.stored did row hrow) hsound
  have hstored : StoredAs { w with
      removals := w.removals.put (r.confirming (confirmed ++ [brokerUrl])).toStored }
      (r.confirming (confirmed ++ [brokerUrl])) :=
    (get?_put _ _ _).trans (if_pos rfl)
  exact ⟨hinv', put w rfl, trivial, hstored.held hinv'⟩

section

variable (deps : SecureRemovalDeps)

theorem resumes_handleRotateError {err : RemovalError}
    (hco : cooperative = false) (herr : Deferred err) {Q : Enforcement → RemovalWorld → Prop} :
    Resumes fingerprint home cooperative k Q (handleRotateError fingerprint deps r err) w := by
  cases herr with
  | message text | pending spaceId removedDid generation stage =>
    exact Resumes.fail hco (.pending ..)

/-- **The confirmation loop runs through**: by induction on the brokers that are
    left, the durable record and the driver's list grow together. -/
theorem resumes_confirmBrokers : ∀ (brokers confirmed : List String) (w : RemovalWorld),
      HeldRecord fingerprint home w (r.confirming confirmed) →
      (∀ url ∈ brokers, url ∈ r.homeBrokerSet) →
        Resumes fingerprint home cooperative (r.spaceId, r.removedDid)
          (fun e w' => ∃ urls, e = .confirmed urls ∧
            HeldRecord fingerprint home w' (r.confirming urls) ∧
            (∀ url ∈ brokers, url ∈ urls) ∧ (∀ url ∈ confirmed, url ∈ urls) ∧
              (r.phase.preCommit = false → urls = confirmed))
          (confirmBrokers fingerprint deps r r.rotateFrame brokers confirmed) w := by
  intro brokers
  induction brokers with
  | nil =>
    intro confirmed w h _
    refine Resumes.ret ⟨confirmed, rfl, h, fun url hurl => ?_, fun _ hurl => hurl, fun _ => rfl⟩
    cases hurl
  | cons brokerUrl rest ih =>
    intro confirmed w h hhome
    have hrest : ∀ url ∈ rest, url ∈ r.homeBrokerSet :=
      fun url hurl => hhome url (mem_cons_of_mem _ hurl)
    have hurl : brokerUrl ∈ r.homeBrokerSet := hhome brokerUrl mem_cons_self
    unfold confirmBrokers
    split
    · next hconf =>
      have hconf : brokerUrl ∈ confirmed := by simpa using hconf
      refine (ih confirmed w h hrest).post ?_
      rintro e w' ⟨urls, rfl, hheld, hall, hold, hpost⟩
      refine ⟨urls, rfl, hheld, fun url hmem => ?_, hold, hpost⟩
      rcases mem_cons.mp hmem with rfl | hmem
      · exact hold _ hconf
      · exact hall url hmem
    · next hconf =>
      have hnew : brokerUrl ∉ confirmed := by simpa using hconf
      have hpre : r.phase.preCommit = true := by
        by_contra hpost
        have hpost : r.phase.preCommit = false := by simpa using hpost
        exact hnew ((h.sound.committed hpost).2.1 brokerUrl hurl)
      refine Resumes.bind (Q := fun o w' => o = none ∧
        HeldRecord fingerprint home w' (r.confirming (confirmed ++ [brokerUrl]))) ?_ ?_
      · refine Resumes.handle ?_ fun err w₁ hco herr =>
          Resumes.bind (Q := fun _ _ => False) (resumes_handleRotateError deps hco herr)
            fun _ _ hfalse => hfalse.elim
        refine Resumes.bind (resumes_sendSpaceRotate h hpre hurl) fun _ w₁ h₁ => ?_
        refine Resumes.bind (resumes_markBrokerConfirmed h₁.1 hpre hurl hnew h₁.2) ?_
        rintro outcome w₂ ⟨rfl, h₂⟩
        rw [if_pos (.inl rfl)]
        exact Resumes.ret ⟨rfl, h₂⟩
      · rintro failed w₁ ⟨rfl, h₁⟩
        refine (ih (confirmed ++ [brokerUrl]) w₁ h₁ hrest).post ?_
        rintro e w' ⟨urls, rfl, hheld, hall, hold, hpost⟩
        refine ⟨urls, rfl, hheld, fun url hmem => ?_, fun url hmem => ?_, fun hpost' => ?_⟩
        · rcases mem_cons.mp hmem with rfl | hmem
          · exact hold _ (mem_append_right _ (mem_singleton_self _))
          · exact hall url hmem
        · exact hold url (mem_append_left _ hmem)
        · rw [hpre] at hpost'
          cases hpost'

/-! ## 5. The commit -/

theorem resumes_persistPhase (h : HeldRecord fingerprint home w s) {copy : PendingRemoval}
    (hstaging : r.staging = s.staging) (hsound : RecordSound fingerprint home w r) :
    Resumes fingerprint home cooperative (r.spaceId, r.removedDid)
      (fun _ w' => HeldRecord fingerprint home w' r) (persistPhase copy r) w := by
  have hspace : r.spaceId = s.spaceId := congrArg spaceId hstaging
  have hdid : r.removedDid = s.removedDid := congrArg removedDid hstaging
  refine Resumes.handle (Resumes.put ?_ rfl fun hinv => ?_) fun err w₁ hco herr => ?_
  · rw [hspace, hdid, h.stored.get]
    exact matches_own hsound.isSome hstaging.symm
  · have hinv' := hinv.write (s := r) (fun did row hrow => by
      rw [hspace] at hrow
      rw [hdid]
      exact hinv.alone_in_space h.stored did row hrow) hsound
    have hstored : StoredAs { w with removals := w.removals.put r.toStored } r :=
      (get?_put _ _ _).trans (if_pos rfl)
    exact ⟨hinv', hstored.held hinv'⟩
  · cases herr with
    | message text => exact Resumes.fail hco (.message text)
    | pending spaceId removedDid generation stage => exact Resumes.fail hco (.pending ..)

theorem resumes_assertMaterialConfirmed (h : HeldRecord fingerprint home w r)
    (hall : ∀ url ∈ r.homeBrokerSet, url ∈ r.confirmedBrokerUrls) :
    Resumes fingerprint home cooperative k (fun _ w' => HeldRecord fingerprint home w' r)
      (assertMaterialConfirmed r) w := by
  refine Resumes.bind (Q := fun stored w' => stored = some r ∧ HeldRecord fingerprint home w' r)
    (Resumes.read fun _ _ => ⟨h.stored.get, h⟩) ?_
  rintro stored w₁ ⟨rfl, h₁⟩
  rw [if_pos (by simpa using hall)]
  exact Resumes.ret h₁

structure InCommit (fingerprint : Nat → StagedRemovalKeyMaterial → String)
    (home : DocId → List String) (w : RemovalWorld) (r : PendingRemoval) : Prop where
  held : HeldRecord fingerprint home w r
  pre : r.phase.preCommit = true

/-- No capability key lies beyond the generation of a space. -/
def NoFuture (k : SpaceKeys) : Prop :=
  ∀ g : Nat, k.generation < g → k.capVerificationKey g = none

theorem resumes_saveKeys {step : CommitStep} (h : InCommit fingerprint home w r)
    {f : RemovalEnv → SpaceKeys → SpaceKeys}
    (hf : NoFuture (w.keys r.spaceId) → ∀ env,
      Activating (f env (w.keys r.spaceId)) r ∧ NoFuture (f env (w.keys r.spaceId))) :
    Resumes fingerprint home cooperative (r.spaceId, r.removedDid)
      (fun _ w' => InCommit fingerprint home w' r ∧
        ∃ env, w'.keys r.spaceId = f env (w.keys r.spaceId))
      (saveKeys r step f) w := by
  refine Resumes.attempt fun hinv env => ?_
  obtain ⟨hactivating, hnone⟩ := hf (hinv.future r.spaceId) env
  have hsame : (w.setKeys r.spaceId (f env (w.keys r.spaceId))).keys r.spaceId =
      f env (w.keys r.spaceId) := Function.update_self _ _ _
  have hkept : OthersKept (r.spaceId, r.removedDid) w
      (w.setKeys r.spaceId (f env (w.keys r.spaceId))) := setKeys w _
  have hsound : RecordSound fingerprint home
      (w.setKeys r.spaceId (f env (w.keys r.spaceId))) r := by
    refine ⟨h.held.sound.bound, h.held.sound.home, h.held.sound.confirmed, fun hpre => ?_,
      fun hpost => ?_⟩
    · exact ⟨hsame.symm ▸ hactivating, (h.held.sound.staged hpre).2⟩
    · rw [h.pre] at hpost
      cases hpost
  have hinv' : ResumeInv fingerprint home (w.setKeys r.spaceId (f env (w.keys r.spaceId))) := by
    refine hinv.change h.held.stored rfl hkept ?_ hsound
    rw [hsame]
    exact hnone
  exact ⟨hinv', hkept, ⟨⟨h.held.stored, hsound⟩, h.pre⟩, env, hsame⟩

theorem resumes_readKeys {step : CommitStep} (h : InCommit fingerprint home w r)
    (f : SpaceKeys → α) :
    Resumes fingerprint home cooperative k
      (fun a w' => InCommit fingerprint home w' r ∧ w'.keys r.spaceId = w.keys r.spaceId ∧
        a = f (w.keys r.spaceId)) (readKeys r step f) w :=
  Resumes.read fun _ _ => ⟨h, rfl, rfl⟩

structure Activation (fingerprint : Nat → StagedRemovalKeyMaterial → String)
    (home : DocId → List String) (w : RemovalWorld) (r : PendingRemoval) : Prop
    extends InCommit fingerprint home w r where
  active : Activated (w.keys r.spaceId) r

theorem noFuture_saveCapabilityKeyPair {k : SpaceKeys} {g : Nat} (hk : NoFuture k)
    (hg : k.generation = g) (key : Bytes) : NoFuture (k.saveCapabilityKeyPair g key) := by
  intro g' hg'
  have hg' : k.generation < g' := hg'
  have hne : g' ≠ g := by omega
  simp only [SpaceKeys.saveCapabilityKeyPair, Function.update_of_ne hne]
  exact hk g' hg'

theorem resumes_provisionCapability (h : Activation fingerprint home w r) :
    Resumes fingerprint home cooperative (r.spaceId, r.removedDid)
      (fun _ w' => Activation fingerprint home w' r)
      (provisionCapabilityForGeneration deps r) w := by
  obtain ⟨hgen, hkey⟩ := h.active
  have hown : ∀ key, ((w.keys r.spaceId).saveCapabilityKeyPair r.newGeneration
      r.stagedKeyMaterial.capVerificationKey).capVerificationKey r.newGeneration = some key →
        key = r.stagedKeyMaterial.capVerificationKey := by
    intro key hkey'
    simp only [SpaceKeys.saveCapabilityKeyPair, Function.update_self, Option.some.injEq] at hkey'
    exact hkey'.symm
  refine Resumes.bind (resumes_saveKeys h.toInCommit fun hnone _ =>
    ⟨.inr ⟨hgen, hkey, hown⟩, noFuture_saveCapabilityKeyPair hnone hgen _⟩) ?_
  rintro _ w₁ ⟨h₁, -, hkeys₁⟩
  refine (resumes_saveKeys h₁ fun hnone env => ⟨?_, hnone⟩).post ?_
  · rw [hkeys₁]
    exact .inr ⟨hgen, hkey, hown⟩
  rintro _ w₂ ⟨h₂, env, hkeys₂⟩
  refine ⟨h₂, ?_⟩
  rw [hkeys₂, hkeys₁]
  exact ⟨hgen, hkey⟩

theorem activated_saveKey {k : SpaceKeys} (h : k.generation + 1 = r.newGeneration) :
    Activated (k.saveKey r.newGeneration r.stagedKeyMaterial.contentKey) r := by
  refine ⟨?_, ?_⟩
  · simp only [SpaceKeys.saveKey]
    omega
  · simp [SpaceKeys.saveKey]

theorem resumes_commitStagedRotation (h : InCommit fingerprint home w r) :
    Resumes fingerprint home cooperative (r.spaceId, r.removedDid)
      (fun _ w' => Activation fingerprint home w' r) (commitStagedRotation deps r) w := by
  have hactivating := (h.held.sound.staged h.pre).1
  refine Resumes.bind (resumes_readKeys h _) ?_
  rintro current w₁ ⟨h₁, hkeys₁, rfl⟩
  rw [← hkeys₁] at hactivating ⊢
  rcases hactivating with hbehind | ⟨hgen, hkey, hcap⟩
  · -- the normal activation
    rw [if_pos (by omega)]
    refine Resumes.bind (resumes_saveKeys h₁ fun hnone _ => ⟨?_, ?_⟩) ?_
    · obtain ⟨hgen, hkey⟩ := activated_saveKey hbehind
      refine .inr ⟨hgen, hkey, fun key hkey' => ?_⟩
      have hfree := hnone r.newGeneration (by omega)
      cases hfree.symm.trans hkey'
    · intro g hg
      refine hnone g ?_
      have hle := (w₁.keys r.spaceId).generation_saveKey r.newGeneration
        r.stagedKeyMaterial.contentKey
      omega
    · rintro _ w₂ ⟨h₂, -, hkeys₂⟩
      exact resumes_provisionCapability deps ⟨h₂, hkeys₂ ▸ activated_saveKey hbehind⟩
  · -- the content key is already there: complete what is missing
    rw [if_neg (by omega), if_pos hgen]
    refine Resumes.bind (resumes_readKeys h₁ _) ?_
    rintro storedKey w₂ ⟨h₂, hkeys₂, rfl⟩
    rw [if_neg (by simpa using hkey)]
    refine Resumes.bind (resumes_readKeys h₂ _) ?_
    rintro storedCapVk w₃ ⟨h₃, hkeys₃, rfl⟩
    have hfits : ¬ ((w₁.keys r.spaceId).capVerificationKey r.newGeneration).any (fun key =>
        decide (key ≠ r.stagedKeyMaterial.capVerificationKey)) = true := by
      intro hany
      obtain ⟨key, hstored, hne⟩ := (Option.any_eq_true _ _).mp hany
      exact absurd (hcap key hstored) (by simpa using hne)
    rw [hkeys₂, if_neg hfits]
    refine Resumes.bind (resumes_readKeys h₃ _) ?_
    rintro ownCapability w₄ ⟨h₄, hkeys₄, rfl⟩
    have hactive : Activation fingerprint home w₄ r := by
      refine ⟨h₄, ?_⟩
      rw [hkeys₄, hkeys₃, hkeys₂]
      exact ⟨hgen, hkey⟩
    split
    · exact Resumes.ret hactive
    · exact resumes_provisionCapability deps hactive

structure AfterCommit (fingerprint : Nat → StagedRemovalKeyMaterial → String)
    (home : DocId → List String) (w : RemovalWorld) (r : PendingRemoval) : Prop
    extends Activation fingerprint home w r where
  commit : r.commit ∈ w.commits

theorem resumes_commitRemoval (h : Activation fingerprint home w r) :
    Resumes fingerprint home cooperative (r.spaceId, r.removedDid)
      (fun _ w' => AfterCommit fingerprint home w' r) (commitRemoval r) w := by
  refine Resumes.attempt fun hinv env => ?_
  have hkept : OthersKept (r.spaceId, r.removedDid) w
      { w with commits := w.commits ++ [r.commit] } := commit w r.commit
  have hsound : RecordSound fingerprint home { w with commits := w.commits ++ [r.commit] } r :=
    ResumeInv.recordSound_frame h.held.sound rfl (fun _ => rfl) hkept.commits
  exact ⟨hinv.change h.held.stored rfl hkept (hinv.future r.spaceId) hsound, hkept,
    ⟨⟨⟨h.held.stored, hsound⟩, h.pre⟩, h.active⟩,
    mem_append_right _ (mem_singleton_self _)⟩

theorem RecordSound.later (h : RecordSound fingerprint home w r)
    (hstaging : s.staging = r.staging) (hconf : s.confirmedBrokerUrls = r.confirmedBrokerUrls)
    (hpost : s.phase.preCommit = false) (hactive : Activated (w.keys r.spaceId) r)
    (hall : ∀ url ∈ r.homeBrokerSet, url ∈ r.confirmedBrokerUrls)
    (hcommit : r.commit ∈ w.commits) : RecordSound fingerprint home w s := by
  have hspace : s.spaceId = r.spaceId := congrArg spaceId hstaging
  have hgen : s.newGeneration = r.newGeneration := congrArg newGeneration hstaging
  have hmaterial : s.stagedKeyMaterial = r.stagedKeyMaterial :=
    congrArg stagedKeyMaterial hstaging
  have hhome := homeBrokerSet_of_staging hstaging
  refine ⟨?_, ?_, fun url hurl => ?_, fun hpre => ?_, fun _ => ⟨?_, ?_, ?_⟩⟩
  · have hfp : s.materialFingerprint = r.materialFingerprint :=
      congrArg materialFingerprint hstaging
    have hbound := h.bound
    unfold isBound at hbound ⊢
    rwa [stagingId_of_staging hstaging, hfp, hgen, hmaterial]
  · rw [hhome, hspace]
    exact h.home
  · unfold Installed
    rw [hspace, rotateFrame_of_staging hstaging]
    exact h.confirmed url (hconf ▸ hurl)
  · rw [hpost] at hpre
    cases hpre
  · unfold Activated
    rw [hspace, hgen, hmaterial]
    exact hactive
  · rw [hhome, hconf]
    exact hall
  · rw [commit_of_staging hstaging]
    exact hcommit

theorem resumes_commitEnforced (h : HeldRecord fingerprint home w (r.confirming urls))
    (hall : ∀ url ∈ r.homeBrokerSet, url ∈ urls)
    (hsame : r.phase.preCommit = false → urls = r.confirmedBrokerUrls) :
    Resumes fingerprint home cooperative (r.spaceId, r.removedDid)
      (fun s w' => HeldRecord fingerprint home w' s ∧ s.staging = r.staging ∧
        s.phase.preCommit = false ∧ (s.phase = r.phase ∨ s.phase = .committed ∨
          s.phase = .localCleanup))
      (commitEnforced deps r urls) w := by
  unfold commitEnforced
  split
  · next hpost =>
    have hpost : r.phase.preCommit = false := by simpa using hpost
    have hr : r.confirming urls = r := by rw [hsame hpost]; rfl
    exact Resumes.ret ⟨hr ▸ h, rfl, hpost, .inl rfl⟩
  next hpre =>
  have hpre : r.phase.preCommit = true := by simpa using hpre
  let enforced : PendingRemoval :=
    { r with confirmedBrokerUrls := urls, phase := .brokerConfirmed }
  have hsound : RecordSound fingerprint home w enforced := by
    refine ⟨h.sound.bound, h.sound.home, h.sound.confirmed, fun _ => h.sound.staged hpre,
      fun hpost => ?_⟩
    cases hpost
  refine Resumes.bind (resumes_persistPhase (r := enforced) h rfl hsound) fun _ w₁ h₁ => ?_
  refine Resumes.bind (resumes_assertMaterialConfirmed h₁ hall) fun _ w₂ h₂ => ?_
  refine Resumes.bind (resumes_commitStagedRotation deps ⟨h₂, rfl⟩) fun _ w₃ h₃ => ?_
  refine Resumes.bind (resumes_commitRemoval h₃) fun _ w₄ h₄ => ?_
  let phase : RemovalPhase :=
    if r.removedDid = deps.ownerDid then .committed else .localCleanup
  let committed : PendingRemoval := { enforced with committed := some true, phase := phase }
  have hphase : committed.phase.preCommit = false ∧
      (committed.phase = .committed ∨ committed.phase = .localCleanup) := by
    show phase.preCommit = false ∧ (phase = .committed ∨ phase = .localCleanup)
    simp only [phase]
    split
    · exact ⟨rfl, .inl rfl⟩
    · exact ⟨rfl, .inr rfl⟩
  have hcommitted : RecordSound fingerprint home w₄ committed :=
    h₄.held.sound.later rfl rfl hphase.1 h₄.active hall h₄.commit
  exact Resumes.bind (resumes_persistPhase (r := committed) h₄.held rfl
    hcommitted) fun _ w₅ h₅ => Resumes.ret ⟨h₅, rfl, hphase.1, .inr hphase.2⟩

end

/-! ## 6. After the commit -/

structure Resumed (w : RemovalWorld) (r : PendingRemoval) : Prop where
  gone : w.removals.get? (r.spaceId, r.removedDid) = none
  active : Activated (w.keys r.spaceId) r
  installed : ∀ url ∈ r.homeBrokerSet, Installed w r url
  commit : r.commit ∈ w.commits

theorem Resumed.of_staging (h : Resumed w s) (hstaging : s.staging = r.staging) : Resumed w r := by
  have hspace : s.spaceId = r.spaceId := congrArg spaceId hstaging
  have hdid : s.removedDid = r.removedDid := congrArg removedDid hstaging
  have hgen : s.newGeneration = r.newGeneration := congrArg newGeneration hstaging
  have hmaterial : s.stagedKeyMaterial = r.stagedKeyMaterial :=
    congrArg stagedKeyMaterial hstaging
  refine ⟨?_, ?_, fun url hurl => ?_, ?_⟩
  · rw [← hspace, ← hdid]
    exact h.gone
  · have hactive := h.active
    unfold Activated at hactive ⊢
    rwa [hspace, hgen, hmaterial] at hactive
  · have hinstalled := h.installed url (homeBrokerSet_of_staging hstaging ▸ hurl)
    unfold Installed at hinstalled ⊢
    rwa [hspace, rotateFrame_of_staging hstaging] at hinstalled
  · rw [← commit_of_staging hstaging]
    exact h.commit

section

variable (h : HeldRecord fingerprint home w r)
include h

section

variable (hpost : r.phase.preCommit = false)
include hpost

theorem resumes_laterPhase
    (hstaging : s.staging = r.staging) (hconf : s.confirmedBrokerUrls = r.confirmedBrokerUrls)
    (hphase : s.phase.preCommit = false) {copy : PendingRemoval} :
    Resumes fingerprint home cooperative (s.spaceId, s.removedDid)
      (fun _ w' => HeldRecord fingerprint home w' s) (persistPhase copy s) w := by
  obtain ⟨hactive, hall, hcommit⟩ := h.sound.committed hpost
  exact resumes_persistPhase h hstaging (h.sound.later hstaging hconf hphase hactive hall hcommit)

theorem resumes_advancePhase {phase : RemovalPhase} (hphase : phase.preCommit = false) :
    Resumes fingerprint home cooperative (r.spaceId, r.removedDid)
      (fun s w' => HeldRecord fingerprint home w' s ∧ s.staging = r.staging ∧ s.phase = phase)
      (advancePhase r phase) w :=
  Resumes.bind (resumes_laterPhase (s := { r with phase := phase }) h hpost rfl rfl hphase)
    fun _ _ h₁ => Resumes.ret ⟨h₁, rfl, rfl⟩

theorem resumes_deleteOwnStaging : Resumes fingerprint home cooperative (r.spaceId, r.removedDid)
      (fun _ w' => Resumed w' r) (deleteOwnStaging r) w := by
  have hdelete : w.removals.deletePendingRemoval r.spaceId r.removedDid
      (some (pendingRemovalWriteExpectation (some r))) =
        (.deleted, w.removals.erase (r.spaceId, r.removedDid)) := by
    simp only [PendingRemovals.deletePendingRemoval, h.stored.get,
      matches_own h.sound.isSome rfl, if_true]
  obtain ⟨hactive, hall, hcommit⟩ := h.sound.committed hpost
  refine Resumes.attempt fun hinv env => ?_
  simp only [hdelete]
  refine ⟨hinv.erase h.stored hpost, erase w, ?_, hactive, fun url hurl => ?_, hcommit⟩
  · exact (get?_erase _ _ _).trans (if_pos rfl)
  · exact h.sound.confirmed url (hall url hurl)

end

theorem resumes_sendAdminRemove (brokerUrl : String) :
    Resumes fingerprint home cooperative k (fun _ w' => HeldRecord fingerprint home w' r)
      (sendAdminRemove r brokerUrl) w := by
  refine Resumes.atomic fun hinv env hhonest hsmooth => ?_
  have admin : ∀ adminRemoved, ResumeInv fingerprint home { w with adminRemoved := adminRemoved } ∧
      OthersKept k w { w with adminRemoved := adminRemoved } ∧
        HeldRecord fingerprint home { w with adminRemoved := adminRemoved } r := by
    intro adminRemoved
    have hkept : OthersKept (r.spaceId, r.removedDid) w { w with adminRemoved := adminRemoved } :=
      of_eq rfl rfl rfl rfl
    have hsound : RecordSound fingerprint home { w with adminRemoved := adminRemoved } r :=
      ResumeInv.recordSound_frame h.sound rfl (fun _ => rfl) fun _ hc => hc
    exact ⟨hinv.change h.stored rfl hkept (hinv.future r.spaceId) hsound,
      of_eq rfl rfl rfl rfl, h.stored, hsound⟩
  rcases hhonest with hreceipt | ⟨accepted, hlost⟩
  · simp only [hreceipt, accepted, if_true]
    obtain ⟨hinv', hkept, hheld⟩ := admin _
    refine ⟨hinv', hkept, fun _ _ => hheld, fun err he => ?_⟩
    cases he
  have hco : cooperative = false := by
    cases hco : cooperative with
    | false => rfl
    | true => exact absurd hlost ((hsmooth hco).2 accepted)
  simp only [hlost, BrokerReply.accepted]
  cases accepted with
  | true =>
    obtain ⟨hinv', hkept, -⟩ := admin _
    refine ⟨hinv', hkept, fun a ha => ?_, fun err he => ?_⟩
    · cases ha
    · cases he
      exact ⟨hco, .message _⟩
  | false =>
    refine ⟨hinv, refl k w, fun a ha => ?_, fun err he => ?_⟩
    · cases ha
    · cases he
      exact ⟨hco, .message _⟩

end

theorem resumes_handBackAdmin : ∀ (brokers : List String) (r : PendingRemoval) (w : RemovalWorld),
      HeldRecord fingerprint home w r → r.phase.preCommit = false →
        Resumes fingerprint home cooperative (r.spaceId, r.removedDid)
          (fun s w' => HeldRecord fingerprint home w' s ∧ s.staging = r.staging ∧ s.phase = r.phase)
          (handBackAdmin r brokers) w := by
  intro brokers
  induction brokers with
  | nil =>
    intro r w h _
    exact Resumes.ret ⟨h, rfl, rfl⟩
  | cons brokerUrl rest ih =>
    intro r w h hpost
    unfold handBackAdmin
    dsimp only
    split
    · exact ih r w h hpost
    refine Resumes.bind (Q := fun _ w' => HeldRecord fingerprint home w' r) ?_ fun _ w₁ h₁ => ?_
    · refine Resumes.handle (resumes_sendAdminRemove h brokerUrl) fun err w₁ hco herr => ?_
      cases herr with
      | message text | pending spaceId removedDid generation stage =>
        exact Resumes.fail hco (.pending ..)
    let brokerUrls := r.adminRemoveConfirmedBrokerUrls.getD [] ++ [brokerUrl]
    let confirmed : PendingRemoval :=
      { r with adminRemoveConfirmedBrokerUrls := some brokerUrls }
    exact Resumes.bind (resumes_laterPhase (s := confirmed) h₁ hpost rfl rfl hpost)
      fun _ w₂ h₂ => ih confirmed w₂ h₂ hpost

theorem resumes_requireAdminRemoveDeps (hdeps : cooperative = true → deps.adminRemove = true)
    (h : HeldRecord fingerprint home w r) :
    Resumes fingerprint home cooperative k (fun _ w' => HeldRecord fingerprint home w' r)
      (requireAdminRemoveDeps deps r) w := by
  unfold requireAdminRemoveDeps
  split
  · exact Resumes.ret h
  next hnone =>
  refine Resumes.fail ?_ (.message _)
  cases hco : cooperative with
  | false => rfl
  | true => exact absurd (hdeps hco) hnone

theorem resumes_finalizeSelfLeave (h : HeldRecord fingerprint home w r)
    (hpost : r.phase.preCommit = false) :
    Resumes fingerprint home cooperative (r.spaceId, r.removedDid)
      (fun s w' => HeldRecord fingerprint home w' s ∧ s.staging = r.staging ∧
        s.phase = .localCleanup)
      (finalizeSelfLeave r) w := by
  refine Resumes.bind (Q := fun _ w' => HeldRecord fingerprint home w' r) ?_ fun _ w₁ h₁ => ?_
  · refine Resumes.attempt fun hinv env => ?_
    have hkept : OthersKept (r.spaceId, r.removedDid) w { w with
        finalized := w.finalized ++ [(r.spaceId, r.removedDid, r.newGeneration)] } :=
      of_eq rfl rfl rfl rfl
    have hsound : RecordSound fingerprint home { w with
        finalized := w.finalized ++ [(r.spaceId, r.removedDid, r.newGeneration)] } r :=
      ResumeInv.recordSound_frame h.sound rfl (fun _ => rfl) fun _ hc => hc
    exact ⟨hinv.change h.stored rfl hkept (hinv.future r.spaceId) hsound, hkept, h.stored, hsound⟩
  · exact resumes_advancePhase h₁ hpost rfl

theorem key_of_staging (h : s.staging = r.staging) :
    (s.spaceId, s.removedDid) = (r.spaceId, r.removedDid) := by
  rw [show s.spaceId = r.spaceId from congrArg spaceId h,
    show s.removedDid = r.removedDid from congrArg removedDid h]

section

variable (hdeps : cooperative = true → r.removedDid = deps.ownerDid → deps.adminRemove = true)
include hdeps

theorem resumes_removeOwnAdmin
    (h : HeldRecord fingerprint home w r) (hpost : r.phase.preCommit = false) :
    Resumes fingerprint home cooperative (r.spaceId, r.removedDid)
      (fun s w' => HeldRecord fingerprint home w' s ∧ s.staging = r.staging ∧
        s.phase.preCommit = false) (removeOwnAdmin deps r) w := by
  unfold removeOwnAdmin
  split
  · next hself =>
    refine Resumes.bind (resumes_requireAdminRemoveDeps (fun hco => hdeps hco hself.1) h)
      fun _ w₁ h₁ => ?_
    refine Resumes.bind (Q := fun _ w' => HeldRecord fingerprint home w' r)
      (Resumes.read fun _ _ => h₁) fun _ w₂ h₂ => ?_
    refine Resumes.bind (resumes_handBackAdmin r.homeBrokerSet r w₂ h₂ hpost) ?_
    rintro s w₃ ⟨h₃, hstaging, hphase⟩
    have hspost : s.phase.preCommit = false := by rw [hphase]; exact hpost
    rw [← key_of_staging hstaging]
    refine (resumes_advancePhase h₃ hspost rfl).post ?_
    rintro s' w₄ ⟨h₄, hstaging', hphase'⟩
    exact ⟨h₄, hstaging'.trans hstaging, by rw [hphase']; rfl⟩
  · exact Resumes.ret ⟨h, rfl, hpost⟩

theorem resumes_finalizeOwnLeave
    (h : HeldRecord fingerprint home w r) (hpost : r.phase.preCommit = false) :
    Resumes fingerprint home cooperative (r.spaceId, r.removedDid)
      (fun s w' => HeldRecord fingerprint home w' s ∧ s.staging = r.staging ∧
        s.phase.preCommit = false) (finalizeOwnLeave deps r) w := by
  unfold finalizeOwnLeave
  split
  · next hself =>
    refine Resumes.bind (resumes_requireAdminRemoveDeps (fun hco => hdeps hco hself.1) h)
      fun _ w₁ h₁ => ?_
    refine (resumes_finalizeSelfLeave h₁ hpost).post ?_
    rintro s w₂ ⟨h₂, hstaging, hphase⟩
    exact ⟨h₂, hstaging, by rw [hphase]; rfl⟩
  · exact Resumes.ret ⟨h, rfl, hpost⟩

end

theorem resumes_completeRemoval (h : HeldRecord fingerprint home w r)
    (hpost : r.phase.preCommit = false) :
    Resumes fingerprint home cooperative (r.spaceId, r.removedDid)
      (fun _ w' => Resumed w' r) (completeRemoval r) w := by
  refine Resumes.bind (Q := fun s w' => HeldRecord fingerprint home w' s ∧ s.staging = r.staging ∧
    s.phase.preCommit = false) ?_ ?_
  · unfold completeCleanup
    split
    · refine (resumes_advancePhase h hpost rfl).post ?_
      rintro s w₁ ⟨h₁, hstaging, hphase⟩
      exact ⟨h₁, hstaging, by rw [hphase]; rfl⟩
    · exact Resumes.ret ⟨h, rfl, hpost⟩
  · rintro s w₁ ⟨h₁, hstaging, hspost⟩
    rw [← key_of_staging hstaging]
    exact Resumes.bind (resumes_deleteOwnStaging h₁ hspost) fun _ w₂ h₂ =>
      Resumes.ret (h₂.of_staging hstaging)

/-! ## 7. Whole drivers -/

theorem resumes_finishEnforced
    (hdeps : cooperative = true → r.removedDid = deps.ownerDid → deps.adminRemove = true)
    (h : HeldRecord fingerprint home w (r.confirming urls))
    (hall : ∀ url ∈ r.homeBrokerSet, url ∈ urls)
    (hsame : r.phase.preCommit = false → urls = r.confirmedBrokerUrls) :
    Resumes fingerprint home cooperative (r.spaceId, r.removedDid)
      (fun _ w' => Resumed w' r) (finishEnforced deps r urls) w := by
  unfold finishEnforced
  rw [if_neg (by simpa using hall)]
  refine Resumes.bind (resumes_commitEnforced deps h hall hsame) ?_
  rintro s₁ w₁ ⟨h₁, hs₁, hpost₁, -⟩
  rw [← key_of_staging hs₁]
  have hdid₁ : s₁.removedDid = r.removedDid := congrArg removedDid hs₁
  refine Resumes.bind (resumes_removeOwnAdmin (fun hco hself => hdeps hco (hdid₁ ▸ hself)) h₁
    hpost₁) ?_
  rintro s₂ w₂ ⟨h₂, hs₂, hpost₂⟩
  rw [← key_of_staging hs₂]
  have hdid₂ : s₂.removedDid = r.removedDid :=
    (congrArg removedDid hs₂).trans hdid₁
  refine Resumes.bind (resumes_finalizeOwnLeave (fun hco hself => hdeps hco (hdid₂ ▸ hself)) h₂
    hpost₂) ?_
  rintro s₃ w₃ ⟨h₃, hs₃, hpost₃⟩
  rw [← key_of_staging hs₃]
  exact (resumes_completeRemoval h₃ hpost₃).post fun _ w₄ h₄ =>
    h₄.of_staging (hs₃.trans (hs₂.trans hs₁))

end WebOfTrust
