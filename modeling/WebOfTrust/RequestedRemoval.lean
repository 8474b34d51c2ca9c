/-
  **A removal driver and its request.**  A call of `runTwoPhaseRemoval` asks for one
  member of one space, a kind of removal and perhaps a least generation.  What it
  drives is a record: its own candidate, or one that it finds.

  A record found by the first staging write is compared with the request; one found
  by the first read, or by the write that binds a record without a staging identity,
  is not (`takenOver`).  Nothing else lets go of the request, but for a gap that is
  closed below its target.
-/
import WebOfTrust.AsyncTrace
import WebOfTrust.SecureRemovalCommit

namespace WebOfTrust

open Async

abbrev RemovalVisit := Visit RemovalPoint RemovalEnv RemovalWorld

/-! ## 1. Requests -/

/-- What a caller of `runTwoPhaseRemoval` asks for. -/
structure RemovalRequest where
  spaceId : DocId
  removedDid : Did
  canonical : Bool
  targetGeneration : Option Nat

namespace RemovalRequest

def Reaches (q : RemovalRequest) (generation : Nat) : Prop :=
  ∀ target ∈ q.targetGeneration, target ≤ generation

structure Fits (q : RemovalRequest) (r : PendingRemoval) : Prop where
  spaceId : r.spaceId = q.spaceId
  removedDid : r.removedDid = q.removedDid
  kind : r.canonicalSelfRemovalRotation = q.canonical
  generation : q.Reaches r.newGeneration

/-- Whatever is staged, sent, confirmed, committed, written or deleted at a point is
    what was asked for. -/
def Drives (q : RemovalRequest) : RemovalPoint → Prop
  | .put removal .absent => q.Fits removal
  | .checkBinding removal => q.Fits removal
  | .createRotateFrame removal => q.Fits removal
  | .sendSpaceRotate _ frame => ∃ removal, q.Fits removal ∧ frame = removal.rotateFrame
  | .markBrokerConfirmed removal _ => q.Fits removal
  | .persistPhase copy removal => q.Fits copy ∧ q.Fits removal
  | .gate removal => q.Fits removal
  | .commit removal _ => q.Fits removal
  | .createAdminRemoveFrame removal => q.Fits removal
  | .sendAdminRemove removal _ => q.Fits removal
  | .finalizeSelfLeave removal => q.Fits removal
  | .delete removal => q.Fits removal
  | _ => True

end RemovalRequest

/-! ## 2. What a driver takes over -/

def RemovalPoint.readsGeneration : RemovalPoint → Bool
  | .currentGeneration _ => true
  | _ => false

/-- The record about to be written is a candidate for the generation just read, and
    not a record that is given an identity. -/
def ownCandidate (history : List RemovalVisit) : Bool :=
  history.dropLast.getLast?.any (·.point.readsGeneration)

section

variable (fingerprint : Nat → StagedRemovalKeyMaterial → String)

def takenOver (history : List RemovalVisit) (v : RemovalVisit) : Option PendingRemoval :=
  match v.input.failure, v.point with
  | none, .getPendingRemoval spaceId removedDid =>
    v.before.removals.getPendingRemoval spaceId removedDid
  | none, .put removal expect =>
    if ownCandidate history then none
    else
      match v.before.removals.putPendingRemoval removal (some expect) with
      | .ok _ => none
      | .error winner => winner.filter (·.isBound fingerprint)
  | _, _ => none

def reportedGap (v : RemovalVisit) : Option Nat :=
  match v.point, v.input.reply with
  | .sendSpaceRotate _ _, .rejected .generationGap currentGeneration =>
    currentGeneration.filter (· ≤ maxSafeInteger)
  | _, _ => none

def convergesTo (history : List RemovalVisit) (v : RemovalVisit) : Option Nat :=
  match v.input.failure, v.point with
  | none, .currentGeneration spaceId =>
    (history.getLast?.bind reportedGap).filter
      fun generation => (v.before.keys spaceId).generation ≤ generation
  | _, _ => none

structure OnRequest (q : RemovalRequest) (history : List RemovalVisit) (v : RemovalVisit) :
    Prop where
  taken : ∀ r ∈ takenOver fingerprint history v, q.Fits r
  gap : ∀ generation ∈ convergesTo history v, q.Reaches (generation + 1)

/-- A program of the driver keeps to the request and ends in `Q`. -/
def Asks {α : Type} (q : RemovalRequest) (Q : List RemovalVisit → α → Prop)
    (history : List RemovalVisit) (p : RemovalProgram α) : Prop :=
  Traced (OnRequest fingerprint q) (fun _ v => q.Drives v.point) Q (fun _ _ => True) history p

end

variable {fingerprint : Nat → StagedRemovalKeyMaterial → String} {q : RemovalRequest}
  {history : List RemovalVisit} {α β : Type} {r s removal : PendingRemoval}

def Settled (history : List RemovalVisit) : Prop :=
  history.getLast?.any (·.point.readsGeneration) = false

theorem settled_concat {v : RemovalVisit} (h : v.point.readsGeneration = false) :
    Settled (history ++ [v]) := by
  simp [Settled, h]

theorem ownCandidate_concat (v : RemovalVisit) (h : Settled history) :
    ownCandidate (history ++ [v]) = false := by
  unfold ownCandidate
  rw [List.dropLast_concat]
  exact h

theorem RemovalRequest.Fits.of_eq (h : q.Fits r) (hs : s.spaceId = r.spaceId)
    (hd : s.removedDid = r.removedDid)
    (hk : s.canonicalSelfRemovalRotation = r.canonicalSelfRemovalRotation)
    (hg : s.newGeneration = r.newGeneration) : q.Fits s where
  spaceId := hs.trans h.spaceId
  removedDid := hd.trans h.removedDid
  kind := hk.trans h.kind
  generation := hg ▸ h.generation

theorem reaches_of_filter {generation : Nat}
    (h : q.targetGeneration.filter (generation < ·) = none) : q.Reaches generation := by
  intro target htarget
  rw [Option.filter_eq_none_iff] at h
  have hnot := h target htarget
  simpa using hnot

/-! ## 3. Rules -/

namespace Asks

variable {Q Q' : List RemovalVisit → α → Prop} {R : List RemovalVisit → β → Prop}
  {p : RemovalProgram α} {t : RemovalPoint}

theorem ret {a : α} (h : Q history a) : Asks fingerprint q Q history (.ret a) := h

theorem fail (err : RemovalError) : Asks fingerprint q Q history (.fail err) := trivial

theorem post (hp : Asks fingerprint q Q history p) (h : ∀ history a, Q history a → Q' history a) :
    Asks fingerprint q Q' history p :=
  Traced.post hp h

theorem bind {f : α → RemovalProgram β} (hp : Asks fingerprint q Q history p)
    (hf : ∀ history a, Q history a → Asks fingerprint q R history (f a)) :
    Asks fingerprint q R history (p.bind f) :=
  traced_bind (hp.post hf)

theorem handle {handler : RemovalError → RemovalProgram α} (hp : Asks fingerprint q Q history p)
    (hh : ∀ history err, Asks fingerprint q Q history (handler err)) :
    Asks fingerprint q Q history (p.tryCatch handler) :=
  traced_tryCatch (hp.mono (fun _ _ hQ => hQ) fun history err _ => hh history err)

variable {f : RemovalEnv → RemovalWorld → α × RemovalWorld}

theorem attempt (hdrives : q.Drives t)
    (h : ∀ v : RemovalVisit, v.point = t → v.input.failure = none →
      OnRequest fingerprint q history v → Q (history ++ [v]) (f v.input v.before).1) :
    Asks fingerprint q Q history (WebOfTrust.attempt t f) := by
  refine traced_atomic (fun _ _ _ => hdrives) (fun env w a hon ha => ?_) fun _ _ _ _ _ => trivial
  cases hfailure : env.failure with
  | some text =>
    rw [hfailure] at ha
    cases ha
  | none =>
    simp only [hfailure] at ha hon ⊢
    cases ha
    exact h ⟨t, env, w, (f env w).2⟩ rfl hfailure hon

theorem ask (hdrives : q.Drives t) :
    Asks fingerprint q (fun _ _ => True) history (WebOfTrust.attempt t f) :=
  attempt hdrives fun _ _ _ _ => trivial

end Asks

theorem traced_removalPut {t : RemovalPoint} {expect : WriteExpectation} (hdrives : q.Drives t) :
    Traced (OnRequest fingerprint q) (fun _ v => q.Drives v.point)
      (fun h (_ : Unit) => ∃ v : RemovalVisit, h = history ++ [v] ∧ v.point = t)
      (fun h err => ∀ spaceId removedDid winner,
        err = .stagingConflict spaceId removedDid (some winner) →
          ∃ v : RemovalVisit, h = history ++ [v] ∧ v.point = t ∧ v.input.failure = none ∧
            OnRequest fingerprint q history v ∧
            v.before.removals.putPendingRemoval removal (some expect) = .error (some winner))
      history (putPendingRemoval t removal expect) := by
  refine traced_atomic (fun _ _ _ => hdrives) (fun env w a _ _ => ⟨_, rfl, rfl⟩) ?_
  rintro env w err hon he spaceId removedDid winner rfl
  refine ⟨_, rfl, rfl, ?_⟩
  cases hfailure : env.failure with
  | some text =>
    rw [hfailure] at he
    cases he
  | none =>
    simp only [hfailure] at he hon
    refine ⟨rfl, by simpa only [hfailure] using hon, ?_⟩
    cases hput : w.removals.putPendingRemoval removal (some expect) with
    | ok removals =>
      rw [hput] at he
      cases he
    | error existing =>
      rw [hput] at he
      cases he
      rfl

/-! ## 4. Staging -/

theorem keys_of_get {w : RemovalWorld} {spaceId : DocId} {removedDid : Did}
    (h : w.removals.getPendingRemoval spaceId removedDid = some r) :
    r.spaceId = spaceId ∧ r.removedDid = removedDid := by
  obtain ⟨row, hrow, rfl⟩ := Option.map_eq_some_iff.mp h
  have hkey : row.key = (spaceId, removedDid) := KeyedTable.key_of_get? hrow
  exact Prod.mk.inj hkey

open Asks

theorem keeps_getPendingRemoval (spaceId : DocId) (removedDid : Did) :
    Asks fingerprint q (fun h found => Settled h ∧ ∀ r ∈ found, q.Fits r) history
      (getPendingRemoval spaceId removedDid) := by
  refine Asks.attempt trivial fun v hpoint hfailure hon => ?_
  refine ⟨settled_concat (by rw [hpoint]; rfl), fun r hr => hon.taken r ?_⟩
  unfold takenOver
  rw [hfailure, hpoint]
  exact hr

structure RemovalRequest.Named (q : RemovalRequest) (r : PendingRemoval) : Prop where
  spaceId : r.spaceId = q.spaceId
  removedDid : r.removedDid = q.removedDid
  kind : r.canonicalSelfRemovalRotation = q.canonical

theorem RemovalRequest.Named.fits (h : q.Named r) (hg : q.Reaches r.newGeneration) : q.Fits r :=
  ⟨h.spaceId, h.removedDid, h.kind, hg⟩

variable (deps : SecureRemovalDeps)

theorem keeps_stageRemovalCandidate {spaceId : DocId}
    {removedDid : Did} (activityEntry : Option String) {canonical : Bool}
    (hs : spaceId = q.spaceId) (hd : removedDid = q.removedDid) (hk : canonical = q.canonical) :
    Asks fingerprint q (fun _ r => q.Named r) history
      (stageRemovalCandidate fingerprint deps spaceId removedDid activityEntry canonical) := by
  refine Asks.bind (Asks.ask trivial) fun _ current _ => ?_
  split
  · exact Asks.fail _
  · exact Asks.attempt trivial fun v _ _ _ => ⟨hs, hd, hk⟩

theorem keeps_stageRemoval (activityEntry : Option String) :
    Asks fingerprint q (fun h r => Settled h ∧ q.Fits r) history
      (stageRemoval fingerprint deps q.spaceId q.removedDid activityEntry q.canonical
        q.targetGeneration none) := by
  refine bind (keeps_stageRemovalCandidate deps activityEntry rfl rfl rfl)
    fun history removal hnamed => ?_
  split
  · exact fail _
  next htarget =>
  have hfits : q.Fits removal := hnamed.fits (reaches_of_filter htarget)
  have hdrives : q.Drives (.put removal .absent) := hfits
  refine traced_tryCatch (traced_bind ((traced_removalPut hdrives).mono ?_ ?_))
  · rintro h - ⟨v, rfl, hpoint⟩
    exact ⟨settled_concat (by rw [hpoint]; rfl), hfits⟩
  intro h err herr
  split
  · next winner _ =>
    obtain ⟨v, rfl, hpoint, -, -, hput⟩ := herr _ _ winner rfl
    have hkeys := keys_of_get (PendingRemovals.putPendingRemoval_error hput).symm
    split
    · exact fail _
    next hkind =>
    split
    · exact fail _
    next hwinner =>
    refine ⟨settled_concat (by rw [hpoint]; rfl), ?_, ?_, ?_, reaches_of_filter hwinner⟩
    · exact hkeys.1.trans hnamed.spaceId
    · exact hkeys.2.trans hnamed.removedDid
    · exact not_not.mp hkind
  · exact fail _

theorem expectation_ne_absent (r : PendingRemoval) :
    pendingRemovalWriteExpectation (some r) ≠ .absent := by
  simp only [pendingRemovalWriteExpectation]
  split
  · rintro ⟨⟩
  · rintro ⟨⟩

theorem drives_over (removal r : PendingRemoval) :
    q.Drives (.put removal (pendingRemovalWriteExpectation (some r))) := by
  have hne := expectation_ne_absent r
  revert hne
  cases pendingRemovalWriteExpectation (some r) with
  | absent => exact fun hne => absurd rfl hne
  | legacy _ _ _ | staging _ => exact fun _ => trivial

theorem keeps_restageRemoval (hr : q.Fits r) : Asks fingerprint q (fun _ _ => True) history
      (stageRemoval fingerprint deps r.spaceId r.removedDid r.activityEntry
        r.canonicalSelfRemovalRotation none (some r)) := by
  refine bind (keeps_stageRemovalCandidate deps r.activityEntry hr.spaceId hr.removedDid
    hr.kind) fun history removal _ => ?_
  refine handle (bind (Q := fun _ _ => True) ?_ fun _ _ _ => ret trivial) ?_
  · exact (traced_removalPut (drives_over removal r)).mono (fun _ _ _ => trivial) fun _ _ _ => trivial
  intro history err
  split
  · next hreplaces => cases hreplaces
  · exact fail _

/-! ## 5. Phase writes and binding -/

theorem keeps_persistPhase {copy : PendingRemoval} (hcopy : q.Fits copy) (hr : q.Fits removal) :
    Asks fingerprint q (fun _ _ => True) history (persistPhase copy removal) := by
  have hdrives : q.Drives (.persistPhase copy removal) := ⟨hcopy, hr⟩
  refine handle ((traced_removalPut hdrives).mono (fun _ _ _ => trivial) fun _ _ _ => trivial) ?_
  intro history err
  split
  · exact fail _
  · exact fail _

theorem keeps_deleteOwnStaging (hr : q.Fits removal) :
    Asks fingerprint q (fun _ _ => True) history (deleteOwnStaging removal) :=
  ask hr

theorem RemovalRequest.Fits.rebased (h : q.Fits r) : q.Fits r.rebased := by
  unfold PendingRemoval.rebased
  split
  · exact h.of_eq rfl rfl rfl rfl
  · exact h

theorem keeps_bindStagingMaterial (hr : q.Fits removal) (hsettled : Settled history) :
    Asks fingerprint q (fun _ r => q.Fits r) history (bindStagingMaterial fingerprint removal) := by
  unfold bindStagingMaterial
  split
  · refine bind (ask hr) fun _ stored _ => ?_
    split
    · exact fail _
    · exact ret hr
  have hmint : Asks fingerprint q
      (fun h r => ∃ v : RemovalVisit, h = history ++ [v] ∧ q.Fits r) history
      (mintStaging fingerprint (fun _ => removal.rebased) removal.rebased) :=
    Asks.attempt trivial fun v _ _ _ => ⟨v, rfl, hr.rebased.of_eq rfl rfl rfl rfl⟩
  refine Asks.bind hmint fun h adopted hadopted => ?_
  obtain ⟨m, rfl, hfits⟩ := hadopted
  refine traced_tryCatch (traced_bind ((traced_removalPut (drives_over adopted removal)).mono ?_ ?_))
  · exact fun _ _ _ => hfits
  intro h err herr
  split
  · next winner =>
    obtain ⟨v, rfl, hpoint, hfailure, hon, hput⟩ := herr _ _ winner rfl
    split
    · next hbound =>
      refine hon.taken winner ?_
      unfold takenOver
      simp only [hfailure, hpoint, ownCandidate_concat m hsettled, Bool.false_eq_true,
        if_false, hput]
      simp [hbound]
    · exact fail _
  · exact fail _
  · exact fail _

/-! ## 6. Broker confirmations -/

def GapReported (history : List RemovalVisit) (err : RemovalError) : Prop :=
  ∀ currentGeneration, err = .controlFrameRejected .generationGap currentGeneration →
    history.getLast?.bind reportedGap = currentGeneration.filter (· ≤ maxSafeInteger)

theorem gapReported_of_ne {err : RemovalError}
    (h : ∀ currentGeneration, err ≠ .controlFrameRejected .generationGap currentGeneration) :
    GapReported history err :=
  fun currentGeneration he => absurd he (h currentGeneration)

theorem traced_sendSpaceRotate (hr : q.Fits r) (brokerUrl : String) :
    Traced (OnRequest fingerprint q) (fun _ v => q.Drives v.point) (fun _ _ => True)
      GapReported history (sendSpaceRotate brokerUrl r.rotateFrame) := by
  refine traced_atomic (fun _ _ _ => ⟨r, hr, rfl⟩) (fun _ _ _ _ _ => trivial) ?_
  rintro env w err - he currentGeneration rfl
  have hreply : env.reply = .rejected .generationGap currentGeneration := by
    cases hreply : env.reply with
    | receipt | lost accepted =>
      rw [hreply] at he
      cases he
    | rejected code generation =>
      rw [hreply] at he
      cases he
      rfl
  rw [List.getLast?_concat, Option.bind_some]
  simp only [reportedGap, hreply]

def Continues (q : RemovalRequest) (history : List RemovalVisit) (ended : Enforcement) : Prop :=
  ∀ restaged, ended = .restaged restaged → Settled history ∧ q.Fits restaged

section

variable (hr : q.Fits r)
include hr

theorem keeps_handleGenerationGap {currentGeneration : Option Nat}
    (hgap : history.getLast?.bind reportedGap = currentGeneration.filter (· ≤ maxSafeInteger)) :
    Asks fingerprint q (fun h found => ∀ s ∈ found, Settled h ∧ q.Fits s) history
      (handleGenerationGap fingerprint deps r currentGeneration) := by
  unfold handleGenerationGap
  split
  · exact Asks.ret fun s hs => by cases hs
  next brokerGeneration hbroker =>
  refine Asks.bind (Q := fun _ localGeneration => localGeneration ≤ (brokerGeneration : Int) →
    q.Reaches (brokerGeneration + 1)) (Asks.attempt trivial fun v hpoint hfailure hon hle => ?_)
    fun _ localGeneration hreaches => ?_
  · refine hon.gap brokerGeneration ?_
    unfold convergesTo
    simp only [hfailure, hpoint, hgap, hbroker]
    simpa using hle
  split
  · exact Asks.fail _
  next hle =>
  have hreaches' := hreaches (Int.not_lt.mp hle)
  refine Asks.bind (Asks.ask trivial) fun _ complete _ => ?_
  split
  · exact Asks.ret fun s hs => by cases hs
  refine Asks.bind (keeps_stageRemovalCandidate deps r.activityEntry hr.spaceId
    hr.removedDid hr.kind) fun history restaged hnamed => ?_
  split
  · exact Asks.fail _
  next hgeneration =>
  have hfits : q.Fits restaged :=
    hnamed.fits ((not_not.mp hgeneration).symm ▸ hreaches')
  refine traced_bind ((traced_removalPut (drives_over restaged r)).mono ?_ fun _ _ _ => trivial)
  rintro h - ⟨v, rfl, hpoint⟩ s hs
  cases hs
  exact ⟨settled_concat (by rw [hpoint]; rfl), hfits⟩

theorem keeps_handleGenerationTaken :
    Asks fingerprint q (fun _ _ => True) history (handleGenerationTaken fingerprint deps r) := by
  refine bind (ask trivial) fun _ current _ => ?_
  split
  · exact bind (keeps_deleteOwnStaging hr) fun _ _ _ => ret trivial
  split
  · exact bind (keeps_restageRemoval deps hr) fun _ _ _ => ret trivial
  · exact ret trivial

theorem keeps_handleRotateError {err : RemovalError} (herr : GapReported history err) :
    Asks fingerprint q (Continues q) history (handleRotateError fingerprint deps r err) := by
  unfold handleRotateError
  split
  · exact fail _
  · next currentGeneration =>
    refine bind (keeps_handleGenerationGap deps hr (herr currentGeneration rfl))
      fun history found hfound => ?_
    split
    · next restaged =>
      refine ret fun s hs => ?_
      cases hs
      exact hfound restaged rfl
    · exact fail _
  · refine bind (keeps_handleGenerationTaken deps hr) fun _ fulfilled _ => ?_
    split
    · exact ret fun s hs => by cases hs
    · exact fail _
  · split
    · exact fail _
    · exact fail _
  · exact fail _

theorem traced_markBrokerConfirmed (brokerUrl : String) :
    Traced (OnRequest fingerprint q) (fun _ v => q.Drives v.point) (fun _ _ => True)
      GapReported history (markBrokerConfirmed r brokerUrl) := by
  refine traced_atomic (fun _ _ _ => hr) (fun _ _ _ _ _ => trivial) ?_
  intro env w err _ he
  rcases hfailure : env.failure with _ | text
  · rw [hfailure] at he
    cases he
  rw [hfailure] at he
  cases he
  exact gapReported_of_ne nofun

theorem keeps_confirmBrokers : ∀ (brokers confirmed : List String) (history : List RemovalVisit),
      Asks fingerprint q (Continues q) history
        (confirmBrokers fingerprint deps r r.rotateFrame brokers confirmed) := by
  intro brokers
  induction brokers with
  | nil => exact fun confirmed history => ret fun s hs => by cases hs
  | cons brokerUrl rest ih =>
    intro confirmed history
    unfold confirmBrokers
    split
    · exact ih confirmed history
    refine bind (Q := fun h failed => ∀ ended, failed = some ended → Continues q h ended)
      (traced_tryCatch (traced_bind ((traced_sendSpaceRotate hr brokerUrl).mono ?_ ?_))) ?_
    · intro h _ _
      refine traced_bind ((traced_markBrokerConfirmed hr brokerUrl).mono ?_ ?_)
      · intro h outcome _
        split
        · exact traced_ret.mpr fun ended he => by cases he
        · exact bind (keeps_handleRotateError deps hr (gapReported_of_ne (by rintro _ ⟨⟩)))
            fun h ended hended => ret fun e he => by cases he; exact hended
      · intro h err herr
        exact bind (keeps_handleRotateError deps hr herr)
          fun h ended hended => ret fun e he => by cases he; exact hended
    · intro h err herr
      exact bind (keeps_handleRotateError deps hr herr)
        fun h ended hended => ret fun e he => by cases he; exact hended
    · intro h failed hfailed
      split
      · next ended => exact ret (hfailed ended rfl)
      · exact ih _ h

/-! ## 7. The commit and what follows it -/

theorem keeps_assertMaterialConfirmed :
    Asks fingerprint q (fun _ _ => True) history (assertMaterialConfirmed r) := by
  refine bind (ask hr) fun _ stored _ => ?_
  split
  · exact ret trivial
  · exact fail _

theorem keeps_provision :
    Asks fingerprint q (fun _ _ => True) history (provisionCapabilityForGeneration deps r) :=
  bind (ask hr) fun _ _ _ => ask hr

theorem keeps_commitStagedRotation :
    Asks fingerprint q (fun _ _ => True) history (commitStagedRotation deps r) := by
  refine bind (ask hr) fun _ current _ => ?_
  split
  · exact bind (ask hr) fun _ _ _ => keeps_provision deps hr
  split
  · refine bind (ask hr) fun _ storedKey _ => ?_
    split
    · exact fail _
    refine bind (ask hr) fun _ storedCapVk _ => ?_
    split
    · exact fail _
    refine bind (ask hr) fun _ ownCapability _ => ?_
    split
    · exact ret trivial
    · exact keeps_provision deps hr
  · exact fail _

theorem keeps_commitEnforced (confirmed : List String) :
    Asks fingerprint q (fun _ s => q.Fits s) history (commitEnforced deps r confirmed) := by
  unfold commitEnforced
  split
  · exact ret hr
  have henforced : q.Fits { r with
      confirmedBrokerUrls := confirmed, phase := .brokerConfirmed } :=
    hr.of_eq rfl rfl rfl rfl
  refine bind (keeps_persistPhase hr henforced) fun _ _ _ => ?_
  refine bind (keeps_assertMaterialConfirmed henforced) fun _ _ _ => ?_
  refine bind (keeps_commitStagedRotation deps henforced) fun _ _ _ => ?_
  refine bind (ask henforced) fun _ _ _ => ?_
  exact bind (keeps_persistPhase henforced (henforced.of_eq rfl rfl rfl rfl))
    fun _ _ _ => ret (henforced.of_eq rfl rfl rfl rfl)

end

theorem keeps_requireAdminRemoveDeps (r : PendingRemoval) :
    Asks fingerprint q (fun _ _ => True) history (requireAdminRemoveDeps deps r) := by
  unfold requireAdminRemoveDeps
  split
  · exact ret trivial
  · exact fail _

theorem keeps_advancePhase (hr : q.Fits r) (phase : RemovalPhase) :
    Asks fingerprint q (fun _ s => q.Fits s) history (advancePhase r phase) :=
  bind (keeps_persistPhase hr (hr.of_eq rfl rfl rfl rfl))
    fun _ _ _ => ret (hr.of_eq rfl rfl rfl rfl)

theorem keeps_finalizeSelfLeave (hr : q.Fits r) :
    Asks fingerprint q (fun _ s => q.Fits s) history (finalizeSelfLeave r) :=
  bind (ask hr) fun _ _ _ => keeps_advancePhase hr .localCleanup

theorem keeps_handBackAdmin :
    ∀ (brokers : List String) (r : PendingRemoval) (history : List RemovalVisit), q.Fits r →
      Asks fingerprint q (fun _ s => q.Fits s) history (handBackAdmin r brokers) := by
  intro brokers
  induction brokers with
  | nil => exact fun r history hr => ret hr
  | cons brokerUrl rest ih =>
    intro r history hr
    unfold handBackAdmin
    dsimp only
    split
    · exact ih r history hr
    refine bind (Q := fun _ _ => True) (handle ?_ fun h err => ?_) fun h _ _ => ?_
    · exact traced_atomic (fun _ _ _ => hr) (fun _ _ _ _ _ => trivial) fun _ _ _ _ _ => trivial
    · split
      · split
        · exact fail _
        · exact fail _
      · exact fail _
    · exact bind (keeps_persistPhase hr (hr.of_eq rfl rfl rfl rfl))
        fun h _ _ => ih _ h (hr.of_eq rfl rfl rfl rfl)

theorem keeps_removeOwnAdmin (hr : q.Fits r) :
    Asks fingerprint q (fun _ s => q.Fits s) history (removeOwnAdmin deps r) := by
  unfold removeOwnAdmin
  split
  · refine bind (keeps_requireAdminRemoveDeps deps r) fun _ _ _ => ?_
    refine bind (ask hr) fun h _ _ => ?_
    exact bind (keeps_handBackAdmin r.homeBrokerSet r h hr)
      fun _ s hs => keeps_advancePhase hs .adminRemoved
  · exact ret hr

theorem keeps_finalizeOwnLeave (hr : q.Fits r) :
    Asks fingerprint q (fun _ s => q.Fits s) history (finalizeOwnLeave deps r) := by
  unfold finalizeOwnLeave
  split
  · exact bind (keeps_requireAdminRemoveDeps deps r) fun _ _ _ => keeps_finalizeSelfLeave hr
  · exact ret hr

theorem keeps_completeRemoval (hr : q.Fits r) :
    Asks fingerprint q (fun _ _ => True) history (completeRemoval r) := by
  refine bind (Q := fun _ s => q.Fits s) ?_ fun _ s hs =>
    bind (keeps_deleteOwnStaging hs) fun _ _ _ => ret trivial
  unfold completeCleanup
  split
  · exact keeps_advancePhase hr .complete
  · exact ret hr

/-! ## 8. Drivers -/

theorem keeps_finalizeTerminal (deps : ResolvedDeps) (hr : q.Fits r)
    (hphase : r.phase = .adminRemoved) :
    Asks fingerprint q (fun _ s => q.Fits s ∧ s.phase = .localCleanup) history
      (finalizeTerminal deps r) := by
  unfold finalizeTerminal
  rw [if_pos hphase]
  refine bind (Q := fun _ _ => True) ?_ fun _ _ _ => ?_
  · cases deps with
    | full full => exact keeps_requireAdminRemoveDeps full r
    | finalization => exact ret trivial
    | cleanup => exact fail _
  · refine bind (ask hr) fun _ _ _ => ?_
    exact bind (keeps_persistPhase hr (hr.of_eq rfl rfl rfl rfl))
      fun _ _ _ => ret ⟨hr.of_eq rfl rfl rfl rfl, rfl⟩

theorem keeps_finishTerminal (deps : ResolvedDeps) (hr : q.Fits r) :
    Asks fingerprint q (fun h left => ∀ s, left = .ok s → h = history ∧ s = r) history
      (finishTerminal deps r) := by
  by_cases hphase : r.phase = .adminRemoved
  · refine bind (keeps_finalizeTerminal deps hr hphase) fun h s hs => ?_
    rw [if_neg (by rw [hs.2]; decide), if_pos hs.2]
    exact bind (keeps_completeRemoval hs.1) fun _ _ _ => ret fun s hs => by cases hs
  unfold finishTerminal finalizeTerminal
  rw [if_neg hphase, pure_def, bind_def, ret_bind]
  split
  · exact bind (keeps_deleteOwnStaging hr) fun _ _ _ => ret fun s hs => by cases hs
  split
  · exact bind (keeps_completeRemoval hr) fun _ _ _ => ret fun s hs => by cases hs
  · exact ret fun s hs => by cases hs; exact ⟨rfl, rfl⟩

theorem keeps_enforceRemoval (hr : q.Fits r) (hsettled : Settled history) :
    Asks fingerprint q (fun h e => q.Fits e.1 ∧ Continues q h e.2) history
      (enforceRemoval fingerprint deps r) := by
  refine bind (keeps_bindStagingMaterial hr hsettled) fun _ s hs => ?_
  refine bind (ask hs) fun h _ _ => ?_
  exact bind (keeps_confirmBrokers deps hs s.homeBrokerSet s.confirmedBrokerUrls h)
    fun _ ended hended => ret ⟨hs, hended⟩

theorem keeps_finishEnforced (hr : q.Fits r) (confirmed : List String) :
    Asks fingerprint q (fun _ _ => True) history (finishEnforced deps r confirmed) := by
  unfold finishEnforced
  split
  · exact fail _
  refine bind (keeps_commitEnforced deps hr confirmed) fun _ s₁ h₁ => ?_
  refine bind (keeps_removeOwnAdmin deps h₁) fun _ s₂ h₂ => ?_
  exact bind (keeps_finalizeOwnLeave deps h₂) fun _ s₃ h₃ => keeps_completeRemoval h₃

variable (deps : ResolvedDeps)

theorem keeps_driveOnce {again : PendingRemoval → RemovalProgram Bool}
    (hagain : ∀ s h, q.Fits s → Settled h → Asks fingerprint q (fun _ _ => True) h (again s))
    (hr : q.Fits r) (hsettled : Settled history) :
    Asks fingerprint q (fun _ _ => True) history (driveOnce fingerprint deps again r) := by
  refine bind (keeps_finishTerminal deps hr) fun h left hleft => ?_
  split
  · exact ret trivial
  next s =>
  obtain ⟨rfl, rfl⟩ := hleft s rfl
  split
  · refine bind (keeps_enforceRemoval _ hr hsettled) fun h e he => ?_
    split
    · exact ret trivial
    · next restaged =>
      obtain ⟨hsettled', hrestaged⟩ := he.2 restaged rfl
      exact hagain restaged h hrestaged hsettled'
    · exact keeps_finishEnforced _ he.1 _
  · exact fail _

theorem keeps_driveRemovalToCompletion :
    ∀ (restages : Nat) (r : PendingRemoval) (history : List RemovalVisit), q.Fits r →
      Settled history → Asks fingerprint q (fun _ _ => True) history
        (driveRemovalToCompletion fingerprint deps restages r) := by
  intro restages
  induction restages with
  | zero =>
    exact fun r history hr hsettled =>
      keeps_driveOnce deps (fun s h _ _ => fail _) hr hsettled
  | succ restages ih =>
    exact fun r history hr hsettled => keeps_driveOnce deps ih hr hsettled

theorem keeps_drive (restages : Nat) (hr : q.Fits r) (hsettled : Settled history) :
    Asks fingerprint q (fun _ _ => True) history (drive fingerprint deps restages r) :=
  bind (keeps_driveRemovalToCompletion deps restages r history hr hsettled) fun _ _ _ => ret trivial

/-- `runTwoPhaseRemoval` for a request. -/
def RemovalRequest.program (fingerprint : Nat → StagedRemovalKeyMaterial → String)
    (q : RemovalRequest) (deps : SecureRemovalDeps) (activityEntry : Option String)
    (restages : Nat) : RemovalProgram Unit :=
  runTwoPhaseRemoval fingerprint deps q.spaceId q.removedDid activityEntry q.canonical
    q.targetGeneration restages

theorem keeps_runTwoPhaseRemoval (q : RemovalRequest) (deps : SecureRemovalDeps)
    (activityEntry : Option String) (restages : Nat) :
    Asks fingerprint q (fun _ _ => True) history
      (q.program fingerprint deps activityEntry restages) := by
  unfold RemovalRequest.program runTwoPhaseRemoval
  split
  · exact fail _
  split
  · exact fail _
  split
  · exact fail _
  refine bind (keeps_getPendingRemoval q.spaceId q.removedDid) fun h found hfound => ?_
  split
  · next r => exact keeps_drive _ restages (hfound.2 r rfl) hfound.1
  · exact bind (keeps_stageRemoval deps activityEntry)
      fun h r hr => keeps_drive _ restages hr.2 hr.1

/-! ## 9. The request is kept -/

/-- **Only what was asked for is driven**, in any interleaving with other drivers, as
    long as no record of another request is taken over and no gap is closed below the
    target. -/
theorem runTwoPhaseRemoval_keeps_request (q : RemovalRequest) (deps : SecureRemovalDeps)
    (activityEntry : Option String) (restages : Nat) (steps : List (RemovalEnv × RemovalWorld))
    (h : Along (OnRequest fingerprint q) []
      ((q.program fingerprint deps activityEntry restages).trace steps)) :
    ∀ v ∈ (q.program fingerprint deps activityEntry restages).trace steps, q.Drives v.point :=
  along_mem ((keeps_runTwoPhaseRemoval q deps activityEntry restages).sound h)

def waitingRemoval : PendingRemoval :=
  { stagingTemplate adminDeps "space-1" "did:member" none false 1 with
    stagedKeyMaterial := ⟨[1], [2], [3]⟩
    stagingId := some "staging-1"
    materialFingerprint := some "fingerprint-1" }

def waitingWorld : RemovalWorld :=
  { freshWorld with removals := KeyedTable.empty.put waitingRemoval.toStored }

def memberRequest (canonical : Bool) (targetGeneration : Option Nat) : RemovalRequest :=
  ⟨"space-1", "did:member", canonical, targetGeneration⟩

/-- Asked for once more, the removal goes on with the record that waits. -/
theorem regularRequest_keeps_request :
    let visits := ((memberRequest false (some 1)).program onlyFingerprint adminDeps none 0).trace
      (List.replicate 3 (removalEnv, waitingWorld))
    visits.length = 3 ∧ ∀ v ∈ visits, (memberRequest false (some 1)).Drives v.point := by
  refine ⟨rfl, runTwoPhaseRemoval_keeps_request _ adminDeps none 0 _ ?_⟩
  show Along _ [] [_, _, _]
  have hnone {α : Type} (p : α → Prop) : ∀ a ∈ (none : Option α), p a := nofun
  refine ⟨⟨fun r hr => ?_, hnone _⟩, ⟨hnone _, hnone _⟩, ⟨hnone _, hnone _⟩, trivial⟩
  cases hr
  exact ⟨rfl, rfl, rfl, fun target ht => by cases ht; exact Nat.le_refl 1⟩

/-- **Another operation than the one asked for.**  A canonical self-removal at
    generation 3 is asked for; the regular removal at generation 1 that waits is
    driven. -/
theorem canonicalRequest_drives_regular :
    ¬ ∀ steps, ∀ v ∈ ((memberRequest true (some 3)).program onlyFingerprint adminDeps none 0).trace
      steps, (memberRequest true (some 3)).Drives v.point := by
  intro hclaim
  have hpoint : (((memberRequest true (some 3)).program onlyFingerprint adminDeps none 0).trace
      (List.replicate 3 (removalEnv, waitingWorld)))[2]?.map (·.point) =
        some (.createRotateFrame waitingRemoval) := rfl
  obtain ⟨v, hv, hvpoint⟩ := Option.map_eq_some_iff.mp hpoint
  have hfits := hclaim _ v (List.mem_of_getElem? hv)
  rw [hvpoint] at hfits
  exact absurd hfits.kind (by decide)

end WebOfTrust
