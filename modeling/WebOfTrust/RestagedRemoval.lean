/-
  **Restaging after a generation conflict.**  A broker answers that the staged
  generation is taken or leaves a gap.  The driver waits for the rotation that won, or
  catches up to the broker, and replaces its own staging by a fresh candidate for the
  next generation — or leaves it alone.  A canonical self-removal is done once the
  winner's rotation is here, and its staging is dropped.

  The first half is about one driver, in any interleaving with others; the second
  about all of them: a key that a broker may have installed is of one generation.
-/
import WebOfTrust.RequestedRemoval

namespace WebOfTrust

open Async

/-! ## 1. What a step may do to the own staging -/

/-- The local generation that a step reads. -/
def RemovalVisit.ReadsGeneration (v : RemovalVisit) (spaceId : DocId) (generation : Int) : Prop :=
  v.point = .currentGeneration spaceId ∧ (v.before.keys spaceId).generation = generation

section

variable (own : PendingRemoval)

def StillOwn (w : RemovalWorld) : Prop :=
  matchesStagingExpectation (w.removals.getPendingRemoval own.spaceId own.removedDid)
    (some (pendingRemovalWriteExpectation (some own))) = true

/-- The rotation that took the staged generation has arrived on this device. -/
def Overtaken (history : List RemovalVisit) : Prop :=
  ∃ v ∈ history, ∃ generation, v.ReadsGeneration own.spaceId generation ∧
    (own.newGeneration : Int) ≤ generation

def CaughtUp (brokerGeneration : Nat) (history : List RemovalVisit) : Prop :=
  (∃ v ∈ history, ∃ generation, v.ReadsGeneration own.spaceId generation ∧
    generation ≤ (brokerGeneration : Int)) ∧
  ∃ v ∈ history, v.point = .catchUp own.spaceId ∧ v.input.caughtUp = true

def Converged (currentGeneration : Option Nat)
    (history : List RemovalVisit) (generation : Nat) : BrokerErrorCode → Prop
  | .generationGap => currentGeneration = some generation ∧ CaughtUp own generation history
  | .generationTaken => own.canonicalSelfRemovalRotation = false ∧ Overtaken own history
  | _ => False

end

section

variable (fingerprint : Nat → StagedRemovalKeyMaterial → String) (deps : SecureRemovalDeps)

variable (own : PendingRemoval)

/-- The candidate after `generation`, with what is drawn at random. -/
def nextCandidate (generation : Nat) (drawn : RemovalEnv) : PendingRemoval :=
  { stagingTemplate deps own.spaceId own.removedDid own.activityEntry
      own.canonicalSelfRemovalRotation (generation + 1) with
    stagedKeyMaterial := drawn.randomMaterial
    createdAt := drawn.now }.bound fingerprint drawn.randomId

variable (code : BrokerErrorCode) (currentGeneration : Option Nat)

def Replaced (history : List RemovalVisit) (v : RemovalVisit) : Prop :=
  ∃ (earlier : List RemovalVisit) (read drawn : RemovalVisit) (generation : Nat),
    history = earlier ++ [read] ++ [drawn] ∧
    read.ReadsGeneration own.spaceId generation ∧
    Converged own currentGeneration earlier generation code ∧
    StillOwn own v.before ∧
    v.after.removals = v.before.removals.put
      (nextCandidate fingerprint deps own generation drawn.input).toStored

def Dropped (history : List RemovalVisit) (v : RemovalVisit) : Prop :=
  code = .generationTaken ∧ own.canonicalSelfRemovalRotation = true ∧ Overtaken own history ∧
    StillOwn own v.before ∧
    v.after.removals = v.before.removals.erase (own.spaceId, own.removedDid)

def Restages (history : List RemovalVisit) (v : RemovalVisit) : Prop :=
  v.after.removals = v.before.removals ∨
    Replaced fingerprint deps own code currentGeneration history v ∨ Dropped own code history v

end

variable {fingerprint : Nat → StagedRemovalKeyMaterial → String} {deps : SecureRemovalDeps}
  {own : PendingRemoval} {code : BrokerErrorCode} {currentGeneration : Option Nat}
  {history : List RemovalVisit} {α β : Type}

/-- A part of the answer's handling, ending in `Q`. -/
def Handles (fingerprint : Nat → StagedRemovalKeyMaterial → String) (deps : SecureRemovalDeps)
    (own : PendingRemoval) (code : BrokerErrorCode) (currentGeneration : Option Nat)
    (Q : List RemovalVisit → α → Prop) (history : List RemovalVisit) (p : RemovalProgram α) :
    Prop :=
  Traced (fun _ _ => True) (Restages fingerprint deps own code currentGeneration) Q
    (fun _ _ => True) history p

namespace Handles

variable {Q : List RemovalVisit → α → Prop} {R : List RemovalVisit → β → Prop}
  {p : RemovalProgram α} {t : RemovalPoint}

theorem ret {a : α} (h : Q history a) :
    Handles fingerprint deps own code currentGeneration Q history (.ret a) := h

theorem fail (err : RemovalError) :
    Handles fingerprint deps own code currentGeneration Q history (.fail err) := trivial

theorem bind {f : α → RemovalProgram β}
    (hp : Handles fingerprint deps own code currentGeneration Q history p)
    (hf : ∀ history a, Q history a →
      Handles fingerprint deps own code currentGeneration R history (f a)) :
    Handles fingerprint deps own code currentGeneration R history (p.bind f) :=
  traced_bind (Traced.post hp hf)

theorem attempt {f : RemovalEnv → RemovalWorld → α × RemovalWorld}
    (hleft : ∀ env w, (f env w).2.removals = w.removals)
    (h : ∀ v : RemovalVisit, v.point = t → Q (history ++ [v]) (f v.input v.before).1) :
    Handles fingerprint deps own code currentGeneration Q history (WebOfTrust.attempt t f) := by
  refine traced_atomic (fun env w _ => ?_) (fun env w a _ ha => ?_) fun _ _ _ _ _ => trivial
  · left
    cases env.failure with
    | some text => rfl
    | none => exact hleft env w
  · cases hfailure : env.failure with
    | some text =>
      rw [hfailure] at ha
      cases ha
    | none =>
      rw [hfailure] at ha
      cases ha
      exact h _ rfl

end Handles

/-! ## 2. The handlers -/

open Handles

theorem handles_stageRemovalCandidate (s : PendingRemoval) (hs : s = own) :
    Handles fingerprint deps own code currentGeneration
      (fun h r => ∃ (read drawn : RemovalVisit) (generation : Nat),
        h = history ++ [read] ++ [drawn] ∧ read.ReadsGeneration own.spaceId generation ∧
          r = nextCandidate fingerprint deps own generation drawn.input)
      history (stageRemovalCandidate fingerprint deps s.spaceId s.removedDid s.activityEntry
        s.canonicalSelfRemovalRotation) := by
  subst hs
  refine Handles.bind (Q := fun h current => ∃ read : RemovalVisit, h = history ++ [read] ∧
    read.ReadsGeneration s.spaceId current) ?_ fun h current hread => ?_
  · exact Handles.attempt (fun _ _ => rfl) fun v hpoint => ⟨v, rfl, hpoint, rfl⟩
  obtain ⟨read, rfl, hreads⟩ := hread
  split
  · exact Handles.fail _
  next hcurrent =>
  obtain ⟨generation, rfl⟩ := Int.eq_ofNat_of_zero_le (Int.not_lt.mp hcurrent)
  exact Handles.attempt (fun _ _ => rfl) fun v _ => ⟨read, v, generation, rfl, hreads, rfl⟩

theorem handles_replace {t : RemovalPoint} {read drawn : RemovalVisit} {generation : Nat}
    (hread : read.ReadsGeneration own.spaceId generation)
    (hconverged : Converged own currentGeneration history generation code)
    {restaged : PendingRemoval}
    (hrestaged : restaged = nextCandidate fingerprint deps own generation drawn.input) :
    Handles fingerprint deps own code currentGeneration (fun _ _ => True)
      (history ++ [read] ++ [drawn])
      (putPendingRemoval t restaged (pendingRemovalWriteExpectation (some own))) := by
  subst hrestaged
  refine traced_atomic (fun env w _ => ?_) (fun _ _ _ _ _ => trivial) fun _ _ _ _ _ => trivial
  cases env.failure with
  | some text => exact .inl rfl
  | none =>
    dsimp only
    cases hput : w.removals.putPendingRemoval
        (nextCandidate fingerprint deps own generation drawn.input)
        (some (pendingRemovalWriteExpectation (some own))) with
    | ok removals =>
      obtain ⟨hmatch, rfl⟩ := PendingRemovals.putPendingRemoval_ok hput
      exact .inr (.inl ⟨history, read, drawn, generation, rfl, hread, hconverged, hmatch, rfl⟩)
    | error existing => exact .inl rfl

theorem handles_handleGenerationGap (hcode : code = .generationGap) :
    Handles fingerprint deps own code currentGeneration (fun _ _ => True) history
      (handleGenerationGap fingerprint deps own currentGeneration) := by
  unfold handleGenerationGap
  split
  · exact Handles.ret trivial
  next brokerGeneration hbroker =>
  have hcurrent : currentGeneration = some brokerGeneration :=
    (Option.filter_eq_some_iff.mp hbroker).1
  refine Handles.bind (Q := fun h current => ∃ v ∈ h, v.ReadsGeneration own.spaceId current)
    (Handles.attempt (fun _ _ => rfl) fun v hpoint => ⟨v, by simp, hpoint, rfl⟩)
    fun h₁ localGeneration hread => ?_
  split
  · exact Handles.fail _
  next hle =>
  refine Handles.bind (Q := fun h complete => complete = true →
    CaughtUp own brokerGeneration h) (Handles.attempt (fun _ _ => rfl) ?_) fun h₂ complete hcaught => ?_
  · intro v hpoint hcomplete
    obtain ⟨u, hu, hreads⟩ := hread
    exact ⟨⟨u, List.mem_append_left _ hu, localGeneration, hreads, Int.not_lt.mp hle⟩,
      v, by simp, hpoint, hcomplete⟩
  · split
    · exact Handles.ret trivial
    next hcomplete =>
    have hcaught' := hcaught (by simpa using hcomplete)
    refine Handles.bind (handles_stageRemovalCandidate own rfl) fun h₃ restaged hrestaged => ?_
    obtain ⟨read, drawn, generation, rfl, hreads, rfl⟩ := hrestaged
    split
    · exact Handles.fail _
    next hgeneration =>
    have hsame : generation + 1 = brokerGeneration + 1 := not_not.mp hgeneration
    cases Nat.succ.inj hsame
    refine Handles.bind (handles_replace hreads ?_ rfl) fun _ _ _ => Handles.ret trivial
    subst hcode
    exact ⟨hcurrent, hcaught'⟩

theorem handles_deleteOwnStaging (hcode : code = .generationTaken)
    (hcanonical : own.canonicalSelfRemovalRotation = true) (h : Overtaken own history) :
    Handles fingerprint deps own code currentGeneration (fun _ _ => True) history
      (deleteOwnStaging own) := by
  refine traced_atomic (fun env w _ => ?_) (fun _ _ _ _ _ => trivial) fun _ _ _ _ _ => trivial
  cases env.failure with
  | some text => exact .inl rfl
  | none =>
    rcases PendingRemovals.deletePendingRemoval_cases w.removals own.spaceId own.removedDid
      (pendingRemovalWriteExpectation (some own)) with hsame | ⟨hmatch, herase⟩
    · exact .inl hsame
    · exact .inr (.inr ⟨hcode, hcanonical, h, hmatch, herase⟩)

theorem handles_handleGenerationTaken (hcode : code = .generationTaken) :
    Handles fingerprint deps own code currentGeneration (fun _ _ => True) history
      (handleGenerationTaken fingerprint deps own) := by
  refine Handles.bind (Q := fun h current => (own.newGeneration : Int) ≤ current →
    Overtaken own h) (Handles.attempt (fun _ _ => rfl) fun v hpoint hle => ?_)
    fun h current hovertaken => ?_
  · exact ⟨v, by simp, _, ⟨hpoint, rfl⟩, hle⟩
  split
  · next hif =>
    exact Handles.bind (handles_deleteOwnStaging hcode hif.1 (hovertaken hif.2))
      fun _ _ _ => Handles.ret trivial
  split
  · next hif =>
    refine Handles.bind (Q := fun _ _ => True) ?_ fun _ _ _ => Handles.ret trivial
    refine Handles.bind (handles_stageRemovalCandidate own rfl) fun h' restaged hrestaged => ?_
    obtain ⟨read, drawn, generation, rfl, hreads, hcandidate⟩ := hrestaged
    refine traced_tryCatch (traced_bind ((handles_replace hreads ?_ hcandidate).mono ?_ ?_))
    · subst hcode
      exact ⟨by simpa using hif.1, hovertaken hif.2⟩
    · exact fun _ _ _ => trivial
    intro h'' err _
    split
    · next hreplaces => cases hreplaces
    · exact Handles.fail _
  · exact Handles.ret trivial

theorem handles_handleRotateError :
    Handles fingerprint deps own code currentGeneration (fun _ _ => True) history
      (handleRotateError fingerprint deps own (.controlFrameRejected code currentGeneration)) := by
  cases code with
  | generationGap =>
    refine bind (handles_handleGenerationGap rfl) fun _ restaged _ => ?_
    split
    · exact ret trivial
    · exact fail _
  | generationTaken =>
    refine bind (handles_handleGenerationTaken rfl) fun _ fulfilled _ => ?_
    split
    · exact ret trivial
    · exact fail _
  | _ =>
    unfold handleRotateError
    simp only
    split
    · exact fail _
    · exact fail _

end WebOfTrust
