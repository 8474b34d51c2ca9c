/-
  **A challenge is accepted once.**

  The record of a consumed nonce outlives the challenge by far.  But an acceptance goes by the
  time at which it began: one that has been under way since the challenge was valid consumes
  its nonce again once the record is gone.  As long as no record is pruned under such an
  acceptance, no nonce is accepted twice: what a call has consumed is `NonceRetained`, or
  `NonceSpent` for every other call.
-/
import WebOfTrust.VerificationWorkflow

namespace WebOfTrust

open Machine VerificationEnvironment KeyedTable List Function

/-! ## 1. Nonces and decisions -/

/-- A class of characters that `toLowerCase` leaves alone. -/
def FixedByLowering (p : Char → Bool) : Prop := ∀ c, p c = true → c.toLower = c

theorem toLower_of_not_isUpper {c : Char} (h : ¬ (c.val ≥ 'A'.val ∧ c.val ≤ 'Z'.val)) :
    c.toLower = c :=
  dif_neg h

theorem lowerHexDigit_fixed : FixedByLowering lowerHexDigit := by
  intro c h
  apply toLower_of_not_isUpper
  simp only [lowerHexDigit, Char.isDigit, Bool.or_eq_true, Bool.and_eq_true, decide_eq_true_eq,
    Char.le_def, UInt32.le_iff_toNat_le, ge_iff_le] at h
  simp only [UInt32.le_iff_toNat_le, ge_iff_le]
  simp at h ⊢
  omega

theorem contains_fixed {l : List Char} (h : ∀ c ∈ l, c.toLower = c) :
    FixedByLowering l.contains := by
  intro c hc
  exact h c (by simpa using hc)

theorem beq_fixed {d : Char} (h : d.toLower = d) : FixedByLowering (· == d) := by
  intro c hc
  rw [beq_iff_eq.mp hc, h]

theorem replicate_fixed {q : Char → Bool} (n : Nat) (h : FixedByLowering q) :
    ∀ p ∈ replicate n q, FixedByLowering p :=
  fun _ hp => eq_of_mem_replicate hp ▸ h

theorem nonce_classes_fixed : ∀ p ∈ QR_CHALLENGE_NONCE_PATTERN, FixedByLowering p := by
  have hdash : FixedByLowering (· == '-') := beq_fixed (by decide)
  have hversion : FixedByLowering (· == '4') := beq_fixed (by decide)
  have hvariant : FixedByLowering "89ab".toList.contains := contains_fixed (by simp)
  simp only [QR_CHALLENGE_NONCE_PATTERN, forall_mem_append, forall_mem_singleton, and_assoc]
  exact ⟨replicate_fixed 8 lowerHexDigit_fixed, hdash, replicate_fixed 4 lowerHexDigit_fixed,
    hdash, hversion, replicate_fixed 3 lowerHexDigit_fixed, hdash, hvariant,
    replicate_fixed 3 lowerHexDigit_fixed, hdash, replicate_fixed 12 lowerHexDigit_fixed⟩

theorem fixed_of_matchesClasses {classes : List (Char → Bool)} {text : List Char}
    (hfixed : ∀ p ∈ classes, FixedByLowering p) (h : matchesClasses classes text = true) :
    text.map Char.toLower = text := by
  induction classes generalizing text with
  | nil =>
    cases text with
    | nil => rfl
    | cons c text => simp [matchesClasses] at h
  | cons p classes ih =>
    rcases text with _ | ⟨c, text⟩
    · rfl
    simp only [matchesClasses, length_cons, zipWith_cons_cons, all_cons, id,
      Bool.and_eq_true, decide_eq_true_eq, Nat.add_right_cancel_iff] at h
    obtain ⟨hlength, hc, hrest⟩ := h
    rw [map_cons, hfixed p mem_cons_self c hc,
      ih (fun q hq => hfixed q (mem_cons_of_mem _ hq)) (by simp [matchesClasses, hlength, hrest])]

variable {env : VerificationEnvironment} {nonce : String} {call : AcceptCall}

theorem parseQrChallenge_eq_some {challenge parsed : QrChallenge}
    (h : parseQrChallenge env challenge = some parsed) :
    parsed = challenge ∧ toLowerCase parsed.nonce = parsed.nonce := by
  rw [parseQrChallenge] at h
  split at h
  · next hvalid =>
    cases h
    simp only [Bool.and_eq_true] at hvalid
    refine ⟨rfl, ?_⟩
    rw [toLowerCase, fixed_of_matchesClasses nonce_classes_fixed hvalid.1.2, String.ofList_toList]
  · cases h

/-- **What an acceptance rests on**: an active challenge with the nonce of the payload, that was
    created at most five minutes ago and whose nonce is not known as consumed. -/
theorem accept_of_decide {payload : AttestationVcPayload} {localDid : Did}
    {active : Option QrChallenge} {now : Nat} {consumed : List String}
    (h : decideVerificationAttestationAcceptance payload localDid active now consumed
      = .acceptInPerson nonce) : payload.jtiNonce = some nonce ∧ nonce ∉ consumed.map toLowerCase ∧
      ∃ challenge, active = some challenge ∧ toLowerCase challenge.nonce = nonce ∧
        challenge.ts ≤ now ∧ now ≤ challenge.ts + ACTIVE_CHALLENGE_MAX_AGE_MS := by
  rw [decideVerificationAttestationAcceptance] at h
  split_ifs at h
  split at h
  · cases h
  next jti hjti =>
  split at h
  · cases h
  next jtiNonce hparse =>
  split at h
  · cases h
  next hconsumed =>
  split at h
  · cases h
  next challenge =>
  split_ifs at h with hnonce hvalid
  cases h
  simp only [isActiveQrChallengeValid, Bool.and_eq_false_iff, decide_eq_false_iff_not,
    not_or, not_not] at hvalid
  have hmatch : toLowerCase challenge.nonce = jtiNonce := by simpa using hnonce
  refine ⟨?_, ?_, challenge, rfl, rfl, hvalid.1, by omega⟩
  · rw [AttestationVcPayload.jtiNonce, hjti, Option.bind_some, hparse, hmatch]
  · rw [hmatch]
    simpa using hconsumed

/-! ## 2. Every challenge is registered -/

/-- The challenges of an instance are registered under its origin. -/
structure VerificationWorkflow.Registered (created : List (Option Nat × QrChallenge))
    (origin : Option Nat) (w : VerificationWorkflow) : Prop where
  active : ∀ challenge, w.activeQrChallenge = some challenge → (origin, challenge) ∈ created
  queued : ∀ queued ∈ w.challengeStoreQueue, ∀ challenge, queued.op = .record challenge →
    (origin, challenge) ∈ created

def CreateStage.previousChallenge : CreateStage → Option QrChallenge
  | .persisting _ previousChallenge _ _ => previousChallenge
  | _ => none

def RestoreStage.stored : RestoreStage → Option QrChallenge
  | .answered _ stored => stored
  | _ => none

/-- Every challenge that is anywhere was created, once, by an instance of the same origin. -/
structure ChallengesRegistered (env : VerificationEnvironment)
    (created : List (Option Nat × QrChallenge)) (stored : Option QrChallenge)
    (workflows : Nat → VerificationWorkflow)
    (creates : List CreateCall) (restores : List RestoreCall) : Prop where
  nonces : (created.map fun entry => entry.2.nonce).Nodup
  lower : ∀ entry ∈ created, toLowerCase entry.2.nonce = entry.2.nonce
  stored : ∀ challenge, stored = some challenge → (none, challenge) ∈ created
  workflow : ∀ i, (workflows i).Registered created (env.origin i)
  previous : ∀ call ∈ creates, ∀ challenge, call.stage.previousChallenge = some challenge →
    (env.origin call.workflow, challenge) ∈ created
  read : ∀ call ∈ restores, ∀ challenge, call.stage.stored = some challenge →
    (env.origin call.workflow, challenge) ∈ created

section

variable {created : List (Option Nat × QrChallenge)} {stored : Option QrChallenge}
  {workflows : Nat → VerificationWorkflow} {creates : List CreateCall}
  {restores : List RestoreCall} {clock : Nat} {rows : RetainedNonces}
  {memory : Nat → RetainedNonces} {accepts : List AcceptCall} {k : Nat}

namespace ChallengesRegistered

section

variable (h : ChallengesRegistered env created stored workflows creates restores)
include h

theorem unique {o o' : Option Nat} {challenge challenge' : QrChallenge}
    (hc : (o, challenge) ∈ created)
    (hc' : (o', challenge') ∈ created)
    (hnonce : toLowerCase challenge.nonce = toLowerCase challenge'.nonce) :
    o = o' ∧ challenge = challenge' := by
  have heq : challenge.nonce = challenge'.nonce := by
    rw [← h.lower _ hc, ← h.lower _ hc', hnonce]
  simpa using inj_on_of_nodup_map h.nonces hc hc' heq

theorem register (i : Nat)
    {challenge : QrChallenge} (hlower : toLowerCase challenge.nonce = challenge.nonce)
    (hfresh : ∀ entry ∈ created, entry.2.nonce ≠ challenge.nonce) :
    ChallengesRegistered env (created ++ [(env.origin i, challenge)]) stored workflows creates
      restores where
  nonces := by
    rw [map_append, nodup_append]
    refine ⟨h.nonces, by simp, ?_⟩
    intro nonce hnonce nonce' hnonce'
    obtain ⟨entry, hentry, rfl⟩ := mem_map.mp hnonce
    simp only [map_cons, map_nil, mem_singleton] at hnonce'
    rw [hnonce']
    exact hfresh entry hentry
  lower entry hentry := by
    rcases mem_append.mp hentry with hold | hnew
    · exact h.lower entry hold
    · rw [mem_singleton.mp hnew, hlower]
  stored c hc := mem_append_left _ (h.stored c hc)
  workflow j :=
    ⟨fun c hc => mem_append_left _ ((h.workflow j).active c hc),
      fun q hq c hc => mem_append_left _ ((h.workflow j).queued q hq c hc)⟩
  previous call hcall c hc := mem_append_left _ (h.previous call hcall c hc)
  read call hcall c hc := mem_append_left _ (h.read call hcall c hc)

theorem onWorkflow {i : Nat} {w : VerificationWorkflow} (hw : w.Registered created (env.origin i)) :
    ChallengesRegistered env created stored (update workflows i w) creates restores :=
  { h with
    workflow := fun j => by
      rcases eq_or_ne j i with rfl | hne
      · rwa [update_self]
      · rw [update_of_ne hne]
        exact h.workflow j }

theorem onStore {stored' : Option QrChallenge}
    (hstored : ∀ challenge, stored' = some challenge → (none, challenge) ∈ created) :
    ChallengesRegistered env created stored' workflows creates restores :=
  { h with stored := hstored }

theorem addCreate (call : CreateCall) (hnone : call.stage.previousChallenge = none) :
    ChallengesRegistered env created stored workflows (creates ++ [call]) restores :=
  { h with
    previous := fun call' hcall' challenge hc => by
      rcases mem_append.mp hcall' with hold | hnew
      · exact h.previous call' hold challenge hc
      · rw [mem_singleton.mp hnew, hnone] at hc
        cases hc }

theorem setCreate (k : Nat)
    {call : CreateCall} (hprevious : ∀ challenge, call.stage.previousChallenge = some challenge →
      (env.origin call.workflow, challenge) ∈ created) :
    ChallengesRegistered env created stored workflows (creates.set k call) restores :=
  { h with
    previous := fun call' hcall' => by
      rcases mem_or_eq_of_mem_set hcall' with hold | rfl
      · exact h.previous call' hold
      · exact hprevious }

theorem addRestore (call : RestoreCall) (hnone : call.stage.stored = none) :
    ChallengesRegistered env created stored workflows creates (restores ++ [call]) :=
  { h with
    read := fun call' hcall' challenge hc => by
      rcases mem_append.mp hcall' with hold | hnew
      · exact h.read call' hold challenge hc
      · rw [mem_singleton.mp hnew, hnone] at hc
        cases hc }

theorem setRestore (k : Nat) {call : RestoreCall}
    (hstored : ∀ challenge, call.stage.stored = some challenge →
      (env.origin call.workflow, challenge) ∈ created) :
    ChallengesRegistered env created stored workflows creates (restores.set k call) :=
  { h with
    read := fun call' hcall' => by
      rcases mem_or_eq_of_mem_set hcall' with hold | rfl
      · exact h.read call' hold
      · exact hstored }

end

end ChallengesRegistered

namespace VerificationWorkflow

variable {origin : Option Nat} {w w' : VerificationWorkflow} {next : Option QrChallenge}

section

variable (h : w.Registered created origin)
include h

theorem Registered.enqueue {op : ChallengeStoreOp}
    (hop : ∀ challenge, op = .record challenge → (origin, challenge) ∈ created) :
    (w.enqueueChallengeStoreOp op).Registered created origin where
  active := h.active
  queued queued hqueued challenge hc := by
    rcases mem_append.mp hqueued with hold | hnew
    · exact h.queued queued hold challenge hc
    · rw [mem_singleton.mp hnew] at hc
      exact hop challenge hc

theorem Registered.setActive
    (hnext : ∀ challenge, next = some challenge → (origin, challenge) ∈ created)
    (hactive : w'.activeQrChallenge = next)
    (hqueue : w'.challengeStoreQueue = w.challengeStoreQueue) : w'.Registered created origin where
  active challenge hc := hnext challenge (hactive ▸ hc)
  queued queued hqueued := h.queued queued (hqueue ▸ hqueued)

theorem Registered.commit (epoch : Nat)
    (hnext : ∀ challenge, next = some challenge → (origin, challenge) ∈ created) :
    (w.commitChallengeState epoch next).Registered created origin := by
  rw [commitChallengeState]
  split
  · exact h
  · exact h.setActive hnext rfl rfl

theorem Registered.commitAndAdvance (epoch : Nat) :
    (w.commitAndAdvanceChallengeState epoch none).Registered created origin := by
  rw [commitAndAdvanceChallengeState]
  split
  · exact h
  · exact h.setActive (by simp) rfl rfl

end

theorem consumedNonces_commit {epoch : Nat} :
    (w.commitChallengeState epoch next).consumedNonces = w.consumedNonces := by
  rw [commitChallengeState]
  split <;> rfl

theorem consumedNonces_commitAndAdvance {epoch : Nat} :
    (w.commitAndAdvanceChallengeState epoch next).consumedNonces = w.consumedNonces := by
  rw [commitAndAdvanceChallengeState]
  split <;> rfl

theorem consumedNonces_reset : w.resetActiveQrChallenge.consumedNonces = w.consumedNonces := by
  rw [resetActiveQrChallenge]
  cases w.activeQrChallenge <;> rfl

theorem Registered.reset (h : w.Registered created origin) :
    w.resetActiveQrChallenge.Registered created origin := by
  have hcleared : Registered created origin
      { w with challengeEpoch := w.challengeEpoch + 1, activeQrChallenge := none } :=
    h.setActive (by simp) rfl rfl
  rw [resetActiveQrChallenge]
  cases w.activeQrChallenge with
  | none => exact hcleared
  | some challenge => exact hcleared.enqueue (by simp)

theorem mem_of_currentOp {j : Nat} {queued : QueuedOp} (h : w.currentOp = some (j, queued)) :
    queued ∈ w.challengeStoreQueue := by
  obtain ⟨j', -, hj'⟩ := Option.bind_eq_some_iff.mp h
  obtain ⟨queued', hget, heq⟩ := Option.map_eq_some_iff.mp hj'
  cases heq
  exact mem_of_getElem? hget

theorem Registered.setOp (h : w.Registered created origin) (j : Nat) {queued queued' : QueuedOp}
    (hmem : queued ∈ w.challengeStoreQueue) (hop : queued'.op = queued.op) :
    (w.setOp j queued').Registered created origin where
  active := h.active
  queued queued'' hqueued challenge hc := by
    rcases mem_or_eq_of_mem_set hqueued with hold | rfl
    · exact h.queued queued'' hold challenge hc
    · exact h.queued queued hmem challenge (hop ▸ hc)

end VerificationWorkflow

/-! ## 3. What an acceptance has consumed -/

namespace AcceptCall

variable (call : AcceptCall)

def decided : Option String :=
  match call.stage with
  | .finding _ (.acceptInPerson nonce) | .found _ (.acceptInPerson nonce) _
  | .consuming _ nonce | .consumed _ nonce _ | .recording nonce _ | .recorded nonce
  | .clearing nonce _ | .returned (.acceptInPerson nonce) => some nonce
  | _ => none

def consumed : Option String :=
  match call.stage with
  | .consumed _ nonce true | .recording nonce _ | .recorded nonce | .clearing nonce _
  | .returned (.acceptInPerson nonce) => some nonce
  | _ => none

def underWay (nonce : String) : Bool :=
  match call.stage with
  | .pruning | .pruned | .restoring _ => call.payload.jtiNonce == some nonce
  | .finding _ decision | .found _ decision _ => decision == .acceptInPerson nonce
  | .consuming _ nonce' => nonce' == nonce
  | _ => false

/-- A challenge with the nonce was created by the origin of the call, at most five minutes
    before the call. -/
def InTime (env : VerificationEnvironment) (created : List (Option Nat × QrChallenge))
    (call : AcceptCall) (nonce : String) : Prop :=
  ∃ challenge, (env.origin call.workflow, challenge) ∈ created ∧
    toLowerCase challenge.nonce = nonce ∧
    challenge.ts ≤ call.now ∧ call.now ≤ challenge.ts + ACTIVE_CHALLENGE_MAX_AGE_MS

end AcceptCall

/-- The record of what a call of an instance consumed is still there. -/
def NonceRetained (env : VerificationEnvironment) (rows : RetainedNonces)
    (memory : Nat → RetainedNonces) (i : Nat) (nonce : String) (now : Nat) : Prop :=
  if env.stateStore i then rows.get? nonce = some ⟨nonce, wholeSecond now⟩
  else (memory i).get? nonce = some ⟨nonce, now⟩

/-- A new acceptance of what a call of an instance consumed comes too late, and one that is
    under way began too late or too early. -/
def NonceSpent (env : VerificationEnvironment) (clock : Nat) (accepts : List AcceptCall) (i : Nat)
    (nonce : String) (now : Nat) : Prop :=
  now + ACTIVE_CHALLENGE_MAX_AGE_MS < clock ∧
    (env.stateStore i = true → ∀ call ∈ accepts, call.underWay nonce = true →
      now + ACTIVE_CHALLENGE_MAX_AGE_MS < call.now ∨ call.now + ACTIVE_CHALLENGE_MAX_AGE_MS < now)

structure AcceptSound (env : VerificationEnvironment) (created : List (Option Nat × QrChallenge))
    (clock : Nat) (rows : RetainedNonces) (memory : Nat → RetainedNonces)
    (accepts : List AcceptCall) (call : AcceptCall) : Prop where
  backed : (∀ decision, call.stage ≠ .returned decision) → env.stateStore call.workflow = true
  started : call.now ≤ clock
  decided : ∀ nonce, call.decided = some nonce → call.InTime env created nonce
  consumed : ∀ nonce, call.consumed = some nonce →
    NonceRetained env rows memory call.workflow nonce call.now ∨
      NonceSpent env clock accepts call.workflow nonce call.now

/-- Every call is sound, and no two calls have consumed one nonce. -/
structure AcceptsOnce (env : VerificationEnvironment) (created : List (Option Nat × QrChallenge))
    (clock : Nat) (rows : RetainedNonces) (memory : Nat → RetainedNonces)
    (accepts : List AcceptCall) : Prop where
  sound : ∀ call ∈ accepts, AcceptSound env created clock rows memory accepts call
  once : ∀ (k k' : Nat) (call call' : AcceptCall) (nonce : String),
    accepts[k]? = some call → accepts[k']? = some call' →
    call.consumed = some nonce → call'.consumed = some nonce → k = k'

open AcceptCall

theorem AcceptCall.decided_of_consumed (h : call.consumed = some nonce) :
    call.decided = some nonce := by
  rw [consumed] at h
  rw [decided]
  split at h <;> simp_all

theorem AcceptCall.accept_of_finding {epoch : Nat} {decision : AcceptanceDecision}
    (h : { call with stage := .finding epoch decision }.decided = some nonce) :
    decision = .acceptInPerson nonce := by
  cases decision with
  | acceptInPerson n =>
    cases h
    rfl
  | remoteUnbound reason | reject reason => cases h

theorem AcceptCall.accept_of_returned {decision : AcceptanceDecision}
    (h : { call with stage := .returned decision }.decided = some nonce) :
    decision = .acceptInPerson nonce := by
  cases decision with
  | acceptInPerson n =>
    cases h
    rfl
  | remoteUnbound reason | reject reason => cases h

theorem wholeSecond_le (time : Nat) : wholeSecond time ≤ time := Nat.div_mul_le_self time 1000

theorem consumed_before_prune {consumedAt now : Nat}
    (h : wholeSecond consumedAt < wholeSecond (now - CONSUMED_NONCE_RETENTION_MS)) :
    consumedAt + CONSUMED_NONCE_RETENTION_MS < now := by
  simp only [wholeSecond] at h
  omega

namespace AcceptsOnce

section

variable (h : AcceptsOnce env created clock rows memory accepts)
include h

theorem tick (elapsed : Nat) : AcceptsOnce env created (clock + elapsed) rows memory accepts where
  sound call hcall :=
    have hsound := h.sound call hcall
    { hsound with
      started := Nat.le_add_right_of_le hsound.started
      consumed := fun nonce hnonce =>
        (hsound.consumed nonce hnonce).imp_right fun hspent =>
          ⟨Nat.lt_of_lt_of_le hspent.1 (Nat.le_add_right _ _), hspent.2⟩ }
  once := h.once

theorem register (entry : Option Nat × QrChallenge) :
    AcceptsOnce env (created ++ [entry]) clock rows memory accepts where
  sound call hcall :=
    { h.sound call hcall with
      decided := fun nonce hnonce => by
        obtain ⟨challenge, hmem, hintime⟩ := (h.sound call hcall).decided nonce hnonce
        exact ⟨challenge, mem_append_left _ hmem, hintime⟩ }
  once := h.once

theorem advance (hk : accepts[k]? = some call) (hopen : ∀ decision, call.stage ≠ .returned decision)
    (stage : AcceptStage)
    (hdecided : ∀ nonce, { call with stage := stage }.decided = some nonce →
      call.InTime env created nonce)
    (hconsumed : ∀ nonce, { call with stage := stage }.consumed = some nonce →
      call.consumed = some nonce)
    (hunder : ∀ nonce, { call with stage := stage }.underWay nonce = true →
      call.underWay nonce = true) :
    AcceptsOnce env created clock rows memory (accepts.set k { call with stage := stage }) where
  sound := by
    have hcall := h.sound call (mem_of_getElem? hk)
    have hspent : ∀ i nonce now, NonceSpent env clock accepts i nonce now →
        NonceSpent env clock (accepts.set k { call with stage := stage }) i nonce now := by
      intro i nonce now hspent
      refine ⟨hspent.1, fun hi other hother hway => ?_⟩
      rcases mem_or_eq_of_mem_set hother with hold | rfl
      · exact hspent.2 hi other hold hway
      · exact hspent.2 hi call (mem_of_getElem? hk) (hunder nonce hway)
    intro other hother
    rcases mem_or_eq_of_mem_set hother with hold | rfl
    · have hsound := h.sound other hold
      exact { hsound with
        consumed := fun nonce hnonce =>
          (hsound.consumed nonce hnonce).imp_right (hspent _ nonce other.now) }
    exact {
      backed := fun _ => hcall.backed hopen
      started := hcall.started
      decided := hdecided
      consumed := fun nonce hnonce =>
        (hcall.consumed nonce (hconsumed nonce hnonce)).imp_right (hspent _ nonce call.now) }
  once j j' c c' nonce hj hj' hc hc' := by
    have hold : ∀ (j : Nat) (c : AcceptCall),
        (accepts.set k { call with stage := stage })[j]? = some c → c.consumed = some nonce →
          ∃ c₀, accepts[j]? = some c₀ ∧ c₀.consumed = some nonce := by
      intro j c hj hc
      rcases getElem?_set_cases hj with ⟨rfl, rfl⟩ | ⟨-, hj⟩
      · exact ⟨call, hk, hconsumed nonce hc⟩
      · exact ⟨c, hj, hc⟩
    obtain ⟨c₀, hj₀, hc₀⟩ := hold j c hj hc
    obtain ⟨c₁, hj₁, hc₁⟩ := hold j' c' hj' hc'
    exact h.once j j' c₀ c₁ nonce hj₀ hj₁ hc₀ hc₁

theorem begin {i : Nat}
    (hi : env.stateStore i = true) (localDid : Did) (payload : AttestationVcPayload) :
    AcceptsOnce env created clock rows memory
      (accepts ++ [⟨i, localDid, payload, clock, .pruning⟩]) where
  sound other hother := by
    rcases mem_append.mp hother with hold | hnew
    · have hsound := h.sound other hold
      refine { hsound with consumed := fun nonce hnonce => ?_ }
      refine (hsound.consumed nonce hnonce).imp_right fun hspent => ⟨hspent.1, ?_⟩
      intro hstore call hcall hway
      rcases mem_append.mp hcall with hold | hnew
      · exact hspent.2 hstore call hold hway
      · rw [mem_singleton.mp hnew]
        exact .inl hspent.1
    · rw [mem_singleton.mp hnew]
      exact ⟨fun _ => hi, Nat.le_refl _, by simp [decided], by simp [consumed]⟩
  once j j' c c' nonce hj hj' hc hc' := by
    rcases getElem?_concat_cases hj with ⟨-, rfl⟩ | hj
    · cases hc
    rcases getElem?_concat_cases hj' with ⟨-, rfl⟩ | hj'
    · cases hc'
    · exact h.once j j' c c' nonce hj hj' hc hc'

theorem prune {now : Nat} (hnow : now ≤ clock)
    (hclear : ∀ row ∈ rows.rows, row.consumedAt < wholeSecond (now - CONSUMED_NONCE_RETENTION_MS) →
      ∀ call ∈ accepts, call.underWay row.nonce = true →
        ¬ (row.consumedAt ≤ call.now + ACTIVE_CHALLENGE_MAX_AGE_MS ∧
          call.now < row.consumedAt + 1000 + ACTIVE_CHALLENGE_MAX_AGE_MS)) :
    AcceptsOnce env created clock (rows.filter fun row =>
        !decide (row.consumedAt < wholeSecond (now - CONSUMED_NONCE_RETENTION_MS)))
      memory accepts where
  sound call hcall := by
    have hsound := h.sound call hcall
    refine { hsound with consumed := fun nonce hnonce => ?_ }
    rcases hsound.consumed nonce hnonce with hretained | hspent
    · rw [NonceRetained] at hretained
      split at hretained
      · next hstore =>
        by_cases hold : wholeSecond call.now < wholeSecond (now - CONSUMED_NONCE_RETENTION_MS)
        · -- the record is removed: whatever is under way is far from the consumption
          right
          have hbefore := consumed_before_prune hold
          have hle := wholeSecond_le call.now
          have hlt : call.now < wholeSecond call.now + 1000 := by
            rw [wholeSecond]
            omega
          refine ⟨?_, fun _ other hother hway => ?_⟩
          · simp only [ACTIVE_CHALLENGE_MAX_AGE_MS]
            simp only [CONSUMED_NONCE_RETENTION_MS] at hbefore
            omega
          · have hfar := hclear _ (mem_of_get? hretained) hold other hother hway
            dsimp only at hfar
            omega
        · left
          rw [NonceRetained, if_pos hstore, get?_filter_eq_some]
          exact ⟨hretained, by simpa using hold⟩
      · next hstore =>
        left
        rwa [NonceRetained, if_neg hstore]
    · exact .inr hspent
  once := h.once

end

end AcceptsOnce

theorem origin_of_stateStore {i j : Nat} (h : env.origin i = env.origin j)
    (hi : env.stateStore i = true) : env.stateStore j = true := by
  rw [origin, if_pos hi, origin] at h
  split at h
  · assumption
  · cases h

theorem eq_of_origin {i j : Nat} (h : env.origin i = env.origin j) (hi : env.stateStore i = false) :
    i = j := by
  rw [origin, if_neg (by simp [hi]), origin] at h
  split at h
  · cases h
  · exact Option.some.inj h

theorem AcceptCall.InTime.near {created : List (Option Nat × QrChallenge)}
    {stored : Option QrChallenge} {workflows : Nat → VerificationWorkflow}
    {creates : List CreateCall} {restores : List RestoreCall} {other : AcceptCall}
    (hreg : ChallengesRegistered env created stored workflows creates restores)
    (h : call.InTime env created nonce) (h' : other.InTime env created nonce) :
    env.origin call.workflow = env.origin other.workflow ∧
      call.now ≤ other.now + ACTIVE_CHALLENGE_MAX_AGE_MS ∧
      other.now ≤ call.now + ACTIVE_CHALLENGE_MAX_AGE_MS := by
  obtain ⟨challenge, hmem, hnonce, hle, hage⟩ := h
  obtain ⟨challenge', hmem', hnonce', hle', hage'⟩ := h'
  obtain ⟨horigin, rfl⟩ := hreg.unique hmem hmem' (hnonce.trans hnonce'.symm)
  exact ⟨horigin, by omega, by omega⟩

namespace AcceptsOnce

theorem onWorkflow (h : AcceptsOnce env created clock rows (fun j => (workflows j).consumedNonces)
    accepts) {i : Nat} {w : VerificationWorkflow}
    (hw : w.consumedNonces = (workflows i).consumedNonces) :
    AcceptsOnce env created clock rows
      (fun j => (update workflows i w j).consumedNonces) accepts := by
  have hmemory : (fun j => (update workflows i w j).consumedNonces) =
      fun j => (workflows j).consumedNonces := by
    funext j
    rcases eq_or_ne j i with rfl | hne
    · rw [update_self, hw]
    · rw [update_of_ne hne]
  rwa [hmemory]

section

variable (h : AcceptsOnce env created clock rows memory accepts) (hreg : ChallengesRegistered env
  created stored workflows creates restores)
include h hreg

theorem not_consumed (hcall : call ∈ accepts) (hopen : ∀ decision, call.stage ≠ .returned decision)
    (hdecided : call.decided = some nonce) (hway : call.underWay nonce = true)
    (hfree : rows.has nonce = false) {other : AcceptCall} (hother : other ∈ accepts) :
    other.consumed ≠ some nonce := by
  intro hconsumed
  have hsound := h.sound call hcall
  have hothers := h.sound other hother
  obtain ⟨horigin, hnear, hnear'⟩ := (hsound.decided nonce hdecided).near hreg
    (hothers.decided nonce (decided_of_consumed hconsumed))
  have hstore := origin_of_stateStore horigin (hsound.backed hopen)
  rcases hothers.consumed nonce hconsumed with hretained | hspent
  · rw [NonceRetained, if_pos hstore] at hretained
    rw [get?_eq_none_of_has hfree] at hretained
    cases hretained
  · have hfar := hspent.2 hstore call hcall hway
    omega

theorem consume {epoch : Nat} (hk : accepts[k]? = some call)
    (hstage : call.stage = .consuming epoch nonce) (hfree : rows.has nonce = false) :
    AcceptsOnce env created clock (rows.put ⟨nonce, wholeSecond call.now⟩) memory
      (accepts.set k { call with stage := .consumed epoch nonce true }) := by
  have hcall := mem_of_getElem? hk
  have hopen : ∀ decision, call.stage ≠ .returned decision := by simp [hstage]
  have hdecided : call.decided = some nonce := by simp [decided, hstage]
  have hway : call.underWay nonce = true := by simp [underWay, hstage]
  have hnone : ∀ other ∈ accepts, other.consumed ≠ some nonce :=
    fun other => h.not_consumed hreg hcall hopen hdecided hway hfree
  have hsound := h.sound call hcall
  refine ⟨fun other hother => ?_, fun j j' c c' n hj hj' hc hc' => ?_⟩
  · rcases mem_or_eq_of_mem_set hother with hold | rfl
    · have hothers := h.sound other hold
      refine { hothers with consumed := fun n hn => ?_ }
      rcases hothers.consumed n hn with hretained | hspent
      · left
        rw [NonceRetained] at hretained ⊢
        split
        · next hstore =>
          rw [if_pos hstore] at hretained
          have hne : nonce ≠ n := by
            rintro rfl
            exact hnone other hold hn
          rw [get?_put, if_neg hne, hretained]
        · next hstore => rwa [if_neg hstore] at hretained
      · refine .inr ⟨hspent.1, fun hstore c hc hcway => ?_⟩
        rcases mem_or_eq_of_mem_set hc with hold | rfl
        · exact hspent.2 hstore c hold hcway
        · simp [underWay] at hcway
    · refine ⟨fun _ => hsound.backed hopen, hsound.started, fun n hn => ?_, fun n hn => ?_⟩
      · cases hn
        exact hsound.decided nonce hdecided
      cases hn
      left
      rw [NonceRetained, if_pos (hsound.backed hopen), get?_put, if_pos rfl]
  · rcases getElem?_set_cases hj with ⟨hjk, rfl⟩ | ⟨-, hold⟩
    · cases hc
      rcases getElem?_set_cases hj' with ⟨hjk', rfl⟩ | ⟨-, hold'⟩
      · exact hjk.trans hjk'.symm
      · exact absurd hc' (hnone c' (mem_of_getElem? hold'))
    rcases getElem?_set_cases hj' with ⟨hjk', rfl⟩ | ⟨-, hold'⟩
    · cases hc'
      exact absurd hc (hnone c (mem_of_getElem? hold))
    · exact h.once j j' c c' n hold hold' hc hc'

theorem inMemory {i : Nat}
    (hi : env.stateStore i = false) {localDid : Did} {payload : AttestationVcPayload}
    {decision : AcceptanceDecision} {memory' : Nat → RetainedNonces}
    (helse : ∀ j, j ≠ i → memory' j = memory j)
    (hkept : ∀ nonce now, (memory i).get? nonce = some ⟨nonce, now⟩ →
      decision ≠ .acceptInPerson nonce →
      (memory' i).get? nonce = some ⟨nonce, now⟩ ∨ now + ACTIVE_CHALLENGE_MAX_AGE_MS < clock)
    (haccept : ∀ nonce, decision = .acceptInPerson nonce →
      AcceptCall.InTime env created ⟨i, localDid, payload, clock, .returned decision⟩ nonce ∧
        (memory' i).get? nonce = some ⟨nonce, clock⟩ ∧
        ∀ now, (memory i).get? nonce = some ⟨nonce, now⟩ →
          now + ACTIVE_CHALLENGE_MAX_AGE_MS < clock) :
    AcceptsOnce env created clock rows memory'
      (accepts ++ [⟨i, localDid, payload, clock, .returned decision⟩]) := by
  have hconsumed : ∀ nonce,
      consumed ⟨i, localDid, payload, clock, .returned decision⟩ = some nonce →
        decision = .acceptInPerson nonce := by
    intro nonce hnonce
    cases decision with
    | acceptInPerson n =>
      cases hnonce
      rfl
    | remoteUnbound _ | reject _ => cases hnonce
  have hnone : ∀ nonce, decision = .acceptInPerson nonce →
      ∀ other ∈ accepts, other.consumed ≠ some nonce := by
    intro nonce hnonce other hother hconsumed
    obtain ⟨hintime, -, hold⟩ := haccept nonce hnonce
    have hothers := h.sound other hother
    obtain ⟨horigin, hnear, -⟩ := hintime.near hreg
      (hothers.decided nonce (decided_of_consumed hconsumed))
    have hworkflow : i = other.workflow := eq_of_origin horigin hi
    rcases hothers.consumed nonce hconsumed with hretained | hspent
    · rw [NonceRetained, ← hworkflow, if_neg (by simp [hi])] at hretained
      have hfar := hold other.now hretained
      dsimp only at hnear
      omega
    have hfar := hspent.1
    dsimp only at hnear
    omega
  refine ⟨fun other hother => ?_, fun j j' c c' nonce hj hj' hc hc' => ?_⟩
  · rcases mem_append.mp hother with hold | hnew
    · have hothers := h.sound other hold
      refine { hothers with consumed := fun nonce hnonce => ?_ }
      rcases hothers.consumed nonce hnonce with hretained | hspent
      · rw [NonceRetained] at hretained ⊢
        split at hretained
        · next hstore =>
          left
          rwa [if_pos hstore]
        next hstore =>
        rw [if_neg hstore]
        by_cases hworkflow : other.workflow = i
        · rw [hworkflow] at hretained ⊢
          have hne : decision ≠ .acceptInPerson nonce := fun heq =>
            hnone nonce heq other hold hnonce
          refine (hkept nonce other.now hretained hne).imp_right fun hfar => ⟨hfar, ?_⟩
          simp [hi]
        · left
          rwa [helse _ hworkflow]
      · refine .inr ⟨hspent.1, fun hstore c hc hway => ?_⟩
        rcases mem_append.mp hc with hold | hnew
        · exact hspent.2 hstore c hold hway
        · rw [mem_singleton.mp hnew] at hway
          cases hway
    · rw [mem_singleton.mp hnew]
      refine ⟨fun hopen => absurd rfl (hopen decision), Nat.le_refl _, fun nonce hnonce => ?_,
        fun nonce hnonce => ?_⟩
      · refine (haccept nonce (hconsumed nonce ?_)).1
        cases decision with
        | acceptInPerson n => exact hnonce
        | remoteUnbound _ | reject _ => cases hnonce
      · left
        rw [NonceRetained, if_neg (by simp [hi])]
        exact (haccept nonce (hconsumed nonce hnonce)).2.1
  · -- the calls before have not consumed what the new one does
    have hlast : ∀ {j c}, (accepts ++ [⟨i, localDid, payload, clock, .returned decision⟩])[j]? =
        some c → c.consumed = some nonce → decision = .acceptInPerson nonce →
        j = accepts.length := by
      intro j c hj hc hdecision
      rcases Nat.lt_trichotomy j accepts.length with hlt | heq | hgt
      · rw [getElem?_append_left hlt] at hj
        exact absurd hc (hnone nonce hdecision c (mem_of_getElem? hj))
      · exact heq
      · rw [getElem?_eq_none (by simp; omega)] at hj
        cases hj
    rcases getElem?_concat_cases hj with ⟨-, rfl⟩ | hold
    · have hdecision := hconsumed nonce hc
      rw [hlast hj hc hdecision, hlast hj' hc' hdecision]
    rcases getElem?_concat_cases hj' with ⟨-, rfl⟩ | hold'
    · have hdecision := hconsumed nonce hc'
      rw [hlast hj hc hdecision, hlast hj' hc' hdecision]
    · exact h.once j j' c c' nonce hold hold' hc hc'

end

end AcceptsOnce

end

/-! ## 4. Acceptance without the store -/

open VerificationWorkflow AcceptCall

section

open VerificationSystem

variable {w : VerificationWorkflow} {localDid : Did} {payload : AttestationVcPayload} {now : Nat}
  {nonce : String}

theorem classifyReplay_eq_accept {decision : AcceptanceDecision} {consumedNonce : Bool}
    (h : classifyReplay decision consumedNonce = .acceptInPerson nonce) :
    decision = .acceptInPerson nonce := by
  cases decision with
  | acceptInPerson n => exact h
  | remoteUnbound reason => cases consumedNonce <;> cases h
  | reject reason => cases h

theorem acceptInMemory_queue :
    (acceptInMemory w localDid payload now).2.challengeStoreQueue = w.challengeStoreQueue := by
  rw [acceptInMemory]
  dsimp only
  split <;> rfl

theorem acceptInMemory_active {challenge : QrChallenge}
    (h : (acceptInMemory w localDid payload now).2.activeQrChallenge = some challenge) :
    w.activeQrChallenge = some challenge := by
  rw [acceptInMemory] at h
  dsimp only at h
  split at h
  · cases h
  · exact h

section

variable (hlower : ∀ challenge, w.activeQrChallenge = some challenge →
  toLowerCase challenge.nonce = challenge.nonce)
include hlower

theorem acceptInMemory_kept {consumedAt : Nat}
    (h : w.consumedNonces.get? nonce = some ⟨nonce, consumedAt⟩)
    (hne : (acceptInMemory w localDid payload now).1 ≠ .acceptInPerson nonce) :
    (acceptInMemory w localDid payload now).2.consumedNonces.get? nonce = some ⟨nonce, consumedAt⟩ ∨
      consumedAt + ACTIVE_CHALLENGE_MAX_AGE_MS < now := by
  by_cases hold : now - consumedAt > CONSUMED_NONCE_RETENTION_MS
  · right
    simp only [ACTIVE_CHALLENGE_MAX_AGE_MS, CONSUMED_NONCE_RETENTION_MS] at *
    omega
  left
  have hpruned : (w.pruneConsumedNonces now).consumedNonces.get? nonce =
      some ⟨nonce, consumedAt⟩ := by
    rw [pruneConsumedNonces, get?_filter_eq_some]
    exact ⟨h, by simpa using hold⟩
  rw [acceptInMemory] at hne ⊢
  dsimp only at hne ⊢
  split
  · next nonce' hdecision =>
    obtain ⟨-, -, challenge, hactive, hnonce, -⟩ := accept_of_decide hdecision
    rw [hdecision] at hne
    have hne' : toLowerCase nonce' ≠ nonce := by
      rintro rfl
      rw [← hnonce, hlower challenge hactive, hlower challenge hactive] at hne
      exact hne rfl
    rw [get?_put, if_neg hne', hpruned]
  · exact hpruned

theorem acceptInMemory_accept
    (h : (acceptInMemory w localDid payload now).1 = .acceptInPerson nonce) :
    (∃ challenge, w.activeQrChallenge = some challenge ∧ toLowerCase challenge.nonce = nonce ∧
      challenge.ts ≤ now ∧ now ≤ challenge.ts + ACTIVE_CHALLENGE_MAX_AGE_MS) ∧
    (acceptInMemory w localDid payload now).2.consumedNonces.get? nonce = some ⟨nonce, now⟩ ∧
    ∀ consumedAt, w.consumedNonces.get? nonce = some ⟨nonce, consumedAt⟩ →
      consumedAt + ACTIVE_CHALLENGE_MAX_AGE_MS < now := by
  have hdecision := classifyReplay_eq_accept h
  obtain ⟨-, hunknown, challenge, hactive, hnonce, htime⟩ := accept_of_decide hdecision
  have hfixed : toLowerCase nonce = nonce := by
    rw [← hnonce, hlower challenge hactive, hlower challenge hactive]
  refine ⟨⟨challenge, hactive, hnonce, htime⟩, ?_, fun consumedAt hrow => ?_⟩
  · rw [acceptInMemory]
    dsimp only
    rw [hdecision]
    dsimp only
    rw [hfixed, get?_put, if_pos rfl]
  · by_cases hold : now - consumedAt > CONSUMED_NONCE_RETENTION_MS
    · simp only [ACTIVE_CHALLENGE_MAX_AGE_MS, CONSUMED_NONCE_RETENTION_MS] at *
      omega
    have hmem : (⟨nonce, consumedAt⟩ : RetainedNonce) ∈
        (w.pruneConsumedNonces now).consumedNonces.rows :=
      mem_rows_filter.mpr ⟨mem_of_get? hrow, by simpa using hold⟩
    refine absurd ?_ hunknown
    rw [map_map]
    exact mem_map.mpr ⟨_, hmem, hfixed⟩

end

end

/-! ## 5. Steps -/

namespace VerificationSystem

variable {env : VerificationEnvironment} {s s' : VerificationSystem} {k i : Nat} {call : AcceptCall}

structure Sound (env : VerificationEnvironment) (s : VerificationSystem) : Prop where
  registered : ChallengesRegistered env s.created s.store.activeQrChallenge s.workflows s.creates
    s.restores
  accepted : AcceptsOnce env s.created s.clock s.store.consumedNonces
    (fun i => (s.workflows i).consumedNonces) s.accepts

def FreshNonce (s : VerificationSystem) : Input → Prop
  | .createKeyed _ _ nonce => ∀ entry ∈ s.created, entry.2.nonce ≠ nonce
  | _ => True

/-- No record of a consumed nonce is pruned while an acceptance of this nonce is under way that
    began at most five minutes before or after, to the second that the record keeps. -/
def NoPruneUnderAccept (s : VerificationSystem) : Input → Prop
  | .acceptStores k => ∀ call ∈ s.accepts[k]?, call.stage = .pruning →
    ∀ row ∈ s.store.consumedNonces.rows,
      row.consumedAt < wholeSecond (call.now - CONSUMED_NONCE_RETENTION_MS) →
      ∀ other ∈ s.accepts, other.underWay row.nonce = true →
        ¬ (row.consumedAt ≤ other.now + ACTIVE_CHALLENGE_MAX_AGE_MS ∧
          other.now < row.consumedAt + 1000 + ACTIVE_CHALLENGE_MAX_AGE_MS)
  | _ => True

instance : ∀ (s : VerificationSystem) (input : Input), Decidable (FreshNonce s input)
  | _, .createKeyed _ _ _ => inferInstanceAs (Decidable (∀ entry ∈ _, _ ≠ _))
  | _, .tick _ | _, .create _ _ _ _ | _, .createKeyFails _ | _, .createResumes _
  | _, .opApplies _ | _, .opSettles _ _ | _, .restore _ | _, .restoreResumes _
  | _, .restoreStores _ | _, .restoreStoreFails _ | _, .accept _ _ _ | _, .acceptResumes _
  | _, .acceptStores _ | _, .acceptStoreFails _ | _, .reset _ => inferInstanceAs (Decidable True)

instance : ∀ (s : VerificationSystem) (input : Input), Decidable (NoPruneUnderAccept s input)
  | _, .acceptStores _ => inferInstanceAs
    (Decidable (∀ call ∈ _, _ → ∀ row ∈ _, _ → ∀ other ∈ _, _ → ¬ (_ ∧ _)))
  | _, .createKeyed _ _ _ | _, .tick _ | _, .create _ _ _ _ | _, .createKeyFails _
  | _, .createResumes _ | _, .opApplies _ | _, .opSettles _ _ | _, .restore _
  | _, .restoreResumes _ | _, .restoreStores _ | _, .restoreStoreFails _ | _, .accept _ _ _
  | _, .acceptResumes _ | _, .acceptStoreFails _ | _, .reset _ => inferInstanceAs (Decidable True)

theorem Sound.start (clock : Nat) : Sound env (start clock) where
  registered := by
    constructor <;> simp [VerificationSystem.start]
    exact fun i => ⟨by simp [fresh], by simp [fresh]⟩
  accepted := by constructor <;> simp [VerificationSystem.start]

section

variable (h : Sound env s)
include h

theorem Sound.advance (hk : s.accepts[k]? = some call)
    (hopen : ∀ decision, call.stage ≠ .returned decision) (stage : AcceptStage)
    (hdecided : ∀ nonce, { call with stage := stage }.decided = some nonce →
      call.decided = some nonce)
    (hconsumed : ∀ nonce, { call with stage := stage }.consumed = some nonce →
      call.consumed = some nonce)
    (hunder : ∀ nonce, { call with stage := stage }.underWay nonce = true →
      call.underWay nonce = true) :
    Sound env (s.setAccept k call stage) where
  registered := h.registered
  accepted :=
    h.accepted.advance hk hopen stage
      (fun nonce hn => (h.accepted.sound call (mem_of_getElem? hk)).decided nonce
        (hdecided nonce hn))
      hconsumed hunder

theorem Sound.onWorkflow (i : Nat) {f : VerificationWorkflow → VerificationWorkflow}
    (hregistered : (f (s.workflows i)).Registered s.created (env.origin i))
    (hmemory : (f (s.workflows i)).consumedNonces = (s.workflows i).consumedNonces) :
    Sound env (s.onWorkflow i f) where
  registered := h.registered.onWorkflow hregistered
  accepted := h.accepted.onWorkflow hmemory

section

variable (hk : s.accepts[k]? = some call)
include hk

theorem Sound.acceptStores (hclear : NoPruneUnderAccept s (.acceptStores k))
    (hs : acceptStores s k call call.stage = some s') : Sound env s' := by
  have hsound := h.accepted.sound call (mem_of_getElem? hk)
  cases hstage : call.stage with
  | pruning =>
    rw [hstage] at hs
    cases hs
    have hclear := hclear call hk hstage
    refine ⟨h.registered, (h.accepted.prune hsound.started hclear).advance hk (by simp [hstage])
      .pruned (by simp [decided]) (by simp [consumed]) ?_⟩
    simp [underWay, hstage]
  | finding epoch decision =>
    rw [hstage] at hs
    cases hs
    refine h.advance hk (by simp [hstage]) _ ?_ (by simp [consumed]) ?_
    · cases decision <;> simp [decided, hstage]
    · simp [underWay, hstage]
  | consuming epoch nonce =>
    rw [hstage] at hs
    cases hs
    have hdecided : call.decided = some nonce := by simp [decided, hstage]
    have hfixed : toLowerCase nonce = nonce := by
      obtain ⟨challenge, hmem, rfl, -⟩ := hsound.decided nonce hdecided
      rw [h.registered.lower _ hmem, h.registered.lower _ hmem]
    rw [hfixed]
    cases hhas : s.store.consumedNonces.has nonce with
    | true =>
      have htry : s.store.tryConsumeNonce nonce (wholeSecond call.now) = (false, s.store) := by
        simp [VerificationStateStore.tryConsumeNonce, hfixed, hhas]
      rw [htry]
      refine h.advance hk (by simp [hstage]) _ ?_ (by simp [consumed]) (by simp [underWay])
      simp [decided, hstage]
    | false =>
      have htry : s.store.tryConsumeNonce nonce (wholeSecond call.now) = (true, { s.store with
          consumedNonces := s.store.consumedNonces.put ⟨nonce, wholeSecond call.now⟩ }) := by
        simp [VerificationStateStore.tryConsumeNonce, hfixed, hhas]
      rw [htry]
      exact ⟨h.registered, h.accepted.consume h.registered hk hstage hhas⟩
  | recording nonce pending =>
    rw [hstage] at hs
    cases hs
    have hadvance := h.advance hk (by simp [hstage]) (.recorded nonce)
      (by simp [decided, hstage]) (by simp [consumed, hstage])
      (by simp [underWay])
    exact ⟨hadvance.registered, hadvance.accepted⟩
  | _ =>
    rw [hstage] at hs
    cases hs

theorem Sound.acceptStoreFails (hs : acceptStoreFails s k call call.stage = some s') :
    Sound env s' := by
  have hopen : ∀ decision, call.stage ≠ .returned decision := by
    intro decision hstage
    rw [hstage] at hs
    cases hs
  have hfailed : Sound env (s.setAccept k call .failed) :=
    h.advance hk hopen .failed (by simp [decided]) (by simp [consumed]) (by simp [underWay])
  cases hstage : call.stage with
  | finding epoch decision | found epoch decision consumedNonce =>
    rw [hstage, VerificationSystem.acceptStoreFails] at hs
    split at hs
    · cases hs
      exact hfailed
    · cases hs
  | pruning | pruned | consuming _ _ | consumed _ _ _ | recording _ _ | recorded _ =>
    rw [hstage] at hs
    cases hs
    exact hfailed
  | restoring _ | clearing _ _ | returned _ | failed =>
    rw [hstage] at hs
    cases hs

theorem Sound.decideAcceptance (hopen : ∀ decision, call.stage ≠ .returned decision)
    (hunder : ∀ nonce, call.payload.jtiNonce = some nonce → call.underWay nonce = true) :
    Sound env (s.decideAcceptance k call) where
  registered := h.registered
  accepted := by
    refine h.accepted.advance hk hopen _ ?_ (by simp [consumed]) ?_
    · intro nonce hnonce
      obtain ⟨-, -, challenge, hactive, hlower, htime⟩ :=
        accept_of_decide (accept_of_finding hnonce)
      exact ⟨challenge, (h.registered.workflow call.workflow).active challenge hactive, hlower,
        htime⟩
    · intro nonce hnonce
      simp only [underWay, beq_iff_eq] at hnonce
      exact hunder nonce (accept_of_decide hnonce).1

end

theorem Sound.restoreActiveQrChallenge (i : Nat) : Sound env (s.restoreActiveQrChallenge i) where
  registered := by
    refine h.registered.addRestore _ ?_
    cases (s.workflows i).activeQrChallenge <;> rfl
  accepted := h.accepted

theorem Sound.acceptResumes (hk : s.accepts[k]? = some call)
    (hs : acceptResumes s k call call.stage = some s') : Sound env s' := by
  have hsound := h.accepted.sound call (mem_of_getElem? hk)
  cases hstage : call.stage with
  | pruned =>
    have hunder : ∀ nonce, call.payload.jtiNonce = some nonce → call.underWay nonce = true := by
      intro nonce hnonce
      simp [AcceptCall.underWay, hstage, hnonce]
    rw [hstage, VerificationSystem.acceptResumes] at hs
    split at hs
    · cases hs
      refine (h.restoreActiveQrChallenge call.workflow).advance hk (by simp [hstage]) _
        (by simp [AcceptCall.decided]) (by simp [AcceptCall.consumed]) ?_
      simp [AcceptCall.underWay, hstage]
    · cases hs
      exact h.decideAcceptance hk (by simp [hstage]) hunder
  | restoring restore =>
    have hunder : ∀ nonce, call.payload.jtiNonce = some nonce → call.underWay nonce = true := by
      intro nonce hnonce
      simp [AcceptCall.underWay, hstage, hnonce]
    rw [hstage, VerificationSystem.acceptResumes] at hs
    split at hs
    · cases hs
      exact h.decideAcceptance hk (by simp [hstage]) hunder
    · cases hs
  | found epoch decision consumedNonce =>
    have hreturned : (∀ nonce, decision ≠ .acceptInPerson nonce) →
        Sound env (s.setAccept k call (.returned (classifyReplay decision consumedNonce))) := by
      intro hne
      refine h.advance hk (by simp [hstage]) _ ?_ ?_ (by simp [AcceptCall.underWay])
      · intro nonce hnonce
        exact absurd (classifyReplay_eq_accept (AcceptCall.accept_of_returned hnonce)) (hne nonce)
      intro nonce hnonce
      have hdecided := AcceptCall.decided_of_consumed hnonce
      exact absurd (classifyReplay_eq_accept (AcceptCall.accept_of_returned hdecided)) (hne nonce)
    cases decision with
    | acceptInPerson nonce =>
      rw [hstage] at hs
      cases hs
      refine h.advance hk (by simp [hstage]) _ (by simp [AcceptCall.decided, hstage])
        (by simp [AcceptCall.consumed]) ?_
      simp [AcceptCall.underWay, hstage]
    | remoteUnbound _ | reject _ =>
      rw [hstage] at hs
      cases hs
      exact hreturned (by simp)
  | consumed epoch nonce consumed =>
    rw [hstage, VerificationSystem.acceptResumes] at hs
    split at hs
    · next htrue =>
      cases hs
      have hcommit := h.onWorkflow call.workflow
        (f := fun w => w.commitAndAdvanceChallengeState epoch none)
        ((h.registered.workflow call.workflow).commitAndAdvance epoch)
        consumedNonces_commitAndAdvance
      refine hcommit.advance hk (by simp [hstage]) _ (by simp [AcceptCall.decided, hstage]) ?_
        (by simp [AcceptCall.underWay])
      simp [AcceptCall.consumed, hstage, htrue]
    · cases hs
      exact h.advance hk (by simp [hstage]) _ (by simp [AcceptCall.decided])
        (by simp [AcceptCall.consumed]) (by simp [AcceptCall.underWay])
  | recorded nonce =>
    rw [hstage] at hs
    cases hs
    have henqueue := h.onWorkflow call.workflow
      (f := fun w => w.enqueueChallengeStoreOp (.clear nonce))
      ((h.registered.workflow call.workflow).enqueue (by simp)) rfl
    exact henqueue.advance hk (by simp [hstage]) _ (by simp [AcceptCall.decided, hstage])
      (by simp [AcceptCall.consumed, hstage]) (by simp [AcceptCall.underWay])
  | clearing nonce op =>
    rw [hstage, VerificationSystem.acceptResumes] at hs
    split at hs
    · cases hs
      exact h.advance hk (by simp [hstage]) _ (by simp [AcceptCall.decided, hstage])
        (by simp [AcceptCall.consumed, hstage]) (by simp [AcceptCall.underWay])
    · cases hs
  | _ =>
    rw [hstage] at hs
    cases hs

theorem Sound.accept (i : Nat) (localDid : Did) (payload : AttestationVcPayload) :
    Sound env (acceptVerifiedVerificationAttestation env s i localDid payload) := by
  rw [acceptVerifiedVerificationAttestation]
  split
  · next hi => exact ⟨h.registered, h.accepted.begin hi localDid payload⟩
  next hi =>
  have hregistered := h.registered.workflow i
  have hlower : ∀ challenge, (s.workflows i).activeQrChallenge = some challenge →
      toLowerCase challenge.nonce = challenge.nonce :=
    fun challenge hc => h.registered.lower (_, challenge) (hregistered.active challenge hc)
  refine ⟨h.registered.onWorkflow ?_, ?_⟩
  · exact ⟨fun challenge hc => hregistered.active challenge (acceptInMemory_active hc),
      fun queued hq => hregistered.queued queued (acceptInMemory_queue ▸ hq)⟩
  refine h.accepted.inMemory h.registered (by simpa using hi) ?_ ?_ ?_
  · intro j hj
    dsimp only [VerificationSystem.onWorkflow]
    rw [update_of_ne hj]
  · intro nonce now hrow hne
    dsimp only [VerificationSystem.onWorkflow]
    rw [update_self]
    exact acceptInMemory_kept hlower hrow hne
  intro nonce haccept
  obtain ⟨⟨challenge, hactive, hnonce, htime⟩, hrow, hold⟩ :=
    acceptInMemory_accept hlower haccept
  refine ⟨⟨challenge, hregistered.active challenge hactive, hnonce, htime⟩, ?_, hold⟩
  dsimp only [VerificationSystem.onWorkflow]
  rw [update_self]
  exact hrow

theorem Sound.setCreate (k : Nat) (call : CreateCall) (stage : CreateStage)
    (hnone : stage.previousChallenge = none) : Sound env (s.setCreate k call stage) where
  registered := h.registered.setCreate k (by simp [hnone])
  accepted := h.accepted

theorem Sound.setRestore (k : Nat) (call : RestoreCall) (stage : RestoreStage)
    (hnone : stage.stored = none) : Sound env (s.setRestore k call stage) where
  registered := h.registered.setRestore k (by simp [hnone])
  accepted := h.accepted

theorem Sound.createKeyed (k : Nat) (call : CreateCall) (did : Did)
    (name : String) (broker : Option String) (enc nonce : String)
    (hfresh : ∀ entry ∈ s.created, entry.2.nonce ≠ nonce) :
    Sound env (createKeyed env s k call did name broker enc nonce) := by
  rw [VerificationSystem.createKeyed]
  split
  · exact h.setCreate k call .failed rfl
  next parsed hparsed =>
  obtain ⟨rfl, hlower⟩ := parseQrChallenge_eq_some hparsed
  have hreg := h.registered.register call.workflow hlower hfresh
  have hw := hreg.workflow call.workflow
  have hmem : (env.origin call.workflow,
      (⟨did, name, enc, nonce, s.clock, broker⟩ : QrChallenge)) ∈
      s.created ++ [(env.origin call.workflow, ⟨did, name, enc, nonce, s.clock, broker⟩)] :=
    mem_append_right _ mem_cons_self
  refine ⟨(hreg.onWorkflow ?_).setCreate k ?_, (h.accepted.register _).onWorkflow rfl⟩
  · refine Registered.enqueue ?_ ?_
    · refine hw.setActive ?_ rfl rfl
      intro challenge hc
      cases hc
      exact hmem
    intro challenge hc
    cases hc
    exact hmem
  · intro challenge hc
    exact hw.active challenge hc

theorem Sound.createResumes {call : CreateCall} (hk : s.creates[k]? = some call)
    (hs : createResumes s k call call.stage = some s') : Sound env s' := by
  cases hstage : call.stage with
  | persisting epoch previousChallenge challenge op =>
    rw [hstage] at hs
    obtain ⟨ok, -, rfl⟩ := Option.map_eq_some_iff.mp hs
    cases ok with
    | true => exact h.setCreate k call _ rfl
    | false =>
      have hprevious := h.registered.previous call (mem_of_getElem? hk)
      rw [hstage] at hprevious
      have hcommit := h.onWorkflow call.workflow
        (f := fun w => w.commitChallengeState epoch previousChallenge)
        ((h.registered.workflow call.workflow).commit epoch hprevious)
        consumedNonces_commit
      exact hcommit.setCreate k call _ rfl
  | _ =>
    rw [hstage] at hs
    cases hs

end

theorem applyOp_registered (h : ChallengesRegistered env s.created s.store.activeQrChallenge
    s.workflows s.creates s.restores) {queued : QueuedOp}
    (hmem : queued ∈ (s.workflows i).challengeStoreQueue) (challenge : QrChallenge)
    (hc : (applyOp env i s.store queued.op).activeQrChallenge = some challenge) :
    (none, challenge) ∈ s.created := by
  unfold applyOp at hc
  split at hc
  · next hoffers =>
    cases hop : queued.op with
    | record recorded =>
      rw [hop] at hc hoffers
      cases hc
      have hrecorded := (h.workflow i).queued queued hmem challenge hop
      have hstore : env.stateStore i = true := by
        simp only [offers, Bool.and_eq_true] at hoffers
        exact hoffers.1
      rwa [origin, if_pos hstore] at hrecorded
    | clear nonce =>
      rw [hop] at hc
      simp only [VerificationStateStore.clearActiveQrChallenge] at hc
      split at hc
      · exact h.stored challenge hc
      · cases hc
  · exact h.stored challenge hc

theorem consumedNonces_applyOp (i : Nat) (store : VerificationStateStore)
    (op : ChallengeStoreOp) : (applyOp env i store op).consumedNonces = store.consumedNonces := by
  unfold applyOp
  split
  · cases op with
    | record challenge => rfl
    | clear nonce =>
      simp only [VerificationStateStore.clearActiveQrChallenge]
      split <;> rfl
  · rfl

section

variable (h : Sound env s)
include h

theorem Sound.opApplies (hs : opApplies env s i = some s') : Sound env s' := by
  obtain ⟨⟨j, queued⟩, hcurrent, happly⟩ := Option.bind_eq_some_iff.mp hs
  have hmem := mem_of_currentOp hcurrent
  dsimp only at happly
  split at happly
  · cases happly
  cases happly
  have hset := h.onWorkflow i (f := fun w => w.setOp j { queued with applied := true })
    ((h.registered.workflow i).setOp j hmem rfl) rfl
  refine ⟨hset.registered.onStore fun challenge hc => applyOp_registered h.registered hmem challenge hc, ?_⟩
  have haccepted := hset.accepted
  rwa [← @consumedNonces_applyOp env i _ queued.op] at haccepted

theorem Sound.opSettles {ok : Bool} (hs : opSettles env s i ok = some s') : Sound env s' := by
  obtain ⟨⟨j, queued⟩, hcurrent, hsettle⟩ := Option.bind_eq_some_iff.mp hs
  have hmem := mem_of_currentOp hcurrent
  dsimp only at hsettle
  by_cases hguard : (if ok then queued.applied else env.offers i queued.op) = true
  · rw [if_pos hguard] at hsettle
    cases hsettle
    exact h.onWorkflow i (f := fun w => w.setOp j { queued with result := some ok })
      ((h.registered.workflow i).setOp j hmem rfl) rfl
  · rw [if_neg hguard] at hsettle
    cases hsettle

theorem Sound.restoreResumes {call : RestoreCall}
    (hk : s.restores[k]? = some call) (hs : restoreResumes env s k call call.stage = some s') :
    Sound env s' := by
  cases hstage : call.stage with
  | draining epoch count =>
    rw [hstage, VerificationSystem.restoreResumes] at hs
    split at hs
    · cases hs
      exact h.setRestore k call _ rfl
    · cases hs
  | answered epoch stored =>
    rw [hstage, VerificationSystem.restoreResumes] at hs
    split at hs
    · cases hs
      exact h.setRestore k call _ rfl
    next parsed hparsed =>
    obtain ⟨challenge, hstored, hparse⟩ := Option.bind_eq_some_iff.mp hparsed
    obtain ⟨rfl, -⟩ := parseQrChallenge_eq_some hparse
    dsimp only at hs
    split at hs
    · cases hs
      exact h.setRestore k call _ rfl
    cases hs
    have hread := h.registered.read call (mem_of_getElem? hk) parsed
    rw [hstage] at hread
    have hcommit := h.onWorkflow call.workflow
      (f := fun w => w.commitChallengeState epoch (some parsed))
      ((h.registered.workflow call.workflow).commit epoch fun challenge hc => by
        cases hc
        exact hread hstored)
      consumedNonces_commit
    exact hcommit.setRestore k call _ rfl
  | _ =>
    rw [hstage] at hs
    cases hs

theorem Sound.restoreStores {call : RestoreCall}
    (hs : restoreStores env s k call call.stage = some s') : Sound env s' := by
  cases hstage : call.stage with
  | reading epoch =>
    rw [hstage] at hs
    cases hs
    refine ⟨h.registered.setRestore k fun challenge hc => ?_, h.accepted⟩
    dsimp only [RestoreStage.stored] at hc
    split at hc
    · next hreads =>
      simp only [readsStore, Bool.and_eq_true] at hreads
      rw [origin, if_pos hreads.1]
      exact h.registered.stored challenge hc
    · cases hc
  | _ =>
    rw [hstage] at hs
    cases hs

theorem Sound.restoreStoreFails {call : RestoreCall}
    (hs : restoreStoreFails env s k call call.stage = some s') : Sound env s' := by
  cases hstage : call.stage with
  | reading _ | answered _ _ =>
    rw [hstage, VerificationSystem.restoreStoreFails] at hs
    split at hs
    · cases hs
      exact h.setRestore k call _ rfl
    · cases hs
  | _ =>
    rw [hstage] at hs
    cases hs

theorem Sound.step {input : Input} (hfresh : FreshNonce s input)
    (hclear : NoPruneUnderAccept s input) (hs : step env s input = some s') : Sound env s' := by
  cases input with
  | tick elapsed =>
    cases hs
    exact ⟨h.registered, h.accepted.tick elapsed⟩
  | create i did name broker =>
    cases hs
    exact ⟨h.registered.addCreate _ rfl, h.accepted⟩
  | createKeyed k enc nonce =>
    obtain ⟨call, -, hs⟩ := Option.bind_eq_some_iff.mp hs
    split at hs
    · cases hs
      exact h.createKeyed k call _ _ _ enc nonce hfresh
    · cases hs
  | createKeyFails k =>
    obtain ⟨call, -, hs⟩ := Option.bind_eq_some_iff.mp hs
    split at hs
    · cases hs
      exact h.setCreate k call .failed rfl
    · cases hs
  | createResumes k =>
    obtain ⟨call, hk, hs⟩ := Option.bind_eq_some_iff.mp hs
    exact h.createResumes hk hs
  | opApplies i => exact h.opApplies hs
  | opSettles i ok => exact h.opSettles hs
  | restore i =>
    cases hs
    exact h.restoreActiveQrChallenge i
  | restoreResumes k =>
    obtain ⟨call, hk, hs⟩ := Option.bind_eq_some_iff.mp hs
    exact h.restoreResumes hk hs
  | restoreStores k =>
    obtain ⟨call, -, hs⟩ := Option.bind_eq_some_iff.mp hs
    exact h.restoreStores hs
  | restoreStoreFails k =>
    obtain ⟨call, -, hs⟩ := Option.bind_eq_some_iff.mp hs
    exact h.restoreStoreFails hs
  | accept i localDid payload =>
    cases hs
    exact h.accept i localDid payload
  | acceptResumes k =>
    obtain ⟨call, hk, hs⟩ := Option.bind_eq_some_iff.mp hs
    exact h.acceptResumes hk hs
  | acceptStores k =>
    obtain ⟨call, hk, hs⟩ := Option.bind_eq_some_iff.mp hs
    exact h.acceptStores hk hclear hs
  | acceptStoreFails k =>
    obtain ⟨call, hk, hs⟩ := Option.bind_eq_some_iff.mp hs
    exact h.acceptStoreFails hk hs
  | reset i =>
    cases hs
    exact h.onWorkflow i (h.registered.workflow i).reset consumedNonces_reset

end

/-! ## 6. Single use -/

def SingleUse (s : VerificationSystem) : Prop :=
  ∀ (k k' : Nat) (call call' : AcceptCall) (nonce : String),
    s.accepts[k]? = some call → s.accepts[k']? = some call' →
    call.stage = .returned (.acceptInPerson nonce) →
    call'.stage = .returned (.acceptInPerson nonce) → k = k'

theorem Sound.singleUse (h : Sound env s) : SingleUse s := by
  intro k k' call call' nonce hk hk' hcall hcall'
  exact h.accepted.once k k' call call' nonce hk hk' (by simp [consumed, hcall])
    (by simp [consumed, hcall'])

theorem sound_of_reaches {clock : Nat} (h : Reaches (step env)
    (fun s input => FreshNonce s input ∧ NoPruneUnderAccept s input) (start clock) s) :
    Sound env s :=
  h.invariant (P := Sound env) (.start clock) fun _ _ _ hsound hadm hs =>
    hsound.step hadm.1 hadm.2 hs

/-- **A challenge is accepted once**: whatever the instances, their calls and the store do, in
    whatever order and with whatever failures, as long as no record of a consumed nonce is
    pruned under an acceptance of this nonce that began when the challenge was valid. -/
theorem challenge_single_use (env : VerificationEnvironment) (clock : Nat) (s : VerificationSystem)
    (h : Reaches (step env) (fun s input => FreshNonce s input ∧ NoPruneUnderAccept s input)
      (start clock) s) : SingleUse s :=
  (sound_of_reaches h).singleUse

def stored : VerificationEnvironment where
  stateStore _ := true
  recordsActiveQrChallenge := true
  getsActiveQrChallenge := true
  clearsActiveQrChallenge := true
  validBroker _ := true

def aliceNonce : String := "550e8400-e29b-41d4-a716-446655440000"

def bobsVerification : AttestationVcPayload where
  type := ["VerifiableCredential", "WotAttestation", "WotVerification"]
  iss := "did:key:zBob"
  sub := "did:key:zAlice"
  credentialSubject := some "did:key:zAlice"
  jti := some "urn:uuid:550E8400-E29B-41D4-A716-446655440000"

def firstAcceptance : List Input :=
  [.create 0 "did:key:zAlice" "Alice" none,
    .createKeyed 0 "AAAAAAAAAAAAAAAAAAAAAAAAAAAAAAAAAAAAAAAAAAA" aliceNonce,
    .opApplies 0, .opSettles 0 true, .createResumes 0, .tick 1000,
    .accept 0 "did:key:zAlice" bobsVerification, .accept 0 "did:key:zAlice" bobsVerification,
    .acceptStores 0, .acceptResumes 0, .acceptStores 0, .acceptResumes 0,
    .acceptStores 1, .acceptResumes 1, .acceptStores 1, .acceptResumes 1,
    .acceptStores 0, .acceptResumes 0, .acceptStores 0, .acceptResumes 0,
    .opApplies 0, .opSettles 0 true, .acceptResumes 0]

def secondAcceptance : List Input :=
  [.acceptStores 1, .acceptResumes 1, .acceptStores 1, .acceptResumes 1,
    .opApplies 0, .opSettles 0 true, .acceptResumes 1]

def pruneAfterADay : List Input :=
  [.tick (CONSUMED_NONCE_RETENTION_MS + 1000), .accept 1 "did:key:zAlice" bobsVerification,
    .acceptStores 2]

/-- Both acceptances end within the day: the second is a replay, and so is the third one. -/
theorem challenge_single_use_day : ∃ s,
    Reaches (step stored) (fun s input => FreshNonce s input ∧ NoPruneUnderAccept s input)
      (start 0) s ∧
    s.accepts.map stage =
      [.returned (.acceptInPerson aliceNonce), .returned (.reject .nonceConsumed), .pruned] ∧
    SingleUse s := by
  obtain ⟨s, hs, htest⟩ := Reaches.of_exec (step stored)
    (fun s input => FreshNonce s input ∧ NoPruneUnderAccept s input) (start 0)
    (flatten [firstAcceptance, secondAcceptance.take 2, pruneAfterADay])
    (fun s => decide (s.accepts.map stage =
      [.returned (.acceptInPerson aliceNonce), .returned (.reject .nonceConsumed), .pruned]))
    (by decide +kernel)
  exact ⟨s, hs, of_decide_eq_true htest, challenge_single_use stored 0 s hs⟩

/-- **A challenge can be accepted twice**: an acceptance that stands still for a day after its
    decision consumes the nonce again, once its record has been pruned. -/
theorem challenge_accepted_twice : ∃ s,
    Reaches (step stored) FreshNonce (start 0) s ∧ ¬ SingleUse s := by
  obtain ⟨s, hs, htest⟩ := Reaches.of_exec (step stored) FreshNonce (start 0)
    (flatten [firstAcceptance, pruneAfterADay, secondAcceptance])
    (fun s => decide (s.accepts.map stage =
      [.returned (.acceptInPerson aliceNonce), .returned (.acceptInPerson aliceNonce), .pruned]))
    (by decide +kernel)
  refine ⟨s, hs, fun hsingle => ?_⟩
  have hstages := of_decide_eq_true htest
  have hstage : ∀ (k : Nat) (stage : AcceptStage),
      (s.accepts.map AcceptCall.stage)[k]? = some stage →
      ∃ call : AcceptCall, s.accepts[k]? = some call ∧ call.stage = stage := by
    intro k stage hk
    rw [getElem?_map] at hk
    exact Option.map_eq_some_iff.mp hk
  obtain ⟨call, hk, hcall⟩ := hstage 0 _ (by rw [hstages]; rfl)
  obtain ⟨call', hk', hcall'⟩ := hstage 1 _ (by rw [hstages]; rfl)
  exact absurd (hsingle 0 1 call call' aliceNonce hk hk' hcall hcall') (by decide)

end VerificationSystem

end WebOfTrust
