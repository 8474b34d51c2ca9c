/-
  **A spent challenge stays spent** (`verification-workflow.ts`).

  A challenge is spent once its nonce is consumed or it is reset.  Two commits bring one back:
  a creation that fails puts back what it had replaced, whatever has become of it since; and a
  restore commits what it has read, although the acceptance that has consumed the challenge
  clears it from the store only after its pending counter-verification is recorded.

  Neither looks at the store again.  What a second look would find there, not consumed and with
  no clear still to come, is alive: until a spent challenge is gone from the store, a clear of it
  is in a queue, behind the record of the challenge if that is still to come.
-/
import WebOfTrust.VerificationSingleUse

namespace WebOfTrust

open Machine VerificationWorkflow VerificationEnvironment KeyedTable List Option Function

/-! ## 1. What has become of the challenges -/

structure Creation where
  workflow : Nat
  epoch : Nat
  previous : Option QrChallenge
  challenge : QrChallenge
  op : Nat

def CreateCall.creation (call : CreateCall) : Option Creation :=
  match call.stage with
  | .persisting epoch previous challenge op => some ⟨call.workflow, epoch, previous, challenge, op⟩
  | _ => none

def RestoreStage.read : RestoreStage → Option (Nat × QrChallenge)
  | .answered epoch (some challenge) => some (epoch, challenge)
  | _ => none

/-- A clear of the nonce that is still to come or has failed. -/
def QueuedOp.clears (queued : QueuedOp) (nonce : String) : Bool :=
  match queued.op with
  | .clear nonce' => nonce' == nonce && !queued.applied
  | .record _ => false

theorem QueuedOp.clears_iff {queued : QueuedOp} {nonce : String} :
    queued.clears nonce = true ↔ queued.op = .clear nonce ∧ queued.applied = false := by
  rw [clears]
  cases queued.op <;> simp

namespace VerificationSystem

variable (s : VerificationSystem)

def active (i : Nat) : Option QrChallenge :=
  (s.workflows i).activeQrChallenge

def op (i j : Nat) : Option QueuedOp :=
  (s.workflows i).challengeStoreQueue[j]?

def creation (k : Nat) : Option Creation :=
  s.creates[k]?.bind CreateCall.creation

def refusal (k : Nat) : Option Creation :=
  (s.creation k).filter fun r => (s.op r.workflow r.op).bind QueuedOp.result == some false

def spends (env : VerificationEnvironment) : Input → List String
  | .reset i => ((s.active i).map QrChallenge.nonce).toList
  | .accept i localDid payload =>
    if env.stateStore i then []
    else
      match (acceptInMemory (s.workflows i) localDid payload s.clock).1 with
      | .acceptInPerson nonce => [nonce]
      | _ => []
  | .acceptStores k =>
    match s.accepts[k]?.map AcceptCall.stage with
    | some (.consuming _ nonce) =>
      if s.store.hasConsumedNonce (toLowerCase nonce) then [] else [toLowerCase nonce]
    | _ => []
  | _ => []

/-- The challenge of a creation that reports failure. -/
def fails : Input → Option String
  | .createResumes k => (s.refusal k).map fun r => r.challenge.nonce
  | _ => none

/-! ## 2. The second look -/

/-- The store holds the challenge, does not know its nonce as consumed, and no clear of it is
    still to come or has failed. -/
def Backed (env : VerificationEnvironment) (challenge : QrChallenge) : Prop :=
  s.store.activeQrChallenge.map QrChallenge.nonce = some challenge.nonce ∧
    s.store.hasConsumedNonce challenge.nonce = false ∧
    ∀ i, env.stateStore i = true → ∀ queued ∈ (s.workflows i).challengeStoreQueue,
      queued.clears challenge.nonce = false

/-- A creation that fails has stored nothing, and what it puts back is backed, as is what a
    restore commits; and a pruning takes no nonce whose challenge the store holds or whose
    creation is under way. -/
def SecondLook (env : VerificationEnvironment) : Input → Prop
  | .createResumes k => ∀ r ∈ s.refusal k, (s.op r.workflow r.op).any QueuedOp.applied = false ∧
    (r.epoch = (s.workflows r.workflow).challengeEpoch →
      ∀ previous ∈ r.previous, s.Backed env previous)
  | .restoreResumes k => ∀ call ∈ s.restores[k]?, ∀ read ∈ call.stage.read,
    read.1 = (s.workflows call.workflow).challengeEpoch → s.Backed env read.2
  | .acceptStores k => ∀ call ∈ s.accepts[k]?, call.stage = .pruning →
    ∀ row ∈ s.store.consumedNonces.rows,
      row.consumedAt < wholeSecond (call.now - CONSUMED_NONCE_RETENTION_MS) →
      s.store.activeQrChallenge.map QrChallenge.nonce ≠ some row.nonce ∧
        ∀ call ∈ s.creates, ∀ r ∈ call.creation, r.challenge.nonce ≠ row.nonce
  | _ => True

/-! ## 3. Every challenge is traced -/

def Applied (i j : Nat) : Prop := (s.op i j).any QueuedOp.applied = true

def StillClears (i j : Nat) (nonce : String) : Prop :=
  ∃ j' queued, j ≤ j' ∧ s.op i j' = some queued ∧ queued.clears nonce = true

/-- A record that is still to come has its creation; and a challenge whose creation is under way
    is shown by this creation alone, unless its record has been made. -/
structure Traced (env : VerificationEnvironment) : Prop where
  issued : ∀ k r, s.creation k = some r → (env.origin r.workflow, r.challenge) ∈ s.created
  once : ∀ k k' r r', s.creation k = some r → s.creation k' = some r' →
    r.challenge = r'.challenge → k = k'
  pending : ∀ i j queued c, s.op i j = some queued → queued.op = .record c →
    queued.result = none →
    ∃ k r, s.creation k = some r ∧ r.workflow = i ∧ r.op = j ∧ r.challenge = c
  held : ∀ c, s.store.activeQrChallenge = some c → env.recordsActiveQrChallenge = true ∧
    ∀ k r, s.creation k = some r → r.challenge = c → s.Applied r.workflow r.op
  shown : ∀ i c, s.active i = some c → ∀ k r, s.creation k = some r → r.challenge = c →
    r.workflow = i ∧ r.epoch = (s.workflows i).challengeEpoch ∨ s.Applied r.workflow r.op

/-- A clear is still to come where the store holds the nonce, and behind every record of it. -/
structure Closed (env : VerificationEnvironment) (nonce : String) : Prop where
  held : s.store.activeQrChallenge.map QrChallenge.nonce = some nonce →
    ∃ i, env.stateStore i = true ∧ s.StillClears i 0 nonce
  pending : ∀ i j queued c, env.stateStore i = true → s.op i j = some queued →
    queued.op = .record c → c.nonce = nonce → queued.result = none → queued.applied = false →
    s.StillClears i j nonce

def Ended (env : VerificationEnvironment) (nonce : String) : Prop :=
  s.store.hasConsumedNonce nonce = true ∨ s.Closed env nonce

variable {s} {s' : VerificationSystem} {env : VerificationEnvironment} {i k : Nat} {nonce : String}

theorem Ended.not_backed {c : QrChallenge} (h : s.Ended env c.nonce) : ¬ s.Backed env c := by
  rintro ⟨hheld, hunconsumed, hclear⟩
  rcases h with hconsumed | hclosed
  · rw [hunconsumed] at hconsumed
    cases hconsumed
  · obtain ⟨i, hi, j, queued, -, hget, hclears⟩ := hclosed.held hheld
    rw [hclear i hi queued (mem_of_getElem? hget)] at hclears
    cases hclears

/-! ## 4. Steps that bring nothing new to the store -/

/-- What is queued stays in its place, and only clears come behind it. -/
structure Extends (q q' : List QueuedOp) : Prop where
  kept : ∀ (j : Nat) (queued : QueuedOp), q[j]? = some queued →
    ∃ queued' : QueuedOp, q'[j]? = some queued' ∧ queued'.op = queued.op ∧
      queued'.applied = queued.applied
  new : ∀ (j : Nat) (queued' : QueuedOp), q'[j]? = some queued' →
    (∃ queued : QueuedOp, q[j]? = some queued ∧ queued'.op = queued.op ∧
      queued'.applied = queued.applied ∧ (queued'.result = none → queued.result = none)) ∨
    ∃ nonce, queued'.op = .clear nonce

theorem Extends.refl (q : List QueuedOp) : Extends q q :=
  ⟨fun _ queued hq => ⟨queued, hq, rfl, rfl⟩, fun _ queued hq => .inl ⟨queued, hq, rfl, rfl, id⟩⟩

theorem Extends.clear (q : List QueuedOp) (nonce : String) :
    Extends q (q ++ [⟨.clear nonce, false, none⟩]) where
  kept j queued hq :=
    ⟨queued, by rwa [getElem?_append_left (List.getElem?_eq_some_iff.mp hq).1], rfl, rfl⟩
  new j queued hq := by
    rcases getElem?_concat_cases hq with ⟨-, rfl⟩ | hold
    · exact .inr ⟨nonce, rfl⟩
    · exact (Extends.refl q).new j queued hold

theorem Extends.settle {q : List QueuedOp} {j : Nat} {queued : QueuedOp} (hj : q[j]? = some queued)
    (ok : Bool) : Extends q (q.set j { queued with result := some ok }) where
  kept j' queued' hq := by
    rcases eq_or_ne j' j with rfl | hne
    · cases hj.symm.trans hq
      exact ⟨_, getElem?_set_self (List.getElem?_eq_some_iff.mp hj).1, rfl, rfl⟩
    · exact ⟨queued', by rwa [getElem?_set_ne hne.symm], rfl, rfl⟩
  new j' queued' hq := by
    rcases getElem?_set_cases hq with ⟨rfl, rfl⟩ | ⟨-, hold⟩
    · exact .inl ⟨queued, hj, rfl, rfl, nofun⟩
    · exact (Extends.refl q).new j' queued' hold

/-- Nothing is created or stored; what becomes active is backed; and a creation that ends has its
    answer from the store. -/
structure Calm (env : VerificationEnvironment) (s s' : VerificationSystem) : Prop where
  created : s'.created = s.created
  store : s'.store.activeQrChallenge = s.store.activeQrChallenge
  consumed : ∀ nonce, s.store.hasConsumedNonce nonce = true →
    s'.store.hasConsumedNonce nonce = true ∨ s.Closed env nonce
  creation : ∀ k r, s'.creation k = some r → s.creation k = some r
  ends : ∀ k r, s.creation k = some r → s'.creation k = some r ∨
    ∀ queued, s.op r.workflow r.op = some queued → queued.result ≠ none
  queues : ∀ i, Extends (s.workflows i).challengeStoreQueue (s'.workflows i).challengeStoreQueue
  shown : ∀ i c, s'.active i = some c → s.active i = some c ∧
    (s'.workflows i).challengeEpoch = (s.workflows i).challengeEpoch ∨ s.Backed env c

namespace Calm

section

variable (hc : Calm env s s')
include hc

theorem applied {i j : Nat} (h : s.Applied i j) : s'.Applied i j := by
  obtain ⟨queued, hget, happlied⟩ := (any_eq_true _ _).mp h
  obtain ⟨queued', hget', -, heq⟩ := (hc.queues i).kept j queued hget
  exact (any_eq_true _ _).mpr ⟨queued', hget', heq ▸ happlied⟩

theorem stillClears {i j : Nat} (h : s.StillClears i j nonce) : s'.StillClears i j nonce := by
  obtain ⟨j', queued, hle, hget, hclears⟩ := h
  obtain ⟨queued', hget', hop, happlied⟩ := (hc.queues i).kept j' queued hget
  exact ⟨j', queued', hle, hget', by rwa [QueuedOp.clears, hop, happlied]⟩

theorem closed (h : s.Closed env nonce) : s'.Closed env nonce where
  held heq := by
    obtain ⟨i, hstore, hclears⟩ := h.held (hc.store ▸ heq)
    exact ⟨i, hstore, hc.stillClears hclears⟩
  pending i j queued' c hstore hget hop hnonce hresult happlied := by
    rcases (hc.queues i).new j queued' hget with
      ⟨queued, hold, hop', happlied', hresult'⟩ | ⟨n, hop'⟩
    · exact hc.stillClears (h.pending i j queued c hstore hold (hop' ▸ hop) hnonce
        (hresult' hresult) (happlied' ▸ happlied))
    · rw [hop] at hop'
      cases hop'

theorem ended (h : s.Ended env nonce) : s'.Ended env nonce :=
  (h.elim (hc.consumed nonce) .inr).imp_right hc.closed

theorem traced (hreg : Sound env s) (h : s.Traced env) : s'.Traced env where
  issued k r hr := hc.created ▸ h.issued k r (hc.creation k r hr)
  once k k' r r' hr hr' := h.once k k' r r' (hc.creation k r hr) (hc.creation k' r' hr')
  pending i j queued' c hget hop hresult := by
    rcases (hc.queues i).new j queued' hget with ⟨queued, hold, hop', -, hresult'⟩ | ⟨n, hop'⟩
    · obtain ⟨k, r, hr, rfl, rfl, hchallenge⟩ :=
        h.pending i j queued c hold (hop' ▸ hop) (hresult' hresult)
      exact ⟨k, r, (hc.ends k r hr).resolve_right fun hends => hends queued hold (hresult' hresult),
        rfl, rfl, hchallenge⟩
    · rw [hop] at hop'
      cases hop'
  held c hheld := by
    obtain ⟨hoffers, happlied⟩ := h.held c (hc.store ▸ hheld)
    exact ⟨hoffers, fun k r hr heq => hc.applied (happlied k r (hc.creation k r hr) heq)⟩
  shown i c hactive k r hr heq := by
    have hr := hc.creation k r hr
    rcases hc.shown i c hactive with ⟨hold, hepoch⟩ | hbacked
    · exact (h.shown i c hold k r hr heq).imp (fun hown => ⟨hown.1, hepoch ▸ hown.2⟩) hc.applied
    · obtain ⟨held, hheld, hnonce⟩ := map_eq_some_iff.mp hbacked.1
      have hsame := (hreg.registered.unique (heq ▸ h.issued k r hr)
        (hreg.registered.stored held hheld) (congrArg toLowerCase hnonce.symm)).2
      exact .inr (hc.applied ((h.held held hheld).2 k r hr (heq.trans hsame)))

end

theorem update {w : VerificationWorkflow} (hw : s'.workflows = update s.workflows i w)
    (hcreated : s'.created = s.created) (hstore : s'.store = s.store)
    (hcreation : s'.creation = s.creation)
    (hqueue : Extends (s.workflows i).challengeStoreQueue w.challengeStoreQueue)
    (hshown : ∀ c, w.activeQrChallenge = some c → s.active i = some c ∧
      w.challengeEpoch = (s.workflows i).challengeEpoch ∨ s.Backed env c) : Calm env s s' := by
  refine ⟨hcreated, by rw [hstore], fun _ => hstore ▸ .inl, fun k r hr => hcreation ▸ hr,
    fun k r hr => .inl (hcreation ▸ hr), fun j => ?_, fun j c hc => ?_⟩
  · rw [hw, update_apply]
    split
    · next heq => exact heq ▸ hqueue
    · exact .refl _
  · rw [VerificationSystem.active, hw, update_apply] at hc
    rw [hw, update_apply]
    split at hc
    · next heq => simpa only [heq, if_pos] using hshown c hc
    · next hne => exact .inl ⟨hc, by rw [if_neg hne]⟩

theorem call (hw : s'.workflows = s.workflows) (hcreated : s'.created = s.created)
    (hcreation : s'.creation = s.creation)
    (hstore : s'.store.activeQrChallenge = s.store.activeQrChallenge)
    (hconsumed : ∀ nonce, s.store.hasConsumedNonce nonce = true →
      s'.store.hasConsumedNonce nonce = true ∨ s.Closed env nonce) : Calm env s s' where
  created := hcreated
  store := hstore
  consumed := hconsumed
  creation k r hr := hcreation ▸ hr
  ends k r hr := .inl (hcreation ▸ hr)
  queues i := hw ▸ .refl _
  shown i c hc := .inl ⟨by rwa [VerificationSystem.active, hw] at hc, by rw [hw]⟩

end Calm

theorem creation_set {call call' : CreateCall} (hk : s.creates[k]? = some call)
    (hcreates : s'.creates = s.creates.set k call') :
    s'.creation = update s.creation k call'.creation := by
  funext k'
  rw [creation, hcreates, getElem?_set, update_apply]
  split
  · next heq =>
    rw [if_pos (List.getElem?_eq_some_iff.mp hk).1, if_pos heq.symm]
    rfl
  · next hne => rw [if_neg (Ne.symm hne), creation]

theorem creation_append {call : CreateCall} (hnone : call.creation = none)
    (hcreates : s'.creates = s.creates ++ [call]) : s'.creation = s.creation := by
  funext k
  rw [creation, creation, hcreates]
  rcases Nat.lt_trichotomy k s.creates.length with hlt | heq | hgt
  · rw [getElem?_append_left hlt]
  · simp [heq, hnone]
  · rw [getElem?_eq_none (by simp; omega), getElem?_eq_none (by omega)]

/-- The operation whose turn it is: what is not settled comes behind it. -/
theorem currentOp_eq_some {j : Nat} {queued : QueuedOp}
    (h : (s.workflows i).currentOp = some (j, queued)) :
    s.op i j = some queued ∧ queued.result = none ∧
      ∀ j' queued', s.op i j' = some queued' → queued'.result = none → j ≤ j' := by
  obtain ⟨j₀, hfind, hget⟩ := bind_eq_some_iff.mp h
  obtain ⟨queued₀, hget, heq⟩ := map_eq_some_iff.mp hget
  cases heq
  obtain ⟨hj, hnone, hbefore⟩ := findIdx?_eq_some_iff_getElem.mp hfind
  rw [← Option.some.inj ((List.getElem?_eq_getElem hj).symm.trans hget)]
  refine ⟨List.getElem?_eq_getElem hj, by simpa using hnone, fun j' queued' hget' hresult => ?_⟩
  by_contra hlt
  obtain ⟨hj', rfl⟩ := List.getElem?_eq_some_iff.mp hget'
  exact absurd (hbefore j' (by omega)) (by simp [hresult])

theorem acceptInMemory_epoch {w : VerificationWorkflow} {localDid : Did}
    {payload : AttestationVcPayload} {now : Nat} :
    (acceptInMemory w localDid payload now).2.challengeEpoch = w.challengeEpoch := by
  rw [acceptInMemory]
  dsimp only
  split <;> rfl

theorem calm_acceptResumes {call : AcceptCall} {stage : AcceptStage}
    (hs : acceptResumes s k call stage = some s') : Calm env s s' := by
  cases stage with
  | consumed epoch nonce consumed =>
    rw [acceptResumes] at hs
    split at hs <;> cases hs
    · refine .update rfl rfl rfl rfl ?_ fun c hc => ?_
      all_goals simp only [commitAndAdvanceChallengeState] at *
      · split <;> exact .refl _
      · split at hc
        · next hother => exact .inl ⟨hc, by rw [if_pos hother]⟩
        · cases hc
    · exact .call rfl rfl rfl rfl fun _ => .inl
  | recorded nonce =>
    cases hs
    exact .update rfl rfl rfl rfl (.clear _ _) fun _ hc => .inl ⟨hc, rfl⟩
  | _ =>
    simp only [acceptResumes] at hs
    repeat' split at hs
    all_goals cases hs
    all_goals exact .call rfl rfl rfl rfl fun _ => .inl

/-- A pruning takes a nonce from the store only if its challenge is closed. -/
theorem Traced.closed_of_pruned (h : s.Traced env) (hsound : Sound env s) {call : AcceptCall}
    (hk : s.accepts[k]? = some call) (hstage : call.stage = .pruning)
    (hlook : s.SecondLook env (.acceptStores k)) {cutoff : Nat}
    (hcutoff : cutoff = wholeSecond (call.now - CONSUMED_NONCE_RETENTION_MS))
    (hconsumed : s.store.hasConsumedNonce nonce = true) :
    (s.store.pruneConsumedNonces cutoff).hasConsumedNonce nonce = true ∨ s.Closed env nonce := by
  subst hcutoff
  obtain ⟨row, hrow, hkey⟩ := has_iff.mp hconsumed
  by_cases hold : row.consumedAt < wholeSecond (call.now - CONSUMED_NONCE_RETENTION_MS)
  · obtain ⟨hheld, hcreates⟩ := hlook call hk hstage row hrow hold
    refine .inr ⟨fun heq => ?_, fun i j queued c _ hget hop hc hresult _ => ?_⟩
    · obtain ⟨held, hactive, rfl⟩ := map_eq_some_iff.mp heq
      have hlower := hsound.registered.lower _ (hsound.registered.stored held hactive)
      exact absurd (heq.trans (congrArg some (hlower.symm.trans hkey.symm))) hheld
    · obtain ⟨k', r, hr, -, -, rfl⟩ := h.pending i j queued c hget hop hresult
      obtain ⟨create, hcreate, hr'⟩ := bind_eq_some_iff.mp hr
      have hlower := hsound.registered.lower _ (h.issued k' r hr)
      exact absurd (hlower.symm.trans (by rw [hc, hkey]))
        (hcreates create (mem_of_getElem? hcreate) r hr')
  · exact .inl (has_iff.mpr ⟨row, mem_rows_filter.mpr ⟨hrow, by simpa using hold⟩, hkey⟩)

theorem tryConsumeNonce_spec (store : VerificationStateStore) (consumedAt : Nat) :
    (store.tryConsumeNonce nonce consumedAt).2.activeQrChallenge = store.activeQrChallenge ∧
    (store.tryConsumeNonce nonce consumedAt).2.hasConsumedNonce nonce = true ∧
    ∀ nonce', store.hasConsumedNonce nonce' = true →
      (store.tryConsumeNonce nonce consumedAt).2.hasConsumedNonce nonce' = true := by
  rw [VerificationStateStore.tryConsumeNonce]
  split
  · next hhas => exact ⟨rfl, hhas, fun _ => id⟩
  refine ⟨rfl, ?_, fun nonce' hhas => ?_⟩
  all_goals simp only [VerificationStateStore.hasConsumedNonce, KeyedTable.has, get?_put] at *
  · simp
  · split
    · rfl
    · exact hhas

theorem Traced.calm (h : s.Traced env) (hsound : Sound env s) {input : Input}
    (hlook : s.SecondLook env input) (hkeyed : ∀ k enc nonce, input ≠ .createKeyed k enc nonce)
    (hcreate : ∀ k, input ≠ .createResumes k) (happly : ∀ i, input ≠ .opApplies i)
    (hs : step env s input = some s') : Calm env s s' := by
  cases input with
  | createKeyed k enc nonce => exact absurd rfl (hkeyed k enc nonce)
  | createResumes k => exact absurd rfl (hcreate k)
  | opApplies i => exact absurd rfl (happly i)
  | tick _ | restore _ =>
    cases hs
    exact .call rfl rfl rfl rfl fun _ => .inl
  | create i did name broker =>
    cases hs
    exact .call rfl rfl (creation_append rfl rfl) rfl fun _ => .inl
  | createKeyFails k =>
    obtain ⟨call, hk, hs⟩ := bind_eq_some_iff.mp hs
    split at hs <;> cases hs
    next hstage =>
    refine .call rfl rfl ?_ rfl fun _ => .inl
    rw [creation_set hk rfl, update_eq_self_iff, creation, hk, bind_some]
    rw [CreateCall.creation, CreateCall.creation, hstage]
  | opSettles i ok =>
    obtain ⟨⟨j, queued⟩, hcurrent, hs⟩ := bind_eq_some_iff.mp hs
    dsimp only at hs
    split at hs
    all_goals split at hs <;> cases hs
    all_goals
      refine .update rfl rfl rfl rfl ?_ fun _ hc => .inl ⟨hc, rfl⟩
      exact .settle (currentOp_eq_some hcurrent).1 _
  | restoreResumes k =>
    obtain ⟨⟨i, stage⟩, hk, hs⟩ := bind_eq_some_iff.mp hs
    cases stage with
    | answered epoch stored =>
      simp only [restoreResumes] at hs
      split at hs
      · cases hs
        exact .call rfl rfl rfl rfl fun _ => .inl
      next parsed hparsed =>
      split at hs <;> cases hs
      · exact .call rfl rfl rfl rfl fun _ => .inl
      next hsame =>
      obtain ⟨c, rfl, hparse⟩ := bind_eq_some_iff.mp hparsed
      obtain ⟨rfl, -⟩ := parseQrChallenge_eq_some hparse
      have hback := hlook _ hk (epoch, parsed) rfl (not_not.mp hsame)
      refine .update rfl rfl rfl rfl ?_ fun c hc => ?_
      all_goals simp only [commitChallengeState, if_neg hsame] at *
      · exact .refl _
      · cases hc
        exact .inr hback
    | _ =>
      simp only [restoreResumes] at hs
      repeat' split at hs
      all_goals cases hs
      all_goals exact .call rfl rfl rfl rfl fun _ => .inl
  | acceptResumes k =>
    obtain ⟨call, -, hs⟩ := bind_eq_some_iff.mp hs
    exact calm_acceptResumes hs
  | acceptStores k =>
    obtain ⟨call, hk, hs⟩ := bind_eq_some_iff.mp hs
    cases hstage : call.stage <;> rw [hstage] at hs <;> cases hs
    · exact .call rfl rfl rfl rfl fun _ => h.closed_of_pruned hsound hk hstage hlook rfl
    · exact .call rfl rfl rfl rfl fun _ => .inl
    · have hspec := @tryConsumeNonce_spec
      exact .call rfl rfl rfl (hspec _ _).1 fun nonce hhas => .inl ((hspec _ _).2.2 nonce hhas)
    · exact .call rfl rfl rfl rfl fun _ => .inl
  | restoreStores k | restoreStoreFails k | acceptStoreFails k =>
    obtain ⟨call, -, hs⟩ := bind_eq_some_iff.mp hs
    cases hstage : call.stage <;> rw [hstage] at hs
    all_goals simp only [restoreStores, restoreStoreFails, acceptStoreFails] at hs
    all_goals repeat' split at hs
    all_goals cases hs
    all_goals exact .call rfl rfl rfl rfl fun _ => .inl
  | accept i localDid payload =>
    cases hs
    rw [acceptVerifiedVerificationAttestation]
    split
    · exact .call rfl rfl rfl rfl fun _ => .inl
    · exact .update rfl rfl rfl rfl (acceptInMemory_queue ▸ .refl _)
        fun _ hc => .inl ⟨acceptInMemory_active hc, acceptInMemory_epoch⟩
  | reset i =>
    cases hs
    refine .update rfl rfl rfl rfl ?_ fun c hc => ?_
    · rw [resetActiveQrChallenge]
      split
      · exact .refl _
      · exact .clear _ _
    · rw [resetActiveQrChallenge] at hc
      split at hc <;> cases hc

/-! ## 5. Steps that do -/

/-- A creation that fails leaves its challenge active nowhere but where it is overtaken. -/
theorem calm_createResumes (hlook : s.SecondLook env (.createResumes k))
    (hs : step env s (.createResumes k) = some s') : Calm env s s' ∧
      ∀ r ∈ s.refusal k, ∀ j c, s'.active j = some c → s.Backed env c ∨ s.active j = some c ∧
        ¬ (r.workflow = j ∧ r.epoch = (s.workflows j).challengeEpoch) := by
  obtain ⟨⟨i, stage⟩, hk, hs⟩ := bind_eq_some_iff.mp hs
  cases stage with
  | persisting epoch previous challenge op =>
    obtain ⟨ok, hresult, rfl⟩ := map_eq_some_iff.mp hs
    have hr : s.creation k = some ⟨i, epoch, previous, challenge, op⟩ := by
      rw [creation, hk]
      rfl
    have hends : ∀ {s₁ : VerificationSystem} {stage : CreateStage}, Calm env s s₁ →
        s₁.creates = s.creates → CreateCall.creation ⟨i, stage⟩ = none →
        Calm env s (s₁.setCreate k ⟨i, .persisting epoch previous challenge op⟩ stage) := by
      intro s₁ stage hcalm hcreates hnone
      have hcreation :
          (s₁.setCreate k ⟨i, .persisting epoch previous challenge op⟩ stage).creation =
            update s.creation k none := by
        rw [creation_set hk (by rw [← hcreates]; rfl), hnone]
      refine { hcalm with creation := fun k' r hr' => ?_, ends := fun k' r hr' => ?_ }
      · rw [hcreation, update_apply] at hr'
        split at hr'
        · cases hr'
        · exact hr'
      · rw [hcreation, update_apply]
        split
        · next heq =>
          subst heq
          cases hr.symm.trans hr'
          refine .inr fun queued hget hnone => ?_
          rw [show (s.workflows i).challengeStoreQueue[op]? = some queued from hget, bind_some,
            hnone] at hresult
          cases hresult
        · exact .inl hr'
    have hresult : (s.op i op).bind QueuedOp.result = some ok := hresult
    cases ok with
    | true =>
      have hrefusal : s.refusal k = none := by simp [refusal, hr, hresult]
      exact ⟨hends (.call rfl rfl rfl rfl fun _ => .inl) rfl rfl, by simp [hrefusal]⟩
    | false =>
      have hrefusal : s.refusal k = some ⟨i, epoch, previous, challenge, op⟩ := by
        simp [refusal, hr, hresult]
      have hback := (hlook _ hrefusal).2
      refine ⟨hends (.update rfl rfl rfl rfl ?_ fun c hc => ?_) rfl rfl, fun r hmem j c hc => ?_⟩
      · simp only [commitChallengeState]
        split <;> exact .refl _
      · simp only [commitChallengeState] at *
        split at hc
        · next hother => exact .inl ⟨hc, by rw [if_pos hother]⟩
        · next hsame => exact .inr (hback (not_not.mp hsame) c hc)
      · cases hrefusal.symm.trans hmem
        simp only [VerificationSystem.active, setCreate, onWorkflow, update_apply,
          commitChallengeState] at hc
        split at hc
        · next heq =>
          subst heq
          split at hc
          · next hother => exact .inr ⟨hc, fun hown => hother hown.2⟩
          · next hsame => exact .inl (hback (not_not.mp hsame) c hc)
        · next hne => exact .inr ⟨hc, fun hown => hne hown.1.symm⟩
  | _ => cases hs

theorem op_concat {w : VerificationWorkflow} {last : QueuedOp}
    (hw : s'.workflows = update s.workflows i w)
    (hqueue : w.challengeStoreQueue = (s.workflows i).challengeStoreQueue ++ [last])
    (i' j : Nat) (queued : QueuedOp) : s'.op i' j = some queued ↔ s.op i' j = some queued ∨
      i' = i ∧ j = (s.workflows i).challengeStoreQueue.length ∧ queued = last := by
  rw [VerificationSystem.op, hw, update_apply, VerificationSystem.op]
  split
  · next heq =>
    subst heq
    rw [hqueue]
    refine ⟨fun hget => (getElem?_concat_cases hget).symm.imp_right fun hlast => ⟨rfl, hlast⟩, ?_⟩
    rintro (hold | ⟨-, rfl, rfl⟩)
    · exact (getElem?_append_left (List.getElem?_eq_some_iff.mp hold).1).trans hold
    · exact getElem?_concat_length
  · next hne => exact ⟨.inl, fun hget => hget.resolve_right fun hlast => hne hlast.1⟩

theorem op_set {w : VerificationWorkflow} {j : Nat} {queued queued' : QueuedOp}
    (hw : s'.workflows = update s.workflows i w)
    (hqueue : w.challengeStoreQueue = (s.workflows i).challengeStoreQueue.set j queued')
    (hget : s.op i j = some queued) (i' j' : Nat) (q : QueuedOp) : s'.op i' j' = some q ↔
      i' = i ∧ j' = j ∧ q = queued' ∨ ¬ (i' = i ∧ j' = j) ∧ s.op i' j' = some q := by
  rw [VerificationSystem.op, hw, update_apply, VerificationSystem.op]
  have hlt := (List.getElem?_eq_some_iff.mp hget).1
  split
  · next heq =>
    subst heq
    rw [hqueue, getElem?_set]
    grind
  · grind

theorem activeQrChallenge_applyOp {store : VerificationStateStore} {op : ChallengeStoreOp}
    {c : QrChallenge} (hc : (applyOp env i store op).activeQrChallenge = some c) :
    op = .record c ∧ env.offers i op = true ∨ store.activeQrChallenge = some c ∧
      (env.offers i op = true → op ≠ .clear c.nonce) := by
  unfold applyOp at hc
  split at hc
  · next hoffers =>
    cases op with
    | record recorded =>
      cases hc
      exact .inl ⟨rfl, hoffers⟩
    | clear n =>
      simp only [VerificationStateStore.clearActiveQrChallenge] at hc
      split at hc
      · next hne =>
        refine .inr ⟨hc, fun _ heq => hne ?_⟩
        cases heq
        exact congrArg (Option.map QrChallenge.nonce) hc
      · cases hc
  · next hoffers => exact .inr ⟨hc, fun h => absurd h hoffers⟩

/-- A new challenge is shown by its creation, and its record comes last in the queue. -/
theorem Traced.createKeyed (h : s.Traced env) (hsound : Sound env s) {call : CreateCall}
    (hk : s.creates[k]? = some call) (hnone : call.creation = none) {did : Did} {name enc : String}
    {broker : Option String} (hfresh : ∀ entry ∈ s.created, entry.2.nonce ≠ nonce)
    (hs : createKeyed env s k call did name broker enc nonce = s') :
    s'.Traced env ∧ (∀ n, n ≠ nonce → s.Ended env n → s'.Ended env n) ∧
      ∀ i c, s'.active i = some c → s.active i = some c ∨ c.nonce = nonce := by
  have hfree : s.creation k = none := by rw [creation, hk, bind_some, hnone]
  rw [VerificationSystem.createKeyed] at hs
  split at hs
  · have hc : Calm env s s' := by
      refine hs ▸ .call rfl rfl ?_ rfl fun _ => .inl
      rw [creation_set hk rfl, update_eq_self_iff, hfree]
      rfl
    exact ⟨hc.traced hsound h, fun n _ => hc.ended,
      fun i c hactive => .inl (by rwa [← hs] at hactive)⟩
  next parsed hparsed =>
  obtain ⟨rfl, -⟩ := parseQrChallenge_eq_some hparsed
  generalize hC : (⟨did, name, enc, nonce, s.clock, broker⟩ : QrChallenge) = C at hs
  have hnonce : C.nonce = nonce := by rw [← hC]
  have hw := congrArg VerificationSystem.workflows hs
  have hop := op_concat hw.symm rfl
  have hcreation : ∀ k', s'.creation k' = if k' = k then some ⟨call.workflow,
      (s.workflows call.workflow).challengeEpoch + 1, s.active call.workflow, C,
      (s.workflows call.workflow).challengeStoreQueue.length⟩ else s.creation k' := by
    intro k'
    rw [← update_apply, ← hs, creation_set (s := s) hk rfl]
    rfl
  have hstore : s'.store = s.store := by rw [← hs]; rfl
  have hcreated : s'.created = s.created ++ [(env.origin call.workflow, C)] := by rw [← hs]; rfl
  have hshown : ∀ i c, s'.active i = some c →
      i = call.workflow ∧ c = C ∧ (s'.workflows i).challengeEpoch =
        (s.workflows i).challengeEpoch + 1 ∨
      s.active i = some c ∧ (s'.workflows i).challengeEpoch = (s.workflows i).challengeEpoch := by
    intro i c hc
    rw [VerificationSystem.active, ← hw] at hc
    rw [← hw]
    simp only [VerificationSystem.setCreate, onWorkflow, update_apply] at hc ⊢
    split at hc
    · next heq => exact .inl ⟨heq, (some.inj hc).symm, by rw [if_pos heq, heq]; rfl⟩
    · next hne => exact .inr ⟨hc, by rw [if_neg hne]⟩
  clear hs hw hC hparsed
  have happlied : ∀ i j, s.Applied i j → s'.Applied i j := by
    intro i j ha
    obtain ⟨queued, hget, ha⟩ := (any_eq_true _ _).mp ha
    exact (any_eq_true _ _).mpr ⟨queued, (hop i j queued).mpr (.inl hget), ha⟩
  have hclears : ∀ i j n, s.StillClears i j n → s'.StillClears i j n := by
    rintro i j n ⟨j', queued, hle, hget, hclears⟩
    exact ⟨j', queued, hle, (hop i j' queued).mpr (.inl hget), hclears⟩
  have hother : ∀ o, (o, C) ∉ s.created := fun o hc => hfresh _ hc hnonce
  have hissued := h.issued
  refine ⟨⟨by grind, ?_, ?_, ?_, ?_⟩, ?_, ?_⟩
  · have := h.once
    grind
  · have := h.pending
    grind
  · have := h.held
    have := hsound.registered.stored
    grind
  · have := h.shown
    have := fun i => (hsound.registered.workflow i).active
    grind [VerificationSystem.active]
  · rintro n hn (hconsumed | hclosed)
    · exact .inl (hstore ▸ hconsumed)
    · refine .inr ⟨fun heq => ?_, fun i j queued c hi hget hrecord hc hresult ha => ?_⟩
      · obtain ⟨i, hi, hstill⟩ := hclosed.held (hstore ▸ heq)
        exact ⟨i, hi, hclears i 0 n hstill⟩
      · rcases (hop i j queued).mp hget with hold | ⟨-, -, rfl⟩
        · exact hclears i j n (hclosed.pending i j queued c hi hold hrecord hc hresult ha)
        · cases hrecord
          exact absurd (hc.symm.trans hnonce) hn
  · exact fun i c hc => (hshown i c hc).symm.imp (fun hold => hold.1) fun hnew => by
      rw [hnew.2.1, hnonce]

/-- A record that reaches the store has every clear of a spent challenge behind it; and a clear
    takes from the store what it is a clear of. -/
theorem Traced.opApplies (h : s.Traced env)
    (henv : env.recordsActiveQrChallenge = true → env.clearsActiveQrChallenge = true)
    (hs : opApplies env s i = some s') :
    s'.Traced env ∧ (∀ n, s.Ended env n → s'.Ended env n) ∧ ∀ i', s'.active i' = s.active i' := by
  obtain ⟨⟨j, queued⟩, hcurrent, hs⟩ := bind_eq_some_iff.mp hs
  obtain ⟨hget, hresult, hturn⟩ := currentOp_eq_some hcurrent
  dsimp only at hs
  split at hs <;> cases hs
  next happlied =>
  have happlied : queued.applied = false := by simpa using happlied
  generalize hs' : ({ s.onWorkflow i _ with store := _ } : VerificationSystem) = s'
  have hw := congrArg VerificationSystem.workflows hs'
  have hcreation : ∀ k, s'.creation k = s.creation k := fun k => by rw [← hs']; rfl
  have hcreated : s'.created = s.created := by rw [← hs']; rfl
  have hconsumed : s'.store.consumedNonces = s.store.consumedNonces := by
    rw [← hs']
    exact consumedNonces_applyOp i s.store queued.op
  have hshown : ∀ i', s'.active i' = s.active i' ∧
      (s'.workflows i').challengeEpoch = (s.workflows i').challengeEpoch := by
    intro i'
    rw [VerificationSystem.active, ← hw]
    simp only [onWorkflow, update_apply]
    split
    · next heq => exact heq ▸ ⟨rfl, rfl⟩
    · exact ⟨rfl, rfl⟩
  have hop := op_set hw.symm rfl hget
  have hstored := fun c (hc : s'.store.activeQrChallenge = some c) => activeQrChallenge_applyOp
    (show (applyOp env i s.store queued.op).activeQrChallenge = some c by rwa [← hs'] at hc)
  clear hs' hw
  have hoffers : ∀ c, queued.op = .record c → env.offers i queued.op = true →
      env.stateStore i = true ∧ env.recordsActiveQrChallenge = true := by
    intro c hrecord ho
    rwa [hrecord, offers, Bool.and_eq_true] at ho
  have hmade : s'.Applied i j :=
    (any_eq_true _ _).mpr ⟨_, (hop i j _).mpr (.inl ⟨rfl, rfl, rfl⟩), rfl⟩
  have hstays : ∀ i' j', s.Applied i' j' → s'.Applied i' j' := by
    intro i' j' ha
    by_cases hsame : i' = i ∧ j' = j
    · exact hsame.1 ▸ hsame.2 ▸ hmade
    · obtain ⟨q, hq, ha⟩ := (any_eq_true _ _).mp ha
      exact (any_eq_true _ _).mpr ⟨q, (hop i' j' q).mpr (.inr ⟨hsame, hq⟩), ha⟩
  have hissued := h.issued
  have hpending := h.pending
  have hheld := h.held
  refine ⟨⟨by grind, ?_, by grind, ?_, ?_⟩, ?_, fun i' => (hshown i').1⟩
  · have := h.once
    grind
  · have := h.once
    grind
  · have := h.shown
    grind
  rintro n (hknown | hclosed)
  · left
    rwa [VerificationStateStore.hasConsumedNonce, hconsumed]
  -- A clear stays, unless it is the one that is applied.
  have hstill : ∀ i' j', s.StillClears i' j' n → (i' = i → j' ≤ j → queued.op ≠ .clear n) →
      s'.StillClears i' j' n := by
    rintro i' j' ⟨j'', q, hle, hq, hclears⟩ hother
    refine ⟨j'', q, hle, (hop i' j'' q).mpr (.inr ⟨?_, hq⟩), hclears⟩
    rintro ⟨rfl, rfl⟩
    cases hq.symm.trans hget
    exact hother rfl hle (QueuedOp.clears_iff.mp hclears).1
  refine .inr ⟨fun heq => ?_, fun i' j' q c hi hq hrecord hc hnone ha => ?_⟩
  · obtain ⟨c, hc, rfl⟩ := map_eq_some_iff.mp heq
    rcases hstored c hc with ⟨hrecord, ho⟩ | ⟨hold, hother⟩
    · have hi := (hoffers c hrecord ho).1
      obtain ⟨j'', q, -, hrest⟩ := hstill i j
        (hclosed.pending i j queued c hi hget hrecord rfl hresult happlied) (by simp [hrecord])
      exact ⟨i, hi, j'', q, Nat.zero_le _, hrest⟩
    · obtain ⟨i', hi, hclears⟩ := hclosed.held (by rw [hold]; rfl)
      refine ⟨i', hi, hstill i' 0 hclears fun heq _ hclear => hother ?_ hclear⟩
      rw [hclear, offers, ← heq, hi, henv (hheld c hold).1]
      rfl
  · rcases (hop i' j' q).mp hq with ⟨-, -, rfl⟩ | ⟨hne, hold⟩
    · cases ha
    · refine hstill i' j' (hclosed.pending i' j' q c hi hold hrecord hc hnone ha) ?_
      rintro rfl hle -
      exact hne ⟨rfl, Nat.le_antisymm hle (hturn j' q hold hnone)⟩

/-! ## 6. What is spent is ended -/

theorem closed_of_origin (hsound : Sound env s) {c : QrChallenge} (hi : env.stateStore i = false)
    (hc : (env.origin i, c) ∈ s.created) : s.Closed env c.nonce where
  held heq := by
    obtain ⟨held, hheld, hnonce⟩ := map_eq_some_iff.mp heq
    have horigin := (hsound.registered.unique hc (hsound.registered.stored held hheld)
      (congrArg toLowerCase hnonce.symm)).1
    simp [origin, hi] at horigin
  pending i' j queued c' hi' hget hrecord hnonce _ _ := by
    have horigin := (hsound.registered.unique hc
      ((hsound.registered.workflow i').queued queued (mem_of_getElem? hget) c' hrecord)
      (congrArg toLowerCase hnonce.symm)).1
    simp [origin, hi, hi'] at horigin

/-- The clear of a reset comes behind the record of the challenge, which only its own instance
    shows as long as the record is still to come. -/
theorem Traced.ended_of_reset (h : s.Traced env) (hsound : Sound env s) {c : QrChallenge}
    (hi : env.stateStore i = true) (hactive : s.active i = some c)
    (hs : s.onWorkflow i resetActiveQrChallenge = s') : s'.Ended env c.nonce := by
  have hqueue : ((s.workflows i).resetActiveQrChallenge).challengeStoreQueue =
      (s.workflows i).challengeStoreQueue ++ [⟨.clear c.nonce, false, none⟩] := by
    rw [resetActiveQrChallenge, show (s.workflows i).activeQrChallenge = some c from hactive]
    rfl
  have hop := op_concat (congrArg VerificationSystem.workflows hs).symm hqueue
  have hlast := (hop i _ _).mpr (.inr ⟨rfl, rfl, rfl⟩)
  have hclears : QueuedOp.clears ⟨.clear c.nonce, false, none⟩ c.nonce = true :=
    QueuedOp.clears_iff.mpr ⟨rfl, rfl⟩
  refine .inr ⟨fun _ => ⟨i, hi, _, _, Nat.zero_le _, hlast, hclears⟩, ?_⟩
  intro i' j queued c' hi' hget hrecord hnonce hresult happlied
  rcases (hop i' j queued).mp hget with hold | ⟨-, -, rfl⟩
  · obtain ⟨k, r, hr, rfl, rfl, rfl⟩ := h.pending i' j queued c' hold hrecord hresult
    have hsame := (hsound.registered.unique (h.issued k r hr)
      ((hsound.registered.workflow i).active c hactive) (congrArg toLowerCase hnonce)).2
    rcases h.shown i c hactive k r hr hsame with ⟨hown, -⟩ | hmade
    · rw [hown] at hold ⊢
      exact ⟨_, _, Nat.le_of_lt (List.getElem?_eq_some_iff.mp hold).1, hlast, hclears⟩
    · simp [Applied, hold, happlied] at hmade
  · cases hrecord

theorem Traced.ended_of_spends (h : s.Traced env) (hsound : Sound env s) {input : Input}
    (hlook : s.SecondLook env input) (hs : step env s input = some s')
    (hn : nonce ∈ s.spends env input) : s'.Ended env nonce := by
  cases input with
  | reset i =>
    obtain ⟨c, hactive, rfl⟩ := map_eq_some_iff.mp (mem_toList.mp hn)
    cases hi : env.stateStore i with
    | true => exact h.ended_of_reset hsound hi hactive (some.inj hs)
    | false =>
      exact .inr ((h.calm hsound hlook (by simp) (by simp) (by simp) hs).closed
        (closed_of_origin hsound hi ((hsound.registered.workflow i).active c hactive)))
  | accept i localDid payload =>
    rw [spends] at hn
    split at hn
    · cases hn
    next hi =>
    split at hn
    · next accepted haccept =>
      cases mem_singleton.mp hn
      have hactive := (hsound.registered.workflow i).active
      have hlower : ∀ c, (s.workflows i).activeQrChallenge = some c →
          toLowerCase c.nonce = c.nonce := fun c hc => hsound.registered.lower (_, c) (hactive c hc)
      obtain ⟨⟨c, hc, rfl, -⟩, -⟩ := acceptInMemory_accept hlower haccept
      rw [hlower c hc]
      exact .inr ((h.calm hsound hlook (by simp) (by simp) (by simp) hs).closed
        (closed_of_origin hsound (by simpa using hi) (hactive c hc)))
    · cases hn
  | acceptStores k =>
    obtain ⟨call, hk, hs⟩ := bind_eq_some_iff.mp hs
    rw [spends, hk, map_some] at hn
    split at hn
    · next hstage =>
      rw [some.inj hstage] at hs
      cases hs
      split at hn
      · cases hn
      · cases mem_singleton.mp hn
        exact .inl (tryConsumeNonce_spec _ _).2.1
    · cases hn
  | _ => cases hn

/-- The challenge of a creation that fails is not in the store, and shown by nobody else. -/
theorem Traced.fails (h : s.Traced env) (hsound : Sound env s)
    (hlook : s.SecondLook env (.createResumes k)) {r : Creation} (hr : s.refusal k = some r) :
    s.Closed env r.challenge.nonce ∧ ∀ c, c.nonce = r.challenge.nonce → ¬ s.Backed env c ∧
      ∀ i, s.active i = some c → r.workflow = i ∧ r.epoch = (s.workflows i).challengeEpoch := by
  have hunmade : ¬ s.Applied r.workflow r.op := by simp [Applied, (hlook r hr).1]
  obtain ⟨hr, hresult⟩ := filter_eq_some_iff.mp hr
  have hsame : ∀ o c, (o, c) ∈ s.created → c.nonce = r.challenge.nonce → r.challenge = c :=
    fun o c hc hnonce => (hsound.registered.unique (h.issued k r hr) hc
      (congrArg toLowerCase hnonce.symm)).2
  have hheld : s.store.activeQrChallenge.map QrChallenge.nonce ≠ some r.challenge.nonce := by
    intro heq
    obtain ⟨held, hheld, hnonce⟩ := map_eq_some_iff.mp heq
    exact hunmade ((h.held held hheld).2 k r hr
      (hsame _ held (hsound.registered.stored held hheld) hnonce))
  refine ⟨⟨fun heq => absurd heq hheld, fun i j queued c _ hget hrecord hnonce hnone _ => ?_⟩,
    fun c hnonce => ⟨fun hbacked => hheld (hnonce ▸ hbacked.1), fun i hactive => ?_⟩⟩
  · obtain ⟨k', r', hr', rfl, rfl, rfl⟩ := h.pending i j queued c hget hrecord hnone
    cases h.once k k' r r' hr hr' (hsame _ _ (h.issued k' r' hr') hnonce)
    cases hr.symm.trans hr'
    simp [hget, hnone] at hresult
  · have heq := hsame _ c ((hsound.registered.workflow i).active c hactive) hnonce
    exact (h.shown i c hactive k r hr heq).resolve_right hunmade

end VerificationSystem

/-! ## 7. Runs -/

/-- The system, with the nonces that are spent and those whose creation has reported failure. -/
structure ChallengeHistory where
  system : VerificationSystem
  spent : List String
  failed : List String

namespace ChallengeHistory

open VerificationSystem

variable {env : VerificationEnvironment} {h h' : ChallengeHistory} {input : Input}

def start (clock : Nat) : ChallengeHistory := ⟨VerificationSystem.start clock, [], []⟩

def step (env : VerificationEnvironment) (h : ChallengeHistory) (input : Input) :
    Option ChallengeHistory :=
  (VerificationSystem.step env h.system input).map fun s =>
    { system := s
      spent := h.spent ++ h.system.spends env input
      failed := h.failed ++ (h.system.fails input).toList }

def Dead (h : ChallengeHistory) (nonce : String) : Prop := nonce ∈ h.spent ∨ nonce ∈ h.failed

/-- A spent challenge does not become active, and no failed one is active. -/
structure Kept (h h' : ChallengeHistory) : Prop where
  again : ∀ i challenge, h'.system.active i = some challenge → challenge.nonce ∈ h.spent →
    h.system.active i = some challenge
  failed : ∀ i challenge, h'.system.active i = some challenge → challenge.nonce ∉ h'.failed

def newNonce : Input → Option String
  | .createKeyed _ _ nonce => some nonce
  | _ => none

/-- `crypto.randomUUID` gives no nonce that was there before. -/
def FreshNonce (h : ChallengeHistory) (input : Input) : Prop :=
  h.system.FreshNonce input ∧ ∀ nonce ∈ newNonce input, nonce ∉ h.spent ∧ nonce ∉ h.failed

/-- A nonce is new, none is pruned under its acceptance, and the store is as the commits take it
    to be. -/
def Admitted (env : VerificationEnvironment) (h : ChallengeHistory) (input : Input) : Prop :=
  FreshNonce h input ∧ h.system.NoPruneUnderAccept input ∧ h.system.SecondLook env input

structure HistoryInv (env : VerificationEnvironment) (h : ChallengeHistory) : Prop where
  sound : Sound env h.system
  traced : h.system.Traced env
  ended : ∀ nonce, h.Dead nonce → h.system.Ended env nonce
  fine : ∀ i c, h.system.active i = some c → c.nonce ∉ h.failed

theorem HistoryInv.start (clock : Nat) : HistoryInv env (start clock) := by
  refine ⟨.start clock, ?_, nofun, nofun⟩
  constructor <;> intros <;> simp_all [ChallengeHistory.start, VerificationSystem.start, creation,
    VerificationSystem.op, active, fresh]

theorem HistoryInv.step
    (henv : env.recordsActiveQrChallenge = true → env.clearsActiveQrChallenge = true)
    (hi : HistoryInv env h) (hadm : Admitted env h input) (hs : step env h input = some h') :
    HistoryInv env h' ∧ Kept h h' := by
  obtain ⟨s', hstep, rfl⟩ := map_eq_some_iff.mp hs
  have hbacked : ∀ {c}, h.system.Backed env c → ¬ h.Dead c.nonce :=
    fun hback hdead => (hi.ended _ hdead).not_backed hback
  have hfacts : s'.Traced env ∧ (∀ n, h.Dead n ∨ h.system.fails input = some n → s'.Ended env n) ∧
      ∀ i c, s'.active i = some c → (h.system.active i = some c ∨ ¬ h.Dead c.nonce) ∧
        h.system.fails input ≠ some c.nonce := by
    cases input with
    | createKeyed k enc nonce =>
      obtain ⟨call, hk, hstep⟩ := bind_eq_some_iff.mp hstep
      split at hstep <;> cases hstep
      next hstage =>
      obtain ⟨hfresh, hdead⟩ := hadm.1
      obtain ⟨htraced, hended, hshown⟩ := hi.traced.createKeyed hi.sound hk
        (by rw [CreateCall.creation, hstage]) hfresh rfl
      have hnew : ¬ h.Dead nonce := not_or.mpr (hdead nonce rfl)
      refine ⟨htraced, fun n hn => ?_, fun i c hc => ⟨(hshown i c hc).imp_right ?_, nofun⟩⟩
      · have hdead := hn.resolve_right nofun
        exact hended n (fun heq => hnew (heq ▸ hdead)) (hi.ended n hdead)
      · exact fun heq => heq ▸ hnew
    | createResumes k =>
      obtain ⟨hc, hshown⟩ := calm_createResumes hadm.2.2 hstep
      refine ⟨hc.traced hi.sound hi.traced, fun n hn => ?_,
        fun i c hactive => ⟨?_, fun hfails => ?_⟩⟩
      · rcases hn with hdead | hfails
        · exact hc.ended (hi.ended n hdead)
        · obtain ⟨r, hr, rfl⟩ := map_eq_some_iff.mp hfails
          exact hc.ended (.inr (hi.traced.fails hi.sound hadm.2.2 hr).1)
      · exact (hc.shown i c hactive).imp And.left hbacked
      · obtain ⟨r, hr, hnonce⟩ := map_eq_some_iff.mp hfails
        obtain ⟨hunbacked, hown⟩ := (hi.traced.fails hi.sound hadm.2.2 hr).2 c hnonce.symm
        rcases hshown r hr i c hactive with hback | ⟨hold, hovertaken⟩
        · exact hunbacked hback
        · exact hovertaken (hown i hold)
    | opApplies i =>
      obtain ⟨htraced, hended, hactive⟩ := hi.traced.opApplies henv hstep
      exact ⟨htraced, fun n hn => hended n (hi.ended n (hn.resolve_right nofun)),
        fun j c hc => ⟨.inl (hactive j ▸ hc), nofun⟩⟩
    | _ =>
      have hc := hi.traced.calm hi.sound hadm.2.2 (by simp) (by simp) (by simp) hstep
      exact ⟨hc.traced hi.sound hi.traced,
        fun n hn => hc.ended (hi.ended n (hn.resolve_right nofun)),
        fun i c hactive => ⟨(hc.shown i c hactive).imp And.left hbacked, nofun⟩⟩
  obtain ⟨htraced, hended, hactive⟩ := hfacts
  have hfine : ∀ i c, s'.active i = some c →
      c.nonce ∉ h.failed ++ (h.system.fails input).toList := by
    intro i c hc hmem
    obtain ⟨hold, hother⟩ := hactive i c hc
    rcases mem_append.mp hmem with hfailed | hnew
    · exact hold.elim (fun hwas => hi.fine i c hwas hfailed) fun hlive => hlive (.inr hfailed)
    · exact hother (mem_toList.mp hnew)
  refine ⟨⟨hi.sound.step hadm.1.1 hadm.2.1 hstep, htraced, fun n hdead => ?_, hfine⟩,
    fun i c hc hspent => (hactive i c hc).1.resolve_right fun hlive => hlive (.inl hspent), hfine⟩
  rcases hdead with hspent | hfailed
  · rcases mem_append.mp hspent with hold | hnew
    · exact hended n (.inl (.inl hold))
    · exact hi.traced.ended_of_spends hi.sound hadm.2.2 hstep hnew
  · rcases mem_append.mp hfailed with hold | hnew
    · exact hended n (.inl (.inr hold))
    · exact hended n (.inr (mem_toList.mp hnew))

/-- **A spent challenge stays spent**, in whatever order the calls, the store and the failures
    come, as long as what a failed creation puts back and what a restore commits would pass a
    second look at the store. -/
theorem challenge_stays_spent (env : VerificationEnvironment) (clock : Nat)
    (h h' : ChallengeHistory) (input : Input)
    (henv : env.recordsActiveQrChallenge = true → env.clearsActiveQrChallenge = true)
    (hr : Reaches (step env) (Admitted env) (start clock) h) (hadm : Admitted env h input)
    (hs : step env h input = some h') : Kept h h' := by
  have hi : HistoryInv env h :=
    hr.invariant (.start clock) fun _ _ _ hi hadm hs => (hi.step henv hadm hs).1
  exact (hi.step henv hadm hs).2

def twoTabs : VerificationEnvironment := { stored with stateStore := fun i => decide (i < 2) }

instance (s : VerificationSystem) (c : QrChallenge) : Decidable (s.Backed twoTabs c) :=
  decidable_of_iff (s.store.activeQrChallenge.map QrChallenge.nonce = some c.nonce ∧
    s.store.hasConsumedNonce c.nonce = false ∧ ∀ i ∈ range 2,
      ∀ queued ∈ (s.workflows i).challengeStoreQueue, queued.clears c.nonce = false)
    (by simp [Backed, twoTabs])

instance : ∀ (s : VerificationSystem) (input : Input), Decidable (s.SecondLook twoTabs input)
  | _, .createResumes _ => inferInstanceAs (Decidable (∀ r ∈ _, _ ∧ (_ → ∀ previous ∈ _, _)))
  | _, .restoreResumes _ => inferInstanceAs (Decidable (∀ call ∈ _, ∀ read ∈ _, _ → _))
  | _, .acceptStores _ => inferInstanceAs
    (Decidable (∀ call ∈ _, _ → ∀ row ∈ _, _ → _ ∧ ∀ call ∈ _, ∀ r ∈ _, _))
  | _, .createKeyed _ _ _ | _, .tick _ | _, .create _ _ _ _ | _, .createKeyFails _
  | _, .opApplies _ | _, .opSettles _ _ | _, .restore _ | _, .restoreStores _
  | _, .restoreStoreFails _ | _, .accept _ _ _ | _, .acceptResumes _ | _, .acceptStoreFails _
  | _, .reset _ => inferInstanceAs (Decidable True)

instance (h : ChallengeHistory) (input : Input) : Decidable (FreshNonce h input) :=
  inferInstanceAs (Decidable (_ ∧ ∀ nonce ∈ _, _))

instance (h : ChallengeHistory) (input : Input) : Decidable (Admitted twoTabs h input) :=
  inferInstanceAs (Decidable (_ ∧ _ ∧ _))

def secondNonce : String := "650e8400-e29b-41d4-a716-446655440000"

def thirdNonce : String := "750e8400-e29b-41d4-a716-446655440000"

/-- The first tab shows a new challenge, in its `k`-th creation. -/
def shows (k : Nat) (nonce : String) : List Input :=
  [.create 0 "did:key:zAlice" "Alice" none,
    .createKeyed k "AAAAAAAAAAAAAAAAAAAAAAAAAAAAAAAAAAAAAAAAAAA" nonce]

def applies : List Input := [.opApplies 0, .opSettles 0 true]

def readAgain (i : Nat) : List Input := [.restore i, .restoreResumes 0, .restoreStores 0]

/-- A challenge is reset, the creation of a third one fails and puts back the second one, and the
    second tab restores that. -/
theorem challenge_stays_spent_restored : ∃ h h', step twoTabs h (.restoreResumes 0) = some h' ∧
    h.spent = [aliceNonce] ∧ h.failed = [thirdNonce] ∧
    (h.system.active 0).map QrChallenge.nonce = some secondNonce ∧
    (h'.system.active 1).map QrChallenge.nonce = some secondNonce ∧ Kept h h' := by
  obtain ⟨h, hr, htest⟩ := Reaches.of_exec (step twoTabs) (Admitted twoTabs) (start 0)
    (flatten [shows 0 aliceNonce, applies, [.reset 0], applies, shows 1 secondNonce, applies,
      [.createResumes 1], shows 2 thirdNonce, [.opSettles 0 false, .createResumes 2], readAgain 1])
    (fun h => decide (h.spent = [aliceNonce] ∧ h.failed = [thirdNonce] ∧
      (h.system.active 0).map QrChallenge.nonce = some secondNonce ∧
        Admitted twoTabs h (.restoreResumes 0)) &&
      (step twoTabs h (.restoreResumes 0)).any fun h' : ChallengeHistory =>
        decide ((h'.system.active 1).map QrChallenge.nonce = some secondNonce))
    (by decide +kernel)
  simp only [Bool.and_eq_true, decide_eq_true_eq] at htest
  obtain ⟨⟨hspent, hfailed, hback, hadm⟩, htest⟩ := htest
  obtain ⟨h', hs, hactive⟩ := (any_eq_true _ _).mp htest
  exact ⟨h, h', hs, hspent, hfailed, hback, of_decide_eq_true hactive,
    challenge_stays_spent twoTabs 0 h h' (.restoreResumes 0) (fun _ => rfl) hr hadm hs⟩

/-- **A consumed challenge comes back**: the acceptance has consumed it and is about to record the
    pending counter-verification, when a restore reads it from the store. -/
theorem consumed_challenge_returns : ∃ h h', Reaches (step stored) FreshNonce (start 0) h ∧
    step stored h (.restoreResumes 0) = some h' ∧ ¬ Kept h h' := by
  obtain ⟨h, hr, htest⟩ := Reaches.of_exec (step stored) FreshNonce (start 0)
    (flatten [shows 0 aliceNonce, applies, [.accept 0 "did:key:zAlice" bobsVerification,
      .acceptStores 0, .acceptResumes 0, .acceptStores 0, .acceptResumes 0, .acceptStores 0,
      .acceptResumes 0], readAgain 0])
    (fun h => decide (h.spent = [aliceNonce] ∧ (h.system.active 0).isNone) &&
      (step stored h (.restoreResumes 0)).any fun h' : ChallengeHistory =>
        decide ((h'.system.active 0).map QrChallenge.nonce = some aliceNonce))
    (by decide +kernel)
  simp only [Bool.and_eq_true, decide_eq_true_eq] at htest
  obtain ⟨h', hs, hactive⟩ := (any_eq_true _ _).mp htest.2
  obtain ⟨c, hc, hnonce⟩ := map_eq_some_iff.mp (of_decide_eq_true hactive)
  refine ⟨h, h', hr, hs, fun hkept => ?_⟩
  have hwas := hkept.again 0 c hc (by rw [htest.1.1, hnonce]; exact mem_singleton_self _)
  rw [isNone_iff_eq_none.mp htest.1.2] at hwas
  cases hwas

end ChallengeHistory

end WebOfTrust
