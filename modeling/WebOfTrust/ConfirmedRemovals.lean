/-
  **The removal of a space after a confirmed member-update** (`YjsReplicationAdapter.ts`:
  `resolvePendingMemberUpdates`, `resolveCanonicallyAnsweredMemberUpdates`,
  `applyMemberUpdateResolution`; `member-update-resolution.ts`).

  A pass reads the canonical members, lists what is pending, and cleans the space up where
  an authorized removal of the local DID is confirmed.  It awaits the store and a flush in
  between, and does not look again: the member may be active by then, and another pass may
  have discarded the signal (`removal_overtaken`).  Where nothing of the kind happens,
  every removal is one of a stored signal and of a DID that is not active
  (`removal_confirmed`).

  `received` and `cleanups` are history.
-/
import WebOfTrust.MemberUpdates
import WebOfTrust.MembershipEvents

namespace WebOfTrust

open KeyedTable Machine List Option

/-! ## 1. Signals against the canonical members -/

structure MemberUpdateResolution where
  confirmed : List SeenMemberUpdateSignal
  discarded : List SeenMemberUpdateSignal
  confirmedLocalRemovalSignal : Option SeenMemberUpdateSignal

def MemberUpdateResolution.consumed (r : MemberUpdateResolution) : List SeenMemberUpdateSignal :=
  r.confirmed.filter (fun signal => decide (some signal ≠ r.confirmedLocalRemovalSignal)) ++
    r.discarded

section

variable (canonicalActiveMembers : List Did) (localDid : Did) (signal : SeenMemberUpdateSignal)

def isConfirmed : Bool :=
  match signal.action with
  | .added => decide (signal.memberDid ∈ canonicalActiveMembers)
  | .removed => decide (signal.memberDid ∉ canonicalActiveMembers)

def SeenMemberUpdateSignal.RemovesLocal : Prop :=
  signal.action = .removed ∧ signal.memberDid = localDid ∧
    signal.storedDisposition = .storePendingAndSync

instance (signal : SeenMemberUpdateSignal) : Decidable (signal.RemovesLocal localDid) :=
  inferInstanceAs (Decidable (_ ∧ _ ∧ _))

/-- The loop of `resolveMemberUpdatesAgainstCanonical`, one signal. -/
def resolveSignal (resolution : MemberUpdateResolution) (signal : SeenMemberUpdateSignal) :
    MemberUpdateResolution :=
  if isConfirmed canonicalActiveMembers signal then
    -- An unverified signal is retained even where the canonical members agree with it.
    if signal.storedDisposition = .storeUnverifiedPendingAndSync then resolution
    else { resolution with
      confirmed := resolution.confirmed ++ [signal]
      confirmedLocalRemovalSignal :=
        if signal.RemovesLocal localDid then some signal
        else resolution.confirmedLocalRemovalSignal }
  else { resolution with discarded := resolution.discarded ++ [signal] }

def resolveMemberUpdatesAgainstCanonical (pending : List SeenMemberUpdateSignal) :
    MemberUpdateResolution :=
  pending.foldl (resolveSignal canonicalActiveMembers localDid) ⟨[], [], none⟩

def canonicalEventSetAnswersPending (events : List MembershipEvent)
    (signal : MemberUpdateSignal) : Bool :=
  match resolveMembershipWinner events signal.memberDid with
  | none => false
  | some winner =>
    if signal.effectiveKeyGeneration < winner.sinceGeneration then true
    else if winner.sinceGeneration < signal.effectiveKeyGeneration then false
    else decide (winner.status = .removed ∨ signal.action = .added)

end

def MemberUpdatePendingStore.resolvePending (s : MemberUpdatePendingStore)
    (signal : SeenMemberUpdateSignal) : MemberUpdatePendingStore :=
  { s with seen := s.seen.erase signal.tuple }

/-! ## 2. Passes over a space -/

/-- The pass of the observer takes all pending signals, the others those that the event set
    has answered already. -/
inductive ResolutionKind where
  | all
  | answered
deriving DecidableEq

/-- What a pass awaits; `state` is the loaded space that it is about.  From `consumeRemoval`
    on `stored` is history: whether the signal was still stored when it was recorded. -/
inductive ResolutionPass where
  | list (kind : ResolutionKind) (events : List MembershipEvent) (state : Nat)
  | consume (rest : List SeenMemberUpdateSignal) (removal : Option SeenMemberUpdateSignal)
  | derive (removal : Option SeenMemberUpdateSignal)
  | record (removal : SeenMemberUpdateSignal)
  | consumeRemoval (removal : SeenMemberUpdateSignal) (stored : Bool)
  | deriveRemoved (removal : SeenMemberUpdateSignal) (stored : Bool)
  | ended
deriving DecidableEq

/-- A `member-update` that is classified against what it has read. -/
structure PendingClassification where
  policy : LocalMemberUpdatePolicy
  signal : MemberUpdateSignal
  seenUpdates : List SeenMemberUpdateSignal

/-- The space was cleaned up for `removal`, with `events` in its document. -/
structure CleanupRecord where
  removal : SeenMemberUpdateSignal
  stored : Bool
  events : List MembershipEvent

structure RemovalSystem where
  store : MemberUpdatePendingStore
  events : List MembershipEvent
  /-- The loaded state of the space, and the next one. -/
  state : Option Nat
  nextState : Nat
  handlers : List PendingClassification
  passes : List ResolutionPass
  received : List (LocalMemberUpdatePolicy × MemberUpdateSignal)
  cleanups : List CleanupRecord

namespace RemovalSystem

def start : RemovalSystem where
  store := .fresh
  events := []
  state := none
  nextState := 0
  handlers := []
  passes := []
  received := []
  cleanups := []

section

variable (spaceId : DocId) (localDid : Did) (s : RemovalSystem)

def listed (events : List MembershipEvent) : ResolutionKind → List SeenMemberUpdateSignal
  | .all => s.store.listSeenForSpace spaceId
  | .answered =>
    (s.store.listSeenForSpace spaceId).filter fun seen =>
      canonicalEventSetAnswersPending events seen.toMemberUpdateSignal

def resolution (kind : ResolutionKind) (events : List MembershipEvent) : MemberUpdateResolution :=
  resolveMemberUpdatesAgainstCanonical (resolveActiveMembers events) localDid
    (s.listed spaceId events kind)

/-- An authorized removal of the tuple is stored. -/
def Stored (removal : SeenMemberUpdateSignal) : Prop :=
  (s.store.seen.get? removal.tuple).any (fun r => decide (r.RemovesLocal localDid)) = true

instance (s : RemovalSystem) (removal : SeenMemberUpdateSignal) :
    Decidable (s.Stored localDid removal) := inferInstanceAs (Decidable (_ = true))

def afterConsume (removal : Option SeenMemberUpdateSignal) :
    List SeenMemberUpdateSignal → ResolutionPass
  | [] => .derive removal
  | signal :: rest => .consume (signal :: rest) removal

/-- A pass goes on; `ok` is whether what it awaited went well. -/
def resume (ok : Bool) : ResolutionPass → Option (ResolutionPass × RemovalSystem)
  | .list kind events state =>
    if ok = false ∨ s.state ≠ some state ∨ s.listed spaceId events kind = [] then some (.ended, s)
    else
      let r := s.resolution spaceId localDid kind events
      some (afterConsume r.confirmedLocalRemovalSignal r.consumed, s)
  | .consume [] removal => some (.derive removal, s)
  | .consume (signal :: rest) removal =>
    if ok then
      some (afterConsume removal rest, { s with store := s.store.resolvePending signal })
    else some (.ended, s)
  | .derive removal =>
    match removal with
    | none => some (.ended, s)
    | some signal => some (if ok then .record signal else .ended, s)
  | .record removal =>
    some (if ok then .consumeRemoval removal (decide (s.Stored localDid removal)) else .ended, s)
  | .consumeRemoval removal stored =>
    if ok then
      some (.deriveRemoved removal stored, { s with store := s.store.resolvePending removal })
    else some (.ended, s)
  | .deriveRemoved removal stored =>
    if ok then
      some (.ended, { s with
        state := none
        cleanups := s.cleanups ++ [⟨removal, stored, s.events⟩] })
    else some (.ended, s)
  | .ended => none

end

end RemovalSystem

inductive RemovalInput where
  | receive (policy : LocalMemberUpdatePolicy) (signal : MemberUpdateSignal)
  | process (n : Nat)
  | document (events : List MembershipEvent)
  | resolve (kind : ResolutionKind)
  | run (k : Nat) (ok : Bool)
  /-- The space is loaded, with the event set that its document has. -/
  | load (events : List MembershipEvent)
  /-- The store may be the one in memory. -/
  | crash (durable : Bool)

open ResolutionPass

section

variable (spaceId : DocId) (localDid : Did) (s : RemovalSystem)

def removalStep : RemovalInput → Option RemovalSystem
  | .receive policy signal =>
    if s.state = none ∨ signal.spaceId ≠ spaceId then none
    else some { s with
      handlers := s.handlers ++ [⟨policy, signal, s.store.listSeenForSpace spaceId⟩]
      received := s.received ++ [(policy, signal)] }
  | .process n =>
    match s.handlers[n]? with
    | none => none
    | some ⟨policy, signal, seenUpdates⟩ =>
      some { s with
        store := (processMemberUpdate policy localDid seenUpdates signal s.store).2
        handlers := s.handlers.eraseIdx n }
  | .document events => if s.state = none then none else some { s with events }
  | .resolve kind =>
    match s.state with
    | none => none
    | some state =>
      if kind = .answered ∧ s.events = [] then some s
      else some { s with passes := s.passes ++ [.list kind s.events state] }
  | .run k ok =>
    match s.passes[k]? with
    | none => none
    | some pass =>
      match s.resume spaceId localDid ok pass with
      | none => none
      | some (next, s') => some { s' with passes := s.passes.set k next }
  | .load events =>
    if s.state = none then
      some { s with events, state := some s.nextState, nextState := s.nextState + 1 }
    else none
  | .crash durable =>
    let store := if durable then s.store else .fresh
    some { s with store, state := none, handlers := [], passes := [] }

/-! ## 3. Passes that are not overtaken -/

def ResolutionPass.removal? : ResolutionPass → Option SeenMemberUpdateSignal
  | .consume _ removal => removal
  | .derive removal => removal
  | .record removal => some removal
  | .consumeRemoval removal _ => some removal
  | .deriveRemoved removal _ => some removal
  | _ => none

/-- The local DID is an active member of the canonical event set. -/
def LocalActive (events : List MembershipEvent) : Prop := localDid ∈ resolveActiveMembers events

instance (events : List MembershipEvent) : Decidable (LocalActive localDid events) :=
  inferInstanceAs (Decidable (_ ∈ _))

/-- No other pass than the `k`-th is on its way with a removal that `p` holds of. -/
def NoOther (k : Nat) (p : SeenMemberUpdateSignal → Bool) : Prop :=
  ∀ pass ∈ s.passes.set k .ended, pass.removal?.any p = false

instance (s : RemovalSystem) (k : Nat) (p : SeenMemberUpdateSignal → Bool) :
    Decidable (NoOther s k p) := inferInstanceAs (Decidable (∀ pass ∈ s.passes.set k .ended, _))

/-- A pass that confirms a removal is alone with it, and the members that it has read are
    those of the document yet; none consumes a signal that another pass has confirmed. -/
def ResolutionPass.inTime (k : Nat) : ResolutionPass → Prop
  | .list kind events _ =>
    (s.resolution spaceId localDid kind events).confirmedLocalRemovalSignal.isSome = true →
      ¬LocalActive localDid s.events ∧ NoOther s k fun _ => true
  | .consume (signal :: _) _ => NoOther s k fun removal => decide (removal.tuple = signal.tuple)
  | _ => True

instance ResolutionPass.decidableInTime (s : RemovalSystem) (k : Nat) (pass : ResolutionPass) :
    Decidable (pass.inTime spaceId localDid s k) := by
  unfold inTime
  split <;> infer_instance

/-- While a pass is on its way with a removal, the local DID does not become active again. -/
def notOvertaken : RemovalInput → Prop
  | .document events =>
    (∃ pass ∈ s.passes, pass.removal?.isSome = true) → ¬LocalActive localDid events
  | .run k _ => ∀ pass ∈ s.passes[k]?, pass.inTime spaceId localDid s k
  | _ => True

instance (s : RemovalSystem) (i : RemovalInput) :
    Decidable (notOvertaken spaceId localDid s i) := by
  unfold notOvertaken
  split <;> infer_instance

end

/-! ## 4. What is stored -/

open MemberUpdatePendingStore

section

variable {policy : LocalMemberUpdatePolicy} {localDid : Did} {signal : MemberUpdateSignal}
  {seenUpdates : List SeenMemberUpdateSignal} {store : MemberUpdatePendingStore}

theorem authority_of_evaluate
    (h : evaluateMemberUpdateDisposition policy seenUpdates signal = .storePendingAndSync ∨
      evaluateMemberUpdateDisposition policy seenUpdates signal = .upgradePendingAndSync) :
    0 < memberUpdateAuthorityLevel policy signal := by
  simp only [evaluateMemberUpdateDisposition] at h
  split at h
  · simp at h
  split at h
  · simp at h
  split at h
  · split at h
    · next hup => exact Nat.zero_lt_of_lt hup
    · split at h <;> simp at h
  split at h
  · next hauthority => exact hauthority
  · simp at h

theorem seen_processMemberUpdate :
    (processMemberUpdate policy localDid seenUpdates signal store).2.seen = store.seen ∨
      (∃ disposition, (processMemberUpdate policy localDid seenUpdates signal store).2.seen =
          store.seen.add ⟨signal, disposition⟩ ∧
        (disposition = .storePendingAndSync → 0 < memberUpdateAuthorityLevel policy signal)) ∨
      ((processMemberUpdate policy localDid seenUpdates signal store).2.seen =
          store.seen.put ⟨signal, .storePendingAndSync⟩ ∧
        0 < memberUpdateAuthorityLevel policy signal) := by
  cases hdisposition : evaluateMemberUpdateDisposition policy seenUpdates signal with
  | storePendingAndSync =>
    refine .inr (.inl ⟨.storePendingAndSync, ?_, fun _ => ?_⟩)
    · simp [processMemberUpdate, hdisposition, savePending]
    · exact authority_of_evaluate (.inl hdisposition)
  | storeUnverifiedPendingAndSync =>
    refine .inr (.inl ⟨.storeUnverifiedPendingAndSync, ?_, nofun⟩)
    simp [processMemberUpdate, hdisposition, savePending]
  | upgradePendingAndSync =>
    have hauthority := authority_of_evaluate (.inr hdisposition)
    cases hget : store.seen.get? signal.tuple with
    | none =>
      refine .inl ?_
      simp [processMemberUpdate, hdisposition, upgradePending, update, hget]
    | some existing =>
      refine .inr (.inr ⟨?_, hauthority⟩)
      simp [processMemberUpdate, hdisposition, upgradePending, update, hget]
  | _ => exact .inl (by simp [processMemberUpdate, hdisposition, bufferFuture])

end

/-! ## 5. What a pass has confirmed -/

open RemovalSystem

section

variable {spaceId : DocId} {localDid : Did} {s s' : RemovalSystem} {pass next : ResolutionPass}
  {k j : Nat} {ok : Bool} {removal signal : SeenMemberUpdateSignal} {canonical : List Did}
  {pending : List SeenMemberUpdateSignal} {events : List MembershipEvent} {kind : ResolutionKind}
  {rest : List SeenMemberUpdateSignal} {confirmed : Option SeenMemberUpdateSignal}

/-- What the loop of the resolution has made of the signals of `pending`. -/
structure Resolved (canonical : List Did) (localDid : Did) (pending : List SeenMemberUpdateSignal)
    (r : MemberUpdateResolution) : Prop where
  confirmed : ∀ signal ∈ r.confirmed, signal ∈ pending
  discarded : ∀ signal ∈ r.discarded, signal ∈ pending ∧ isConfirmed canonical signal = false
  removal : ∀ removal ∈ r.confirmedLocalRemovalSignal, removal ∈ pending ∧
    isConfirmed canonical removal = true ∧ removal.RemovesLocal localDid

theorem Resolved.step {r : MemberUpdateResolution} (h : Resolved canonical localDid pending r)
    (hmem : signal ∈ pending) :
    Resolved canonical localDid pending (resolveSignal canonical localDid r signal) := by
  unfold resolveSignal
  split
  · next hconfirmed =>
    split
    · exact h
    refine ⟨fun x hx => ?_, h.discarded, fun x hx => ?_⟩
    · rcases mem_append.mp hx with hold | hnew
      · exact h.confirmed x hold
      · exact mem_singleton.mp hnew ▸ hmem
    dsimp only at hx
    split at hx
    · next hremoves =>
      cases hx
      exact ⟨hmem, hconfirmed, hremoves⟩
    · exact h.removal x hx
  · next hcontradicted =>
    refine ⟨h.confirmed, fun x hx => ?_, h.removal⟩
    rcases mem_append.mp hx with hold | hnew
    · exact h.discarded x hold
    · cases mem_singleton.mp hnew
      exact ⟨hmem, Bool.eq_false_iff.mpr hcontradicted⟩

theorem resolved_resolve : Resolved canonical localDid pending
      (resolveMemberUpdatesAgainstCanonical canonical localDid pending) := by
  refine foldlRecOn pending _ ?_ fun r hr signal hmem => hr.step hmem
  exact ⟨nofun, nofun, nofun⟩

theorem Resolved.consumed {r : MemberUpdateResolution} (h : Resolved canonical localDid pending r)
    (hremoval : r.confirmedLocalRemovalSignal = some removal) (hmem : signal ∈ r.consumed) :
    signal ∈ pending ∧ signal ≠ removal := by
  rcases mem_append.mp hmem with hconfirmed | hdiscarded
  · obtain ⟨hin, hne⟩ := mem_filter.mp hconfirmed
    refine ⟨h.confirmed signal hin, fun heq => of_decide_eq_true hne ?_⟩
    rw [hremoval, heq]
  obtain ⟨hin, hnot⟩ := h.discarded signal hdiscarded
  refine ⟨hin, fun heq => ?_⟩
  have hyes := (h.removal removal hremoval).2.1
  rw [← heq, hnot] at hyes
  cases hyes

theorem mem_listed (h : signal ∈ s.listed spaceId events kind) : signal ∈ s.store.seen.rows := by
  cases kind with
  | all => exact (mem_filter.mp h).1
  | answered => exact (mem_filter.mp (mem_filter.mp h).1).1

def Authorized (s : RemovalSystem) (seen : SeenMemberUpdateSignal) : Prop :=
  ∃ policy, (policy, seen.toMemberUpdateSignal) ∈ s.received ∧
    0 < memberUpdateAuthorityLevel policy seen.toMemberUpdateSignal

/-- What a pass relies on where it stands: the signal is stored until the pass consumes it. -/
def ResolutionPass.Held (localDid : Did) (s : RemovalSystem) : ResolutionPass → Prop
  | .consume rest (some removal) =>
    s.Stored localDid removal ∧ ∀ signal ∈ rest, signal.tuple ≠ removal.tuple
  | .derive (some removal) => s.Stored localDid removal
  | .record removal => s.Stored localDid removal
  | .consumeRemoval _ stored => stored = true
  | .deriveRemoved _ stored => stored = true
  | _ => True

structure RemovalPassInv (localDid : Did) (s : RemovalSystem) : Prop where
  alone : ∀ (j k : Nat) (pass pass' : ResolutionPass), s.passes[j]? = some pass →
    s.passes[k]? = some pass' → pass.removal?.isSome = true → pass'.removal?.isSome = true → j = k
  removal : ∀ pass ∈ s.passes, ∀ removal ∈ pass.removal?, removal.RemovesLocal localDid ∧
    Authorized s removal ∧ ¬LocalActive localDid s.events ∧ s.state.isSome = true
  held : ∀ pass ∈ s.passes, pass.Held localDid s
  authorized : ∀ seen ∈ s.store.seen.rows, seen.storedDisposition = .storePendingAndSync →
    Authorized s seen
  handlers : ∀ h ∈ s.handlers, (h.policy, h.signal) ∈ s.received
  cleanups : ∀ c ∈ s.cleanups, c.removal.RemovesLocal localDid ∧ Authorized s c.removal ∧
    c.stored = true ∧ ¬LocalActive localDid c.events

theorem removalPassInv_start : RemovalPassInv localDid .start := by
  constructor <;> simp [start, fresh]

theorem ResolutionPass.Held.of_stored
    (hstored : ∀ removal ∈ pass.removal?, s.Stored localDid removal → s'.Stored localDid removal)
    (h : pass.Held localDid s) : pass.Held localDid s' := by
  cases pass with
  | consume rest removal =>
    cases removal with
    | none => exact h
    | some removal => exact ⟨hstored removal rfl h.1, h.2⟩
  | derive removal =>
    cases removal with
    | none => exact h
    | some removal => exact hstored removal rfl h
  | record removal => exact hstored removal rfl h
  | _ => exact h

theorem stored_resolvePending (h : s.Stored localDid removal) (hne : signal.tuple ≠ removal.tuple) :
    Stored localDid { s with store := s.store.resolvePending signal } removal := by
  rw [Stored, resolvePending, get?_erase, if_neg hne]
  exact h

theorem NoOther.any_eq_false {p : SeenMemberUpdateSignal → Bool} (h : NoOther s k p)
    (hj : s.passes[j]? = some pass) (hne : j ≠ k) : pass.removal?.any p = false :=
  h pass (mem_of_getElem? (by rwa [getElem?_set_ne hne.symm]))

theorem removal?_afterConsume : (afterConsume confirmed rest).removal? = confirmed := by
  cases rest <;> rfl

theorem held_afterConsume (h : ∀ removal ∈ confirmed, s.Stored localDid removal ∧
      ∀ signal ∈ rest, signal.tuple ≠ removal.tuple) :
    (afterConsume confirmed rest).Held localDid s := by
  rcases confirmed with _ | removal
  · cases rest <;> exact trivial
  cases rest with
  | nil => exact (h removal rfl).1
  | cons signal rest => exact h removal rfl

structure PassResumed (localDid : Did) (s : RemovalSystem) (k : Nat) (pass next : ResolutionPass)
    (s' : RemovalSystem) : Prop where
  received : s'.received = s.received
  handlers : s'.handlers = s.handlers
  events : s'.events = s.events
  removal : ∀ removal ∈ next.removal?, removal ∈ pass.removal? ∨
    NoOther s k (fun _ => true) ∧ removal.RemovesLocal localDid ∧ Authorized s removal ∧
      ¬LocalActive localDid s.events ∧ s.state.isSome = true
  state : s'.state = s.state ∨ pass.removal?.isSome = true ∧ next.removal? = none
  held : next.Held localDid s'
  others : ∀ (j : Nat) (other : ResolutionPass), j ≠ k → s.passes[j]? = some other →
    ∀ removal ∈ other.removal?, s.Stored localDid removal → s'.Stored localDid removal
  rows : ∀ seen ∈ s'.store.seen.rows, seen ∈ s.store.seen.rows
  cleanups : ∀ c ∈ s'.cleanups, c ∈ s.cleanups ∨
    c.removal ∈ pass.removal? ∧ c.stored = true ∧ c.events = s.events

theorem PassResumed.of_same (hremoval : ∀ removal ∈ next.removal?, removal ∈ pass.removal? ∨
      NoOther s k (fun _ => true) ∧ removal.RemovesLocal localDid ∧ Authorized s removal ∧
        ¬LocalActive localDid s.events ∧ s.state.isSome = true)
    (hheld : next.Held localDid s) : PassResumed localDid s k pass next s where
  received := rfl
  handlers := rfl
  events := rfl
  removal := hremoval
  state := .inl rfl
  held := hheld
  others := fun _ _ _ _ _ _ h => h
  rows := fun _ h => h
  cleanups := fun _ h => .inl h

theorem PassResumed.ended : PassResumed localDid s k pass .ended s := .of_same nofun trivial

theorem PassResumed.of_consumed (hremoval : ∀ removal ∈ next.removal?, removal ∈ pass.removal?)
    (hheld : next.Held localDid { s with store := s.store.resolvePending signal })
    (hothers : ∀ (j : Nat) (other : ResolutionPass), j ≠ k → s.passes[j]? = some other →
      ∀ removal ∈ other.removal?, signal.tuple ≠ removal.tuple) :
    PassResumed localDid s k pass next { s with store := s.store.resolvePending signal } where
  received := rfl
  handlers := rfl
  events := rfl
  removal := fun removal h => .inl (hremoval removal h)
  state := .inl rfl
  held := hheld
  others := fun j other hne hj removal hmem hstored =>
    stored_resolvePending hstored (hothers j other hne hj removal hmem)
  rows := fun _ h => (mem_filter.mp h).1
  cleanups := fun _ h => .inl h

/-- The confirmed removal is the record of its tuple, and nothing else is consumed with it. -/
theorem stored_of_resolution
    (hremoval : removal ∈ (s.resolution spaceId localDid kind events).confirmedLocalRemovalSignal) :
    removal ∈ s.store.seen.rows ∧ removal.RemovesLocal localDid ∧ s.Stored localDid removal ∧
      ∀ signal ∈ (s.resolution spaceId localDid kind events).consumed,
        signal.tuple ≠ removal.tuple := by
  have hresolved : Resolved (resolveActiveMembers events) localDid
      (s.listed spaceId events kind) (s.resolution spaceId localDid kind events) :=
    resolved_resolve
  obtain ⟨hlisted, -, hremoves⟩ := hresolved.removal removal hremoval
  have hrow : removal ∈ s.store.seen.rows := mem_listed hlisted
  refine ⟨hrow, hremoves, ?_, fun signal hsignal htuple => ?_⟩
  · rw [Stored, mem_rows_iff.mp hrow]
    exact decide_eq_true hremoves
  · obtain ⟨hpending, hne⟩ := hresolved.consumed hremoval hsignal
    exact hne (eq_of_key_eq (mem_listed hpending) hrow htuple)

theorem resumed_list {state : Nat} (h : RemovalPassInv localDid s)
    (hintime : (list kind events state).inTime spaceId localDid s k)
    (hs : s.resume spaceId localDid ok (.list kind events state) = some (next, s')) :
    PassResumed localDid s k (.list kind events state) next s' := by
  rw [resume] at hs
  split at hs
  · cases hs
    exact .ended
  next hgoes =>
  cases hs
  refine .of_same (fun removal hremoval => .inr ?_) (held_afterConsume fun removal hremoval => ?_)
  · rw [removal?_afterConsume] at hremoval
    obtain ⟨hrow, hremoves, -, -⟩ := stored_of_resolution hremoval
    obtain ⟨hactive, hother⟩ := hintime (isSome_of_mem hremoval)
    refine ⟨hother, hremoves, h.authorized removal hrow hremoves.2.2, hactive, ?_⟩
    have hstate : s.state = some state := by
      by_contra hne
      exact hgoes (.inr (.inl hne))
    rw [hstate, isSome_some]
  · obtain ⟨-, -, hstored, hrest⟩ := stored_of_resolution hremoval
    exact ⟨hstored, hrest⟩

theorem resumed_consume (hheld : (consume rest confirmed).Held localDid s)
    (hintime : (consume rest confirmed).inTime spaceId localDid s k)
    (hs : s.resume spaceId localDid ok (.consume rest confirmed) = some (next, s')) :
    PassResumed localDid s k (.consume rest confirmed) next s' := by
  cases rest with
  | nil =>
    cases hs
    refine .of_same (fun removal hremoval => .inl hremoval) ?_
    cases confirmed with
    | none => exact trivial
    | some removal => exact hheld.1
  | cons signal rest =>
    rw [resume] at hs
    split at hs
    · cases hs
      refine .of_consumed (fun removal hremoval => ?_)
        (held_afterConsume fun removal hremoval => ?_)
        fun j other hne hj removal hmem htuple => ?_
      · rwa [removal?_afterConsume] at hremoval
      · cases hremoval
        obtain ⟨hstored, hrest⟩ := hheld
        exact ⟨stored_resolvePending hstored (hrest signal (mem_cons_self ..)),
          fun x hx => hrest x (mem_cons_of_mem _ hx)⟩
      · have hany := hintime.any_eq_false hj hne
        rw [mem_def.mp hmem, any_some, htuple] at hany
        simp at hany
    · cases hs
      exact .ended

theorem passResumed (h : RemovalPassInv localDid s) (hk : s.passes[k]? = some pass)
    (hintime : pass.inTime spaceId localDid s k)
    (hs : s.resume spaceId localDid ok pass = some (next, s')) :
    PassResumed localDid s k pass next s' := by
  have hheld : pass.Held localDid s := h.held pass (mem_of_getElem? hk)
  cases pass with
  | list kind events state => exact resumed_list h hintime hs
  | consume rest confirmed => exact resumed_consume hheld hintime hs
  | derive confirmed =>
    rcases confirmed with _ | removal
    · cases hs
      exact .ended
    cases hs
    cases ok with
    | true => exact .of_same (fun _ hremoval => .inl hremoval) hheld
    | false => exact .ended
  | record removal =>
    cases hs
    cases ok with
    | true => exact .of_same (fun _ hremoval => .inl hremoval) (decide_eq_true hheld)
    | false => exact .ended
  | consumeRemoval removal stored =>
    rw [resume] at hs
    split at hs
    · cases hs
      refine .of_consumed (fun _ hremoval => hremoval) hheld fun j other hne hj x hx => ?_
      exact absurd (h.alone j k other _ hj hk (isSome_of_mem hx) rfl) hne
    · cases hs
      exact .ended
  | deriveRemoved removal stored =>
    rw [resume] at hs
    split at hs
    · cases hs
      refine ⟨rfl, rfl, rfl, nofun, .inr ⟨rfl, rfl⟩, trivial, fun _ _ _ _ _ _ hx => hx,
        fun _ hseen => hseen, fun c hc => ?_⟩
      rcases mem_append.mp hc with hold | hnew
      · exact .inl hold
      · cases mem_singleton.mp hnew
        exact .inr ⟨rfl, hheld, rfl⟩
    · cases hs
      exact .ended
  | ended => cases hs

theorem PassResumed.alone (h : RemovalPassInv localDid s) (hk : s.passes[k]? = some pass)
    (hr : PassResumed localDid s k pass next s') {other : ResolutionPass} (hne : j ≠ k)
    (hj : s.passes[j]? = some other) (hnext : next.removal?.isSome = true) :
    other.removal? = none := by
  obtain ⟨removal, hremoval⟩ := isSome_iff_exists.mp hnext
  rw [← not_isSome_iff_eq_none]
  intro hother
  rcases hr.removal removal hremoval with hold | ⟨hnone, -⟩
  · exact hne (h.alone j k other pass hj hk hother (isSome_of_mem hold))
  have hany := hnone.any_eq_false hj hne
  obtain ⟨x, hx⟩ := isSome_iff_exists.mp hother
  simp [hx] at hany

/-! ## 6. Whole runs -/

variable {i : RemovalInput}

theorem Authorized.mono {seen : SeenMemberUpdateSignal} (h : Authorized s seen)
    (hreceived : s.received ⊆ s'.received) : Authorized s' seen := by
  obtain ⟨policy, hmem, hauthority⟩ := h
  exact ⟨policy, hreceived hmem, hauthority⟩

theorem removalPassInv_run (h : RemovalPassInv localDid s) (hk : s.passes[k]? = some pass)
    (hr : PassResumed localDid s k pass next s') :
    RemovalPassInv localDid { s' with passes := s.passes.set k next } := by
  have hpass := mem_of_getElem? hk
  have hauthorized {seen : SeenMemberUpdateSignal} (hseen : Authorized s seen) :
      Authorized { s' with passes := s.passes.set k next } seen :=
    hseen.mono fun x hx => hr.received ▸ hx
  constructor
  · intro i j p q hi hj hp hq
    rcases getElem?_set_cases hi with ⟨rfl, rfl⟩ | ⟨hik, hi'⟩
    · rcases getElem?_set_cases hj with ⟨rfl, rfl⟩ | ⟨hjk, hj'⟩
      · rfl
      · rw [hr.alone h hk hjk hj' hp] at hq
        cases hq
    rcases getElem?_set_cases hj with ⟨rfl, rfl⟩ | ⟨hjk, hj'⟩
    · rw [hr.alone h hk hik hi' hq] at hp
      cases hp
    · exact h.alone i j p q hi' hj' hp hq
  · intro p hp removal hremoval
    obtain ⟨i, hi⟩ := mem_iff_getElem?.mp hp
    -- A cleanup unloads the space, and leaves no pass with a removal.
    have hstate (hstate : s.state.isSome = true) : s'.state.isSome = true := by
      rcases hr.state with hsame | ⟨hsome, hnone⟩
      · rwa [hsame]
      exfalso
      rcases getElem?_set_cases hi with ⟨rfl, rfl⟩ | ⟨hik, hi'⟩
      · rw [hnone] at hremoval
        cases hremoval
      · exact hik (h.alone i k p pass hi' hk (isSome_of_mem hremoval) hsome)
    have hold : removal.RemovesLocal localDid ∧ Authorized s removal ∧
        ¬LocalActive localDid s.events ∧ s.state.isSome = true := by
      rcases getElem?_set_cases hi with ⟨rfl, rfl⟩ | ⟨hik, hi'⟩
      · rcases hr.removal removal hremoval with hmem | ⟨-, hnew⟩
        · exact h.removal pass hpass removal hmem
        · exact hnew
      · exact h.removal p (mem_of_getElem? hi') removal hremoval
    obtain ⟨hremoves, hauth, hactive, hloaded⟩ := hold
    exact ⟨hremoves, hauthorized hauth, hr.events ▸ hactive, hstate hloaded⟩
  · intro p hp
    obtain ⟨i, hi⟩ := mem_iff_getElem?.mp hp
    rcases getElem?_set_cases hi with ⟨rfl, rfl⟩ | ⟨hik, hi'⟩
    · exact hr.held.of_stored fun _ _ hstored => hstored
    · exact (h.held p (mem_of_getElem? hi')).of_stored (hr.others i p hik hi')
  · exact fun seen hseen hdisposition =>
      hauthorized (h.authorized seen (hr.rows seen hseen) hdisposition)
  · intro x hx
    dsimp only at hx ⊢
    rw [hr.handlers] at hx
    rw [hr.received]
    exact h.handlers x hx
  · intro c hc
    rcases hr.cleanups c hc with hold | ⟨hremoval, hstored, hevents⟩
    · obtain ⟨hremoves, hauth, hrest⟩ := h.cleanups c hold
      exact ⟨hremoves, hauthorized hauth, hrest⟩
    · obtain ⟨hremoves, hauth, hactive, -⟩ := h.removal pass hpass c.removal hremoval
      exact ⟨hremoves, hauthorized hauth, hstored, hevents ▸ hactive⟩

section

variable {policy : LocalMemberUpdatePolicy} {signal : MemberUpdateSignal}
  {seenUpdates : List SeenMemberUpdateSignal}

theorem stored_iff : s.Stored localDid removal ↔
    ∃ r, s.store.seen.get? removal.tuple = some r ∧ r.RemovesLocal localDid := by
  simp [Stored, Option.any_eq_true]

theorem stored_process (h : s.Stored localDid removal) : Stored localDid
    { s with store := (processMemberUpdate policy localDid seenUpdates signal s.store).2 }
    removal := by
  obtain ⟨r, hget, hremoves⟩ := stored_iff.mp h
  refine stored_iff.mpr ?_
  dsimp only
  rcases @seen_processMemberUpdate policy localDid signal seenUpdates s.store
    with hseen | ⟨disposition, hseen, -⟩ | ⟨hseen, -⟩
  · exact ⟨r, by rw [hseen, hget], hremoves⟩
  · exact ⟨r, by rw [hseen, get?_add_of_some hget], hremoves⟩
  rw [hseen, get?_put]
  split
  · next htuple =>
    refine ⟨_, rfl, ?_⟩
    have hkey : r.tuple = signal.tuple := (key_of_get? hget).trans htuple.symm
    injection hkey with _ hkey
    injection hkey with haction hkey
    injection hkey with hmember _
    exact ⟨haction ▸ hremoves.1, hmember ▸ hremoves.2.1, rfl⟩
  · exact ⟨r, hget, hremoves⟩

theorem mem_seen_process {seen : SeenMemberUpdateSignal}
    (hmem : seen ∈ (processMemberUpdate policy localDid seenUpdates signal s.store).2.seen.rows)
    (hdisposition : seen.storedDisposition = .storePendingAndSync) : seen ∈ s.store.seen.rows ∨
      seen.toMemberUpdateSignal = signal ∧ 0 < memberUpdateAuthorityLevel policy signal := by
  rcases @seen_processMemberUpdate policy localDid signal seenUpdates s.store
    with hseen | ⟨disposition, hseen, hauthority⟩ | ⟨hseen, hauthority⟩
  · exact .inl (hseen ▸ hmem)
  · rw [hseen] at hmem
    rcases mem_rows_add hmem with hold | rfl
    · exact .inl hold
    · exact .inr ⟨rfl, hauthority hdisposition⟩
  rw [hseen, mem_rows_iff, get?_put] at hmem
  split at hmem
  · cases hmem
    exact .inr ⟨rfl, hauthority⟩
  · exact .inl (mem_rows_iff.mpr hmem)

theorem removalPassInv_process {n : Nat} (h : RemovalPassInv localDid s)
    (hn : s.handlers[n]? = some ⟨policy, signal, seenUpdates⟩) : RemovalPassInv localDid { s with
      store := (processMemberUpdate policy localDid seenUpdates signal s.store).2
      handlers := s.handlers.eraseIdx n } where
  alone := h.alone
  removal := h.removal
  held := fun p hp => (h.held p hp).of_stored fun _ _ hstored => stored_process hstored
  authorized := by
    intro seen hseen hdisposition
    rcases mem_seen_process hseen hdisposition with hold | ⟨heq, hauthority⟩
    · exact h.authorized seen hold hdisposition
    refine ⟨policy, ?_, ?_⟩
    · exact heq ▸ h.handlers _ (mem_of_getElem? hn)
    · rwa [heq]
  handlers := fun x hx => h.handlers x (mem_of_mem_eraseIdx hx)
  cleanups := h.cleanups

end

section

variable (h : RemovalPassInv localDid s)
include h

theorem removalPassInv_receive {policy : LocalMemberUpdatePolicy} {signal : MemberUpdateSignal}
    {seenUpdates : List SeenMemberUpdateSignal} :
    RemovalPassInv localDid { s with
      handlers := s.handlers ++ [⟨policy, signal, seenUpdates⟩]
      received := s.received ++ [(policy, signal)] } := by
  have hauthorized {seen : SeenMemberUpdateSignal} (hseen : Authorized s seen) :
      ∃ p, (p, seen.toMemberUpdateSignal) ∈ s.received ++ [(policy, signal)] ∧
        0 < memberUpdateAuthorityLevel p seen.toMemberUpdateSignal :=
    hseen.imp fun p hp => ⟨mem_append_left _ hp.1, hp.2⟩
  refine ⟨h.alone, fun p hp removal hremoval => ?_, fun p hp => ?_, fun seen hseen hd => ?_,
    fun x hx => ?_, fun c hc => ?_⟩
  · obtain ⟨hremoves, hauth, hrest⟩ := h.removal p hp removal hremoval
    exact ⟨hremoves, hauthorized hauth, hrest⟩
  · exact (h.held p hp).of_stored fun _ _ hstored => hstored
  · exact hauthorized (h.authorized seen hseen hd)
  · rcases mem_append.mp hx with hold | hnew
    · exact mem_append_left _ (h.handlers x hold)
    · cases mem_singleton.mp hnew
      exact mem_append_right _ (mem_singleton_self _)
  · obtain ⟨hremoves, hauth, hrest⟩ := h.cleanups c hc
    exact ⟨hremoves, hauthorized hauth, hrest⟩

theorem removalPassInv_document
    (hactive : (∃ pass ∈ s.passes, pass.removal?.isSome = true) → ¬LocalActive localDid events) :
    RemovalPassInv localDid { s with events } where
  alone := h.alone
  removal := by
    intro p hp removal hremoval
    obtain ⟨hremoves, hauth, -, hstate⟩ := h.removal p hp removal hremoval
    exact ⟨hremoves, hauth, hactive ⟨p, hp, isSome_of_mem hremoval⟩, hstate⟩
  held := fun p hp => (h.held p hp).of_stored fun _ _ hstored => hstored
  authorized := h.authorized
  handlers := h.handlers
  cleanups := h.cleanups

theorem removalPassInv_resolve {state : Nat} :
    RemovalPassInv localDid { s with passes := s.passes ++ [.list kind events state] } := by
  refine ⟨fun i j p q hi hj hp hq => ?_, fun p hp removal hremoval => ?_, fun p hp => ?_,
    h.authorized, h.handlers, h.cleanups⟩
  · rcases getElem?_concat_cases hi with ⟨-, rfl⟩ | hi
    · cases hp
    rcases getElem?_concat_cases hj with ⟨-, rfl⟩ | hj
    · cases hq
    · exact h.alone i j p q hi hj hp hq
  · rcases mem_append.mp hp with hold | hnew
    · exact h.removal p hold removal hremoval
    · cases mem_singleton.mp hnew
      cases hremoval
  · rcases mem_append.mp hp with hold | hnew
    · exact (h.held p hold).of_stored fun _ _ hstored => hstored
    · cases mem_singleton.mp hnew
      exact trivial

theorem removalPassInv_load {state nextState : Nat} (hstate : s.state = none) :
    RemovalPassInv localDid { s with events, state := some state, nextState } where
  alone := h.alone
  removal := by
    intro p hp removal hremoval
    obtain ⟨-, -, -, hloaded⟩ := h.removal p hp removal hremoval
    rw [hstate] at hloaded
    cases hloaded
  held := fun p hp => (h.held p hp).of_stored fun _ _ hstored => hstored
  authorized := h.authorized
  handlers := h.handlers
  cleanups := h.cleanups

theorem removalPassInv_crash {durable : Bool} : RemovalPassInv localDid { s with
      store := if durable then s.store else .fresh
      state := none
      handlers := []
      passes := [] } := by
  refine ⟨by simp, by simp, by simp, fun seen hseen hdisposition => ?_, by simp, h.cleanups⟩
  cases durable with
  | true => exact h.authorized seen hseen hdisposition
  | false => cases hseen

theorem removalPassInv_step (ha : notOvertaken spaceId localDid s i)
    (hs : removalStep spaceId localDid s i = some s') : RemovalPassInv localDid s' := by
  cases i with
  | receive policy signal =>
    rw [removalStep] at hs
    split at hs
    · cases hs
    · cases hs
      exact removalPassInv_receive h
  | process n =>
    rw [removalStep] at hs
    split at hs
    · cases hs
    next hn =>
    cases hs
    exact removalPassInv_process h hn
  | document events =>
    rw [removalStep] at hs
    split at hs
    · cases hs
    · cases hs
      exact removalPassInv_document h ha
  | resolve kind =>
    rw [removalStep] at hs
    split at hs
    · cases hs
    split at hs
    · cases hs
      exact h
    · cases hs
      exact removalPassInv_resolve h
  | run k ok =>
    rw [removalStep] at hs
    split at hs
    · cases hs
    next pass hk =>
    split at hs
    · cases hs
    next next s₁ hresume =>
    cases hs
    exact removalPassInv_run h hk (passResumed h hk (ha pass hk) hresume)
  | load events =>
    rw [removalStep] at hs
    split at hs
    · next hstate =>
      cases hs
      exact removalPassInv_load h hstate
    · cases hs
  | crash durable =>
    cases hs
    exact removalPassInv_crash h

end

/-- **Where no pass is overtaken, a member-update alone never removes a space**: every cleanup
    is for a stored removal of the local DID by a signer with authority, and the DID is not
    active in the document.  Where the removal is not recorded, it stays stored and the space
    stays loaded. -/
theorem removal_confirmed
    (h : Reaches (removalStep spaceId localDid) (notOvertaken spaceId localDid) .start s) :
    (∀ c ∈ s.cleanups, c.removal.RemovesLocal localDid ∧ Authorized s c.removal ∧
      c.stored = true ∧ ¬LocalActive localDid c.events) ∧
    ∀ k removal s', s.passes[k]? = some (.record removal) →
      removalStep spaceId localDid s (.run k false) = some s' →
        s'.Stored localDid removal ∧ s'.state.isSome = true ∧ s'.cleanups = s.cleanups := by
  have hinv : RemovalPassInv localDid s :=
    h.invariant removalPassInv_start fun _ _ _ hinv ha hs => removalPassInv_step hinv ha hs
  refine ⟨hinv.cleanups, fun k removal s' hk hs => ?_⟩
  have hpass := mem_of_getElem? hk
  obtain ⟨-, -, -, hstate⟩ := hinv.removal _ hpass removal rfl
  simp only [removalStep, hk, resume, some.injEq] at hs
  cases hs
  exact ⟨hinv.held _ hpass, hstate, rfl⟩

end

/-! ## 7. Runs -/

/-- The admin says that `me` is removed with the first generation. -/
def removalOfMe : MemberUpdateSignal :=
  ⟨"space", .removed, "me", 1, "admin", none, none⟩

/-- The document says it first; the pass that finds it answered is about to record it. -/
def upToRecord : List RemovalInput :=
  [.load [⟨"me", .active, 0, none⟩],
    .document [⟨"me", .active, 0, none⟩, ⟨"me", .removed, 1, none⟩],
    .receive ⟨0, ["admin"], ["me"]⟩ removalOfMe, .process 0, .resolve .answered, .run 0 true,
    .run 0 true]

/-- The flush fails the first time, and the space is removed on the next pass. -/
theorem removal_confirmed_retried : ∃ s,
    Reaches (removalStep "space" "me") (notOvertaken "space" "me") .start s ∧
      s.cleanups.length = 1 ∧
      ∀ c ∈ s.cleanups, c.stored = true ∧ ¬LocalActive "me" c.events := by
  obtain ⟨s, hreach, hp⟩ := Reaches.of_exec (removalStep "space" "me")
    (notOvertaken "space" "me") .start
    (upToRecord.append [.run 0 false, .resolve .all, .run 1 true, .run 1 true, .run 1 true,
      .run 1 true, .run 1 true])
    (fun s => decide (s.cleanups.length = 1)) (by decide +kernel)
  exact ⟨s, hreach, of_decide_eq_true hp, fun c hc => ((removal_confirmed hreach).1 c hc).2.2⟩

/-- While the removal is recorded `me` is made active again, and the pass for that takes the
    signal for contradicted. -/
def upToDiscard : List RemovalInput :=
  upToRecord.append [.document [⟨"me", .active, 0, none⟩, ⟨"me", .removed, 1, none⟩,
    ⟨"me", .active, 2, none⟩], .resolve .all, .run 1 true, .run 1 true, .run 1 true]

/-- The space is removed all the same; and where the flush fails, the signal is lost. -/
theorem removal_overtaken : (∃ s, Reaches (removalStep "space" "me") (fun _ _ => True) .start s ∧
      decide (∃ c ∈ s.cleanups, c.stored = false ∧ LocalActive "me" c.events) = true) ∧
    ∃ s, Reaches (removalStep "space" "me") (fun _ _ => True) .start s ∧
      decide (s.passes[0]? = some (.record ⟨removalOfMe, .storePendingAndSync⟩) ∧
        ∀ s' ∈ removalStep "space" "me" s (.run 0 false),
          ¬s'.Stored "me" ⟨removalOfMe, .storePendingAndSync⟩) = true := by
  constructor
  · exact Reaches.of_exec (removalStep "space" "me") (fun _ _ => True) .start
      (upToDiscard.append [.run 0 true, .run 0 true, .run 0 true])
      (fun s => decide (∃ c ∈ s.cleanups, c.stored = false ∧ LocalActive "me" c.events))
      (by decide +kernel)
  · exact Reaches.of_exec (removalStep "space" "me") (fun _ _ => True) .start upToDiscard
      (fun s => decide (s.passes[0]? = some (.record ⟨removalOfMe, .storePendingAndSync⟩) ∧
        ∀ s' ∈ removalStep "space" "me" s (.run 0 false),
          ¬s'.Stored "me" ⟨removalOfMe, .storePendingAndSync⟩))
      (by decide +kernel)

end WebOfTrust
