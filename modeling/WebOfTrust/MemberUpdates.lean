/-
  **Pending member updates** (`member-update-workflow.ts`, `member-update-disposition.ts`,
  `InMemoryMemberUpdatePendingStore.ts`).

  A call reads the records that are pending for its space, and classifies its signal against
  them.  An unverified record that has come in by then is kept by `savePending`, and the
  authority of the signal is lost (`authority_lost`).  Where no call with authority comes to
  store behind such a record, the record of every tuple is one of the highest authority that
  was received (`pending_highest_authority`).
-/
import WebOfTrust.KeyedTable
import WebOfTrust.Machine
import WebOfTrust.LogEntry

namespace WebOfTrust

open KeyedTable List

/-! ## 1. Signals and their classification -/

inductive MemberUpdateSignalAction where
  | added
  | removed
deriving DecidableEq

structure MemberUpdateSignal where
  spaceId : DocId
  action : MemberUpdateSignalAction
  memberDid : Did
  effectiveKeyGeneration : Nat
  signerDid : Did
  outerId : Option String
  receivedAt : Option String
deriving DecidableEq

/-- What `sameMemberUpdateTuple` and `sameTuple` compare. -/
def MemberUpdateSignal.tuple (signal : MemberUpdateSignal) :
    DocId × MemberUpdateSignalAction × Did × Nat :=
  (signal.spaceId, signal.action, signal.memberDid, signal.effectiveKeyGeneration)

inductive MemberUpdateDisposition where
  | storePendingAndSync
  | storeUnverifiedPendingAndSync
  | upgradePendingAndSync
  | ignoreLowerAuthority
  | ignoreDuplicate
  | ignoreStale
  | bufferFutureAndCatchUp
deriving DecidableEq

inductive StoredMemberUpdateDisposition where
  | storePendingAndSync
  | storeUnverifiedPendingAndSync
deriving DecidableEq

structure SeenMemberUpdateSignal extends MemberUpdateSignal where
  storedDisposition : StoredMemberUpdateDisposition
deriving DecidableEq

abbrev SeenMemberUpdateSignal.tuple (seen : SeenMemberUpdateSignal) :
    DocId × MemberUpdateSignalAction × Did × Nat :=
  seen.toMemberUpdateSignal.tuple

/-- `LocalMemberUpdatePolicy`, apart from the records that a call has read. -/
structure LocalMemberUpdatePolicy where
  localKeyGeneration : Nat
  knownAdminDids : List Did
  knownMemberDids : List Did

def memberUpdateAuthorityLevel (policy : LocalMemberUpdatePolicy) (update : MemberUpdateSignal) :
    Nat :=
  if update.action = .removed ∧ update.signerDid = update.memberDid then 1
  else if update.signerDid ∈ policy.knownAdminDids then 1
  else if update.action = .added ∧ update.signerDid ∈ policy.knownMemberDids then 1
  else 0

def storedMemberUpdateAuthorityLevel : StoredMemberUpdateDisposition → Nat
  | .storePendingAndSync => 1
  | .storeUnverifiedPendingAndSync => 0

def evaluateMemberUpdateDisposition (policy : LocalMemberUpdatePolicy)
    (seenUpdates : List SeenMemberUpdateSignal) (incoming : MemberUpdateSignal) :
    MemberUpdateDisposition :=
  if incoming.effectiveKeyGeneration < policy.localKeyGeneration then .ignoreStale
  else if incoming.effectiveKeyGeneration > policy.localKeyGeneration + 1 then
    .bufferFutureAndCatchUp
  else
    let incomingAuthority := memberUpdateAuthorityLevel policy incoming
    match seenUpdates.find? fun seen => decide (seen.tuple = incoming.tuple) with
    | some existing =>
      let existingAuthority := storedMemberUpdateAuthorityLevel existing.storedDisposition
      if incomingAuthority > existingAuthority then .upgradePendingAndSync
      else if incomingAuthority < existingAuthority then .ignoreLowerAuthority
      else .ignoreDuplicate
    | none =>
      if incomingAuthority > 0 then .storePendingAndSync else .storeUnverifiedPendingAndSync

/-! ## 2. The pending store -/

/-- What `bufferFuture` compares. -/
def MemberUpdateSignal.futureKey (signal : MemberUpdateSignal) :
    (DocId × MemberUpdateSignalAction × Did × Nat) × Did :=
  (signal.tuple, signal.signerDid)

open SeenMemberUpdateSignal

structure MemberUpdatePendingStore where
  seen : KeyedTable tuple
  future : KeyedTable MemberUpdateSignal.futureKey

namespace MemberUpdatePendingStore

def fresh : MemberUpdatePendingStore := ⟨.empty, .empty⟩

variable (s : MemberUpdatePendingStore) (signal : SeenMemberUpdateSignal)

def savePending : MemberUpdatePendingStore :=
  { s with seen := s.seen.add signal }

def upgradePending : MemberUpdatePendingStore :=
  { s with seen := s.seen.update signal.tuple fun _ => signal }

def bufferFuture (signal : MemberUpdateSignal) : MemberUpdatePendingStore :=
  { s with future := s.future.add signal }

def listSeenForSpace (spaceId : DocId) : List SeenMemberUpdateSignal :=
  s.seen.rows.filter fun seen => decide (seen.spaceId = spaceId)

end MemberUpdatePendingStore

/-! ## 3. The workflow -/

inductive LocalImpact where
  | none
  | markRemovalPending
  | markAdditionPending
deriving DecidableEq

structure ProcessMemberUpdateResult where
  disposition : MemberUpdateDisposition
  triggerSpaceCatchUp : Bool
  ackable : Bool
  localImpact : LocalImpact

def computeLocalImpact (disposition : MemberUpdateDisposition) (signal : MemberUpdateSignal)
    (localDid : Did) : LocalImpact :=
  if signal.memberDid ≠ localDid then .none
  else if disposition ≠ .storePendingAndSync ∧ disposition ≠ .upgradePendingAndSync then .none
  else if signal.action = .removed then .markRemovalPending
  else .markAdditionPending

/-- `processMemberUpdate`, with the store as it is when the call comes to write. -/
def processMemberUpdate (policy : LocalMemberUpdatePolicy) (localDid : Did)
    (seenUpdates : List SeenMemberUpdateSignal) (signal : MemberUpdateSignal)
    (store : MemberUpdatePendingStore) : ProcessMemberUpdateResult × MemberUpdatePendingStore :=
  let disposition := evaluateMemberUpdateDisposition policy seenUpdates signal
  let localImpact := computeLocalImpact disposition signal localDid
  match disposition with
  | .storePendingAndSync =>
    (⟨disposition, true, true, localImpact⟩, store.savePending ⟨signal, .storePendingAndSync⟩)
  | .storeUnverifiedPendingAndSync =>
    (⟨disposition, true, true, localImpact⟩,
      store.savePending ⟨signal, .storeUnverifiedPendingAndSync⟩)
  | .upgradePendingAndSync =>
    (⟨disposition, true, true, localImpact⟩, store.upgradePending ⟨signal, .storePendingAndSync⟩)
  | .bufferFutureAndCatchUp => (⟨disposition, true, true, .none⟩, store.bufferFuture signal)
  | .ignoreLowerAuthority | .ignoreDuplicate | .ignoreStale =>
    (⟨disposition, false, true, .none⟩, store)

/-! ## 4. Calls side by side -/

structure MemberUpdateCall where
  signal : MemberUpdateSignal
  seenUpdates : List SeenMemberUpdateSignal
  result : Option ProcessMemberUpdateResult

structure MemberUpdateSystem where
  store : MemberUpdatePendingStore
  calls : List MemberUpdateCall

namespace MemberUpdateSystem

def start : MemberUpdateSystem := ⟨.fresh, []⟩

inductive Input where
  | receive (signal : MemberUpdateSignal)
  | process (n : Nat)
deriving DecidableEq

def step (policy : LocalMemberUpdatePolicy) (localDid : Did) (w : MemberUpdateSystem) :
    Input → Option MemberUpdateSystem
  | .receive signal =>
    some { w with
      calls := w.calls ++ [⟨signal, w.store.listSeenForSpace signal.spaceId, none⟩] }
  | .process n =>
    match w.calls[n]? with
    | some ⟨signal, seenUpdates, none⟩ =>
      let (result, store) := processMemberUpdate policy localDid seenUpdates signal w.store
      some ⟨store, w.calls.set n ⟨signal, seenUpdates, some result⟩⟩
    | _ => none

/-- The call that comes to write has authority, has seen no record of its tuple, and an
    unverified one has come in between. -/
def overtaken (policy : LocalMemberUpdatePolicy) (w : MemberUpdateSystem)
    (call : MemberUpdateCall) : Bool :=
  decide (0 < memberUpdateAuthorityLevel policy call.signal) &&
    !call.seenUpdates.any (fun seen => decide (seen.tuple = call.signal.tuple)) &&
    (w.store.seen.get? call.signal.tuple).any fun r =>
      decide (r.storedDisposition = .storeUnverifiedPendingAndSync)

def InTime (policy : LocalMemberUpdatePolicy) (w : MemberUpdateSystem) : Input → Prop
  | .receive _ => True
  | .process n => w.calls[n]?.any (w.overtaken policy) = false

instance (policy : LocalMemberUpdatePolicy) (w : MemberUpdateSystem) :
    ∀ i, Decidable (w.InTime policy i)
  | .receive _ => isTrue trivial
  | .process n => inferInstanceAs (Decidable (w.calls[n]?.any (w.overtaken policy) = false))

end MemberUpdateSystem

/-! ## 5. One call -/

/-- Signals of the local generation and the next are pending; older ones are ignored and
    later ones buffered. -/
def LocalMemberUpdatePolicy.Pends (policy : LocalMemberUpdatePolicy)
    (signal : MemberUpdateSignal) : Prop :=
  policy.localKeyGeneration ≤ signal.effectiveKeyGeneration ∧
    signal.effectiveKeyGeneration ≤ policy.localKeyGeneration + 1

instance (policy : LocalMemberUpdatePolicy) (signal : MemberUpdateSignal) :
    Decidable (policy.Pends signal) := by
  unfold LocalMemberUpdatePolicy.Pends
  infer_instance

def SeenMemberUpdateSignal.level (r : SeenMemberUpdateSignal) : Nat :=
  storedMemberUpdateAuthorityLevel r.storedDisposition

section

variable {policy : LocalMemberUpdatePolicy} {localDid : Did} {signal : MemberUpdateSignal}
  {seenUpdates : List SeenMemberUpdateSignal} {store store' : MemberUpdatePendingStore}

theorem authority_le_one (policy : LocalMemberUpdatePolicy) (signal : MemberUpdateSignal) :
    memberUpdateAuthorityLevel policy signal ≤ 1 := by
  unfold memberUpdateAuthorityLevel
  split
  · exact Nat.le_refl 1
  split
  · exact Nat.le_refl 1
  · split <;> decide

structure Processed (policy : LocalMemberUpdatePolicy) (signal : MemberUpdateSignal)
    (store store' : MemberUpdatePendingStore) : Prop where
  rises : ∀ k r, store.seen.get? k = some r → ∃ r', store'.seen.get? k = some r' ∧
    r.level ≤ r'.level
  fromSignal : ∀ r ∈ store'.seen.rows, r ∈ store.seen.rows ∨
    (r.toMemberUpdateSignal = signal ∧ policy.Pends signal ∧
      memberUpdateAuthorityLevel policy signal = r.level)
  represented : policy.Pends signal → ∃ r, store'.seen.get? signal.tuple = some r ∧
    memberUpdateAuthorityLevel policy signal ≤ r.level

theorem Processed.idle (hseen : store'.seen = store.seen)
    (h : policy.Pends signal → ∃ r, store.seen.get? signal.tuple = some r ∧
      memberUpdateAuthorityLevel policy signal ≤ r.level) :
    Processed policy signal store store' := by
  constructor
  · intro k r hr
    exact ⟨r, hseen ▸ hr, Nat.le_refl _⟩
  · intro r hr
    exact .inl (hseen ▸ hr)
  · rw [hseen]
    exact h

theorem processed_savePending (hpends : policy.Pends signal)
    {disposition : StoredMemberUpdateDisposition}
    (hlevel : memberUpdateAuthorityLevel policy signal =
      storedMemberUpdateAuthorityLevel disposition)
    (hthere : ∀ r, store.seen.get? signal.tuple = some r →
      memberUpdateAuthorityLevel policy signal ≤ r.level) :
    Processed policy signal store (store.savePending ⟨signal, disposition⟩) := by
  constructor
  · intro k r hr
    exact ⟨r, get?_add_of_some hr, Nat.le_refl _⟩
  · intro r hr
    rcases mem_rows_add hr with hold | rfl
    · exact .inl hold
    · exact .inr ⟨rfl, hpends, hlevel⟩
  · intro _
    cases hget : store.seen.get? signal.tuple with
    | some r => exact ⟨r, get?_add_of_some hget, hthere r hget⟩
    | none =>
      refine ⟨⟨signal, disposition⟩, ?_, Nat.le_of_eq hlevel⟩
      show (store.seen.add _).get? _ = _
      rw [get?_add, hget]
      simp [tuple]

theorem processed_upgradePending (hpends : policy.Pends signal)
    (hlevel : memberUpdateAuthorityLevel policy signal = 1)
    (hthere : store.seen.has signal.tuple = true) :
    Processed policy signal store (store.upgradePending ⟨signal, .storePendingAndSync⟩) := by
  let upgraded : SeenMemberUpdateSignal := ⟨signal, .storePendingAndSync⟩
  obtain ⟨existing, hexisting⟩ := Option.isSome_iff_exists.mp hthere
  have hseen : (store.upgradePending upgraded).seen = store.seen.put upgraded := by
    simp [MemberUpdatePendingStore.upgradePending, update, upgraded, hexisting]
  have hget : ∀ k, (store.upgradePending upgraded).seen.get? k =
      if signal.tuple = k then some upgraded else store.seen.get? k := by
    intro k
    rw [hseen, get?_put]
  constructor
  · intro k r hr
    rw [hget]
    by_cases hk : signal.tuple = k
    · refine ⟨upgraded, if_pos hk, ?_⟩
      show r.level ≤ 1
      unfold level storedMemberUpdateAuthorityLevel
      split <;> decide
    · exact ⟨r, by rw [if_neg hk, hr], Nat.le_refl _⟩
  · intro r hr
    have hrow := mem_rows_iff.mp hr
    rw [hget] at hrow
    split at hrow
    · cases hrow
      exact .inr ⟨rfl, hpends, hlevel⟩
    · exact .inl (mem_of_get? hrow)
  · intro _
    exact ⟨upgraded, by rw [hget, if_pos rfl], Nat.le_of_eq hlevel⟩

theorem processMemberUpdate_spec
    (hread : ∀ r ∈ seenUpdates, ∃ r', store.seen.get? r.tuple = some r' ∧ r.level ≤ r'.level)
    (hintime : 0 < memberUpdateAuthorityLevel policy signal →
      (∀ r ∈ seenUpdates, r.tuple ≠ signal.tuple) → ∀ r, store.seen.get? signal.tuple = some r →
        r.storedDisposition ≠ .storeUnverifiedPendingAndSync) :
    Processed policy signal store
      (processMemberUpdate policy localDid seenUpdates signal store).2 := by
  have hle := authority_le_one policy signal
  unfold processMemberUpdate evaluateMemberUpdateDisposition
  by_cases hstale : signal.effectiveKeyGeneration < policy.localKeyGeneration
  · simp only [hstale, if_true]
    exact .idle rfl fun hpends => absurd hpends.1 (by omega)
  by_cases hfuture : signal.effectiveKeyGeneration > policy.localKeyGeneration + 1
  · simp only [hstale, hfuture, if_true, if_false]
    exact .idle rfl fun hpends => absurd hpends.2 (by omega)
  have hpends : policy.Pends signal := ⟨by omega, by omega⟩
  simp only [hstale, hfuture, if_false]
  cases hfind : seenUpdates.find? fun seen => decide (seen.tuple = signal.tuple) with
  | some existing =>
    have htuple : existing.tuple = signal.tuple := by simpa using find?_some hfind
    obtain ⟨r, hr, hrises⟩ := hread existing (mem_of_find?_eq_some hfind)
    rw [htuple] at hr
    unfold level at hrises
    by_cases hup : memberUpdateAuthorityLevel policy signal >
        storedMemberUpdateAuthorityLevel existing.storedDisposition
    · simp only [hup, if_true]
      exact processed_upgradePending hpends (by omega) (by rw [has, hr]; rfl)
    have hthere : policy.Pends signal → ∃ r, store.seen.get? signal.tuple = some r ∧
        memberUpdateAuthorityLevel policy signal ≤ r.level :=
      fun _ => ⟨r, hr, Nat.le_trans (by omega) hrises⟩
    by_cases hdown : memberUpdateAuthorityLevel policy signal <
        storedMemberUpdateAuthorityLevel existing.storedDisposition
    · simp only [hup, hdown, if_true, if_false]
      exact .idle rfl hthere
    · simp only [hup, hdown, if_false]
      exact .idle rfl hthere
  | none =>
    have hnone : ∀ r ∈ seenUpdates, r.tuple ≠ signal.tuple := by
      simpa using find?_eq_none.mp hfind
    by_cases hauthority : memberUpdateAuthorityLevel policy signal > 0
    · simp only [hauthority, if_true]
      apply processed_savePending hpends
      · exact Nat.le_antisymm hle hauthority
      intro r hr
      have hverified := hintime hauthority hnone r hr
      unfold level
      cases hdisposition : r.storedDisposition with
      | storePendingAndSync => exact hle
      | storeUnverifiedPendingAndSync => exact absurd hdisposition hverified
    · simp only [hauthority, if_false]
      have hzero : memberUpdateAuthorityLevel policy signal = 0 := by omega
      apply processed_savePending hpends
      · exact hzero
      intro r _
      rw [hzero]
      exact Nat.zero_le _

end

/-! ## 6. Whole runs -/

open MemberUpdateSystem

namespace MemberUpdateSystem

section

variable {policy : LocalMemberUpdatePolicy} {localDid : Did} {w w' : MemberUpdateSystem}

/-- The records come from finished calls, stand at least as high as any call has read, and
    at least as high as any finished call. -/
structure Represented (policy : LocalMemberUpdatePolicy) (w : MemberUpdateSystem) : Prop where
  provenance : ∀ r ∈ w.store.seen.rows, ∃ call ∈ w.calls,
    call.signal = r.toMemberUpdateSignal ∧ policy.Pends call.signal ∧
      memberUpdateAuthorityLevel policy call.signal = r.level
  read : ∀ call ∈ w.calls, ∀ r ∈ call.seenUpdates, ∃ r', w.store.seen.get? r.tuple = some r' ∧
    r.level ≤ r'.level
  finished : ∀ call ∈ w.calls, call.result.isSome = true → policy.Pends call.signal →
    ∃ r, w.store.seen.get? call.signal.tuple = some r ∧
      memberUpdateAuthorityLevel policy call.signal ≤ r.level

theorem represented_start (policy : LocalMemberUpdatePolicy) : Represented policy start where
  provenance _ hr := by cases hr
  read _ hcall := by cases hcall
  finished _ hcall := by cases hcall

theorem Represented.receive (h : Represented policy w) (signal : MemberUpdateSignal) :
    Represented policy
      { w with calls := w.calls ++ [⟨signal, w.store.listSeenForSpace signal.spaceId, none⟩] } := by
  constructor
  · intro r hr
    obtain ⟨call, hcall, hprovenance⟩ := h.provenance r hr
    exact ⟨call, mem_append_left _ hcall, hprovenance⟩
  · intro call hcall r hr
    rcases mem_append.mp hcall with hold | hnew
    · exact h.read call hold r hr
    · rw [mem_singleton.mp hnew] at hr
      exact ⟨r, mem_rows_iff.mp (mem_filter.mp hr).1, Nat.le_refl _⟩
  · intro call hcall hdone
    rcases mem_append.mp hcall with hold | hnew
    · exact h.finished call hold hdone
    · rw [mem_singleton.mp hnew] at hdone
      cases hdone

theorem Represented.process (h : Represented policy w) {n : Nat} {signal : MemberUpdateSignal}
    {seenUpdates : List SeenMemberUpdateSignal}
    (hcall : w.calls[n]? = some ⟨signal, seenUpdates, none⟩)
    (hintime : w.overtaken policy ⟨signal, seenUpdates, none⟩ = false) :
    Represented policy ⟨(processMemberUpdate policy localDid seenUpdates signal w.store).2,
        w.calls.set n ⟨signal, seenUpdates,
          some (processMemberUpdate policy localDid seenUpdates signal w.store).1⟩⟩ := by
  have hmem := mem_of_getElem? hcall
  have hlt : n < w.calls.length := (List.getElem?_eq_some_iff.mp hcall).1
  have hspec : Processed policy signal w.store
      (processMemberUpdate policy localDid seenUpdates signal w.store).2 := by
    apply processMemberUpdate_spec (h.read _ hmem)
    intro hauthority hunread r hr hunverified
    have hovertaken : w.overtaken policy ⟨signal, seenUpdates, none⟩ = true := by
      simp [overtaken, hauthority, hr, hunverified]
      exact fun r hr => hunread r hr
    rw [hovertaken] at hintime
    cases hintime
  -- a call of the new list has signal and reading from one of the old
  have hcalls : ∀ call ∈ w.calls.set n ⟨signal, seenUpdates,
      some (processMemberUpdate policy localDid seenUpdates signal w.store).1⟩,
      (call ∈ w.calls) ∨ (call.signal = signal ∧ call.seenUpdates = seenUpdates) := by
    intro call hcall
    rcases mem_or_eq_of_mem_set hcall with hold | rfl
    · exact .inl hold
    · exact .inr ⟨rfl, rfl⟩
  have hkept : ∀ call ∈ w.calls, ∃ call' ∈ w.calls.set n ⟨signal, seenUpdates,
      some (processMemberUpdate policy localDid seenUpdates signal w.store).1⟩,
      call'.signal = call.signal := by
    intro call hcall'
    obtain ⟨m, hm⟩ := mem_iff_getElem?.mp hcall'
    by_cases hmn : n = m
    · subst hmn
      refine ⟨_, mem_of_getElem? (getElem?_set_self hlt), ?_⟩
      rw [hcall] at hm
      cases hm
      rfl
    · exact ⟨call, mem_of_getElem? ((getElem?_set_ne hmn).trans hm), rfl⟩
  constructor
  · intro r hr
    rcases hspec.fromSignal r hr with hold | ⟨hsignal, hpends, hlevel⟩
    · obtain ⟨call, hcall', hsame, hrest⟩ := h.provenance r hold
      obtain ⟨call', hcall'', hsignal⟩ := hkept call hcall'
      rw [← hsignal] at hsame hrest
      exact ⟨call', hcall'', hsame, hrest⟩
    obtain ⟨call', hcall'', hsignal'⟩ := hkept _ hmem
    refine ⟨call', hcall'', hsignal'.trans hsignal.symm, ?_, ?_⟩
    · rw [hsignal']
      exact hpends
    · rw [hsignal']
      exact hlevel
  · intro call hcall' r hr
    have hread : ∃ r', w.store.seen.get? r.tuple = some r' ∧ r.level ≤ r'.level := by
      rcases hcalls call hcall' with hold | ⟨-, hsame⟩
      · exact h.read call hold r hr
      · exact h.read _ hmem r (hsame ▸ hr)
    obtain ⟨r', hr', hle⟩ := hread
    obtain ⟨r'', hr'', hle'⟩ := hspec.rises _ r' hr'
    exact ⟨r'', hr'', Nat.le_trans hle hle'⟩
  · intro call hcall' hdone hpends
    rcases mem_or_eq_of_mem_set hcall' with hold | rfl
    · obtain ⟨r, hr, hle⟩ := h.finished call hold hdone hpends
      obtain ⟨r', hr', hle'⟩ := hspec.rises _ r hr
      exact ⟨r', hr', Nat.le_trans hle hle'⟩
    · exact hspec.represented hpends

theorem Represented.step {i : Input} (h : Represented policy w) (hintime : w.InTime policy i)
    (hs : w.step policy localDid i = some w') : Represented policy w' := by
  cases i with
  | receive signal =>
    cases hs
    exact h.receive signal
  | process n =>
    simp only [MemberUpdateSystem.step] at hs
    split at hs
    · next signal seenUpdates hcall =>
      cases hs
      apply h.process hcall
      have hany : w.calls[n]?.any (w.overtaken policy) = false := hintime
      rw [hcall] at hany
      exact hany
    · cases hs

/-- The record of a tuple is the only one, stands as high as the highest signal that was
    received for the tuple, and is such a signal. -/
def HighestAuthority (policy : LocalMemberUpdatePolicy) (w : MemberUpdateSystem)
    (tuple : DocId × MemberUpdateSignalAction × Did × Nat) : Prop :=
  ∃ r ∈ w.store.seen.rows, r.tuple = tuple ∧ (∀ r' ∈ w.store.seen.rows, r'.tuple = tuple → r' = r) ∧
    (∀ call ∈ w.calls, call.signal.tuple = tuple →
      memberUpdateAuthorityLevel policy call.signal ≤ r.level) ∧
    ∃ call ∈ w.calls, call.signal = r.toMemberUpdateSignal ∧
      memberUpdateAuthorityLevel policy call.signal = r.level

/-- **The highest authority is pending**, for every tuple that was received, in every run in
    which no call is overtaken.  A tuple that is ignored as stale or buffered as future has
    no record. -/
theorem pending_highest_authority {policy : LocalMemberUpdatePolicy} {localDid : Did}
    {w : MemberUpdateSystem}
    (h : Machine.Reaches (step policy localDid) (InTime policy) start w)
    (hdone : ∀ call ∈ w.calls, call.result.isSome = true) :
    ∀ call ∈ w.calls, if policy.Pends call.signal then w.HighestAuthority policy call.signal.tuple
      else ∀ r ∈ w.store.seen.rows, r.tuple ≠ call.signal.tuple := by
  have hinv : Represented policy w :=
    h.invariant (represented_start policy) fun _ _ _ hinv hadm hs => hinv.step hadm hs
  intro call hcall
  split
  · next hpends =>
    obtain ⟨r, hr, -⟩ := hinv.finished call hcall (hdone call hcall) hpends
    obtain ⟨hrow, htuple⟩ := get?_eq_some_iff.mp hr
    refine ⟨r, hrow, htuple, ?_, ?_, ?_⟩
    · intro r' hr' htuple'
      exact eq_of_key_eq hr' hrow (htuple'.trans htuple.symm)
    · intro call' hcall' hsame
      have hpends' : policy.Pends call'.signal := by
        have hgeneration : call'.signal.effectiveKeyGeneration =
            call.signal.effectiveKeyGeneration :=
          congrArg (fun tuple => tuple.2.2.2) hsame
        unfold LocalMemberUpdatePolicy.Pends
        rw [hgeneration]
        exact hpends
      obtain ⟨r', hr', hle⟩ := hinv.finished call' hcall' (hdone call' hcall') hpends'
      rw [hsame, hr] at hr'
      cases hr'
      exact hle
    · obtain ⟨call', hcall', hsignal, -, hlevel⟩ := hinv.provenance r hrow
      exact ⟨call', hcall', hsignal, hlevel⟩
  · next hnot =>
    intro r hr htuple
    obtain ⟨call', -, hsignal, hpends, -⟩ := hinv.provenance r hr
    have hgeneration :
        call'.signal.effectiveKeyGeneration = call.signal.effectiveKeyGeneration := by
      rw [hsignal]
      exact congrArg (fun tuple => tuple.2.2.2) htuple
    unfold LocalMemberUpdatePolicy.Pends at hpends
    rw [hgeneration] at hpends
    exact hnot hpends

end

/-- A removal of `carol` under the next generation, whoever signs it. -/
def removalOfCarol (signerDid : Did) : MemberUpdateSignal where
  spaceId := "space-1"
  action := .removed
  memberDid := "did:carol"
  effectiveKeyGeneration := 1
  signerDid := signerDid
  outerId := none
  receivedAt := none

def aliceIsAdmin : LocalMemberUpdatePolicy := ⟨0, ["did:alice"], ["did:alice", "did:bob"]⟩

/-- `bob` is not entitled; `alice` comes after him and is. -/
theorem pending_highest_authority_upgraded :
    ∃ w, Machine.Reaches (step aliceIsAdmin "did:dave") (InTime aliceIsAdmin) start w ∧
      (∀ call ∈ w.calls,
        if aliceIsAdmin.Pends call.signal then w.HighestAuthority aliceIsAdmin call.signal.tuple
        else ∀ r ∈ w.store.seen.rows, r.tuple ≠ call.signal.tuple) ∧
      w.store.seen.rows = [⟨removalOfCarol "did:alice", .storePendingAndSync⟩] := by
  obtain ⟨w, hreach, htest⟩ := Machine.Reaches.of_exec
    (step aliceIsAdmin "did:dave") (InTime aliceIsAdmin) start
    [.receive (removalOfCarol "did:bob"), .process 0, .receive (removalOfCarol "did:alice"),
      .process 1]
    (fun w => decide ((∀ call ∈ w.calls, call.result.isSome = true) ∧
      w.store.seen.rows = [⟨removalOfCarol "did:alice", .storePendingAndSync⟩])) (by decide)
  obtain ⟨hdone, hrows⟩ := of_decide_eq_true htest
  exact ⟨w, hreach, pending_highest_authority hreach hdone, hrows⟩

/-- **An authority is lost**: both calls read an empty list, and `bob` stores first. -/
theorem authority_lost :
    ¬ ∀ (policy : LocalMemberUpdatePolicy) (localDid : Did) (w : MemberUpdateSystem),
      Machine.Reaches (step policy localDid) (fun _ _ => True) start w →
      (∀ call ∈ w.calls, call.result.isSome = true) →
      ∀ call ∈ w.calls, policy.Pends call.signal → w.HighestAuthority policy call.signal.tuple := by
  intro h
  obtain ⟨w, hreach, htest⟩ := Machine.Reaches.of_exec
    (step aliceIsAdmin "did:dave") (fun _ _ => True) start
    [.receive (removalOfCarol "did:bob"), .receive (removalOfCarol "did:alice"), .process 0,
      .process 1]
    (fun w => decide ((∀ call ∈ w.calls, call.result.isSome = true) ∧
      w.calls.map MemberUpdateCall.signal = [removalOfCarol "did:bob", removalOfCarol "did:alice"] ∧
      w.store.seen.rows = [⟨removalOfCarol "did:bob", .storeUnverifiedPendingAndSync⟩])) (by decide)
  obtain ⟨hdone, hsignals, hrows⟩ := of_decide_eq_true htest
  have halice : removalOfCarol "did:alice" ∈ w.calls.map MemberUpdateCall.signal := by
    rw [hsignals]
    exact mem_cons_of_mem _ mem_cons_self
  obtain ⟨call, hcall, hsignal⟩ := mem_map.mp halice
  obtain ⟨r, hr, -, -, hhighest, -⟩ :=
    h aliceIsAdmin "did:dave" w hreach hdone call hcall (by rw [hsignal]; decide)
  have hle := hhighest call hcall rfl
  rw [hrows, mem_singleton] at hr
  rw [hsignal, hr] at hle
  exact absurd hle (by decide)

end MemberUpdateSystem

end WebOfTrust
