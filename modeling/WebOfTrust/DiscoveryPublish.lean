/-
  **What is still to be published** (`OfflineFirstDiscoveryAdapter.ts`,
  `FallbackDiscoveryAdapter.ts`).

  A publication sets the flag of its field, sends the data to all targets, and clears the flag
  when all of them have it.  The flag is one bit: a publication that ends late clears it for a
  newer one that has failed (`late_publish_clears_newer`).  Where no publication clears the
  flag of newer data that has not got through, the flag is set whenever the newest data is
  missing somewhere (`unpublished_is_dirty`).
-/
import Mathlib.Data.List.Infix
import WebOfTrust.Machine

namespace WebOfTrust

open Machine List Function

/-! ## 1. All targets -/

inductive PublishStateField where
  | profile
  | attestations
  | verifications
deriving DecidableEq

structure PublishFailure where
  name : String
  message : String
deriving DecidableEq

inductive PublishError where
  | failure (error : PublishFailure)
  /-- `DiscoveryPartialPublishError`. -/
  | reachedSome (succeededTargets failedTargets : List String) (cause : PublishFailure)
deriving DecidableEq

/-- What `Promise.allSettled` says of a target. -/
inductive TargetResult where
  | fulfilled
  | rejected (reason : PublishFailure)
deriving DecidableEq

namespace TargetResult

def reason : TargetResult → Option PublishFailure
  | .fulfilled => none
  | .rejected reason => some reason

end TargetResult

/-- `publishToAll`, once every target has settled. -/
def publishToAll (targetKeys : List String) (results : List TargetResult) :
    Except PublishError Unit :=
  match results.filterMap TargetResult.reason with
  | [] => .ok ()
  | firstErr :: failed =>
    if (firstErr :: failed).length = results.length then .error (.failure firstErr)
    else
      let keyed := results.zip targetKeys
      .error (.reachedSome ((keyed.filter fun r => decide (r.1 = .fulfilled)).map Prod.snd)
        ((keyed.filter fun r => decide (r.1 ≠ .fulfilled)).map Prod.snd) firstErr)

theorem publishToAll_ok {targetKeys : List String} {results : List TargetResult} :
    publishToAll targetKeys results = .ok () ↔ ∀ r ∈ results, r = .fulfilled := by
  have hreason : ∀ r : TargetResult, r.reason = none ↔ r = .fulfilled := by
    intro r
    rcases r with _ | reason
    · simp [TargetResult.reason]
    · simp [TargetResult.reason]
  unfold publishToAll
  split
  · next hnil =>
    simp only [filterMap_eq_nil_iff, hreason] at hnil
    exact ⟨fun _ => hnil, fun _ => rfl⟩
  next firstErr failed hcons =>
  constructor
  · intro h
    split at h <;> cases h
  · intro hall
    have hnil : results.filterMap TargetResult.reason = [] := by
      simpa only [filterMap_eq_nil_iff, hreason] using hall
    rw [hnil] at hcons
    cases hcons

/-! ## 2. The adapter -/

inductive DiscoveryErrorKind where
  | network
  | other

def classifyDiscoveryErrorKind (e : PublishFailure) : DiscoveryErrorKind :=
  let msg := e.message.toLower
  if e.name = "AbortError" ∨ e.name = "TimeoutError" ∨
      ∃ part ∈ ["aborted", "fetch failed", "failed to fetch", "networkerror",
        "network request failed", "timeout", "timed out"], part.toList <:+: msg.toList then
    .network
  else .other

inductive PublishStage where
  /-- `publishProfile` and its siblings: the flag is set. -/
  | marked (field : PublishStateField) (data : Nat)
  /-- `syncPending`: the flags are read and the local data is being read. -/
  | reading (dirty : List PublishStateField)
  | publishing (field : PublishStateField) (data : Nat) (results : List (Option TargetResult))
      (rest : List (PublishStateField × Nat))
  | done
deriving DecidableEq

/-- An adapter with the flags of one DID.  The data of a field is numbered as it gets newer.
    What the targets have taken, the newest data of each field, and the publications that got
    through are for the observer. -/
structure PublishSystem where
  dirty : PublishStateField → Bool
  lastError : Option (String × DiscoveryErrorKind)
  calls : List PublishStage
  stored : List (Nat × PublishStateField × Nat)
  newest : PublishStateField → Option Nat
  completed : List (PublishStateField × Nat)

namespace PublishSystem

def start : PublishSystem := ⟨fun _ => false, none, [], [], fun _ => none, []⟩

def onPublishError (w : PublishSystem) : PublishError → PublishSystem
  | .reachedSome _ _ _ => { w with lastError := none }
  | .failure e => { w with lastError := some (e.message, classifyDiscoveryErrorKind e) }

/-- The fields in the order in which `syncPending` goes through them. -/
def fieldOrder : List PublishStateField := [.profile, .attestations, .verifications]

def nextStage (targetKeys : List String) : List (PublishStateField × Nat) → PublishStage
  | [] => .done
  | (field, data) :: rest =>
    .publishing field data (replicate targetKeys.length none) rest

inductive Input where
  | publish (field : PublishStateField) (data : Nat)
  | marked (n : Nat)
  | syncPending
  | dataRead (n : Nat) (data : PublishStateField → Option Nat)
  | dataFailed (n : Nat)
  /-- A target that answers with an error may have taken the data all the same. -/
  | settled (n target : Nat) (result : TargetResult) (taken : Bool)
  | finish (n : Nat)

section

variable (targetKeys : List String)

/-- The publication of call `n` has settled with all targets. -/
def onSettled (w : PublishSystem) (n : Nat) (field : PublishStateField) (data : Nat)
    (results : List TargetResult) (rest : List (PublishStateField × Nat)) : PublishSystem :=
  let w := { w with calls := w.calls.set n (nextStage targetKeys rest) }
  match publishToAll targetKeys results with
  | .ok () =>
    { w with
      dirty := update w.dirty field false
      lastError := none
      completed := w.completed ++ [(field, data)] }
  | .error e => w.onPublishError e

def step (w : PublishSystem) : Input → Option PublishSystem
  | .publish field data =>
    if ∀ older ∈ w.newest field, older < data then
      some { w with
        dirty := update w.dirty field true
        calls := w.calls ++ [.marked field data]
        newest := update w.newest field (some data) }
    else none
  | .marked n =>
    match w.calls[n]? with
    | some (.marked field data) =>
      some { w with calls := w.calls.set n (nextStage targetKeys [(field, data)]) }
    | _ => none
  | .syncPending =>
    let dirty := fieldOrder.filter w.dirty
    some { w with calls := w.calls ++ [if dirty = [] then .done else .reading dirty] }
  | .dataRead n data =>
    match w.calls[n]? with
    | some (.reading dirty) =>
      let todo := dirty.filterMap fun field => (data field).map fun d => (field, d)
      some { w with calls := w.calls.set n (nextStage targetKeys todo) }
    | _ => none
  | .dataFailed n =>
    match w.calls[n]? with
    | some (.reading _) => some { w with calls := w.calls.set n .done }
    | _ => none
  | .settled n target result taken =>
    match w.calls[n]? with
    | some (.publishing field data results rest) =>
      if results[target]? = some none then
        some { w with
          calls := w.calls.set n (.publishing field data (results.set target (some result)) rest)
          stored := if taken || decide (result = .fulfilled) then
            w.stored ++ [(target, field, data)] else w.stored }
      else none
    | _ => none
  | .finish n =>
    match w.calls[n]? with
    | some (.publishing field data results rest) =>
      if results.all Option.isSome then
        some (w.onSettled targetKeys n field data (results.filterMap id) rest)
      else none
    | _ => none

end

/-- A call that got through everywhere is not about data older than the newest, or data at
    least as new as the newest has already got through. -/
def InTime (targetKeys : List String) (w : PublishSystem) : Input → Prop
  | .finish n =>
    match w.calls[n]? with
    | some (.publishing field data results _) =>
      publishToAll targetKeys (results.filterMap id) = .ok () →
        ∀ newest ∈ w.newest field, newest ≤ data ∨ ∃ p ∈ w.completed, p.1 = field ∧ newest ≤ p.2
    | _ => True
  | _ => True

instance (targetKeys : List String) (w : PublishSystem) : ∀ i, Decidable (w.InTime targetKeys i)
  | .publish _ _ | .marked _ | .syncPending | .dataRead _ _ | .dataFailed _ | .settled _ _ _ _ =>
    isTrue trivial
  | .finish n => by
    unfold InTime
    dsimp only
    split <;> infer_instance

def StoredByAll (targetKeys : List String) (w : PublishSystem) (field : PublishStateField) : Prop :=
  ∀ newest ∈ w.newest field, ∀ target < targetKeys.length,
    ∃ data, newest ≤ data ∧ (target, field, data) ∈ w.stored

/-! ## 3. Whole runs -/

section

variable {targetKeys : List String} {w w' : PublishSystem}
  {stored : List (Nat × PublishStateField × Nat)} {n data : Nat} {field : PublishStateField}
  {results : List (Option TargetResult)} {rest : List (PublishStateField × Nat)}

def StageOk (targetKeys : List String) (stored : List (Nat × PublishStateField × Nat)) :
    PublishStage → Prop
  | .publishing field data results _ => results.length = targetKeys.length ∧
      ∀ target, results[target]? = some (some .fulfilled) → (target, field, data) ∈ stored
  | _ => True

/-- The flag of a field is set unless all targets have its newest data; a publication that got
    through everywhere is with all targets. -/
structure PublishInv (targetKeys : List String) (w : PublishSystem) : Prop where
  flagged : ∀ field, w.dirty field = true ∨ w.StoredByAll targetKeys field
  stages : ∀ (n : Nat) stage, w.calls[n]? = some stage → StageOk targetKeys w.stored stage
  completed : ∀ p ∈ w.completed, ∀ target < targetKeys.length, (target, p.1, p.2) ∈ w.stored

theorem StageOk.mono {stored' : List (Nat × PublishStateField × Nat)} {stage : PublishStage}
    (h : StageOk targetKeys stored stage) (hsub : ∀ r ∈ stored, r ∈ stored') :
    StageOk targetKeys stored' stage := by
  unfold StageOk at h ⊢
  split at h
  · exact ⟨h.1, fun target ht => hsub _ (h.2 target ht)⟩
  · trivial

theorem stageOk_nextStage (todo : List (PublishStateField × Nat)) :
    StageOk targetKeys stored (nextStage targetKeys todo) := by
  rcases todo with _ | ⟨⟨field, data⟩, rest⟩
  · trivial
  · refine ⟨length_replicate, fun target ht => ?_⟩
    simp [getElem?_replicate] at ht

theorem PublishInv.setCall {stage : PublishStage} (h : PublishInv targetKeys w)
    (hstage : StageOk targetKeys w.stored stage) :
    PublishInv targetKeys { w with calls := w.calls.set n stage } where
  flagged := h.flagged
  completed := h.completed
  stages m stage' hm := by
    rcases getElem?_set_cases hm with ⟨-, rfl⟩ | ⟨-, hold⟩
    · exact hstage
    · exact h.stages m stage' hold

theorem PublishInv.publish (h : PublishInv targetKeys w) : PublishInv targetKeys { w with
      dirty := update w.dirty field true
      calls := w.calls ++ [.marked field data]
      newest := update w.newest field (some data) } where
  completed := h.completed
  flagged other := by
    by_cases hother : other = field
    · subst hother
      exact .inl (update_self ..)
    rcases h.flagged other with hdirty | hstored
    · exact .inl ((update_of_ne hother ..).trans hdirty)
    refine .inr fun newest hnewest => hstored newest ?_
    dsimp only at hnewest
    rwa [update_of_ne hother] at hnewest
  stages m stage hm := by
    rcases getElem?_concat_cases hm with ⟨-, rfl⟩ | hold
    · trivial
    · exact h.stages m stage hold

theorem PublishInv.settled {target : Nat} {result : TargetResult} (h : PublishInv targetKeys w)
    (hcall : w.calls[n]? = some (.publishing field data results rest))
    (hsub : ∀ r ∈ w.stored, r ∈ stored)
    (hresult : result = .fulfilled → (target, field, data) ∈ stored) :
    PublishInv targetKeys { w with
      calls := w.calls.set n (.publishing field data (results.set target (some result)) rest)
      stored } where
  flagged other := by
    rcases h.flagged other with hdirty | hall
    · exact .inl hdirty
    refine .inr fun newest hnewest t ht => ?_
    obtain ⟨data', hle, hmem⟩ := hall newest hnewest t ht
    exact ⟨data', hle, hsub _ hmem⟩
  completed p hp t ht := hsub _ (h.completed p hp t ht)
  stages m stage hm := by
    rcases getElem?_set_cases hm with ⟨-, rfl⟩ | ⟨-, hold⟩
    · obtain ⟨hlength, htaken⟩ := (h.stages n _ hcall).mono hsub
      refine ⟨by rw [length_set, hlength], fun t ht => ?_⟩
      rcases getElem?_set_cases ht with ⟨rfl, heq⟩ | ⟨-, hold⟩
      · exact hresult (Option.some.inj heq).symm
      · exact htaken t hold
    · exact (h.stages m stage hold).mono hsub

theorem stored_of_publishToAll (h : StageOk targetKeys stored (.publishing field data results rest))
    (hsettled : results.all Option.isSome = true)
    (hok : publishToAll targetKeys (results.filterMap id) = .ok ()) :
    ∀ target < targetKeys.length, (target, field, data) ∈ stored := by
  intro target htarget
  obtain ⟨hlength, htaken⟩ := h
  rw [← hlength] at htarget
  have hmem := getElem_mem htarget
  obtain ⟨result, hresult⟩ := Option.isSome_iff_exists.mp (all_eq_true.mp hsettled _ hmem)
  have hfulfilled : result = .fulfilled := by
    apply publishToAll_ok.mp hok
    exact mem_filterMap.mpr ⟨_, hmem, hresult⟩
  apply htaken
  rw [getElem?_eq_getElem htarget, hresult, hfulfilled]

theorem PublishInv.finish (h : PublishInv targetKeys w)
    (hcall : w.calls[n]? = some (.publishing field data results rest))
    (hsettled : results.all Option.isSome = true) (hintime : w.InTime targetKeys (.finish n)) :
    PublishInv targetKeys (w.onSettled targetKeys n field data (results.filterMap id) rest) := by
  have hset := @PublishInv.setCall _ _ n _ h (stageOk_nextStage rest)
  unfold onSettled
  dsimp only
  split
  · next hok =>
    have hthere := stored_of_publishToAll (h.stages n _ hcall) hsettled hok
    refine ⟨fun other => ?_, hset.stages, fun p hp => ?_⟩
    · by_cases hother : other = field
      · subst hother
        refine .inr fun newest hnewest target htarget => ?_
        simp only [InTime, hcall] at hintime
        rcases hintime hok newest hnewest with hle | ⟨p, hp, rfl, hle⟩
        · exact ⟨data, hle, hthere target htarget⟩
        · exact ⟨p.2, hle, h.completed p hp target htarget⟩
      · rcases h.flagged other with hdirty | hall
        · exact .inl ((update_of_ne hother ..).trans hdirty)
        · exact .inr hall
    · rcases mem_append.mp hp with hold | hnew
      · exact h.completed p hold
      · rw [mem_singleton.mp hnew]
        exact hthere
  · next e _ =>
    rcases e with error | ⟨succeeded, failed, cause⟩
    · exact ⟨hset.flagged, hset.stages, hset.completed⟩
    · exact ⟨hset.flagged, hset.stages, hset.completed⟩

theorem PublishInv.step {i : Input} (h : PublishInv targetKeys w)
    (hintime : w.InTime targetKeys i) (hs : w.step targetKeys i = some w') :
    PublishInv targetKeys w' := by
  rcases i with ⟨field, data⟩ | n | _ | ⟨n, data⟩ | n | ⟨n, target, result, taken⟩ | n
  · simp only [PublishSystem.step] at hs
    split at hs
    · cases hs
      exact h.publish
    · cases hs
  · simp only [PublishSystem.step] at hs
    split at hs
    · cases hs
      exact h.setCall (stageOk_nextStage _)
    · cases hs
  · cases hs
    refine ⟨h.flagged, fun m stage hm => ?_, h.completed⟩
    rcases getElem?_concat_cases hm with ⟨-, rfl⟩ | hold
    · split <;> trivial
    · exact h.stages m stage hold
  · simp only [PublishSystem.step] at hs
    split at hs
    · cases hs
      exact h.setCall (stageOk_nextStage _)
    · cases hs
  · simp only [PublishSystem.step] at hs
    split at hs
    · cases hs
      exact h.setCall trivial
    · cases hs
  · simp only [PublishSystem.step] at hs
    split at hs
    · next field data results rest hcall =>
      split at hs
      · cases hs
        apply h.settled hcall
        · intro r hr
          split
          · exact mem_append_left _ hr
          · exact hr
        · rintro rfl
          simp
      · cases hs
    · cases hs
  · simp only [PublishSystem.step] at hs
    split at hs
    · next field data results rest hcall =>
      split at hs
      · next hsettled =>
        cases hs
        exact h.finish hcall hsettled hintime
      · cases hs
    · cases hs

/-- **What is missing somewhere is flagged.**  In a run in which no call clears the flag of
    newer data that has not got through, the flag of a field is set whenever some target lacks
    its newest data. -/
theorem unpublished_is_dirty
    (h : Reaches (PublishSystem.step targetKeys) (InTime targetKeys) start w)
    (field : PublishStateField) (hmissing : ¬ w.StoredByAll targetKeys field) :
    w.dirty field = true := by
  have hstart : PublishInv targetKeys start := by
    refine ⟨fun field => .inr fun newest hnewest => ?_, fun n stage hn => ?_, fun p hp => ?_⟩
    · cases hnewest
    · cases hn
    · cases hp
  have hinv := h.invariant hstart fun s i s' hs hi hstep => hs.step hi hstep
  exact (hinv.flagged field).resolve_right hmissing

end

def timeout : PublishFailure := ⟨"AbortError", "signal is aborted without reason"⟩

/-- The older publication gets through; the newer one misses a target and stays flagged. -/
theorem unpublished_is_dirty_partly :
    ∃ w, Reaches (step ["box", "public"]) (InTime ["box", "public"]) start w ∧
      (∀ stage ∈ w.calls, stage = .done) ∧ w.dirty .profile = true := by
  obtain ⟨w, hreach, htest⟩ := Reaches.of_exec (step ["box", "public"])
    (InTime ["box", "public"]) start
    [.publish .profile 1, .marked 0, .settled 0 0 .fulfilled true, .settled 0 1 .fulfilled true,
      .finish 0, .publish .profile 2, .marked 1, .settled 1 0 (.rejected timeout) false,
      .settled 1 1 .fulfilled true, .finish 1]
    (fun w => decide (w.calls = [.done, .done] ∧ w.newest .profile = some 2 ∧
      ∀ r ∈ w.stored, r.1 = 0 → r.2.2 = 1))
    (by decide +kernel)
  obtain ⟨hcalls, hnewest, hstored⟩ := of_decide_eq_true htest
  refine ⟨w, hreach, by simp [hcalls], unpublished_is_dirty hreach .profile fun hall => ?_⟩
  obtain ⟨data, hle, hmem⟩ := hall 2 hnewest 0 (by decide)
  have hold := hstored _ hmem rfl
  dsimp only at hold
  omega

/-- The newer publication fails, and the older one, which ends after it, clears the flag. -/
theorem late_publish_clears_newer :
    ¬ ∀ (targetKeys : List String) (w : PublishSystem) (field : PublishStateField),
      targetKeys ≠ [] → Reaches (step targetKeys) (fun _ _ => True) start w →
      (∀ stage ∈ w.calls, stage = .done) → ¬ w.StoredByAll targetKeys field →
      w.dirty field = true := by
  obtain ⟨w, hreach, htest⟩ := Reaches.of_exec (step ["box"]) (fun _ _ => True) start
    [.publish .profile 1, .marked 0, .publish .profile 2, .marked 1,
      .settled 1 0 (.rejected timeout) false, .finish 1, .settled 0 0 .fulfilled true, .finish 0]
    (fun w => decide (w.calls = [.done, .done] ∧ w.newest .profile = some 2 ∧
      w.stored = [(0, .profile, 1)] ∧ w.dirty .profile = false))
    (by decide +kernel)
  obtain ⟨hcalls, hnewest, hstored, hclean⟩ := of_decide_eq_true htest
  intro h
  have hdirty := h ["box"] w .profile (by simp) hreach (by simp [hcalls]) fun hall => by
    obtain ⟨data, hle, hmem⟩ := hall 2 hnewest 0 (by decide)
    simp only [hstored, mem_singleton, Prod.mk.injEq, true_and] at hmem
    omega
  rw [hclean] at hdirty
  cases hdirty

end PublishSystem

end WebOfTrust
