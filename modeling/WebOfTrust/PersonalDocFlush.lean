/-
  **Is a flush of the personal document durable?**  (`flushYjsPersonalDoc`,
  `pushToCompactStore`; `recordConfirmedMembershipRemoval` waits for it before the signal of
  the removal is consumed.)

  The snapshots of a document that only grows are handed to the store in order, so a save
  that takes effect stores every change before it.  A save that rejects is logged and
  forgotten: the flush resolves all the same (`flush_forgets`).  It also resolves before the
  transaction of its save has ended, and at once on a manager that is closed.  Where nothing
  is saved only if the store has everything already, and the transaction of a flush is over
  when the flush resolves, whatever a flush has resolved for is stored for good
  (`flush_durable`).
-/
import WebOfTrust.AsyncPhases
import WebOfTrust.PersonalDoc

namespace WebOfTrust

open Async List

namespace PersonalDocManager

/-! ## 1. What only grows -/

def Recorded (eventId : String) (doc : List DocUpdate) : Prop :=
  ∃ entry, .removal entry ∈ doc ∧ entry.eventId = eventId

theorem Recorded.mono {eventId : String} {doc doc' : List DocUpdate} (h : Recorded eventId doc)
    (hsub : doc ⊆ doc') : Recorded eventId doc' := by
  obtain ⟨entry, hentry, hid⟩ := h
  exact ⟨entry, hsub hentry, hid⟩

def Saved (w : PersonalDocManager) (request : Nat) : Prop :=
  w.committing = some request ∨ ∀ u, w.requests[request]? = some u → u ⊆ w.stored

structure Grows (w w' : PersonalDocManager) : Prop where
  ydoc : w.ydoc ⊆ w'.ydoc
  stored : w.stored ⊆ w'.stored
  requests : w.requests <+: w'.requests
  committing : ∀ request, w.committing = some request →
    w'.committing = some request ∨ ∀ u, w.requests[request]? = some u → u ⊆ w'.stored

theorem Grows.refl (w : PersonalDocManager) : Grows w w :=
  ⟨Subset.refl _, Subset.refl _, prefix_rfl, fun _ => .inl⟩

variable {w w' : PersonalDocManager}

theorem Grows.request {request : Nat} {u : List DocUpdate} (h : Grows w w')
    (hu : w.requests[request]? = some u) : w'.requests[request]? = some u := by
  obtain ⟨more, hmore⟩ := h.requests
  rw [← hmore, getElem?_append_left (List.getElem?_eq_some_iff.mp hu).1]
  exact hu

theorem Grows.trans {w'' : PersonalDocManager} (h : Grows w w') (h' : Grows w' w'') : Grows w w'' :=
  ⟨List.Subset.trans h.ydoc h'.ydoc, List.Subset.trans h.stored h'.stored,
    h.requests.trans h'.requests, fun request hrequest => by
      rcases h.committing request hrequest with hopen | hstored
      · exact (h'.committing request hopen).imp_right fun hstored u hu => hstored u (h.request hu)
      · exact .inr fun u hu => List.Subset.trans (hstored u hu) h'.stored⟩

/-- The snapshots are in order, and none that is still to be stored is behind the store. -/
structure Ordered (w : PersonalDocManager) : Prop where
  growing : w.requests.Pairwise (· ⊆ ·)
  taken : ∀ u ∈ w.requests, u ⊆ w.ydoc
  loaded : w.stored ⊆ w.ydoc
  sorted : w.saves.Pairwise (· < ·)
  known : ∀ request ∈ w.saves, request < w.requests.length
  behind : ∀ request ∈ w.saves, ∀ u, w.requests[request]? = some u → w.stored ⊆ u
  committing : ∀ request, w.committing = some request →
    (∀ later ∈ w.saves, request < later) ∧ ∃ u, w.requests[request]? = some u ∧ w.stored ⊆ u
  flushed : ∀ before ∈ w.flushed, before ⊆ w.stored
  consumed : ∀ entry ∈ w.consumed, Recorded entry.eventId w.stored

theorem ordered_start (cfg : PersonalDocConfig) (compactStore : Option (List DocUpdate))
    (vault : List (Nat × List DocUpdate)) (memberUpdateStore : List MemberUpdateSignal) :
    Ordered (start cfg compactStore vault memberUpdateStore) where
  growing := Pairwise.nil
  taken _ h := by cases h
  loaded := Subset.refl _
  sorted := Pairwise.nil
  known _ h := by cases h
  behind _ h := by cases h
  committing _ h := by cases h
  flushed _ h := by cases h
  consumed _ h := by cases h

theorem Ordered.restart {cfg : PersonalDocConfig} (h : Ordered w) : Ordered (restart cfg w) where
  growing := Pairwise.nil
  taken _ h := by cases h
  loaded := Subset.refl _
  sorted := Pairwise.nil
  known _ h := by cases h
  behind _ h := by cases h
  committing _ h := by cases h
  flushed := h.flushed
  consumed := h.consumed

def Advances (w w' : PersonalDocManager) : Prop := Ordered w → Grows w w' ∧ Ordered w'

theorem Advances.refl (w : PersonalDocManager) : Advances w w := fun h => ⟨.refl w, h⟩

theorem Advances.trans {w'' : PersonalDocManager} (h : Advances w w') (h' : Advances w' w'') :
    Advances w w'' := by
  intro hw
  obtain ⟨hgrows, hw'⟩ := h hw
  obtain ⟨hgrows', hw''⟩ := h' hw'
  exact ⟨hgrows.trans hgrows', hw''⟩

theorem Advances.of_eq (hydoc : w'.ydoc = w.ydoc) (hstore : w'.compactStore = w.compactStore)
    (hrequests : w'.requests = w.requests) (hsaves : w'.saves = w.saves)
    (hcommitting : w'.committing = w.committing) (hflushed : w'.flushed = w.flushed)
    (hconsumed : w'.consumed = w.consumed) : Advances w w' := by
  have hstored : w'.stored = w.stored := by
    rw [stored, hstore]
    rfl
  intro h
  constructor
  · constructor
    · rw [hydoc]
      exact Subset.refl _
    · rw [hstored]
      exact Subset.refl _
    · exact hrequests ▸ prefix_rfl
    · exact fun request hrequest => .inl (hcommitting.trans hrequest)
  · constructor
    · rw [hrequests]
      exact h.growing
    · rw [hrequests, hydoc]
      exact h.taken
    · rw [hstored, hydoc]
      exact h.loaded
    · rw [hsaves]
      exact h.sorted
    · rw [hsaves, hrequests]
      exact h.known
    · rw [hsaves, hrequests, hstored]
      exact h.behind
    · rw [hcommitting, hsaves, hrequests, hstored]
      exact h.committing
    · rw [hflushed, hstored]
      exact h.flushed
    · rw [hconsumed, hstored]
      exact h.consumed

/-! ## 2. The operations -/

theorem advances_requestSave (w : PersonalDocManager) : Advances w w.requestSave := by
  intro h
  constructor
  · exact ⟨Subset.refl _, Subset.refl _, prefix_append _ _, fun _ => .inl⟩
  · constructor
    · apply pairwise_append.mpr
      refine ⟨h.growing, pairwise_singleton _ _, ?_⟩
      intro u hu u' hu'
      rw [mem_singleton.mp hu']
      exact h.taken u hu
    · intro u hu
      rcases mem_append.mp hu with hu | hu
      · exact h.taken u hu
      · rw [mem_singleton.mp hu]
        exact Subset.refl _
    · exact h.loaded
    · apply pairwise_append.mpr
      refine ⟨h.sorted, pairwise_singleton _ _, ?_⟩
      intro request hrequest _ hnew
      rw [mem_singleton.mp hnew]
      exact h.known request hrequest
    · intro request hrequest
      show request < (w.requests ++ [w.ydoc]).length
      rw [length_append, length_singleton]
      rcases mem_append.mp hrequest with hrequest | hrequest
      · have hlt := h.known request hrequest
        omega
      · rw [mem_singleton.mp hrequest]
        omega
    · intro request hrequest u hu
      rcases mem_append.mp hrequest with hrequest | hrequest
      · apply h.behind request hrequest u
        have hu : (w.requests ++ [w.ydoc])[request]? = some u := hu
        rwa [getElem?_append_left (h.known request hrequest)] at hu
      rw [mem_singleton.mp hrequest] at hu
      have hu : (w.requests ++ [w.ydoc])[w.requests.length]? = some u := hu
      rw [getElem?_concat_length] at hu
      rw [← Option.some.inj hu]
      exact h.loaded
    · intro request hrequest
      obtain ⟨hlater, u, hu, hstored⟩ := h.committing request hrequest
      have hlt := (List.getElem?_eq_some_iff.mp hu).1
      refine ⟨?_, u, ?_, hstored⟩
      · intro later hmem
        rcases mem_append.mp hmem with hmem | hmem
        · exact hlater later hmem
        · rw [mem_singleton.mp hmem]
          exact hlt
      · exact (getElem?_append_left hlt).trans hu
    · exact h.flushed
    · exact h.consumed

theorem advances_answerSave (failure : Option String) (w : PersonalDocManager)
    (hopen : w.committing = none) : Advances w (w.answerSave failure) := by
  intro h
  unfold answerSave
  split
  · exact ⟨.refl w, h⟩
  next request rest hsaves =>
  have hrest : rest ⊆ w.saves := hsaves ▸ subset_cons_self _ _
  have hsorted := h.sorted
  rw [hsaves, pairwise_cons] at hsorted
  refine ⟨⟨Subset.refl _, Subset.refl _, prefix_rfl, fun r hr => by rw [hopen] at hr; cases hr⟩,
    h.growing, h.taken, h.loaded, hsorted.2, fun r hr => h.known r (hrest hr),
    fun r hr => h.behind r (hrest hr), fun r hr => ?_, h.flushed, h.consumed⟩
  dsimp only at hr
  split at hr <;> cases hr
  have hhead : request ∈ w.saves := hsaves ▸ mem_cons_self
  have hlt := h.known request hhead
  have hu : w.requests[request]? = some w.requests[request] := getElem?_eq_getElem hlt
  exact ⟨hsorted.1, _, hu, h.behind request hhead _ hu⟩

theorem advances_transactionEnds (failure : Option String) (w : PersonalDocManager)
    (haborted : failure ≠ none → ∀ request u, w.committing = some request →
      w.requests[request]? = some u → u ⊆ w.stored) : Advances w (w.transactionEnds failure) := by
  intro h
  unfold transactionEnds
  cases failure with
  | some text =>
    refine ⟨⟨Subset.refl _, Subset.refl _, prefix_rfl, fun request hrequest => .inr fun u hu => ?_⟩,
      h.growing, h.taken, h.loaded, h.sorted, h.known, h.behind, nofun, h.flushed, h.consumed⟩
    exact haborted nofun request u hrequest hu
  | none =>
    cases hrequest : w.committing with
    | none =>
      have hnone : ∀ r, w.committing ≠ some r := fun r hr => nomatch hrequest.symm.trans hr
      exact ⟨⟨Subset.refl _, Subset.refl _, prefix_rfl, fun r hr => absurd hr (hnone r)⟩,
        h.growing, h.taken, h.loaded, h.sorted, h.known, h.behind, nofun, h.flushed, h.consumed⟩
    | some request =>
      obtain ⟨hlater, u, hu, hstored⟩ := h.committing request hrequest
      obtain ⟨hlt, rfl⟩ := List.getElem?_eq_some_iff.mp hu
      simp only [Option.isSome_none, Bool.false_eq_true, if_false, Option.bind_some, hu,
        Option.some_or]
      refine ⟨⟨Subset.refl _, hstored, prefix_rfl, fun r hr => .inr fun v hv => ?_⟩, h.growing,
        h.taken, h.taken _ (getElem_mem hlt), h.sorted, h.known, fun r hr v hv => ?_, nofun,
        fun before hbefore => List.Subset.trans (h.flushed before hbefore) hstored,
        fun entry hentry => (h.consumed entry hentry).mono hstored⟩
      · cases hrequest.symm.trans hr
        cases hu.symm.trans hv
        exact Subset.refl _
      · obtain ⟨hlt', rfl⟩ := List.getElem?_eq_some_iff.mp hv
        exact List.pairwise_iff_getElem.mp h.growing request r hlt hlt' (hlater r hr)

section

variable (cfg : PersonalDocConfig) (w : PersonalDocManager)

theorem advances_scheduleCompact : Advances w (scheduleCompact cfg w) := by
  unfold scheduleCompact
  have hset : ∀ s, Advances w { w with compactScheduler := s } :=
    fun s => .of_eq rfl rfl rfl rfl rfl rfl rfl
  dsimp only
  split
  · exact (hset _).trans (advances_requestSave _)
  · exact hset _

theorem advances_scheduleVault : Advances w (scheduleVault cfg w) := by
  unfold scheduleVault
  split
  · exact .of_eq rfl rfl rfl rfl rfl rfl rfl
  · exact .refl w

theorem advances_pushImmediate : Advances w (pushImmediate cfg w) := by
  have hdisarmed : Advances w { w with
        compactScheduler := w.compactScheduler.disarmed
        vaultScheduler := w.vaultScheduler.disarmed } := .of_eq rfl rfl rfl rfl rfl rfl rfl
  exact (hdisarmed.trans (advances_scheduleCompact cfg _)).trans (advances_scheduleVault cfg _)

theorem advances_compactTimer : Advances w (compactTimer cfg w) := by
  have hdisarmed : Advances w { w with compactScheduler := w.compactScheduler.disarmed } :=
    .of_eq rfl rfl rfl rfl rfl rfl rfl
  exact hdisarmed.trans (advances_scheduleCompact cfg _)

theorem advances_vaultTimer : Advances w (vaultTimer cfg w) := by
  have hdisarmed : Advances w { w with vaultScheduler := w.vaultScheduler.disarmed } :=
    .of_eq rfl rfl rfl rfl rfl rfl rfl
  exact hdisarmed.trans (advances_scheduleVault cfg _)

theorem advances_schedulerFlush : Advances w (schedulerFlush cfg w) := by
  have hcompact : Advances w
      (if w.compactScheduler.debounceTimer then compactTimer cfg w else w) := by
    split
    · exact advances_compactTimer cfg w
    · exact .refl w
  have hvault : ∀ w', Advances w'
      (if w'.vaultScheduler.debounceTimer then vaultTimer cfg w' else w') := by
    intro w'
    split
    · exact advances_vaultTimer cfg w'
    · exact .refl w'
  exact hcompact.trans (hvault _)

theorem advances_updates (updates : List DocUpdate) :
    Advances w { w with ydoc := w.ydoc ++ updates } := by
  intro h
  have hsub : w.ydoc ⊆ w.ydoc ++ updates := subset_append_left _ _
  refine ⟨⟨hsub, Subset.refl _, prefix_rfl, fun _ => .inl⟩, ?_⟩
  exact ⟨h.growing, fun u hu => List.Subset.trans (h.taken u hu) hsub,
    List.Subset.trans h.loaded hsub, h.sorted, h.known, h.behind, h.committing, h.flushed,
    h.consumed⟩

theorem advances_changeYjsPersonalDoc (update : Option DocUpdate) (background : Bool) :
    Advances w (changeYjsPersonalDoc cfg update background w).2 := by
  unfold changeYjsPersonalDoc
  split
  · exact .refl w
  apply (advances_updates w update.toList).trans
  dsimp only
  split
  · exact .of_eq rfl rfl rfl rfl rfl rfl rfl
  · exact advances_pushImmediate cfg _

theorem advances_remoteUpdate (update : DocUpdate) : Advances w (remoteUpdate update w) := by
  unfold remoteUpdate
  split
  · exact .refl w
  apply (advances_updates w [update]).trans
  exact .of_eq rfl rfl rfl rfl rfl rfl rfl

end

/-! ## 3. The programs -/

/-- Nothing is saved only where the store has it already, and a flush resolves behind its
    transaction; everybody else only adds. -/
def flushContract : Contract PersonalDocPoint PersonalDocInput PersonalDocManager where
  inv := Ordered
  rely _ := Grows
  may t i w :=
    match t with
    | .encodeState => w.closed = true → w.ydoc ⊆ w.stored
    | .flushSave request => i.failure ≠ none → ∀ u, w.requests[request]? = some u → u ⊆ w.stored
    | .transactionEnds => i.failure ≠ none → ∀ request u, w.committing = some request →
        w.requests[request]? = some u → u ⊆ w.stored
    | .flushed request => ∀ r, request = some r → w.committing ≠ some r
    | _ => True
  guar _ _ := Grows

theorem grows_of_star {t : PersonalDocPoint}
    (h : Relation.ReflTransGen (flushContract.rely t) w w') :
    Grows w w' :=
  relies_of_star (r := Grows) .refl (fun _ _ _ => Grows.trans) h

abbrev Onward {α : Type} (p : PersonalDocProgram α) : Prop :=
  Steps (fun _ => True) (fun _ _ => Advances) p

theorem Onward.meets {α : Type} {p : PersonalDocProgram α} (h : Onward p)
    {P : PersonalDocManager → Prop} (hP : ∀ w w', Grows w w' → P w → P w') (hw : P w) :
    Meets flushContract (fun _ => P) (fun _ => P) p w := by
  apply Steps.meets h (fun _ => hP) ?_ hw
  intro t i w w' _ hinv _ hPw hadvances
  obtain ⟨hgrows, hordered⟩ := hadvances hinv
  exact ⟨hordered, hgrows, hP w w' hgrows hPw⟩

section

variable (cfg : PersonalDocConfig)

theorem onward_putToVault (docBinary : List DocUpdate) : Onward (putToVault docBinary) := by
  apply steps_tryCatch
  · apply steps_bind
    · apply steps_atomic trivial
      intro i w
      split
      · exact .refl w
      · exact .of_eq rfl rfl rfl rfl rfl rfl rfl
    intro seq
    apply steps_atomic trivial
    intro i w
    split
    · exact .refl w
    · exact .of_eq rfl rfl rfl rfl rfl rfl rfl
  · exact fun _ => trivial

theorem onward_pushToVault : Onward (pushToVault cfg) := by
  apply steps_bind (steps_query trivial fun _ w => .refl w)
  intro docBinary
  cases docBinary with
  | none => trivial
  | some docBinary => exact onward_putToVault docBinary

theorem onward_compactPush : Onward (compactPush cfg) := by
  apply steps_bind
  · apply steps_await trivial
    intro i w hready
    have hopen : w.committing = none := by
      unfold compactReady at hready
      split at hready
      · simpa using (Bool.and_eq_true_iff.mp hready).2
      · cases hready
    have hbegin : Advances w { w with compactScheduler := w.compactScheduler.begin } :=
      .of_eq rfl rfl rfl rfl rfl rfl rfl
    exact hbegin.trans (advances_answerSave i.failure _ hopen)
  intro _
  apply steps_bind (steps_mutate trivial fun _ w => .of_eq rfl rfl rfl rfl rfl rfl rfl)
  intro _
  apply steps_mutate trivial
  intro _ w
  have hended : Advances w { w with compactScheduler := w.compactScheduler.pushEnded } :=
    .of_eq rfl rfl rfl rfl rfl rfl rfl
  dsimp only
  split
  · exact hended.trans (advances_scheduleCompact cfg _)
  · exact hended

theorem onward_vaultPush : Onward (vaultPush cfg) := by
  apply steps_bind (steps_await trivial fun _ w _ => .of_eq rfl rfl rfl rfl rfl rfl rfl)
  intro docBinary
  have hended : Onward (do
      mutate .vaultPushed fun _ w => { w with vaultScheduler := w.vaultScheduler.pushed }
      mutate .vaultPushEnded fun _ w =>
        let again := w.vaultScheduler.pendingAfterPush
        let w := { w with vaultScheduler := w.vaultScheduler.pushEnded }
        if again && !w.closed then scheduleVault cfg w else w : PersonalDocProgram Unit) := by
    apply steps_bind (steps_mutate trivial fun _ w => .of_eq rfl rfl rfl rfl rfl rfl rfl)
    intro _
    apply steps_mutate trivial
    intro _ w
    have hset : Advances w { w with vaultScheduler := w.vaultScheduler.pushEnded } :=
      .of_eq rfl rfl rfl rfl rfl rfl rfl
    dsimp only
    split
    · exact hset.trans (advances_scheduleVault cfg _)
    · exact hset
  cases docBinary with
  | none => exact hended
  | some docBinary => exact steps_bind (onward_putToVault docBinary) fun _ => hended

/-- What a flush knows of its save: the document as it was called is in the snapshot that it
    has requested, or is stored. -/
def Requested (known : List DocUpdate) (result : Option Nat × List DocUpdate)
    (w : PersonalDocManager) : Prop :=
  known ⊆ result.2 ∧
    match result.1 with
    | none => result.2 ⊆ w.stored
    | some request => w.requests[request]? = some result.2 ∧ Saved w request

theorem Requested.grows {known : List DocUpdate} {result : Option Nat × List DocUpdate}
    (hgrows : Grows w w') (h : Requested known result w) : Requested known result w' := by
  obtain ⟨request, update⟩ := result
  obtain ⟨hknown, hrest⟩ := h
  refine ⟨hknown, ?_⟩
  cases request with
  | none => exact List.Subset.trans hrest hgrows.stored
  | some request =>
    obtain ⟨hrequest, hsaved⟩ := hrest
    have hkept := hgrows.request hrequest
    have hsame : ∀ u, w'.requests[request]? = some u → w.requests[request]? = some u :=
      fun u hu => hrequest.trans (hkept.symm.trans hu)
    refine ⟨hkept, ?_⟩
    rcases hsaved with hopen | hstored
    · exact (hgrows.committing request hopen).imp_right fun h u hu => h u (hsame u hu)
    · exact .inr fun u hu => List.Subset.trans (hstored u (hsame u hu)) hgrows.stored

theorem meets_pushToCompactStore {known : List DocUpdate} (hknown : known ⊆ w.ydoc) :
    Meets flushContract (Requested known) (fun _ _ => False) pushToCompactStore w := by
  apply meets_bind
  apply meets_atomic
  intro w₁ hstar hinv i hmay
  have hupdate : known ⊆ w₁.ydoc := List.Subset.trans hknown (grows_of_star hstar).ydoc
  by_cases hclosed : w₁.closed = true
  · simp only [hclosed, if_true]
    refine ⟨hinv, .refl w₁, ?_, fun e he => (by cases he)⟩
    rintro _ ⟨⟩
    exact ⟨hupdate, hmay hclosed⟩
  simp only [hclosed]
  obtain ⟨hgrows, hordered⟩ := advances_requestSave w₁ hinv
  refine ⟨hordered, hgrows, ?_, fun e he => (by cases he)⟩
  rintro _ ⟨⟩
  have hrequest : w₁.requestSave.requests[w₁.requests.length]? = some w₁.ydoc :=
    getElem?_concat_length
  apply meets_bind
  apply meets_tryCatch
  apply meets_await
  intro w₂ hstar₂ hinv₂ i₂ hready hmay₂
  obtain ⟨hhead, hopen⟩ := (Bool.and_eq_true _ _).mp hready
  have hhead : w₂.saves.head? = some w₁.requests.length := of_decide_eq_true hhead
  have hkept : w₂.requests[w₁.requests.length]? = some w₁.ydoc :=
    (grows_of_star hstar₂).request hrequest
  obtain ⟨hgrows₂, hordered₂⟩ := advances_answerSave i₂.failure w₂ (by simpa using hopen) hinv₂
  cases hfailure : i₂.failure with
  | some text =>
    rw [hfailure] at hgrows₂ hordered₂
    refine ⟨hordered₂, hgrows₂, fun a ha => (by cases ha), fun e _ => ?_⟩
    refine Requested.grows hgrows₂ ⟨hupdate, hkept, .inr ?_⟩
    exact hmay₂ (by rw [hfailure]; exact Option.some_ne_none _)
  | none =>
    rw [hfailure] at hgrows₂ hordered₂
    refine ⟨hordered₂, hgrows₂, fun a _ => ?_, fun e he => (by cases he)⟩
    obtain ⟨rest, hsaves⟩ := head?_eq_some_iff.mp hhead
    have hanswered : w₂.answerSave none =
        { w₂ with saves := rest, committing := some w₁.requests.length } := by
      simp [answerSave, hsaves]
    refine ⟨hupdate, ?_⟩
    rw [hanswered]
    exact ⟨hkept, .inl rfl⟩

theorem meets_flushYjsPersonalDoc {known : List DocUpdate} (hknown : known ⊆ w.ydoc) :
    Meets flushContract (fun before w' => known ⊆ before ∧ before ⊆ w'.stored) (fun _ _ => True)
      (flushYjsPersonalDoc cfg) w := by
  apply meets_bind
  apply (meets_pushToCompactStore hknown).mono ?_ fun _ _ h => h.elim
  rintro ⟨request, before⟩ w₁ hrequested
  apply meets_bind
  apply (Onward.meets (onward_pushToVault cfg) (fun _ _ => Requested.grows) hrequested).mono ?_
    fun _ _ _ => trivial
  intro _ w₂ hrequested₂
  apply meets_bind
  apply meets_mutate
  intro w₃ hstar hinv i hmay
  obtain ⟨hbefore, hrest⟩ := hrequested₂.grows (grows_of_star hstar)
  -- The transaction of the flush is over, and has not been lost.
  have hstored₃ : before ⊆ w₃.stored := by
    cases request with
    | none => exact hrest
    | some r => exact hrest.2.resolve_left (hmay r rfl) before hrest.1
  refine ⟨?_, ⟨Subset.refl _, Subset.refl _, prefix_rfl, fun _ => .inl⟩, hbefore, hstored₃⟩
  refine ⟨hinv.growing, hinv.taken, hinv.loaded, hinv.sorted, hinv.known, hinv.behind,
    hinv.committing, ?_, hinv.consumed⟩
  intro b hb
  rcases mem_append.mp hb with hb | hb
  · exact hinv.flushed b hb
  · rw [mem_singleton.mp hb]
    exact hstored₃

theorem mem_membershipRemovals {doc : List DocUpdate} {entry : MembershipRemovalDoc}
    (h : entry ∈ cfg.membershipRemovals doc) : .removal entry ∈ doc := by
  revert h
  refine List.foldlRecOn (motive := fun removals => entry ∈ removals → .removal entry ∈ doc)
    doc _ (fun h => absurd h not_mem_nil) fun removals ih update hupdate hin => ?_
  cases update with
  | change _ => exact ih hin
  | removal other =>
    dsimp only at hin
    split at hin
    · exact ih hin
    have hretained : entry ∈ removals ++ [other] := mem_mergeSort.mp (mem_of_mem_drop hin)
    rcases mem_append.mp hretained with hold | hnew
    · exact ih hold
    · rw [mem_singleton.mp hnew]
      exact hupdate

theorem ydoc_scheduleCompact (w : PersonalDocManager) : (scheduleCompact cfg w).ydoc = w.ydoc := by
  unfold scheduleCompact
  dsimp only
  split <;> rfl

theorem ydoc_scheduleVault (w : PersonalDocManager) : (scheduleVault cfg w).ydoc = w.ydoc := by
  unfold scheduleVault
  split <;> rfl

theorem recorded_change (entry : MembershipRemovalDoc) (w : PersonalDocManager)
    (hopen : w.closed = false) :
    Recorded entry.eventId
      (changeYjsPersonalDoc cfg (removalUpdate cfg entry w) false w).2.ydoc := by
  have hupdates : w.ydoc ++ (removalUpdate cfg entry w).toList ⊆
      (changeYjsPersonalDoc cfg (removalUpdate cfg entry w) false w).2.ydoc := by
    simp only [changeYjsPersonalDoc, hopen, Bool.false_eq_true, if_false]
    rw [pushImmediate, ydoc_scheduleVault, ydoc_scheduleCompact]
    exact Subset.refl _
  apply Recorded.mono ?_ hupdates
  unfold removalUpdate
  split
  · next hany =>
    obtain ⟨r, hr, hid⟩ := any_eq_true.mp hany
    refine ⟨r, ?_, of_decide_eq_true hid⟩
    exact mem_append_left _ (mem_membershipRemovals cfg hr)
  · exact ⟨entry, mem_append_right _ mem_cons_self, rfl⟩

theorem meets_applyConfirmedRemoval (signal : MemberUpdateSignal) (w : PersonalDocManager) :
    Meets flushContract (fun _ _ => True) (fun _ _ => True) (applyConfirmedRemoval cfg signal) w := by
  apply meets_bind
  apply meets_atomic
  intro w₁ _ hinv i _
  obtain ⟨hgrows, hordered⟩ := advances_changeYjsPersonalDoc cfg w₁
    (removalUpdate cfg (cfg.removalEntry signal i.now) w₁) false hinv
  refine ⟨hordered, hgrows, fun entry hentry => ?_, fun _ _ => trivial⟩
  by_cases hclosed : w₁.closed = true
  · simp [changeYjsPersonalDoc, hclosed, Except.map] at hentry
  have hopen := Bool.eq_false_iff.mpr hclosed
  obtain rfl : cfg.removalEntry signal i.now = entry := by
    simpa [changeYjsPersonalDoc, hopen, Except.map] using hentry
  obtain ⟨recorded, hrecorded, hid⟩ :=
    recorded_change cfg (cfg.removalEntry signal i.now) w₁ hopen
  have hknown : [DocUpdate.removal recorded] ⊆ (changeYjsPersonalDoc cfg
      (removalUpdate cfg (cfg.removalEntry signal i.now) w₁) false w₁).2.ydoc := by
    intro u hu
    rw [mem_singleton.mp hu]
    exact hrecorded
  apply meets_bind
  apply (meets_flushYjsPersonalDoc cfg hknown).mono ?_ fun _ _ _ => trivial
  rintro before w₂ ⟨hbefore, hstored⟩
  apply meets_atomic
  intro w₃ hstar hinv₃ i₃ _
  cases i₃.failure with
  | some text => exact ⟨hinv₃, .refl w₃, fun _ _ => trivial, fun _ _ => trivial⟩
  | none =>
    have hkept : w₂.stored ⊆ w₃.stored := (grows_of_star hstar).stored
    refine ⟨?_, ⟨Subset.refl _, Subset.refl _, prefix_rfl, fun _ => .inl⟩, fun _ _ => trivial,
      fun _ _ => trivial⟩
    refine ⟨hinv₃.growing, hinv₃.taken, hinv₃.loaded, hinv₃.sorted, hinv₃.known, hinv₃.behind,
      hinv₃.committing, hinv₃.flushed, ?_⟩
    intro entry hentry
    rcases mem_append.mp hentry with hentry | hentry
    · exact hinv₃.consumed entry hentry
    · rw [mem_singleton.mp hentry, ← hid]
      exact ⟨recorded, hkept (hstored (hbefore mem_cons_self)), rfl⟩

end

/-! ## 4. Every run -/

/-- The store has all of `doc`. -/
def has (w : PersonalDocManager) (doc : List DocUpdate) : Bool :=
  doc.all fun u => decide (u ∈ w.stored)

def savesOrHas (c : PersonalDocConfiguration) : Action PersonalDocInput PersonalDocCall → Bool
  | .run n i =>
    match c.pointAt n with
    | some .encodeState => !c.world.closed || c.world.has c.world.ydoc
    | some (.flushSave request) =>
      i.failure.isNone || c.world.has (c.world.requests[request]?.getD [])
    | some .transactionEnds => i.failure.isNone ||
        c.world.has ((c.world.committing.bind (c.world.requests[·]?)).getD [])
    | some (.flushed request) => decide (request = none ∨ c.world.committing ≠ request)
    | _ => true
  | _ => true

abbrev SavesOrHas (c : PersonalDocConfiguration)
    (a : Action PersonalDocInput PersonalDocCall) : Prop :=
  savesOrHas c a = true

def FlushDurable (w : PersonalDocManager) : Prop :=
  (∀ before ∈ w.flushed, before ⊆ w.stored) ∧ ∀ entry ∈ w.consumed, Recorded entry.eventId w.stored

section

variable (cfg : PersonalDocConfig)

theorem meets_effect {α : Type} {p : PersonalDocProgram α}
    (h : Meets flushContract (fun _ _ => True) (fun _ _ => True) p w)
    {Q : PersonalDocResult → PersonalDocManager → Prop} (hQ : ∀ w', Q .done w') :
    Meets flushContract Q (fun _ _ => True) (quietly p) w := by
  apply meets_bind
  exact h.mono (fun _ w' _ => hQ w') fun _ _ _ => trivial

def Stored : PersonalDocResult → PersonalDocManager → Prop
  | .done, _ => True
  | .flushed before, w => before ⊆ w.stored

theorem meets_program (call : PersonalDocCall) (w : PersonalDocManager) :
    Meets flushContract Stored (fun _ _ => True) (call.program cfg) w := by
  have honward : ∀ {α : Type} {p : PersonalDocProgram α}, Onward p →
      Meets flushContract Stored (fun _ _ => True) (quietly p) w := by
    intro α p hp
    apply meets_effect ?_ fun _ => trivial
    exact hp.meets (fun _ _ _ _ => trivial) trivial
  cases call with
  | changeYjsPersonalDoc update background =>
    exact honward (steps_atomic trivial fun _ w => advances_changeYjsPersonalDoc cfg w _ _)
  | remoteUpdate update =>
    exact honward (steps_mutate trivial fun _ w => advances_remoteUpdate w update)
  | compactTimer => exact honward (steps_await trivial fun _ w _ => advances_compactTimer cfg w)
  | vaultTimer => exact honward (steps_await trivial fun _ w _ => advances_vaultTimer cfg w)
  | schedulerFlush => exact honward (steps_mutate trivial fun _ w => advances_schedulerFlush cfg w)
  | compactPush => exact honward (onward_compactPush cfg)
  | vaultPush => exact honward (onward_vaultPush cfg)
  | transactionEnds =>
    apply meets_effect (meets_await fun w' _ hinv i _ hmay => ?_) fun _ => trivial
    obtain ⟨hgrows, hordered⟩ := advances_transactionEnds i.failure w' hmay hinv
    exact ⟨hordered, hgrows, fun _ _ => trivial, fun _ _ => trivial⟩
  | resetYjsPersonalDoc =>
    exact honward (steps_mutate trivial fun _ w => .of_eq rfl rfl rfl rfl rfl rfl rfl)
  | flushYjsPersonalDoc =>
    apply meets_bind
    apply (meets_flushYjsPersonalDoc cfg (nil_subset _)).mono ?_ fun _ _ h => h
    exact fun before w' h => h.2
  | savePending signal =>
    exact honward (steps_mutate trivial fun _ w => .of_eq rfl rfl rfl rfl rfl rfl rfl)
  | applyConfirmedRemoval signal =>
    exact meets_effect (meets_applyConfirmedRemoval cfg signal w) fun _ => trivial

variable (compactStore : Option (List DocUpdate)) (vault : List (Nat × List DocUpdate))
  (memberUpdateStore : List MemberUpdateSignal)

theorem flush_verified :
    Verified (personalDocSystem cfg) SavesOrHas (start cfg compactStore vault memberUpdateStore)
      flushContract Stored fun _ _ => True where
  init := ordered_start cfg compactStore vault memberUpdateStore
  call c k _ _ := meets_program cfg k c.world
  may c n i t ha ht _ := by
    have ha : savesOrHas c (.run n i) = true := ha
    simp only [savesOrHas, ht] at ha
    have mem_of_has : ∀ doc : List DocUpdate, c.world.has doc = true → doc ⊆ c.world.stored :=
      fun doc hhas u hu => of_decide_eq_true (all_eq_true.mp hhas u hu)
    cases t with
    | encodeState =>
      intro hclosed
      exact mem_of_has _ (by simpa [hclosed] using ha)
    | flushSave request =>
      intro hfailure u hu
      exact mem_of_has u (by simpa [hfailure, hu] using ha)
    | transactionEnds =>
      intro hfailure request u hrequest hu
      exact mem_of_has u (by simpa [hfailure, hrequest, hu] using ha)
    | flushed request =>
      rintro r rfl
      exact (of_decide_eq_true ha).resolve_left (Option.some_ne_none r)
    | _ => trivial
  restart _ _ h := h.restart
  quiet _ _ _ _ _ _ _ _ hguar _ _ _ _ := hguar
  result a _ _ _ _ hguar h := by
    cases a with
    | done => trivial
    | flushed before => exact List.Subset.trans h hguar.stored
  error _ _ _ _ _ _ _ := trivial

/-- **Flushes are durable** in every run in which a flush that saves nothing (its save rejects,
    the transaction is aborted, or the manager is closed) finds everything stored already, and
    none resolves while its transaction is open: a flush that has resolved has stored what the
    document held, for good, and so has the removal whose signal is consumed. -/
theorem flush_durable : ∀ c, Reachable (personalDocSystem cfg) SavesOrHas
      (start cfg compactStore vault memberUpdateStore) c → FlushDurable c.world ∧
        ∀ (n : Nat) before, c.procs[n]? = some (.ret (.flushed before)) →
          before ⊆ c.world.stored := by
  intro c h
  have V := flush_verified cfg compactStore vault memberUpdateStore
  have hinv := V.inv h
  exact ⟨⟨hinv.flushed, hinv.consumed⟩, fun n before hn => V.returned h hn⟩

end

/-! ## 5. A store that is full -/

def plainDoc : PersonalDocConfig where
  stateVector doc := toString doc.length
  hasData doc := !doc.isEmpty
  localeCompare left right := compare left right
  removalTuple spaceId memberDid generation := spaceId ++ memberDid ++ toString generation
  vault := false

def quiet : PersonalDocInput := ⟨none, "2026-01-01T00:00:00.000Z"⟩

def full : PersonalDocInput := ⟨some "QuotaExceededError", "2026-01-01T00:00:00.000Z"⟩

def carolLeft : MemberUpdateSignal where
  spaceId := "space"
  action := .removed
  memberDid := "did:carol"
  effectiveKeyGeneration := 1
  signerDid := "did:alice"
  outerId := some "m1"
  receivedAt := none

/-- The removal of `did:carol`, its flush, and what happens to the push of the change. -/
def removalRun (push : List (Action PersonalDocInput PersonalDocCall)) (flush : PersonalDocInput) :
    List (Action PersonalDocInput PersonalDocCall) :=
  .call (.savePending carolLeft) :: .run 0 quiet :: .call (.applyConfirmedRemoval carolLeft) ::
    .run 1 quiet :: .run 1 quiet :: .call .compactPush :: push.append
    [.run 1 flush, .run 1 quiet, .run 1 quiet, .run 1 quiet]

/-- The save of the flush rejects over a store that the scheduler has just filled.  A second
    flush waits for its own transaction, and a third one finds the manager closed. -/
theorem flush_durable_removal :
    ∃ c, Reachable (personalDocSystem plainDoc) SavesOrHas (start plainDoc none [] []) c ∧
      c.world.consumed.length = 1 ∧ c.world.flushed.length = 3 ∧ c.world.stored.length = 2 ∧
      FlushDurable c.world := by
  obtain ⟨c, hrun, htest⟩ := Reachable.of_exec (personalDocSystem plainDoc) SavesOrHas
    (start plainDoc none [] [])
    ((removalRun [.run 2 quiet, .call .transactionEnds, .run 3 quiet] full).append
      [.call (.changeYjsPersonalDoc (.change [1]) true), .run 4 quiet,
        .call .flushYjsPersonalDoc, .run 5 quiet, .run 5 quiet, .call .transactionEnds,
        .run 6 quiet, .run 5 quiet, .run 5 quiet,
        .call .resetYjsPersonalDoc, .run 7 quiet,
        .call .flushYjsPersonalDoc, .run 8 quiet, .run 8 quiet, .run 8 quiet])
    (fun c => decide (c.world.consumed.length = 1 ∧ c.world.flushed.length = 3 ∧
      c.world.stored.length = 2)) (by decide +kernel)
  obtain ⟨hconsumed, hflushed, hstored⟩ := of_decide_eq_true htest
  exact ⟨c, hrun, hconsumed, hflushed, hstored, (flush_durable plainDoc none [] [] c hrun).1⟩

/-- Both saves reject: the flush resolves, the signal is consumed, and nothing is stored. -/
theorem flush_forgets :
    ¬ ∀ c, Reachable (personalDocSystem plainDoc) (fun _ _ => True) (start plainDoc none [] []) c →
      FlushDurable c.world := by
  intro hall
  obtain ⟨c, hrun, htest⟩ := Reachable.of_exec (personalDocSystem plainDoc) (fun _ _ => True)
    (start plainDoc none [] []) (removalRun [.run 2 full] full)
    (fun c => decide (c.world.stored = []) && decide (c.world.memberUpdateStore = []) &&
      c.world.flushed.any fun before => !before.isEmpty) (by decide +kernel)
  obtain ⟨hempty, hflushed⟩ := (Bool.and_eq_true _ _).mp htest
  have hstored : c.world.stored = [] := of_decide_eq_true ((Bool.and_eq_true _ _).mp hempty).1
  obtain ⟨before, hbefore, hsome⟩ := any_eq_true.mp hflushed
  have hsub := (hall c hrun).1 before hbefore
  rw [hstored, subset_nil] at hsub
  rw [hsub] at hsome
  cases hsome

end PersonalDocManager

end WebOfTrust
