/-
  **At most one pagination loop for a connection** (`log-sync-coordinator.ts`, over whole
  runs).

  A run of the current epoch holds the guard, and a guard that is held is held by such a run
  (`ProgramInv`): so a second one is not begun, and only the holder gives it back.  A run of
  an older epoch goes on, though.  It asks for no page if the reconnect found it behind its
  last one, or where it waits for an answer that does not come any more.
-/
import WebOfTrust.SinglePaginationPrograms
import WebOfTrust.WritePauseKept

namespace WebOfTrust

open Async LoopState CatchUpRun Option Function

namespace LogSyncCoordinator

/-! ## 1. The guard and the runs of a program -/

/-- What the runs of one program have to do with the guard. -/
structure ProgramInv (c : LogSyncCoordinator) (s : LoopState) : Prop where
  runs : ∀ r ∈ s.runs, r.own < c.promises ∧ r.epoch ≤ c.connectionEpoch
  publications : ∀ p ∈ s.publications, p.own < c.promises
  request : ∀ id ∈ s.request, id < c.promises
  held : ∀ r ∈ s.runs, r.epoch = c.connectionEpoch →
    c.catchingUp = true ∧ c.catchUpInFlight = some r.own
  fresh : ∀ r ∈ s.runs, c.catchingUp = true → c.catchUpInFlight = some r.own →
    r.epoch = c.connectionEpoch
  published : ∀ p ∈ s.publications, c.publishing = some p.own → p.epoch = c.connectionEpoch
  distinct : (s.runs.map (·.own)).Nodup
  tail : AllOver s.runs.tail

theorem programInv_start (c : LogSyncCoordinator) : ProgramInv c .start where
  runs _ h := by cases h
  publications _ h := by cases h
  request _ h := by cases h
  held _ h := by cases h
  fresh _ h := by cases h
  published _ h := by cases h
  distinct := List.nodup_nil
  tail _ h := by cases h

section

variable {c c' : LogSyncCoordinator} {s : LoopState}

theorem ProgramInv.move (h : ProgramInv c s) (hpromises : c.promises ≤ c'.promises)
    (hepoch : c.connectionEpoch ≤ c'.connectionEpoch)
    (held : ∀ r ∈ s.runs, r.epoch = c'.connectionEpoch →
      c'.catchingUp = true ∧ c'.catchUpInFlight = some r.own)
    (fresh : ∀ r ∈ s.runs, c'.catchingUp = true → c'.catchUpInFlight = some r.own →
      r.epoch = c'.connectionEpoch)
    (published : ∀ p ∈ s.publications, c'.publishing = some p.own →
      p.epoch = c'.connectionEpoch) : ProgramInv c' s where
  runs r hr := ⟨Nat.lt_of_lt_of_le (h.runs r hr).1 hpromises, Nat.le_trans (h.runs r hr).2 hepoch⟩
  publications p hp := Nat.lt_of_lt_of_le (h.publications p hp) hpromises
  request id hid := Nat.lt_of_lt_of_le (h.request id hid) hpromises
  held := held
  fresh := fresh
  published := published
  distinct := h.distinct
  tail := h.tail

theorem ProgramInv.kept (h : ProgramInv c s) (hk : GuardKept c c') : ProgramInv c' s := by
  apply h.move hk.promises (Nat.le_of_eq hk.connectionEpoch.symm)
  · rw [hk.connectionEpoch, hk.catchingUp, hk.catchUpInFlight]
    exact h.held
  · rw [hk.connectionEpoch, hk.catchingUp, hk.catchUpInFlight]
    exact h.fresh
  · rw [hk.connectionEpoch, hk.publishing]
    exact h.published

def takeGuard (c : LogSyncCoordinator) : LogSyncCoordinator :=
  { c with
    promises := c.promises + 1, catchingUp := true, catchUpInFlight := some c.promises }

section

variable (h : ProgramInv c s)
include h

theorem ProgramInv.taken (hfree : c.catchingUp = false) : ProgramInv c.takeGuard s := by
  refine h.move (Nat.le_succ _) (Nat.le_refl _) ?_ ?_ ?_
  · intro r hr hcurrent
    rw [(h.held r hr hcurrent).1] at hfree
    cases hfree
  · intro r hr _ hown
    have hlt := (h.runs r hr).1
    have hsame : c.promises = r.own := some.inj hown
    omega
  · exact h.published

theorem ProgramInv.ended {own : Nat} (hother : ∀ r ∈ s.runs, r.own ≠ own)
    (error : Option CoordError) : ProgramInv (c.endCatchUp own error) s := by
  simp only [endCatchUp]
  split
  · next hown =>
    have hold : ∀ r ∈ s.runs, r.epoch ≠ c.connectionEpoch := by
      intro r hr hcurrent
      have hflight := (h.held r hr hcurrent).2
      rw [show c.catchUpInFlight = some own from hown] at hflight
      exact hother r hr (some.inj hflight).symm
    refine h.move (Nat.le_refl _) (Nat.le_refl _) ?_ ?_ ?_
    · exact fun r hr hcurrent => absurd hcurrent (hold r hr)
    · exact fun r hr hguard => by cases hguard
    · exact h.published
  · exact h.kept ((GuardKept.refl c).settle own error)

theorem ProgramInv.publicationBegun {published : Bool} {deviceId : DeviceId}
    {inFlightWrites : KeyedTable InFlightWrite.messageId} {binding : Nat}
    {events : List CoordEvent} :
    ProgramInv { c with
        promises := c.promises + 1, publishing := some c.promises, published := published
        deviceId := deviceId, inFlightWrites := inFlightWrites, binding := binding
        events := events } s := by
  refine h.move (Nat.le_succ _) (Nat.le_refl _) h.held h.fresh ?_
  intro p hp hown
  have hlt := h.publications p hp
  have hsame : c.promises = p.own := some.inj hown
  omega

theorem ProgramInv.publicationEnded (own : Nat) (error : Option CoordError) :
    ProgramInv (c.endPublication own error) s := by
  simp only [endPublication]
  split
  · refine h.move (Nat.le_refl _) (Nat.le_refl _) h.held h.fresh ?_
    exact fun p hp hpublishing => by cases hpublishing
  · exact h.kept ((GuardKept.refl c).settle own error)

theorem ProgramInv.reset : ProgramInv c.resetForReconnect s := by
  refine h.move (Nat.le_refl _) (Nat.le_succ _) ?_ ?_ ?_
  · intro r hr hcurrent
    have hle := (h.runs r hr).2
    have hnext : r.epoch = c.connectionEpoch + 1 := hcurrent
    omega
  · exact fun r hr hguard => nomatch hguard
  · exact fun p hp hpublishing => nomatch hpublishing

end

end

/-! ## 2. The record moves on -/

section

variable {c : LogSyncCoordinator} {s : LoopState}

theorem mem_modifyHead {runs : List CatchUpRun} {f : CatchUpRun → CatchUpRun}
    (hf : ∀ r, (f r).own = r.own ∧ (f r).epoch = r.epoch) :
    ∀ r ∈ runs.modifyHead f, ∃ r₀ ∈ runs, r.own = r₀.own ∧ r.epoch = r₀.epoch := by
  intro r hr
  rcases runs with _ | ⟨r₀, rest⟩
  · cases hr
  rw [List.modifyHead_cons] at hr
  rcases List.mem_cons.mp hr with rfl | hr
  · exact ⟨r₀, List.mem_cons_self, hf r₀⟩
  · exact ⟨r, List.mem_cons_of_mem _ hr, rfl, rfl⟩

section

variable (h : ProgramInv c s)
include h

theorem ProgramInv.restaged {f : CatchUpRun → CatchUpRun}
    (hf : ∀ r, (f r).own = r.own ∧ (f r).epoch = r.epoch) : ProgramInv c (s.onHead f) := by
  constructor
  · intro r hr
    obtain ⟨r₀, hr₀, hown, hepoch⟩ := mem_modifyHead hf r hr
    rw [hown, hepoch]
    exact h.runs r₀ hr₀
  · exact h.publications
  · exact h.request
  · intro r hr hcurrent
    obtain ⟨r₀, hr₀, hown, hepoch⟩ := mem_modifyHead hf r hr
    rw [hown]
    exact h.held r₀ hr₀ (hepoch.symm.trans hcurrent)
  · intro r hr hguard hflight
    obtain ⟨r₀, hr₀, hown, hepoch⟩ := mem_modifyHead hf r hr
    rw [hepoch]
    exact h.fresh r₀ hr₀ hguard (hown ▸ hflight)
  · exact h.published
  · have hdistinct := h.distinct
    unfold onHead
    cases hruns : s.runs with
    | nil => exact List.nodup_nil
    | cons r₀ rest =>
      rw [hruns] at hdistinct
      simpa [(hf r₀).1] using hdistinct
  · have htail := h.tail
    unfold onHead
    cases hruns : s.runs with
    | nil => exact fun r hr => nomatch hr
    | cons r₀ rest =>
      rw [hruns] at htail
      exact htail

theorem ProgramInv.requested {id : Nat} (hid : id < c.promises) :
    ProgramInv c { s with request := some id } := by
  refine ⟨h.runs, h.publications, ?_, h.held, h.fresh, h.published, h.distinct, h.tail⟩
  rintro _ ⟨⟩
  exact hid

theorem ProgramInv.pushed (hfree : c.catchingUp = false)
    (hover : AllOver s.runs) (stage : LoopStage) :
    ProgramInv c.takeGuard { s with runs := ⟨c.promises, c.connectionEpoch, stage⟩ :: s.runs } := by
  have htaken := h.taken hfree
  constructor
  · intro r hr
    rcases List.mem_cons.mp hr with rfl | hr
    · exact ⟨Nat.lt_succ_self _, Nat.le_refl _⟩
    · exact htaken.runs r hr
  · exact htaken.publications
  · exact htaken.request
  · intro r hr hcurrent
    rcases List.mem_cons.mp hr with rfl | hr
    · exact ⟨rfl, rfl⟩
    · exact htaken.held r hr hcurrent
  · intro r hr hguard hflight
    rcases List.mem_cons.mp hr with rfl | hr
    · rfl
    · exact htaken.fresh r hr hguard hflight
  · exact htaken.published
  · simp only [List.map_cons, List.nodup_cons, List.mem_map]
    refine ⟨?_, h.distinct⟩
    rintro ⟨r, hr, hown⟩
    have hlt := (h.runs r hr).1
    omega
  · exact hover

theorem ProgramInv.popped : ProgramInv c { s with runs := s.runs.tail } := by
  have hmem : ∀ r ∈ s.runs.tail, r ∈ s.runs := fun r hr => List.mem_of_mem_tail hr
  constructor
  · exact fun r hr => h.runs r (hmem r hr)
  · exact h.publications
  · exact h.request
  · exact fun r hr => h.held r (hmem r hr)
  · exact fun r hr => h.fresh r (hmem r hr)
  · exact h.published
  · show (s.runs.tail.map (·.own)).Nodup
    rw [List.map_tail]
    exact h.distinct.tail
  · exact fun r hr => h.tail r (List.mem_of_mem_tail hr)

theorem ProgramInv.announced {p : PublicationRun} (hlt : p.own < c.promises)
    (hepoch : p.epoch = c.connectionEpoch) :
    ProgramInv c { s with publications := p :: s.publications } := by
  constructor
  · exact h.runs
  · intro p' hp'
    rcases List.mem_cons.mp hp' with rfl | hp'
    · exact hlt
    · exact h.publications p' hp'
  · exact h.request
  · exact h.held
  · exact h.fresh
  · intro p' hp' hpublishing
    rcases List.mem_cons.mp hp' with rfl | hp'
    · exact hepoch
    · exact h.published p' hp' hpublishing
  · exact h.distinct
  · exact h.tail

end

end

/-! ## 3. A step of a program -/

theorem presented_ids (r : CatchUpRun) : r.presented.own = r.own ∧ r.presented.epoch = r.epoch := by
  unfold presented
  split
  · exact ⟨rfl, rfl⟩
  · exact ⟨rfl, rfl⟩

theorem lastPage_ids (r : CatchUpRun) : r.lastPage.own = r.own ∧ r.lastPage.epoch = r.epoch := by
  unfold lastPage
  split
  · exact ⟨rfl, rfl⟩
  · exact ⟨rfl, rfl⟩

variable {c : LogSyncCoordinator} {s : Nat → LoopState} {n : Nat} {v : CoordVisit}
  {c' : LogSyncCoordinator} {r : CatchUpRun} {i : CoordInput}
  {S : System CoordPoint CoordInput LogSyncCoordinator CoordError CoordResult CoordCall}

/-- The guard is somebody's, and nobody's promise is anybody else's. -/
structure LoopInv (c : LogSyncCoordinator) (s : Nat → LoopState) : Prop where
  programs : ∀ m, ProgramInv c (s m)
  apart : ∀ m m', m ≠ m' → ∀ r ∈ (s m).runs, ∀ r' ∈ (s m').runs, r.own ≠ r'.own
  flagged : c.catchingUp = true → c.catchUpInFlight ≠ none

theorem LoopInv.of {s' : LoopState} (h : LoopInv c s) (hothers : ∀ m, m ≠ n → ProgramInv c' (s m))
    (hown : ProgramInv c' s')
    (hruns : ∀ r ∈ s'.runs, (∃ r₀ ∈ (s n).runs, r.own = r₀.own) ∨ c.promises ≤ r.own)
    (hflagged : c'.catchingUp = true → c'.catchUpInFlight ≠ none) :
    LoopInv c' (update s n s') := by
  have hapart : ∀ m, m ≠ n → ∀ r ∈ (s m).runs, ∀ r' ∈ s'.runs, r.own ≠ r'.own := by
    intro m hm r hr r' hr' hsame
    rcases hruns r' hr' with ⟨r₀, hr₀, hown⟩ | hnew
    · exact h.apart m n hm r hr r₀ hr₀ (hsame.trans hown)
    · have hlt := ((h.programs m).runs r hr).1
      omega
  constructor
  · intro m
    by_cases hm : m = n
    · subst hm
      rw [update_self]
      exact hown
    · rw [update_of_ne hm]
      exact hothers m hm
  · intro m m' hne r hr r' hr'
    by_cases hm : m = n
    · subst hm
      rw [update_self] at hr
      rw [update_of_ne hne.symm] at hr'
      exact (hapart m' hne.symm r' hr' r hr).symm
    rw [update_of_ne hm] at hr
    by_cases hm' : m' = n
    · subst hm'
      rw [update_self] at hr'
      exact hapart m hm r hr r' hr'
    · rw [update_of_ne hm'] at hr'
      exact h.apart m m' hne r hr r' hr'
  · exact hflagged

theorem LoopInv.kept {s' : LoopState} (h : LoopInv c s) (hk : GuardKept c c')
    (hown : ProgramInv c' s') (hruns : ∀ r ∈ s'.runs, ∃ r₀ ∈ (s n).runs, r.own = r₀.own) :
    LoopInv c' (update s n s') := by
  apply h.of (fun m _ => (h.programs m).kept hk) hown fun r hr => .inl (hruns r hr)
  rw [hk.catchingUp, hk.catchUpInFlight]
  exact h.flagged

section

variable (h : LoopInv c s)
include h

theorem LoopInv.restaged (hk : GuardKept c c') {f : CatchUpRun → CatchUpRun}
    (hf : ∀ r, (f r).own = r.own ∧ (f r).epoch = r.epoch) :
    LoopInv c' (update s n ((s n).onHead f)) := by
  apply h.kept hk (((h.programs n).kept hk).restaged hf)
  intro r hr
  obtain ⟨r₀, hr₀, hown, _⟩ := mem_modifyHead hf r hr
  exact ⟨r₀, hr₀, hown⟩

theorem LoopInv.same (hk : GuardKept c c') : LoopInv c' (update s n (s n)) :=
  h.kept hk ((h.programs n).kept hk) fun r hr => ⟨r, hr, rfl⟩

theorem LoopInv.paged (hk : GuardKept c c') (answer : Option SyncResponse) :
    LoopInv c' (update s n ((s n).paged answer)) := by
  by_cases htruncated : answer.any (·.truncated) = true
  · have hsame : (s n).paged answer = s n := by
      simp [LoopState.paged, LoopState.pagedRuns, htruncated]
    rw [hsame]
    exact h.same hk
  have hlast : (s n).paged answer = (s n).onHead .lastPage := by
    simp [LoopState.paged, LoopState.pagedRuns, LoopState.onHead, htruncated]
  rw [hlast]
  exact h.restaged hk lastPage_ids

theorem LoopInv.begun (hfree : c.catchingUp = false) (hover : AllOver (s n).runs)
    (stage : LoopStage) :
    LoopInv c.takeGuard (update s n
      { s n with runs := ⟨c.promises, c.connectionEpoch, stage⟩ :: (s n).runs }) := by
  apply h.of
  · exact fun m _ => (h.programs m).taken hfree
  · exact (h.programs n).pushed hfree hover stage
  · intro r hr
    rcases List.mem_cons.mp hr with rfl | hr
    · exact .inr (Nat.le_refl _)
    · exact .inl ⟨r, hr, rfl⟩
  · exact nofun

theorem LoopInv.ended {rest : List CatchUpRun} (hruns : (s n).runs = r :: rest)
    (error : Option CoordError) : LoopInv (c.endCatchUp r.own error)
      (update s n { s n with runs := (s n).runs.tail }) := by
  have hhead : r ∈ (s n).runs := hruns ▸ List.mem_cons_self
  apply h.of
  · intro m hm
    exact (h.programs m).ended (fun r' hr' => h.apart m n hm r' hr' r hhead) error
  · apply (h.programs n).popped.ended
    have hdistinct := (h.programs n).distinct
    rw [hruns] at hdistinct ⊢
    simp only [List.map_cons, List.nodup_cons, List.mem_map, not_exists, not_and] at hdistinct
    exact hdistinct.1
  · exact fun r' hr' => .inl ⟨r', List.mem_of_mem_tail hr', rfl⟩
  · simp only [endCatchUp]
    split
    · intro hflagged
      cases hflagged
    · exact h.flagged

theorem LoopInv.published {published : Bool} {deviceId : DeviceId}
    {inFlightWrites : KeyedTable InFlightWrite.messageId} {binding : Nat}
    {events : List CoordEvent} :
    LoopInv { c with
        promises := c.promises + 1, publishing := some c.promises, published := published
        deviceId := deviceId, inFlightWrites := inFlightWrites, binding := binding
        events := events }
      (update s n
        { s n with publications := ⟨c.promises, c.connectionEpoch⟩ :: (s n).publications }) := by
  apply h.of
  · exact fun m _ => (h.programs m).publicationBegun
  · exact (h.programs n).publicationBegun.announced (Nat.lt_succ_self _) rfl
  · exact fun r hr => .inl ⟨r, hr, rfl⟩
  · exact h.flagged

theorem LoopInv.world (hprograms : ∀ m, ProgramInv c' (s m))
    (hflagged : c'.catchingUp = true → c'.catchUpInFlight ≠ none) :
    LoopInv c' (update s n (s n)) :=
  h.of (fun m _ => hprograms m) (hprograms n) (fun r hr => .inl ⟨r, hr, rfl⟩) hflagged

end

/-! ## 4. Every step -/

variable {ph : Histories CoordPoint CoordInput LogSyncCoordinator}

section

variable (ph : Histories CoordPoint CoordInput LogSyncCoordinator)

abbrev loops : Nat → LoopState :=
  fun m => loopState (ph m)

theorem loops_update (n : Nat) (v : CoordVisit) :
    loops (update ph n (ph n ++ [v])) = update (loops ph) n ((loops ph n).after v) := by
  funext m
  by_cases hm : m = n
  · subst hm
    simp [loops]
  · simp [loops, hm]

end

theorem beginCatchUp_eq (c : LogSyncCoordinator) :
    (c.catchingUp = true ∧ c.beginCatchUp = (none, c)) ∨
      (c.catchingUp = false ∧ c.beginCatchUp = (some c.promises, c.takeGuard)) := by
  unfold beginCatchUp
  split
  · next h => exact .inl ⟨h, rfl⟩
  · next h => exact .inr ⟨Bool.eq_false_iff.mpr h, rfl⟩

theorem beginHeadAbgleich_eq (hflagged : c.catchingUp = true → c.catchUpInFlight ≠ none) :
    (c.beginHeadAbgleich.2 = c ∧ ∀ own, c.beginHeadAbgleich.1 ≠ .own own) ∨
      (c.catchingUp = false ∧ c.beginHeadAbgleich = (.own c.promises, c.takeGuard)) := by
  unfold beginHeadAbgleich
  split
  · exact .inl ⟨rfl, nofun⟩
  split
  · exact .inl ⟨rfl, nofun⟩
  next hmatch =>
  cases hguard : c.catchingUp with
  | false => exact .inr ⟨rfl, rfl⟩
  | true =>
    obtain ⟨promise, hpromise⟩ := ne_none_iff_exists'.mp (hflagged hguard)
    exact absurd hpromise (hmatch promise hguard)

theorem beginPublication_eq (c : LogSyncCoordinator) :
    c.beginPublication.2 = c ∨ c.beginPublication.2 =
        { c with promises := c.promises + 1, publishing := some c.promises } := by
  unfold beginPublication
  split
  · exact .inl rfl
  split
  · exact .inl rfl
  · exact .inr rfl

theorem LoopInv.step (h : LoopInv v.before (loops ph)) (hfact : LoopFact (ph n) v) :
    LoopInv v.after (update (loops ph) n ((loops ph n).after v)) := by
  obtain ⟨t, i, c, c'⟩ := v
  have h : LoopInv c (loops ph) := h
  by_cases hplain : t.plain = true
  · rw [after_plain (v := ⟨t, i, c, c'⟩) hplain]
    apply h.same
    cases t <;> first | exact hfact | cases hplain
  cases t with
  | catchUp =>
    obtain ⟨hover, hafter⟩ := hfact
    have hafter : c' = c.beginCatchUp.2 := hafter
    subst hafter
    rcases beginCatchUp_eq c with ⟨_, heq⟩ | ⟨hfree, heq⟩
    · simp only [LoopState.after, heq]
      exact h.same (.refl c)
    · simp only [LoopState.after, heq]
      exact h.begun hfree hover .repairing
  | headAbgleich =>
    obtain ⟨hover, hafter⟩ := hfact
    have hafter : c' = c.beginHeadAbgleich.2 := hafter
    subst hafter
    rcases beginHeadAbgleich_eq h.flagged with ⟨heq, hnone⟩ | ⟨hfree, heq⟩
    · have hsame : (loops ph n).after ⟨.headAbgleich, i, c, c.beginHeadAbgleich.2⟩ =
          loops ph n := by
        simp only [LoopState.after]
      rw [hsame]
      dsimp only
      rw [heq]
      exact h.same (.refl c)
    · simp only [LoopState.after, heq]
      exact h.begun hfree hover .paging
  | getCapabilityJws => exact h.restaged hfact presented_ids
  | sendSyncRequest wireHeads limit =>
    obtain ⟨⟨hk, hlt⟩, _⟩ := hfact
    exact h.kept hk (((h.programs n).kept hk).requested hlt) fun r hr => ⟨r, hr, rfl⟩
  | syncRequestSent =>
    simp only [LoopState.after]
    split
    · exact h.paged hfact none
    split
    · exact h.paged hfact _
    · exact h.same hfact
  | syncResponse => exact h.paged hfact _
  | beginRestoreClone => exact h.restaged hfact fun _ => ⟨rfl, rfl⟩
  | endCatchUp =>
    obtain ⟨r, rest, error, hruns, hafter⟩ := hfact
    have hafter : c' = c.endCatchUp r.own error := hafter
    subst hafter
    exact h.ended hruns error
  | ensurePublished =>
    have hafter : c' = c.beginPublication.2 := hfact
    rcases beginPublication_eq c with heq | heq
    · rw [heq] at hafter
      subst hafter
      simp only [LoopState.after, LoopState.publish, Nat.lt_irrefl, if_false]
      exact h.same (.refl c')
    rw [heq] at hafter
    subst hafter
    simp only [LoopState.after, LoopState.publish, Nat.lt_succ_self, if_true]
    exact h.published
  | endPublication =>
    obtain ⟨p, _, error, hafter⟩ := hfact
    have hafter : c' = c.endPublication p.own error := hafter
    subst hafter
    apply h.world
    · exact fun m => (h.programs m).publicationEnded p.own error
    simp only [endPublication]
    split
    · exact h.flagged
    · exact h.flagged
  | onWriteRejected =>
    rcases hfact with ⟨hk, hpromises⟩ | ⟨newDeviceId, hafter⟩
    · have hsame : c'.promises = c.promises := hpromises
      simp only [LoopState.after, LoopState.publish, hsame, Nat.lt_irrefl, if_false]
      exact h.same hk
    have hafter : c' = (c.adopt newDeviceId).2 := hafter
    subst hafter
    have hlt : c.promises < (c.adopt newDeviceId).2.promises := Nat.lt_succ_self _
    simp only [LoopState.after, LoopState.publish, hlt, if_true]
    exact h.published
  | resetForReconnect =>
    have hafter : c' = c.resetForReconnect := hfact
    subst hafter
    apply h.world
    · exact fun m => (h.programs m).reset
    · intro hflagged
      cases hflagged
  | _ => exact absurd rfl hplain

/-! ## 5. Reconnects -/

def atRest (t : Option CoordPoint) (r : CatchUpRun) : Bool :=
  match t with
  | some .endCatchUp => true
  | some .beginRestoreClone => true
  | some .syncResponse => decide (r.stage ≠ .repairing)
  | _ => decide (r.stage = .over)

def allAtRest (c : CoordConfiguration)
    (ph : Histories CoordPoint CoordInput LogSyncCoordinator) : Bool :=
  (List.range c.procs.length).all fun m => (loops ph m).runs.head?.all fun r =>
    decide (r.epoch ≠ c.world.connectionEpoch) || atRest (c.pointAt m) r

/-- Runs of one process after another.  `strict`: a reconnect finds every run at rest. -/
def reconnectRun (strict : Bool) (c : CoordConfiguration)
    (ph : Histories CoordPoint CoordInput LogSyncCoordinator) :
    Action CoordInput CoordCall → Bool
  | .run n _ =>
    match c.pointAt n with
    | some .resetForReconnect => !strict || allAtRest c ph
    | _ => true
  | .crash _ => false
  | _ => true

abbrev ReconnectRun (strict : Bool) (c : CoordConfiguration)
    (ph : Histories CoordPoint CoordInput LogSyncCoordinator)
    (a : Action CoordInput CoordCall) : Prop :=
  reconnectRun strict c ph a = true

/-- A run of an older epoch is at rest, and its request is forgotten. -/
def Halted (c : LogSyncCoordinator) (t : Option CoordPoint) (s : LoopState) : Prop :=
  ∀ r ∈ s.runs.head?, r.epoch ≠ c.connectionEpoch →
    r.stage = .over ∨ t = some .endCatchUp ∨ t = some .beginRestoreClone ∨
      t = some .syncResponse ∧ r.stage = .paging ∧ ∀ id ∈ s.request, id ∉ c.pendingSyncRequests

theorem loopFact_world (hfact : LoopFact (ph n) v) (ht : v.point ≠ .resetForReconnect) :
    v.after.connectionEpoch = v.before.connectionEpoch ∧ ∀ id ∈ v.after.pendingSyncRequests,
        id ∈ v.before.pendingSyncRequests ∨ id = v.before.promises := by
  have hkept : GuardKept v.before v.after → v.after.connectionEpoch = v.before.connectionEpoch ∧
      ∀ id ∈ v.after.pendingSyncRequests,
        id ∈ v.before.pendingSyncRequests ∨ id = v.before.promises :=
    fun hk => ⟨hk.connectionEpoch, fun id hid => (hk.pending id hid).imp_right (·.1)⟩
  obtain ⟨t, i, c, c'⟩ := v
  cases t with
  | catchUp =>
    obtain ⟨_, hafter⟩ := hfact
    dsimp only at hafter ⊢
    rw [hafter]
    rcases beginCatchUp_eq c with ⟨_, heq⟩ | ⟨_, heq⟩
    · rw [heq]
      exact ⟨rfl, fun _ h => .inl h⟩
    · rw [heq]
      exact ⟨rfl, fun _ h => .inl h⟩
  | headAbgleich =>
    obtain ⟨_, hafter⟩ := hfact
    dsimp only at hafter ⊢
    rw [hafter]
    unfold beginHeadAbgleich
    split
    · exact ⟨rfl, fun _ h => .inl h⟩
    split
    · exact ⟨rfl, fun _ h => .inl h⟩
    · exact ⟨rfl, fun _ h => .inl h⟩
  | endCatchUp =>
    obtain ⟨r, rest, error, _, hafter⟩ := hfact
    dsimp only at hafter ⊢
    rw [hafter]
    simp only [endCatchUp]
    split
    · exact ⟨rfl, fun _ h => .inl h⟩
    · exact ⟨rfl, fun _ h => .inl h⟩
  | ensurePublished =>
    have hafter : c' = c.beginPublication.2 := hfact
    dsimp only
    rw [hafter]
    rcases beginPublication_eq c with heq | heq
    · rw [heq]
      exact ⟨rfl, fun _ h => .inl h⟩
    · rw [heq]
      exact ⟨rfl, fun _ h => .inl h⟩
  | endPublication =>
    obtain ⟨p, _, error, hafter⟩ := hfact
    dsimp only at hafter ⊢
    rw [hafter]
    simp only [endPublication]
    split
    · exact ⟨rfl, fun _ h => .inl h⟩
    · exact ⟨rfl, fun _ h => .inl h⟩
  | onWriteRejected =>
    rcases hfact with ⟨hk, _⟩ | ⟨newDeviceId, hafter⟩
    · exact hkept hk
    dsimp only at hafter ⊢
    rw [hafter]
    exact ⟨rfl, fun _ h => .inl h⟩
  | sendSyncRequest wireHeads limit => exact hkept hfact.1.1
  | resetForReconnect => exact absurd rfl ht
  | _ => exact hkept hfact

theorem over_presented (h : r.stage = .over) : r.presented.stage = .over := by
  simp [presented, h]

theorem over_lastPage (h : r.stage = .over) : r.lastPage.stage = .over := by
  simp [lastPage, h]

variable {s : LoopState}

theorem head_onHead {f : CatchUpRun → CatchUpRun} (hr : r ∈ (s.onHead f).runs.head?) :
    ∃ r₀ ∈ s.runs.head?, r = f r₀ := by
  unfold onHead at hr
  rcases hruns : s.runs with _ | ⟨r₀, rest⟩
  · rw [hruns] at hr
    cases hr
  rw [hruns] at hr
  cases hr
  exact ⟨r₀, rfl, rfl⟩

theorem head_paged {answer : Option SyncResponse}
    (hr : r ∈ (s.paged answer).runs.head?) : ∃ r₀ ∈ s.runs.head?,
      r.epoch = r₀.epoch ∧ (r₀.stage = .over ∨ answer = none ∧ r₀.stage = .paging →
        r.stage = .over) := by
  by_cases htruncated : answer.any (·.truncated) = true
  · have hsame : s.paged answer = s := by
      simp [paged, pagedRuns, htruncated]
    rw [hsame] at hr
    refine ⟨r, hr, rfl, ?_⟩
    rintro (hover | ⟨rfl, _⟩)
    · exact hover
    · cases htruncated
  · have hlast : s.paged answer = s.onHead .lastPage := by
      simp [paged, pagedRuns, onHead, htruncated]
    rw [hlast] at hr
    obtain ⟨r₀, hr₀, rfl⟩ := head_onHead hr
    refine ⟨r₀, hr₀, (lastPage_ids r₀).2, ?_⟩
    rintro (hover | ⟨_, hpaging⟩)
    · exact over_lastPage hover
    · simp [lastPage, hpaging]

/-- **A step of an old run** that was at rest leaves it over: nothing comes behind it. -/
theorem halted_after (htail : AllOver s.runs.tail)
    (h : Halted v.before (some v.point) s) (ht : v.point ≠ .resetForReconnect) :
    ∀ r ∈ (s.after v).runs.head?, r.epoch ≠ v.before.connectionEpoch → r.stage = .over := by
  obtain ⟨t, i, c, c'⟩ := v
  intro r hr hold
  have hover : ∀ r₀ ∈ s.runs.head?, r₀.epoch = r.epoch →
      t ∉ [.endCatchUp, .beginRestoreClone, .syncResponse] → r₀.stage = .over := by
    intro r₀ hr₀ hepoch hpoint
    simp only [List.mem_cons, List.not_mem_nil, or_false, not_or] at hpoint
    rcases h r₀ hr₀ (by rw [hepoch]; exact hold) with hover | heq | heq | ⟨heq, _⟩
    · exact hover
    · exact absurd (some.inj heq) hpoint.1
    · exact absurd (some.inj heq) hpoint.2.1
    · exact absurd (some.inj heq) hpoint.2.2
  by_cases hplain : t.plain = true
  · rw [after_plain (v := ⟨t, i, c, c'⟩) hplain] at hr
    refine hover r hr rfl fun hpoint => ?_
    simp only [List.mem_cons, List.not_mem_nil, or_false] at hpoint
    rcases hpoint with rfl | rfl | rfl <;> cases hplain
  cases t with
  | catchUp | headAbgleich =>
    simp only [after] at hr
    split at hr
    · cases hr
      exact absurd rfl hold
    · exact hover r hr rfl (by simp)
  | getCapabilityJws =>
    obtain ⟨r₀, hr₀, rfl⟩ := head_onHead hr
    exact over_presented (hover r₀ hr₀ (presented_ids r₀).2.symm (by simp))
  | sendSyncRequest wireHeads limit | endPublication => exact hover r hr rfl (by simp)
  | syncRequestSent =>
    simp only [after] at hr
    split at hr
    · obtain ⟨r₀, hr₀, hepoch, hstage⟩ := head_paged hr
      exact hstage (.inl (hover r₀ hr₀ hepoch.symm (by simp)))
    split at hr
    · obtain ⟨r₀, hr₀, hepoch, hstage⟩ := head_paged hr
      exact hstage (.inl (hover r₀ hr₀ hepoch.symm (by simp)))
    · exact hover r hr rfl (by simp)
  | syncResponse =>
    obtain ⟨r₀, hr₀, hepoch, hstage⟩ := head_paged hr
    apply hstage
    rcases h r₀ hr₀ (by rw [← hepoch]; exact hold) with hover | heq | heq | ⟨_, hpaging, hrequest⟩
    · exact .inl hover
    · cases heq
    · cases heq
    · refine .inr ⟨?_, hpaging⟩
      have hnone : (s.request.any fun id => decide (id ∈ c.pendingSyncRequests)) = false := by
        cases hrequested : s.request with
        | none => rfl
        | some id => simpa using hrequest id hrequested
      simp [answer, hnone]
  | beginRestoreClone =>
    obtain ⟨r₀, hr₀, rfl⟩ := head_onHead hr
    rfl
  | endCatchUp => exact htail r (List.mem_of_mem_head? hr)
  | ensurePublished | onWriteRejected =>
    rw [show s.after _ = s.publish _ from rfl, runs_publish] at hr
    exact hover r hr rfl (by simp)
  | resetForReconnect => exact absurd rfl ht
  | _ => exact absurd rfl hplain

/-! ## 6. Every run of the coordinator -/

/-- What goes with the record of a configuration. -/
structure ReconnectInv (strict : Bool) (c : CoordConfiguration)
    (ph : Histories CoordPoint CoordInput LogSyncCoordinator) : Prop where
  loop : LoopInv c.world (loops ph)
  fresh : ∀ m, c.procs.length ≤ m → ph m = []
  halted : strict = true → ∀ m, Halted c.world (c.pointAt m) (loops ph m)

theorem halted_nil (c : LogSyncCoordinator) (t : Option CoordPoint) : Halted c t .start := by
  intro r hr
  cases hr

theorem loopInv_start (hfree : c.catchingUp = false) : LoopInv c fun _ => .start where
  programs _ := programInv_start c
  apart _ _ _ _ hr := by cases hr
  flagged hguard := by
    rw [hfree] at hguard
    cases hguard

variable {strict : Bool} {cc cc' : CoordConfiguration}

theorem halted_reset {t : Option CoordPoint} (h : Halted c t s)
    (hrest : ∀ r ∈ s.runs.head?, r.epoch = c.connectionEpoch →
      atRest t r = true) : Halted c.resetForReconnect t s := by
  intro r hr _
  by_cases hcurrent : r.epoch = c.connectionEpoch
  · have hat := hrest r hr hcurrent
    unfold atRest at hat
    split at hat
    · exact .inr (.inl rfl)
    · exact .inr (.inr (.inl rfl))
    · by_cases hover : r.stage = .over
      · exact .inl hover
      refine .inr (.inr (.inr ⟨rfl, ?_, fun id _ => List.not_mem_nil⟩))
      cases hstage : r.stage with
      | repairing => simp [hstage] at hat
      | paging => rfl
      | _ => exact absurd hstage hover
    · exact .inl (of_decide_eq_true hat)
  · rcases h r hr hcurrent with hover | hend | hclone | ⟨hwait, hpaging, _⟩
    · exact .inl hover
    · exact .inr (.inl hend)
    · exact .inr (.inr (.inl hclone))
    · exact .inr (.inr (.inr ⟨hwait, hpaging, fun id _ => List.not_mem_nil⟩))

theorem halted_other {t : Option CoordPoint} (h : Halted c t s)
    (hs : ProgramInv c s) (hepoch : c'.connectionEpoch = c.connectionEpoch)
    (hpending : ∀ id ∈ c'.pendingSyncRequests, id ∈ c.pendingSyncRequests ∨ id = c.promises) :
    Halted c' t s := by
  intro r hr hold
  rw [hepoch] at hold
  rcases h r hr hold with hover | hend | hclone | ⟨hwait, hpaging, hrequest⟩
  · exact .inl hover
  · exact .inr (.inl hend)
  · exact .inr (.inr (.inl hclone))
  · refine .inr (.inr (.inr ⟨hwait, hpaging, ?_⟩))
    intro id hid hmem
    rcases hpending id hmem with hmem | rfl
    · exact hrequest id hid hmem
    · exact Nat.lt_irrefl _ (hs.request _ hid)

theorem atRest_of_reconnect (ha : ReconnectRun true cc ph (.run n i))
    (ht : cc.pointAt n = some .resetForReconnect) (hfresh : ∀ m, cc.procs.length ≤ m → ph m = [])
    (m : Nat) : ∀ r ∈ (loops ph m).runs.head?, r.epoch = cc.world.connectionEpoch →
      atRest (cc.pointAt m) r = true := by
  intro r hr hcurrent
  simp only [ReconnectRun, reconnectRun, ht, Bool.not_true, Bool.false_or, allAtRest,
    List.all_eq_true, List.mem_range] at ha
  rcases Nat.lt_or_ge m cc.procs.length with hlt | hge
  · have hall := ha m hlt
    rw [all_eq_true] at hall
    simpa [hcurrent] using hall r hr
  · rw [show loops ph m = .start by simp [loops, hfresh m hge]] at hr
    cases hr

theorem pointAt_other {m : Nat} (hs : cc.step S (.run n i) = some cc') (hm : m ≠ n) :
    cc'.pointAt m = cc.pointAt m := by
  obtain ⟨t, ready, upd, next, _, _, rfl⟩ := Config.step_run hs
  simp [Config.pointAt, List.getElem?_set_ne hm.symm]

theorem ReconnectInv.run {t : CoordPoint} (h : ReconnectInv strict cc ph)
    (ha : ReconnectRun strict cc ph (.run n i)) (ht : cc.pointAt n = some t)
    (hs : cc.step S (.run n i) = some cc') (hfact : LoopFact (ph n) ⟨t, i, cc.world, cc'.world⟩) :
    ReconnectInv strict cc' (update ph n (ph n ++ [⟨t, i, cc.world, cc'.world⟩])) := by
  have hloop : LoopInv cc'.world (loops (update ph n (ph n ++ [⟨t, i, cc.world, cc'.world⟩]))) := by
    rw [loops_update]
    exact LoopInv.step (v := ⟨t, i, cc.world, cc'.world⟩) h.loop hfact
  refine ⟨hloop, ?_, ?_⟩
  · intro m hm
    obtain ⟨t', ready, upd, next, hn, _, rfl⟩ := Config.step_run hs
    rw [List.length_set] at hm
    have hlt : n < cc.procs.length := (List.getElem?_eq_some_iff.mp hn).1
    rw [update_of_ne (by omega)]
    exact h.fresh m hm
  · rintro rfl m
    rw [loops_update]
    have htail := (h.loop.programs n).tail
    have hhalted := h.halted rfl
    by_cases hreset : t = .resetForReconnect
    · subst hreset
      have hrest := atRest_of_reconnect ha ht h.fresh
      have hafter : cc'.world = cc.world.resetForReconnect := hfact
      rw [hafter]
      by_cases hm : m = n
      · -- the reconnect itself is no part of a catch-up
        subst hm
        rw [update_self]
        have hsame := halted_reset (hhalted m) (hrest m)
        rw [ht] at hsame
        intro r hr hold
        rcases hsame r hr hold with hover | heq | heq | ⟨heq, _⟩
        · exact Or.inl hover
        · cases heq
        · cases heq
        · cases heq
      · rw [update_of_ne hm, pointAt_other hs hm]
        exact halted_reset (hhalted m) (hrest m)
    · obtain ⟨hepoch, hpending⟩ := loopFact_world hfact hreset
      by_cases hm : m = n
      · subst hm
        rw [update_self]
        intro r hr hold
        apply Or.inl
        refine halted_after (v := ⟨t, i, cc.world, cc'.world⟩) htail ?_ hreset r hr ?_
        · have hhere := hhalted m
          rw [ht] at hhere
          exact hhere
        · rw [show cc'.world.connectionEpoch = cc.world.connectionEpoch from hepoch] at hold
          exact hold
      · rw [update_of_ne hm, pointAt_other hs hm]
        exact halted_other (hhalted m) (h.loop.programs m) hepoch hpending

section

variable {c c' : LogSyncCoordinator} {t : CoordPoint} {i : CoordInput} {n : Nat}

theorem guard_released (h : LoopInv c (loops ph)) (hfact : LoopFact (ph n) ⟨t, i, c, c'⟩)
    (hguard : c.catchingUp = true) :
    c'.catchingUp = true ∧ c'.catchUpInFlight = c.catchUpInFlight ∨ t = .resetForReconnect ∨
      t = .endCatchUp ∧ ∃ r ∈ (loops ph n).runs.head?, ∃ error,
        c' = c.endCatchUp r.own error ∧ r.epoch = c.connectionEpoch := by
  have hkept : GuardKept c c' → c'.catchingUp = true ∧ c'.catchUpInFlight = c.catchUpInFlight :=
    fun hk => ⟨hk.catchingUp.trans hguard, hk.catchUpInFlight⟩
  cases t with
  | catchUp =>
    obtain ⟨_, hafter⟩ := hfact
    rcases beginCatchUp_eq c with ⟨_, heq⟩ | ⟨hfree, _⟩
    · dsimp only at hafter
      rw [hafter, heq]
      exact .inl ⟨hguard, rfl⟩
    · rw [hguard] at hfree
      cases hfree
  | headAbgleich =>
    obtain ⟨_, hafter⟩ := hfact
    rcases beginHeadAbgleich_eq h.flagged with ⟨heq, _⟩ | ⟨hfree, _⟩
    · dsimp only at hafter
      rw [hafter, heq]
      exact .inl ⟨hguard, rfl⟩
    · rw [hguard] at hfree
      cases hfree
  | endCatchUp =>
    obtain ⟨r, rest, error, hruns, hafter⟩ := hfact
    dsimp only at hafter
    have hhead : r ∈ (loops ph n).runs.head? := by
      rw [hruns]
      rfl
    by_cases hown : c.catchUpInFlight = some r.own
    · have hcurrent := (h.programs n).fresh r (List.mem_of_mem_head? hhead) hguard hown
      exact .inr (.inr ⟨rfl, r, hhead, error, hafter, hcurrent⟩)
    rw [hafter]
    simp only [endCatchUp, settle, hown, if_false]
    exact .inl ⟨hguard, trivial⟩
  | ensurePublished =>
    have hafter : c' = c.beginPublication.2 := hfact
    rw [hafter]
    rcases beginPublication_eq c with heq | heq
    · rw [heq]
      exact .inl ⟨hguard, rfl⟩
    · rw [heq]
      exact .inl ⟨hguard, rfl⟩
  | endPublication =>
    obtain ⟨p, _, error, hafter⟩ := hfact
    dsimp only at hafter
    rw [hafter]
    simp only [endPublication]
    split
    · exact .inl ⟨hguard, rfl⟩
    · exact .inl ⟨hguard, rfl⟩
  | onWriteRejected =>
    rcases hfact with ⟨hk, _⟩ | ⟨newDeviceId, hafter⟩
    · exact .inl (hkept hk)
    dsimp only at hafter
    rw [hafter]
    exact .inl ⟨hguard, rfl⟩
  | sendSyncRequest wireHeads limit => exact .inl (hkept hfact.1.1)
  | resetForReconnect => exact .inr (.inl rfl)
  | _ => exact .inl (hkept hfact)

theorem marked_published (h : LoopInv c (loops ph)) (hfact : LoopFact (ph n) ⟨t, i, c, c'⟩)
    (hbefore : c.published = false) (hafter' : c'.published = true) :
    t = .endPublication ∧ ∃ p ∈ (loops ph n).publications, ∃ error,
      c' = c.endPublication p.own error ∧ p.epoch = c.connectionEpoch := by
  have hsame : c'.published = c.published → False := by
    intro heq
    rw [hafter', hbefore] at heq
    cases heq
  cases t with
  | catchUp =>
    obtain ⟨_, hafter⟩ := hfact
    dsimp only at hafter
    apply (hsame _).elim
    rw [hafter]
    rcases beginCatchUp_eq c with ⟨_, heq⟩ | ⟨_, heq⟩
    · rw [heq]
    · rw [heq]
      rfl
  | headAbgleich =>
    obtain ⟨_, hafter⟩ := hfact
    dsimp only at hafter
    apply (hsame _).elim
    rw [hafter]
    rcases beginHeadAbgleich_eq h.flagged with ⟨heq, _⟩ | ⟨_, heq⟩
    · rw [heq]
    · rw [heq]
      rfl
  | endCatchUp =>
    obtain ⟨r, rest, error, _, hafter⟩ := hfact
    dsimp only at hafter
    apply (hsame _).elim
    rw [hafter]
    simp only [endCatchUp]
    split <;> rfl
  | ensurePublished =>
    have hafter : c' = c.beginPublication.2 := hfact
    apply (hsame _).elim
    rw [hafter]
    rcases beginPublication_eq c with heq | heq
    · rw [heq]
    · rw [heq]
  | endPublication =>
    obtain ⟨p, hp, error, hafter⟩ := hfact
    dsimp only at hafter
    by_cases hown : c.publishing = some p.own
    · exact ⟨rfl, p, hp, error, hafter, (h.programs n).published p hp hown⟩
    apply (hsame _).elim
    rw [hafter]
    simp only [endPublication, settle, hown, if_false]
  | onWriteRejected =>
    rcases hfact with ⟨hk, _⟩ | ⟨newDeviceId, hafter⟩
    · exact (hsame hk.published).elim
    dsimp only at hafter
    rw [hafter] at hafter'
    cases hafter'
  | sendSyncRequest wireHeads limit => exact (hsame hfact.1.1.published).elim
  | resetForReconnect =>
    have hafter : c' = c.resetForReconnect := hfact
    rw [hafter] at hafter'
    cases hafter'
  | _ => exact (hsame (GuardKept.published hfact)).elim

end

theorem pointAt_of_step (hs : cc.step S (.run n i) = some cc') : ∃ t, cc.pointAt n = some t := by
  obtain ⟨t, ready, upd, next, hn, _, _⟩ := Config.step_run hs
  exact ⟨t, by simp [Config.pointAt, hn]⟩

section

variable (cfg : CoordConfig) (pages depth : Nat) (store : DocLogStore) (deviceId : DeviceId)
  (contentKey : Option ContentKey)

theorem reconnect_watched (strict : Bool) :
    Watched (coordSystem cfg pages depth) (ReconnectRun strict) (start store deviceId contentKey)
      LoopFact (ReconnectInv strict) where
  keeping k := (stays_program pages depth k).keeping
  alive _ _ _ := Bool.false_ne_true
  init := ⟨loopInv_start rfl, fun _ _ => rfl, fun _ _ => halted_nil _ _⟩
  call c ph k h hfresh := by
    refine ⟨h.loop, fun m hm => ?_, fun hstrict m => ?_⟩
    · rw [List.length_append] at hm
      exact hfresh m (by omega)
    rcases Nat.lt_or_ge m c.procs.length with hlt | hge
    · show Halted c.world ((c.procs ++ [_])[m]?.bind Async.point) (loops ph m)
      rw [List.getElem?_append_left hlt]
      exact h.halted hstrict m
    · rw [show loops ph m = .start by simp [loops, hfresh m hge]]
      exact halted_nil _ _
  run _ _ _ _ _ _ ha h ht hs hfact := h.run ha ht hs hfact
  restart _ _ _ _ := ⟨loopInv_start rfl, fun _ _ => rfl, fun _ _ => halted_nil _ _⟩

/-- What one state of a run, and the steps from it, show of the catch-ups of a document. -/
structure SingleLoop (c : CoordConfiguration)
    (ph : Histories CoordPoint CoordInput LogSyncCoordinator) : Prop where
  /-- At most one run of the current epoch is in progress. -/
  one : ∀ (m n a b : Nat) (r r' : CatchUpRun), (loops ph m).runs[a]? = some r →
    (loops ph n).runs[b]? = some r' → r.epoch = c.world.connectionEpoch →
      r'.epoch = c.world.connectionEpoch → m = n ∧ a = b
  /-- A guard that is held is given back by the reconnect, or by a run of the epoch. -/
  guard : ∀ n i c', c.step (coordSystem cfg pages depth) (.run n i) = some c' →
    c.world.catchingUp = true →
      c'.world.catchingUp = true ∧ c'.world.catchUpInFlight = c.world.catchUpInFlight ∨
      c.pointAt n = some .resetForReconnect ∨
      c.pointAt n = some .endCatchUp ∧ ∃ r ∈ (loops ph n).runs.head?, ∃ error,
        c'.world = c.world.endCatchUp r.own error ∧ r.epoch = c.world.connectionEpoch
  /-- The document is marked as published by a publication of the epoch. -/
  published : ∀ n i c', c.step (coordSystem cfg pages depth) (.run n i) = some c' →
    c.world.published = false → c'.world.published = true →
      c.pointAt n = some .endPublication ∧ ∃ p ∈ (loops ph n).publications, ∃ error,
        c'.world = c.world.endPublication p.own error ∧ p.epoch = c.world.connectionEpoch

/-- A catch-up that asks for a page is one of the current epoch. -/
def AsksInEpoch (c : CoordConfiguration)
    (ph : Histories CoordPoint CoordInput LogSyncCoordinator) : Prop :=
  ∀ n i c' wireHeads limit, c.step (coordSystem cfg pages depth) (.run n i) = some c' →
    c.pointAt n = some (.sendSyncRequest wireHeads limit) →
      ∀ r ∈ (loops ph n).runs.head?, r.epoch = c.world.connectionEpoch

/-- **One pagination loop** at a time, in every run of a coordinator; and in every run whose
    reconnects find each catch-up behind its pages, or where it waits for one, no catch-up
    of an older connection asks for a page. -/
theorem single_pagination :
    (∀ c ph, Async.Recorded (coordSystem cfg pages depth) (ReconnectRun false)
      (start store deviceId contentKey) c ph → SingleLoop cfg pages depth c ph) ∧
    ∀ c ph, Async.Recorded (coordSystem cfg pages depth) (ReconnectRun true)
      (start store deviceId contentKey) c ph →
        SingleLoop cfg pages depth c ph ∧ AsksInEpoch cfg pages depth c ph := by
  have hsingle : ∀ strict c ph, Async.Recorded (coordSystem cfg pages depth) (ReconnectRun strict)
      (start store deviceId contentKey) c ph → SingleLoop cfg pages depth c ph := by
    intro strict c ph h
    have hkept := (reconnect_watched cfg pages depth store deviceId contentKey strict).sound h
    have hloop := hkept.inv.loop
    constructor
    · intro m n a b r r' hr hr' hcurrent hcurrent'
      have hm := ((hloop.programs m).held r (List.mem_of_getElem? hr) hcurrent).2
      have hn := ((hloop.programs n).held r' (List.mem_of_getElem? hr') hcurrent').2
      have hown : r.own = r'.own := some.inj (hm.symm.trans hn)
      by_cases hmn : m = n
      · subst hmn
        refine ⟨rfl, ?_⟩
        have hlt : a < ((loops ph m).runs.map (·.own)).length := by
          rw [List.length_map]
          exact (List.getElem?_eq_some_iff.mp hr).1
        apply (List.getElem?_inj hlt (hloop.programs m).distinct).mp
        rw [List.getElem?_map, List.getElem?_map, hr, hr']
        exact congrArg some hown
      · exact absurd hown (hloop.apart m n hmn r (List.mem_of_getElem? hr) r'
          (List.mem_of_getElem? hr'))
    · intro n i c' hs hguard
      obtain ⟨t, ht⟩ := pointAt_of_step hs
      rw [ht]
      rcases guard_released hloop (hkept.step ht hs) hguard with hsame | rfl | ⟨rfl, hend⟩
      · exact .inl hsame
      · exact .inr (.inl rfl)
      · exact .inr (.inr ⟨rfl, hend⟩)
    · intro n i c' hs hbefore hafter
      obtain ⟨t, ht⟩ := pointAt_of_step hs
      obtain ⟨rfl, hend⟩ := marked_published hloop (hkept.step ht hs) hbefore hafter
      exact ⟨ht, hend⟩
  refine ⟨hsingle false, fun c ph h => ⟨hsingle true c ph h, ?_⟩⟩
  intro n i c' wireHeads limit hs ht r hr
  have hkept := (reconnect_watched cfg pages depth store deviceId contentKey true).sound h
  have hgoing : r.stage ≠ .over := (hkept.step ht hs).2 r hr
  by_contra hold
  have hhalted := hkept.inv.halted rfl n
  rw [ht] at hhalted
  rcases hhalted r hr hold with hover | heq | heq | ⟨heq, _⟩
  · exact hgoing hover
  · cases heq
  · cases heq
  · cases heq

end

/-! ## 7. Two catch-ups -/

def unanswered : CoordInput := { answered [] with response := none }

/-- A catch-up waits for its page when the socket is lost, and the next one asks for its own. -/
def waitingReconnect : List (Action CoordInput CoordCall) :=
  .call .catchUp :: runs 0 10 [] ++ .run 0 unanswered :: .call .resetForReconnect ::
    runs 1 1 [] ++ .call .catchUp :: runs 2 9 []

/-- The program `n` asks for a page next, in this epoch, the connection being in that one. -/
def asksNext (n epoch current : Nat) (c : CoordConfiguration)
    (ph : Histories CoordPoint CoordInput LogSyncCoordinator) : Bool :=
  (match c.pointAt n with
    | some (.sendSyncRequest _ _) => true
    | _ => false) &&
  (loops ph n).runs.head?.any (fun r => decide (r.epoch = epoch)) &&
    decide (c.world.connectionEpoch = current)

theorem single_pagination_reconnect :
    ∃ c ph, Async.Recorded (coordSystem soloConfig 2 3) (ReconnectRun true) soloStart c ph ∧
      asksNext 2 1 1 c ph = true ∧ SingleLoop soloConfig 2 3 c ph ∧
        AsksInEpoch soloConfig 2 3 c ph := by
  obtain ⟨c, ph, hrun, hasks⟩ := Async.Recorded.of_exec (coordSystem soloConfig 2 3)
    (ReconnectRun true) soloStart waitingReconnect (asksNext 2 1 1) (by decide +kernel)
  obtain ⟨hsingle, hepoch⟩ :=
    (single_pagination soloConfig 2 3 .fresh "device-a" _).2 c ph hrun
  exact ⟨c, ph, hrun, hasks, hsingle, hepoch⟩

def lateReconnect : List (Action CoordInput CoordCall) :=
  .call .catchUp :: runs 0 4 [] ++ .call .resetForReconnect :: runs 1 1 [] ++ runs 0 5 []

/-- It asks for a page of the old connection on the new one. -/
theorem asks_behind_reconnect :
    ¬ ∀ c ph, Async.Recorded (coordSystem soloConfig 2 3) (ReconnectRun false) soloStart c ph →
      SingleLoop soloConfig 2 3 c ph ∧ AsksInEpoch soloConfig 2 3 c ph := by
  intro hall
  obtain ⟨c, ph, hrun, htest⟩ := Async.Recorded.of_exec (coordSystem soloConfig 2 3)
    (ReconnectRun false) soloStart lateReconnect (fun c ph => asksNext 0 0 1 c ph &&
      (c.step (coordSystem soloConfig 2 3) (.run 0 (answered []))).isSome) (by decide +kernel)
  obtain ⟨hasks, hstep⟩ := (Bool.and_eq_true _ _).mp htest
  obtain ⟨c', hs⟩ := isSome_iff_exists.mp hstep
  simp only [asksNext, Bool.and_eq_true, decide_eq_true_eq, any_eq_true] at hasks
  obtain ⟨⟨hpoint, r, hr, hold⟩, hcurrent⟩ := hasks
  split at hpoint
  · next wireHeads limit ht =>
    have hepoch := (hall c ph hrun).2 0 _ c' wireHeads limit hs ht r hr
    rw [hold, hcurrent] at hepoch
    cases hepoch
  · cases hpoint

end LogSyncCoordinator

end WebOfTrust
