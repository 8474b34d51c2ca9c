/-
  **The replay of blocked entries** (`replayBlockedByKeyForSpace` of
  `YjsReplicationAdapter.ts`): the guard state of one space, with the passes that run.

  A call during a pass sets the dirty mark, and the pass is followed by another one.  The call
  is owed a pass until one starts: that is history, like the numbers of calls and passes.
-/
import WebOfTrust.Machine

namespace WebOfTrust.BlockedReplay

open Machine

/-! ## 1. The guard -/

structure Coordinator where
  id : Nat
  blockedByKey : List String

/-- A run of `replayBlockedByKey`, with the entries it has taken at its start. -/
structure Pass where
  coordinator : Nat
  pending : List String

structure SpaceReplay where
  loaded : Bool
  coordinator : Option Coordinator
  replayBlockedInFlight : Bool
  replayBlockedDirty : Bool
  passes : List Pass
  installed : Nat
  owed : Bool
  calls : Nat
  started : Nat

def start : SpaceReplay where
  loaded := false
  coordinator := none
  replayBlockedInFlight := false
  replayBlockedDirty := false
  passes := []
  installed := 0
  owed := false
  calls := 0
  started := 0

namespace SpaceReplay

variable (s : SpaceReplay)

/-- Up to the `await`, and again behind a pass. -/
def replayBlockedByKeyForSpace : SpaceReplay :=
  if !s.loaded then s
  else
    match s.coordinator with
    | none => s
    | some c =>
      if s.replayBlockedInFlight then { s with replayBlockedDirty := true }
      else
        { s with
          replayBlockedInFlight := true
          passes := s.passes ++ [⟨c.id, c.blockedByKey⟩]
          owed := false
          started := s.started + 1 }

/-- A call is owed a pass where there is a coordinator. -/
def call : SpaceReplay :=
  { s with
    owed := s.owed || s.loaded && s.coordinator.isSome
    calls := s.calls + 1 }.replayBlockedByKeyForSpace

def converge (pass : Pass) (converged : List String) (c : Coordinator) : Coordinator :=
  if c.id = pass.coordinator then
    { c with blockedByKey := c.blockedByKey.filter fun entry =>
        !(pass.pending.contains entry && converged.contains entry) }
  else c

/-- A pass ends, or throws: the `finally`, and what follows it. -/
def passEnds (k : Nat) (converged : List String) : Option SpaceReplay :=
  match s.passes[k]? with
  | none => none
  | some pass =>
    let s := { s with
      coordinator := s.coordinator.map (converge pass converged)
      passes := s.passes.eraseIdx k
      replayBlockedInFlight := false }
    some (if s.replayBlockedDirty then
      { s with replayBlockedDirty := false }.replayBlockedByKeyForSpace
    else s)

/-- `getOrCreateCoordinator`, where it installs one. -/
def install : Option SpaceReplay :=
  if s.loaded ∧ s.coordinator = none then
    some { s with coordinator := some ⟨s.installed, []⟩, installed := s.installed + 1 }
  else none

/-- An entry is received whose key is not there. -/
def block (entry : String) : Option SpaceReplay :=
  s.coordinator.map fun c =>
    { s with coordinator := some { c with blockedByKey := entry :: c.blockedByKey } }

def cleanupSpaceLocally : SpaceReplay :=
  { s with
    loaded := false
    coordinator := none
    replayBlockedInFlight := false
    replayBlockedDirty := false }

end SpaceReplay

inductive Input where
  | load
  | install
  | block (entry : String)
  | call
  | passEnds (k : Nat) (converged : List String)
  | cleanup
deriving DecidableEq

def step (s : SpaceReplay) : Input → Option SpaceReplay
  | .load => some { s with loaded := true }
  | .install => s.install
  | .block entry => s.block entry
  | .call => some s.call
  | .passEnds k converged => s.passEnds k converged
  | .cleanup => some s.cleanupSpaceLocally

/-- A space is not cleaned up during a pass. -/
def Undisturbed (s : SpaceReplay) (i : Input) : Prop := i = .cleanup → s.passes = []

instance (s : SpaceReplay) (i : Input) : Decidable (Undisturbed s i) :=
  inferInstanceAs (Decidable (_ → _))

/-! ## 2. What the marks stand for -/

variable {s s' : SpaceReplay}

structure Sound (s : SpaceReplay) : Prop where
  marked : s.passes.length = if s.replayBlockedInFlight then 1 else 0
  dirty : s.replayBlockedDirty = true → s.replayBlockedInFlight = true
  ready : s.replayBlockedInFlight = true → s.loaded = true ∧ s.coordinator.isSome = true
  owed : s.owed = true → s.replayBlockedDirty = true
  counted : s.started + (if s.replayBlockedDirty then 1 else 0) ≤ s.calls

theorem sound_start : Sound start :=
  ⟨rfl, nofun, nofun, nofun, Nat.le_refl 0⟩

theorem replay_starts (hloaded : s.loaded = true) (hcoordinator : s.coordinator.isSome = true)
    (hidle : s.replayBlockedInFlight = false) :
    ∃ pass, s.replayBlockedByKeyForSpace = { s with
        replayBlockedInFlight := true
        passes := s.passes ++ [pass]
        owed := false
        started := s.started + 1 } := by
  obtain ⟨c, hc⟩ := Option.isSome_iff_exists.mp hcoordinator
  exact ⟨⟨c.id, c.blockedByKey⟩, by
    simp [SpaceReplay.replayBlockedByKeyForSpace, hloaded, hc, hidle]⟩

theorem Sound.call (h : Sound s) : Sound s.call := by
  have hcounted := h.counted
  by_cases hready : s.loaded = true ∧ s.coordinator.isSome = true
  · obtain ⟨hloaded, hcoordinator⟩ := hready
    obtain ⟨c, hc⟩ := Option.isSome_iff_exists.mp hcoordinator
    cases hflight : s.replayBlockedInFlight with
    | false =>
      have hclean : s.replayBlockedDirty = false := by
        by_contra hdirty
        simp [h.dirty (by simpa using hdirty)] at hflight
      have hnone : s.passes = [] := by simpa [hflight] using h.marked
      obtain ⟨pass, hstart⟩ := replay_starts
        (s := { s with owed := s.owed || s.loaded && s.coordinator.isSome, calls := s.calls + 1 })
        hloaded hcoordinator hflight
      unfold SpaceReplay.call
      rw [hstart]
      refine ⟨by simp [hnone], fun _ => rfl, fun _ => ⟨hloaded, hcoordinator⟩, nofun, ?_⟩
      simp only [hclean] at hcounted ⊢
      simpa using hcounted
    | true =>
      have hcall : s.call = { s with
          owed := true, calls := s.calls + 1, replayBlockedDirty := true } := by
        simp [SpaceReplay.call, SpaceReplay.replayBlockedByKeyForSpace, hloaded, hc, hflight]
      rw [hcall]
      refine ⟨h.marked, fun _ => hflight, h.ready, fun _ => rfl, ?_⟩
      simp only [if_true]
      omega
  · have hcall : s.call = { s with calls := s.calls + 1 } := by
      have hnot : (s.loaded && s.coordinator.isSome) = false := by simpa using hready
      unfold SpaceReplay.call SpaceReplay.replayBlockedByKeyForSpace
      rw [hnot, Bool.or_false]
      cases hloaded : s.loaded with
      | false => rfl
      | true =>
        have hc : s.coordinator = none := by simpa [hloaded] using hready
        simp [hc]
    rw [hcall]
    exact { h with counted := by simp only; omega }

theorem Sound.passEnds {k : Nat} {converged : List String} (h : Sound s)
    (hs : s.passEnds k converged = some s') :
    Sound s' ∧ (s.owed = true → s'.owed = false ∧ s'.started = s.started + 1) := by
  unfold SpaceReplay.passEnds at hs
  rcases hk : s.passes[k]? with _ | pass
  · simp [hk] at hs
  obtain ⟨hlt, -⟩ := List.getElem?_eq_some_iff.mp hk
  have hflight : s.replayBlockedInFlight = true := by
    by_contra hidle
    have hlength := h.marked
    rw [if_neg hidle] at hlength
    omega
  have hone : (s.passes.eraseIdx k).length = 0 := by
    have hlength := h.marked
    rw [if_pos hflight] at hlength
    rw [List.length_eraseIdx_of_lt hlt, hlength]
  obtain ⟨hloaded, hcoordinator⟩ := h.ready hflight
  have hcounted := h.counted
  simp only [hk] at hs
  split at hs
  · next hdirty =>
    obtain ⟨pass', hstart⟩ := replay_starts (s := { s with
        coordinator := s.coordinator.map (SpaceReplay.converge pass converged)
        passes := s.passes.eraseIdx k
        replayBlockedInFlight := false
        replayBlockedDirty := false })
      hloaded (by simpa using hcoordinator) rfl
    rw [hstart] at hs
    cases hs
    refine ⟨⟨by simp [hone], nofun, fun _ => ⟨hloaded, by simpa using hcoordinator⟩, nofun, ?_⟩,
      fun _ => ⟨rfl, rfl⟩⟩
    rw [if_pos hdirty] at hcounted
    simpa using hcounted
  · next hclean =>
    cases hs
    refine ⟨⟨by simpa using hone, fun hdirty => absurd hdirty hclean, nofun, h.owed, hcounted⟩,
      fun howed => absurd (h.owed howed) hclean⟩

theorem Sound.step {i : Input} (h : Sound s) (hcalm : Undisturbed s i)
    (hs : step s i = some s') : Sound s' := by
  cases i with
  | load =>
    cases hs
    exact { h with ready := fun hflight => ⟨rfl, (h.ready hflight).2⟩ }
  | install =>
    simp only [BlockedReplay.step, SpaceReplay.install] at hs
    split at hs
    · next hfree =>
      cases hs
      exact { h with ready := fun hflight => ⟨hfree.1, rfl⟩ }
    · cases hs
  | block entry =>
    obtain ⟨c, hc, rfl⟩ := Option.map_eq_some_iff.mp hs
    exact { h with ready := fun hflight => ⟨(h.ready hflight).1, rfl⟩ }
  | call =>
    cases hs
    exact h.call
  | passEnds k converged => exact (h.passEnds hs).1
  | cleanup =>
    cases hs
    have hnone : s.passes = [] := hcalm rfl
    have hidle : s.replayBlockedInFlight = false := by
      by_contra hflight
      have hlength := h.marked
      rw [hnone, if_pos (by simpa using hflight)] at hlength
      cases hlength
    have hclean : ¬ s.replayBlockedDirty = true := fun hdirty => by
      simp [h.dirty hdirty] at hidle
    refine ⟨by simp [SpaceReplay.cleanupSpaceLocally, hnone], nofun, nofun,
      fun howed => absurd (h.owed howed) hclean, ?_⟩
    have hcounted := h.counted
    rw [if_neg hclean] at hcounted
    exact hcounted

/-- A pass runs that can end, and its end starts the next one. -/
structure Followed (s : SpaceReplay) : Prop where
  runs : s.passes ≠ []
  ends : ∀ converged, (step s (.passEnds 0 converged)).isSome = true
  starts : ∀ k converged s', step s (.passEnds k converged) = some s' →
    s'.owed = false ∧ s'.started = s.started + 1

/-- **No call is lost.**  What is owed a pass waits for the one that runs, whose end starts the
    next. -/
theorem replay_not_lost (h : Reaches step Undisturbed start s) :
    s.passes.length ≤ 1 ∧ s.started ≤ s.calls ∧ (s.owed = true → Followed s) := by
  have hsound : Sound s := h.invariant sound_start fun _ _ _ hs ha => hs.step ha
  refine ⟨?_, Nat.le_trans (Nat.le_add_right _ _) hsound.counted, fun howed => ?_⟩
  · rw [hsound.marked]
    split <;> omega
  have hlength := hsound.marked
  rw [if_pos (hsound.dirty (hsound.owed howed))] at hlength
  obtain ⟨pass, hpasses⟩ := List.length_eq_one_iff.mp hlength
  refine ⟨by simp [hpasses], fun converged => ?_, fun k converged s' hs => ?_⟩
  · simp [step, SpaceReplay.passEnds, hpasses]
  · exact (hsound.passEnds hs).2 howed

/-- Two calls during a pass, and one behind it. -/
theorem replay_not_lost_during_pass :
    ∃ s, (s.owed = true ∧ s.calls = 3 ∧ s.started = 1) ∧ s.passes.length ≤ 1 ∧ s.started ≤ s.calls ∧
      (s.owed = true → Followed s) := by
  obtain ⟨s, h, hp⟩ := Reaches.of_exec step Undisturbed start
    [.load, .install, .block "entry", .call, .call, .call]
    (fun s => decide (s.owed = true ∧ s.calls = 3 ∧ s.started = 1)) (by decide)
  exact ⟨s, of_decide_eq_true hp, replay_not_lost h⟩

/-- A call before the coordinator is built is followed by no pass; and a space that is cleaned
    up during a pass and joined again has two of them. -/
theorem call_without_pass_and_two_passes :
    (∃ s s', Reaches step Undisturbed start s ∧ s.loaded = true ∧ step s .call = some s' ∧
      s'.passes = [] ∧ s'.started = 0 ∧ s'.replayBlockedDirty = false) ∧
    ∃ s, Reaches step (fun _ _ => True) start s ∧ s.passes.length = 2 := by
  refine ⟨⟨{ start with loaded := true }, _, Reaches.start.step (i := .load) nofun rfl, rfl, rfl,
    rfl, rfl, rfl⟩, ?_⟩
  obtain ⟨s, h, hp⟩ := Reaches.of_exec step (fun _ _ => True) start
    [.load, .install, .call, .cleanup, .load, .install, .call]
    (fun s => decide (s.passes.length = 2)) (by decide)
  exact ⟨s, h, of_decide_eq_true hp⟩

end WebOfTrust.BlockedReplay
