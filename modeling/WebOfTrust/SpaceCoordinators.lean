/-
  **The coordinator of a space** (`getOrCreateCoordinator` of `YjsReplicationAdapter.ts`): built
  in a single flight, across cleanups, re-creations and restarts.

  The flight is kept by the id of the space.  A call for a state that has left the space map
  puts a flight of its own there, over the one of the live state, which is then built twice.
-/
import WebOfTrust.Machine

namespace WebOfTrust.SpaceCoordinators

open Machine

/-! ## 1. The adapter -/

/-- The two awaits of a build; then its `finally`. -/
inductive Stage where
  | docLogStore
  | deviceId
  | settled
  | finished
deriving DecidableEq

/-- A build, with the epoch and the state that it was called for. -/
structure Build where
  epoch : Nat
  state : Nat
  stage : Stage

/-- The maps at the id of one space.  A coordinator, a flight, a source and a subscription are
    the number of their build; `installed` keeps the states of all coordinators. -/
structure Adapter where
  lifecycleEpoch : Nat
  space : Option Nat
  created : Nat
  coordinator : Option Nat
  flight : Option Nat
  source : Option Nat
  unsub : Option Nat
  builds : List Build
  installed : List Nat

def start : Adapter := ⟨0, none, 0, none, none, none, none, [], []⟩

namespace Adapter

variable (a : Adapter) (n : Nat) (b : Build)

def inThisLifecycle : Bool := decide (b.epoch = a.lifecycleEpoch ∧ a.space = some b.state)

def releaseCatchUpSource : Adapter := { a with flight := none, unsub := none, source := none }

def begin (state : Nat) : Adapter :=
  let b := ⟨a.lifecycleEpoch, state, .docLogStore⟩
  { a with
    builds := a.builds ++ [if a.inThisLifecycle b then b else { b with stage := .settled }]
    flight := some a.builds.length }

/-- The build of the coordinator that is there, or that is promised. -/
def getOrCreateCoordinator (state : Nat) : Nat × Adapter :=
  match a.coordinator with
  | some existing => (existing, a)
  | none =>
    match a.flight, a.flight.bind (a.builds[·]?) with
    | some pending, some b =>
      if b.epoch = a.lifecycleEpoch ∧ b.state = state then (pending, a)
      else (a.builds.length, a.begin state)
    | _, _ => (a.builds.length, a.begin state)

def goTo (stage : Stage) : Adapter := { a with builds := a.builds.set n { b with stage } }

/-- The coordinator is installed; `registry` says whether there is a catch-up registry. -/
def install (registry : Bool) : Adapter :=
  let a := { a with coordinator := some n, installed := a.installed ++ [b.state] }
  if registry then { a with source := some n, unsub := some n } else a

/-- The build goes on.  What it awaits may fail, or be absent, and so may the lease. -/
def resume (registry ok lease : Bool) : Option Adapter :=
  match b.stage with
  | .docLogStore => some (a.goTo n b (if ok then .deviceId else .settled))
  | .deviceId =>
    let settled := a.goTo n b .settled
    if !ok || !a.inThisLifecycle b || !lease then some settled
    else if !a.inThisLifecycle b then some settled.releaseCatchUpSource
    else some (settled.install n b registry)
  | .settled =>
    some { a.goTo n b .finished with flight := if a.flight = some n then none else a.flight }
  | .finished => none

def create : Adapter := { a with space := some a.created, created := a.created + 1 }

def cleanupSpaceLocally : Adapter :=
  { a with space := none, coordinator := none }.releaseCatchUpSource

def stop : Adapter :=
  { a with lifecycleEpoch := a.lifecycleEpoch + 1, space := none, coordinator := none
           flight := none, unsub := none, source := none }

end Adapter

inductive Input where
  | getOrCreateCoordinator (state : Nat)
  | resume (n : Nat) (ok lease : Bool)
  | create
  | cleanup
  | stop

def step (registry : Bool) (a : Adapter) : Input → Option Adapter
  | .getOrCreateCoordinator state =>
    if state < a.created then some (a.getOrCreateCoordinator state).2 else none
  | .resume n ok lease => a.builds[n]?.bind fun b => a.resume n b registry ok lease
  | .create => some a.create
  | .cleanup => some a.cleanupSpaceLocally
  | .stop => some a.stop

/-- A call for another state than the live one does not meet a flight of the live one. -/
def Apart (a : Adapter) : Input → Prop
  | .getOrCreateCoordinator state => a.space = some state ∨ a.coordinator ≠ none ∨
    (a.flight.bind (a.builds[·]?)).any a.inThisLifecycle = false
  | _ => True

instance (a : Adapter) : ∀ i, Decidable (Apart a i)
  | .getOrCreateCoordinator _ => inferInstanceAs (Decidable (_ ∨ _ ∨ _))
  | .resume _ _ _ | .create | .cleanup | .stop => isTrue trivial

/-! ## 2. One flight, one coordinator -/

variable {registry ok lease : Bool} {a a' : Adapter} {n m state : Nat} {b b' : Build}
  {stage : Stage}

/-- States are made once, and get one coordinator; a build of the live state that is not over is
    the flight, and there is no coordinator yet. -/
structure Single (a : Adapter) : Prop where
  live : ∀ s ∈ a.space, s < a.created
  builds : ∀ b ∈ a.builds, b.state < a.created
  made : ∀ s ∈ a.installed, s < a.created
  once : a.installed.Nodup
  covered : ∀ s ∈ a.space, s ∈ a.installed → a.coordinator ≠ none
  flight : ∀ (n : Nat) b, a.builds[n]? = some b → a.inThisLifecycle b = true →
    b.stage = .docLogStore ∨ b.stage = .deviceId → a.flight = some n ∧ a.coordinator = none

theorem inThisLifecycle_iff :
    a.inThisLifecycle b = true ↔ b.epoch = a.lifecycleEpoch ∧ a.space = some b.state :=
  decide_eq_true_iff

namespace Single

variable (h : Single a)
include h

theorem begin (hstate : state < a.created) (hnone : a.coordinator = none)
    (hover : ∀ (n : Nat) b, a.builds[n]? = some b → a.inThisLifecycle b = true →
      b.stage ≠ .docLogStore ∧ b.stage ≠ .deviceId) : Single (a.begin state) := by
  refine ⟨h.live, fun b hb => ?_, h.made, h.once, h.covered, fun n b hb hlive hstage => ?_⟩
  · rcases List.mem_append.mp hb with hb | hb
    · exact h.builds b hb
    · rw [List.mem_singleton.mp hb]
      split <;> exact hstate
  · rcases Nat.lt_or_ge n a.builds.length with hlt | hge
    · have hold : a.builds[n]? = some b := by
        rw [← hb, Adapter.begin, List.getElem?_append_left hlt]
      obtain ⟨hdoc, hdevice⟩ := hover n b hold hlive
      exact absurd hstage (by simp [hdoc, hdevice])
    obtain ⟨hlt, -⟩ := List.getElem?_eq_some_iff.mp hb
    have hlen : (a.begin state).builds.length = a.builds.length + 1 := by simp [Adapter.begin]
    have hn : n = a.builds.length := by omega
    exact ⟨by rw [hn]; rfl, hnone⟩

theorem getOrCreateCoordinator (hstate : state < a.created)
    (hapart : Apart a (.getOrCreateCoordinator state)) :
    Single (a.getOrCreateCoordinator state).2 := by
  unfold Adapter.getOrCreateCoordinator
  cases hnone : a.coordinator with
  | some existing => exact h
  | none =>
    -- a live build that is not over is the flight, and the call joins it
    have hbegin (hother : ∀ n b, a.flight = some n → a.builds[n]? = some b →
        ¬(b.epoch = a.lifecycleEpoch ∧ b.state = state)) : Single (a.begin state) := by
      refine h.begin hstate hnone fun n b hb hlive => ?_
      by_contra hstage
      obtain ⟨hflight, -⟩ := h.flight n b hb hlive (by grind)
      obtain ⟨hepoch, hspace⟩ := inThisLifecycle_iff.mp hlive
      rcases hapart with hstate | hsome | hnot
      · exact hother n b hflight hb ⟨hepoch, Option.some.inj (hspace.symm.trans hstate)⟩
      · exact hsome hnone
      · simp [hflight, hb, hlive] at hnot
    dsimp only
    split
    · next n b hflight hb =>
      split
      · exact h
      next hne =>
      refine hbegin fun n' b' hflight' hb' => ?_
      rw [hflight', Option.bind_some, hb'] at hb
      cases hb
      exact hne
    · next hmissing =>
      exact hbegin fun n b hflight hb => absurd (by simp [hflight, hb]) (hmissing n b hflight)

theorem goTo (hb : a.builds[n]? = some b)
    (hstage : stage = .docLogStore ∨ stage = .deviceId → b.stage = .docLogStore) :
    Single (a.goTo n b stage) := by
  refine ⟨h.live, fun b' hb' => ?_, h.made, h.once, h.covered, fun m b' hb' hlive hopen => ?_⟩
  · rcases List.mem_or_eq_of_mem_set hb' with hb' | rfl
    · exact h.builds b' hb'
    · exact h.builds b (List.mem_of_getElem? hb)
  · rcases getElem?_set_cases hb' with ⟨rfl, rfl⟩ | ⟨-, hold⟩
    · exact h.flight m b hb hlive (.inl (hstage hopen))
    · exact h.flight m b' hold hlive hopen

theorem install (hb : a.builds[n]? = some b) (hstage : b.stage = .deviceId)
    (hlive : a.inThisLifecycle b = true) :
    Single ((a.goTo n b .settled).install n b registry) := by
  obtain ⟨hflight, hnone⟩ := h.flight n b hb hlive (.inr hstage)
  obtain ⟨-, hspace⟩ := inThisLifecycle_iff.mp hlive
  have hsettled : Single (a.goTo n b .settled) := h.goTo hb (by simp)
  have hinstalled : Single { a.goTo n b .settled with
      coordinator := some n, installed := a.installed ++ [b.state] } := by
    refine ⟨h.live, hsettled.builds, fun s hs => ?_, ?_, nofun, fun m b' hb' hlive' hopen => ?_⟩
    · rcases List.mem_append.mp hs with hs | hs
      · exact h.made s hs
      · rw [List.mem_singleton.mp hs]
        exact h.builds b (List.mem_of_getElem? hb)
    · refine List.nodup_append.mpr ⟨h.once, by simp, fun s hs s' hs' heq => ?_⟩
      rw [List.mem_singleton.mp hs'] at heq
      exact h.covered b.state hspace (heq ▸ hs) hnone
    · obtain ⟨hm, -⟩ := hsettled.flight m b' hb' hlive' hopen
      cases hflight.symm.trans hm
      rcases getElem?_set_cases hb' with ⟨-, rfl⟩ | ⟨hne, -⟩
      · simp at hopen
      · exact absurd rfl hne
  cases registry
  · exact hinstalled
  · exact ⟨hinstalled.1, hinstalled.2, hinstalled.3, hinstalled.4, hinstalled.5, hinstalled.6⟩

theorem resume (hb : a.builds[n]? = some b) (hs : a.resume n b registry ok lease = some a') :
    Single a' := by
  unfold Adapter.resume at hs
  split at hs
  · next hstage =>
    cases hs
    exact h.goTo hb fun _ => hstage
  · next hstage =>
    dsimp only at hs
    split at hs
    · cases hs
      exact h.goTo hb (by simp)
    next hgo =>
    have hlive : a.inThisLifecycle b = true := by grind
    simp only [hlive, Bool.not_true, Bool.false_eq_true, if_false, Option.some.injEq] at hs
    exact hs ▸ h.install hb hstage hlive
  · cases hs
    have hover : Single (a.goTo n b .finished) := h.goTo hb (by simp)
    refine { hover with flight := fun m b' hb' hlive hopen => ?_ }
    obtain ⟨hflight, hnone⟩ := hover.flight m b' hb' hlive hopen
    refine ⟨?_, hnone⟩
    rcases getElem?_set_cases hb' with ⟨-, rfl⟩ | ⟨hne, -⟩
    · simp at hopen
    · have hflight : a.flight = some m := hflight
      rw [hflight, if_neg fun heq => hne (Option.some.inj heq)]
  · cases hs

theorem gone (hspace : a'.space = none) (hcreated : a'.created = a.created)
    (hbuilds : a'.builds = a.builds) (hinstalled : a'.installed = a.installed) : Single a' := by
  refine ⟨?_, ?_, ?_, ?_, ?_, fun n b hb hlive => ?_⟩
  · simp [hspace]
  · rw [hbuilds, hcreated]
    exact h.builds
  · rw [hinstalled, hcreated]
    exact h.made
  · rw [hinstalled]
    exact h.once
  · simp [hspace]
  · rw [inThisLifecycle_iff, hspace] at hlive
    exact nomatch hlive.2

theorem create : Single a.create := by
  refine ⟨?_, fun b hb => Nat.lt_succ_of_lt (h.builds b hb),
    fun s hs => Nat.lt_succ_of_lt (h.made s hs), h.once, ?_, fun n b hb hlive => ?_⟩
  · rintro s ⟨⟩
    exact Nat.lt_succ_self _
  · rintro s ⟨⟩ hs
    exact absurd (h.made _ hs) (Nat.lt_irrefl _)
  have hstate := (inThisLifecycle_iff.mp hlive).2
  have hlt := h.builds b (List.mem_of_getElem? hb)
  exact absurd (Option.some.inj hstate) (Nat.ne_of_gt hlt)

theorem step {i : Input} (hapart : Apart a i) (hs : step registry a i = some a') : Single a' := by
  cases i with
  | getOrCreateCoordinator state =>
    simp only [SpaceCoordinators.step] at hs
    split at hs
    · next hstate =>
      cases hs
      exact h.getOrCreateCoordinator hstate hapart
    · cases hs
  | resume n ok lease =>
    obtain ⟨b, hb, hs⟩ := Option.bind_eq_some_iff.mp hs
    exact h.resume hb hs
  | create =>
    cases hs
    exact h.create
  | cleanup | stop =>
    cases hs
    exact h.gone rfl rfl rfl rfl

end Single

/-! ## 3. Single flight across lifecycles -/

theorem installed_step {i : Input} (hs : step registry a i = some a') :
    a'.installed = a.installed ∨
      ∃ state, a'.installed = a.installed ++ [state] ∧ a'.space = some state := by
  cases i with
  | getOrCreateCoordinator state =>
    simp only [step] at hs
    split at hs <;> cases hs
    unfold Adapter.getOrCreateCoordinator
    split
    · exact .inl rfl
    split
    · split <;> exact .inl rfl
    · exact .inl rfl
  | resume n ok lease =>
    obtain ⟨b, hb, hs⟩ := Option.bind_eq_some_iff.mp hs
    unfold Adapter.resume at hs
    split at hs
    · cases hs
      exact .inl rfl
    · dsimp only at hs
      split at hs
      · cases hs
        exact .inl rfl
      next hgo =>
      have hlive : a.inThisLifecycle b = true := by grind
      simp only [hlive, Bool.not_true, Bool.false_eq_true, if_false, Option.some.injEq] at hs
      have hspace := (inThisLifecycle_iff.mp hlive).2
      subst hs
      refine .inr ⟨b.state, ?_⟩
      cases registry <;> exact ⟨rfl, hspace⟩
    · cases hs
      exact .inl rfl
    · cases hs
  | create | cleanup | stop =>
    cases hs
    exact .inl rfl

/-- A build of an ended lifecycle leaves all maps alone, apart from a flight of its own. -/
theorem ended_resume (hb : a.builds[n]? = some b) (hended : a.inThisLifecycle b = false)
    (hs : step registry a (.resume n ok lease) = some a') :
    a'.coordinator = a.coordinator ∧ a'.source = a.source ∧ a'.unsub = a.unsub ∧
      ∀ m, m ≠ n → a.flight = some m → a'.flight = some m := by
  obtain ⟨b', hb', hs⟩ := Option.bind_eq_some_iff.mp hs
  cases hb.symm.trans hb'
  unfold Adapter.resume at hs
  split at hs
  · cases hs
    exact ⟨rfl, rfl, rfl, fun _ _ hm => hm⟩
  · simp only [hended, Bool.not_false, Bool.or_true, Bool.true_or, if_true] at hs
    cases hs
    exact ⟨rfl, rfl, rfl, fun _ _ hm => hm⟩
  · cases hs
    refine ⟨rfl, rfl, rfl, fun m hne hm => ?_⟩
    rw [hm, if_neg fun heq => hne (Option.some.inj heq)]
  · cases hs

/-- **One coordinator for each state**, over the state that is in the map, and nothing from a build
    of an ended lifecycle, in every run in which no call for an ended state meets the flight of
    the live one. -/
theorem coordinator_single (h : Machine.Reaches (step registry) Apart start a) :
    a.installed.Nodup ∧
    (∀ i a', step registry a i = some a' → a'.installed = a.installed ∨
      ∃ state, a'.installed = a.installed ++ [state] ∧ a'.space = some state) ∧
    ∀ (n : Nat) b ok lease a', a.builds[n]? = some b → a.inThisLifecycle b = false →
      step registry a (.resume n ok lease) = some a' →
      a'.coordinator = a.coordinator ∧ a'.source = a.source ∧ a'.unsub = a.unsub ∧
        ∀ m, m ≠ n → a.flight = some m → a'.flight = some m := by
  have hsingle : Single a := by
    refine h.invariant ?_ fun _ _ _ hsingle hapart hs => hsingle.step hapart hs
    exact ⟨nofun, nofun, nofun, List.nodup_nil, nofun, nofun⟩
  exact ⟨hsingle.once, fun _ _ => installed_step, fun _ _ _ _ _ hb hended => ended_resume hb hended⟩

/-- A space is removed and created again while its coordinator is made: only the second state
    gets one. -/
theorem coordinator_single_recreated : ∃ a, Machine.Reaches (step true) Apart start a ∧
    a.installed = [1] ∧ a.installed.Nodup := by
  obtain ⟨a, hreach, htest⟩ := Machine.Reaches.of_exec (step true) Apart start
    [.create, .getOrCreateCoordinator 0, .cleanup, .create, .getOrCreateCoordinator 1,
      .resume 0 true true, .resume 0 true true, .resume 1 true true, .resume 1 true true]
    (fun a => decide (a.installed = [1])) (by decide)
  exact ⟨a, hreach, of_decide_eq_true htest, (coordinator_single hreach).1⟩

/-- **A call for an ended state** covers the flight of the live one, which gets two coordinators. -/
theorem ended_call_covers :
    ¬ ∀ a, Machine.Reaches (step true) (fun _ _ => True) start a → a.installed.Nodup := by
  intro h
  obtain ⟨a, hreach, htest⟩ := Machine.Reaches.of_exec (step true) (fun _ _ => True) start
    [.create, .cleanup, .create, .getOrCreateCoordinator 1, .getOrCreateCoordinator 0,
      .resume 1 true true, .getOrCreateCoordinator 1, .resume 0 true true, .resume 0 true true,
      .resume 2 true true, .resume 2 true true]
    (fun a => decide (a.installed = [1, 1])) (by decide)
  have hnodup := h a hreach
  rw [of_decide_eq_true htest] at hnodup
  exact absurd hnodup (by decide)

end WebOfTrust.SpaceCoordinators
