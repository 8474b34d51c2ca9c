/-
  **The push scheduler on its own** (`VaultPushScheduler.ts`): its timers, its flags and the
  pushes that are under way, in any order of changes, calls, firings and settled pushes.

  Heads name a state of the document.  A request is served once the vault holds a state that the
  document has had since: that of a push that has succeeded, or of `setLastPushedHeads`.
-/
import WebOfTrust.Machine

namespace WebOfTrust.PushScheduler

open Machine

/-! ## 1. The scheduler -/

/-- A push whose `.finally` has not run; it is settled once its `.then` or `.catch` has. -/
structure Push where
  currentHeads : Option String
  settled : Bool
deriving DecidableEq

structure VaultPushScheduler where
  lastPushedHeads : Option String
  debounceTimer : Option Nat
  pushing : Bool
  pendingAfterPush : Bool
  destroyed : Bool
deriving DecidableEq

structure System extends VaultPushScheduler where
  heads : Option String
  timers : List Nat
  nextTimer : Nat
  pushes : List Push
  /-- The heads that the document has had since the last request. -/
  since : Option (List (Option String))
  /-- The heads at which a push began that has succeeded. -/
  succeeded : List (Option String)
  lastFailed : Bool
deriving DecidableEq

namespace System

/-- `new VaultPushScheduler`, `setLastPushedHeads`. -/
def start (initial heads : Option String) : System :=
  { lastPushedHeads := initial, debounceTimer := none, pushing := false, pendingAfterPush := false
    destroyed := false, heads := heads, timers := [], nextTimer := 1, pushes := [], since := none
    succeeded := [], lastFailed := false }

variable (s : System)

def clearDebounce : System :=
  match s.debounceTimer with
  | none => s
  | some timer => { s with debounceTimer := none, timers := s.timers.filter (· ≠ timer) }

def schedulePush : System :=
  if s.pushing then { s with pendingAfterPush := true }
  else if s.heads ≠ none ∧ s.heads = s.lastPushedHeads then s
  else { s with pushing := true, pushes := s.pushes ++ [⟨s.heads, false⟩] }

def requested : System := { s with since := some [s.heads] }

def pushImmediate : System :=
  if s.destroyed then s else s.requested.clearDebounce.schedulePush

/-- `setTimeout`. -/
def arm : System :=
  { s with debounceTimer := some s.nextTimer, timers := s.timers ++ [s.nextTimer]
           nextTimer := s.nextTimer + 1 }

def pushDebounced : System := if s.destroyed then s else s.requested.clearDebounce.arm

def flush : System :=
  if s.destroyed then s
  else if s.debounceTimer.isSome then s.requested.clearDebounce.schedulePush
  else s

def destroy : System := { s with destroyed := true }.clearDebounce

def timerFires (timer : Nat) : Option System :=
  if timer ∈ s.timers then
    some { s with timers := s.timers.filter (· ≠ timer), debounceTimer := none }.schedulePush
  else none

/-- `.then` and `.catch`. -/
def pushSettles (k : Nat) (ok : Bool) : Option System :=
  match s.pushes[k]? with
  | some ⟨currentHeads, false⟩ =>
    let s := { s with pushes := s.pushes.set k ⟨currentHeads, true⟩ }
    if ok then
      some { s with lastPushedHeads := currentHeads, succeeded := s.succeeded ++ [currentHeads]
                    lastFailed := false }
    else some { s with lastFailed := true }
  | _ => none

/-- `.finally`. -/
def pushEnds (k : Nat) : Option System :=
  match s.pushes[k]? with
  | some ⟨_, true⟩ =>
    let s := { s with pushing := false, pushes := s.pushes.eraseIdx k }
    if s.pendingAfterPush ∧ s.destroyed = false then
      some { s with pendingAfterPush := false }.schedulePush
    else some s
  | _ => none

end System

inductive Input where
  | change (heads : Option String)
  | pushImmediate
  | pushDebounced
  | flush
  | destroy
  | timerFires (timer : Nat)
  | pushSettles (k : Nat) (ok : Bool)
  | pushEnds (k : Nat)

def step (s : System) : Input → Option System
  | .change heads => some { s with heads := heads, since := s.since.map (heads :: ·) }
  | .pushImmediate => some s.pushImmediate
  | .pushDebounced => some s.pushDebounced
  | .flush => some s.flush
  | .destroy => some s.destroy
  | .timerFires timer => s.timerFires timer
  | .pushSettles k ok => s.pushSettles k ok
  | .pushEnds k => s.pushEnds k

/-! ## 2. What the flags stand for -/

variable {initial heads : Option String} {s s' : System}

/-- The vault holds a state that the document has had since the last request. -/
def Covered (initial : Option String) (s : System) : Prop :=
  ∀ since ∈ s.since, ∃ h ∈ since, h ∈ s.succeeded ∨ h ≠ none ∧ h = initial

structure Sound (initial : Option String) (s : System) : Prop where
  single : s.pushing = true ∧ (∃ push, s.pushes = [push]) ∨ s.pushing = false ∧ s.pushes = []
  timers : s.timers = s.debounceTimer.toList
  last : s.lastPushedHeads = initial ∨ s.lastPushedHeads ∈ s.succeeded
  settled : ∀ push ∈ s.pushes, push.settled = true →
    push.currentHeads ∈ s.succeeded ∨ s.lastFailed = true
  now : ∀ since ∈ s.since, s.heads ∈ since

/-- What the last request still waits for. -/
inductive Awaited (initial : Option String) (s : System) : Prop where
  | timer (h : s.debounceTimer.isSome)
  | queued (hpushing : s.pushing = true) (h : s.pendingAfterPush = true)
  | running (push : Push) (hpush : push ∈ s.pushes)
      (h : ∀ since ∈ s.since, push.currentHeads ∈ since)
  | covered (h : Covered initial s)
  | failed (hpushing : s.pushing = false) (h : s.lastFailed = true)

def Kept (initial : Option String) (s : System) : Prop :=
  Sound initial s ∧ (s.destroyed = false → Awaited initial s)

theorem Sound.only {k : Nat} {push : Push} (h : Sound initial s) (hk : s.pushes[k]? = some push) :
    k = 0 ∧ s.pushing = true ∧ s.pushes = [push] := by
  rcases h.single with ⟨hp, push', hpushes⟩ | ⟨-, hnone⟩
  · rw [hpushes, List.getElem?_singleton] at hk
    split at hk
    · next hk0 =>
      cases hk
      exact ⟨hk0, hp, hpushes⟩
    · cases hk
  · rw [hnone] at hk
    cases hk

open PushScheduler.System

theorem Sound.requested (h : Sound initial s) : Sound initial s.requested :=
  { h with now := by simp [System.requested] }

theorem Sound.clearDebounce (h : Sound initial s) : Sound initial s.clearDebounce := by
  unfold System.clearDebounce
  split
  · exact h
  · next timer ht => exact { h with timers := by simp [h.timers, ht] }

theorem Sound.arm (h : Sound initial s) (ht : s.debounceTimer = none) : Sound initial s.arm :=
  { h with timers := by simp [System.arm, h.timers, ht] }

theorem clearDebounce_debounceTimer : s.clearDebounce.debounceTimer = none := by
  unfold clearDebounce
  split
  · assumption
  · rfl

theorem Sound.schedulePush (h : Sound initial s) : Kept initial s.schedulePush := by
  unfold System.schedulePush
  split
  · next hp => exact ⟨{ h with }, fun _ => .queued hp rfl⟩
  next hp =>
  split
  · next heq =>
    refine ⟨h, fun _ => .covered fun since hs => ⟨s.heads, h.now since hs, ?_⟩⟩
    rcases h.last with hl | hl
    · exact .inr ⟨heq.1, heq.2.trans hl⟩
    · exact .inl (heq.2 ▸ hl)
  have hnone : s.pushes = [] := by
    rcases h.single with ⟨hp', -⟩ | ⟨-, hnone⟩
    · exact absurd hp' hp
    · exact hnone
  refine ⟨{ h with single := .inl ⟨rfl, ⟨s.heads, false⟩, by simp [hnone]⟩
                   settled := by simp [hnone] }, fun _ => ?_⟩
  exact .running ⟨s.heads, false⟩ (by simp) h.now

/-! ## 3. Every step keeps it -/

section

variable (h : Kept initial s)
include h

theorem Kept.change :
    Kept initial { s with heads := heads, since := s.since.map (heads :: ·) } := by
  refine ⟨{ h.1 with now := by simp }, fun hd => ?_⟩
  cases h.2 hd with
  | timer ht => exact .timer ht
  | queued hp hq => exact .queued hp hq
  | running push hpush hin =>
    refine .running push hpush fun since hs => ?_
    obtain ⟨since', hs', rfl⟩ := Option.map_eq_some_iff.mp hs
    exact List.mem_cons_of_mem _ (hin since' hs')
  | covered hc =>
    refine .covered fun since hs => ?_
    obtain ⟨since', hs', rfl⟩ := Option.map_eq_some_iff.mp hs
    obtain ⟨h', hin, hstored⟩ := hc since' hs'
    exact ⟨h', List.mem_cons_of_mem _ hin, hstored⟩
  | failed hp hf => exact .failed hp hf

theorem Kept.pushSettles {k : Nat} {ok : Bool}
    (hs : s.pushSettles k ok = some s') : Kept initial s' := by
  obtain ⟨hsound, hawaited⟩ := h
  unfold System.pushSettles at hs
  split at hs
  · next currentHeads hk =>
    obtain ⟨rfl, hp, hpushes⟩ := hsound.only hk
    have hset : s.pushes.set 0 ⟨currentHeads, true⟩ = [⟨currentHeads, true⟩] := by
      rw [hpushes]
      rfl
    have hwaits : s.destroyed = false → s.debounceTimer.isSome ∨ s.pendingAfterPush = true ∨
        (∀ since ∈ s.since, currentHeads ∈ since) ∨ Covered initial s := by
      intro hd
      cases hawaited hd with
      | timer ht => exact .inl ht
      | queued _ hq => exact .inr (.inl hq)
      | running push hpush hin =>
        rw [hpushes, List.mem_singleton] at hpush
        subst hpush
        exact .inr (.inr (.inl hin))
      | covered hc => exact .inr (.inr (.inr hc))
      | failed hp' _ =>
        rw [hp] at hp'
        cases hp'
    dsimp only at hs
    split at hs <;> cases hs
    · refine ⟨{ hsound with
          single := .inl ⟨hp, _, hset⟩, last := .inr (by simp)
          settled := by simp [hset] }, fun hd => ?_⟩
      rcases hwaits hd with ht | hq | hin | hc
      · exact .timer ht
      · exact .queued hp hq
      · exact .covered fun since hs => ⟨currentHeads, hin since hs, .inl (by simp)⟩
      · refine .covered fun since hs => ?_
        obtain ⟨h', hin, hstored⟩ := hc since hs
        exact ⟨h', hin, hstored.imp_left (List.mem_append_left _)⟩
    · refine ⟨{ hsound with single := .inl ⟨hp, _, hset⟩, settled := by simp }, fun hd => ?_⟩
      rcases hwaits hd with ht | hq | hin | hc
      · exact .timer ht
      · exact .queued hp hq
      · exact .running _ (by rw [hset]; exact List.mem_singleton_self _) hin
      · exact .covered hc
  · cases hs

theorem Kept.pushEnds {k : Nat} (hs : s.pushEnds k = some s') : Kept initial s' := by
  obtain ⟨hsound, hawaited⟩ := h
  unfold System.pushEnds at hs
  split at hs
  · next currentHeads hk =>
    obtain ⟨rfl, hp, hpushes⟩ := hsound.only hk
    have hidle : Sound initial { s with pushing := false, pushes := s.pushes.eraseIdx 0 } :=
      { hsound with single := .inr ⟨rfl, by rw [hpushes]; rfl⟩, settled := by simp [hpushes] }
    dsimp only at hs
    split at hs <;> cases hs
    · exact Sound.schedulePush { hidle with }
    next hq =>
    refine ⟨hidle, fun hd => ?_⟩
    cases hawaited hd with
    | timer ht => exact .timer ht
    | queued _ hq' => exact absurd ⟨hq', hd⟩ hq
    | running push hpush hin =>
      have hsettled : push.settled = true := by
        rw [hpushes, List.mem_singleton] at hpush
        rw [hpush]
      rcases hsound.settled push hpush hsettled with hin' | hf
      · exact .covered fun since hs => ⟨push.currentHeads, hin since hs, .inl hin'⟩
      · exact .failed rfl hf
    | covered hc => exact .covered hc
    | failed _ hf => exact .failed rfl hf
  · cases hs

theorem Kept.step {input : Input} (hs : step s input = some s') : Kept initial s' := by
  cases input with
  | change heads =>
    cases hs
    exact h.change
  | pushImmediate =>
    cases hs
    unfold pushImmediate
    split
    · exact h
    · exact h.1.requested.clearDebounce.schedulePush
  | pushDebounced =>
    cases hs
    unfold pushDebounced
    split
    · exact h
    · exact ⟨h.1.requested.clearDebounce.arm clearDebounce_debounceTimer, fun _ => .timer rfl⟩
  | flush =>
    cases hs
    unfold flush
    split
    · exact h
    split
    · exact h.1.requested.clearDebounce.schedulePush
    · exact h
  | destroy =>
    cases hs
    have hsound : Sound initial { s with destroyed := true } := { h.1 with }
    refine ⟨hsound.clearDebounce, fun hd => ?_⟩
    unfold destroy clearDebounce at hd
    split at hd <;> cases hd
  | timerFires timer =>
    simp only [PushScheduler.step, timerFires] at hs
    split at hs <;> cases hs
    next hmem =>
    refine Sound.schedulePush { h.1 with timers := ?_ }
    rw [h.1.timers] at hmem ⊢
    simp [Option.mem_toList.mp hmem]
  | pushSettles k ok => exact h.pushSettles hs
  | pushEnds k => exact h.pushEnds hs

end

theorem kept_start : Kept initial (.start initial heads) :=
  ⟨{ single := .inr ⟨rfl, rfl⟩, timers := rfl, last := .inl rfl
     settled := by simp [start], now := by simp [start] },
   fun _ => .covered (by simp [Covered, start])⟩

/-- **The scheduler drops no change.** -/
theorem drops_no_change {initial heads : Option String} {s : System}
    (h : Reaches step (fun _ _ => True) (.start initial heads) s) :
    s.pushes.length ≤ 1 ∧ (s.lastPushedHeads ∈ s.succeeded ∨ s.lastPushedHeads = initial) ∧
    (s.destroyed = false → s.pushes = [] → s.timers = [] →
      Covered initial s ∨ s.lastFailed = true) := by
  have hkept : Kept initial s := h.invariant kept_start fun _ _ _ hk _ hs => hk.step hs
  obtain ⟨hsound, hawaited⟩ := hkept
  refine ⟨?_, hsound.last.symm, fun hd hpushes htimers => ?_⟩
  · rcases hsound.single with ⟨-, push, heq⟩ | ⟨-, heq⟩ <;> simp [heq]
  cases hawaited hd with
  | timer ht =>
    rw [hsound.timers] at htimers
    rw [Option.toList_eq_nil_iff.mp htimers] at ht
    cases ht
  | queued hp _ =>
    rcases hsound.single with ⟨-, push, heq⟩ | ⟨hp', -⟩
    · rw [heq] at hpushes
      cases hpushes
    · rw [hp] at hp'
      cases hp'
  | running push hpush _ =>
    rw [hpushes] at hpush
    cases hpush
  | covered hc => exact .inl hc
  | failed _ hf => exact .inr hf

/-- A change and a request while the first push runs: the second push is queued behind it. -/
def changedWhilePushing : List Input :=
  [.pushImmediate, .change (some "2"), .pushImmediate, .pushSettles 0 true, .pushEnds 0,
    .pushSettles 0 true, .pushEnds 0]

theorem drops_no_change_while_pushing : ∃ s, (s.destroyed = false ∧ s.pushes = [] ∧ s.timers = [] ∧
        s.succeeded = [some "1", some "2"]) ∧
      s.pushes.length ≤ 1 ∧ (s.lastPushedHeads ∈ s.succeeded ∨ s.lastPushedHeads = none) ∧
      (s.destroyed = false → s.pushes = [] → s.timers = [] →
        Covered none s ∨ s.lastFailed = true) := by
  obtain ⟨s, h, hp⟩ := Reaches.of_exec step (fun _ _ => True)
    (.start none (some "1")) changedWhilePushing
    (fun s => decide (s.destroyed = false ∧ s.pushes = [] ∧ s.timers = [] ∧
      s.succeeded = [some "1", some "2"])) (by decide)
  exact ⟨s, of_decide_eq_true hp, drops_no_change h⟩

/-- What the vault had before is not pushed again, so no push stands behind that request. -/
theorem initial_heads_need_no_push : ¬ ∀ (initial heads : Option String) (s : System),
      Reaches step (fun _ _ => True) (.start initial heads) s →
      s.pushes.length ≤ 1 ∧ (s.lastPushedHeads ∈ s.succeeded ∨ s.lastPushedHeads = initial) ∧
      (s.destroyed = false → s.pushes = [] → s.timers = [] →
        (∀ since ∈ s.since, ∃ h ∈ since, h ∈ s.succeeded) ∨ s.lastFailed = true) := by
  intro hall
  obtain ⟨s, h, hp⟩ := Reaches.of_exec step (fun _ _ => True)
    (.start (some "1") (some "1")) [.pushImmediate]
    (fun s => decide (s = { start (some "1") (some "1") with since := some [some "1"] }))
    (by decide)
  obtain rfl := of_decide_eq_true hp
  have hclaim := (hall _ _ _ h).2.2 rfl rfl rfl
  simp [start] at hclaim

end WebOfTrust.PushScheduler
