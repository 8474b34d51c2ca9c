/-
  **Key rotations that come too early** (`YjsReplicationAdapter.ts`: `handleKeyRotation`,
  `bufferPendingSpaceMessage`, `deletePendingSpaceMessage`, `processPendingForSpace`,
  `handleSpaceInvite`, `_reloadGroupKeys`).

  A rotation that is not the next one is buffered and acknowledged: the buffer is its only
  copy.  A pass over the buffer deletes a rotation before it applies it, and a crash in
  between loses it (`rotation_lost`); a pass that is called while one is running returns at
  once, and keys also come in where no pass follows (`rotation_stuck`).
  Where no step does either, every acknowledged rotation is kept, and applied in the end
  (`rotations_kept`).
-/
import WebOfTrust.GroupKeys
import WebOfTrust.Machine
import Mathlib.Data.List.Sort

namespace WebOfTrust

open Machine List

/-! ## 1. One space of a device -/

/-- What a pass over the buffer has still to look at, and the rotation whose handler has
    called it. -/
structure DrainFrame where
  rest : List Nat
  owner : Option Nat

/-- What a handler, an import or a pass awaits.  A rotation stands for its generation; it is
    handled on its own or within a pass. -/
inductive RotationTask where
  | classify (m : Nat) (frame : Option DrainFrame)
  | classified (m : Nat) (disposition : Except String KeyRotationDisposition)
      (frame : Option DrainFrame)
  | saveKey (m : Nat) (frame : Option DrainFrame)
  | persistKey (m : Nat) (frame : Option DrainFrame)
  | deleteApplied (m : Nat) (frame : Option DrainFrame)
  | handled (m : Nat) (frame : Option DrainFrame)
  | buffer (m : Nat) (frame : Option DrainFrame)
  | processPending (owner : Option Nat)
  | nextPending (frame : DrainFrame)
  | deletePending (m : Nat) (frame : DrainFrame)
  | reloadGroupKeys (generations : List Nat) (drains : Bool)
  | load (generations : List Nat)
  | saveLoaded
  | ended

/-- `keys` and `stored` are durable; `acked` is history. -/
structure RotationBuffer where
  loaded : Bool
  keys : List Nat
  pendingMessages : List Nat
  stored : List Nat
  processing : Bool
  tasks : List RotationTask
  acked : List Nat

namespace RotationBuffer

def start : RotationBuffer where
  loaded := false
  keys := []
  pendingMessages := []
  stored := []
  processing := false
  tasks := []
  acked := []

variable (s : RotationBuffer)

def currentGeneration : Option Nat := s.keys.max?

section

variable (m : Nat)

/-- `applyKeyRotation`, what it reads. -/
def disposition : Except String KeyRotationDisposition :=
  match s.currentGeneration with
  | none => .ok .futureBuffer
  | some localGeneration => evaluateKeyRotationDisposition localGeneration m

def addKey : RotationBuffer := { s with keys := s.keys ++ [m] }

def addPendingMessageToMemory : RotationBuffer :=
  { s with pendingMessages := s.pendingMessages.filter (· ≠ m) ++ [m] }

def deletePendingFromMemory : RotationBuffer :=
  { s with pendingMessages := s.pendingMessages.filter (· ≠ m) }

def deleteStored : RotationBuffer :=
  { s with stored := s.stored.filter (· ≠ m) }

/-! ## 2. Steps -/

/-- A handler returns; on its own it is acknowledged, where its outcome is conclusive. -/
def finish (conclusive : Bool) : Option DrainFrame → RotationTask × RotationBuffer
  | none => (.ended, if conclusive then { s with acked := s.acked ++ [m] } else s)
  | some frame => (.nextPending frame, s)

end

def rejects : Option DrainFrame → RotationTask × RotationBuffer
  | none => (.ended, s)
  | some _ => (.ended, { s with processing := false })

def afterPass : Option Nat → RotationTask
  | none => .ended
  | some m => .handled m none

/-- The loop of `processPendingForSpace`. -/
def pass (s : RotationBuffer) (owner : Option Nat) : List Nat → RotationTask × RotationBuffer
  | [] => (afterPass owner, { s with processing := false })
  | m :: rest =>
    if m ∈ s.pendingMessages then (.deletePending m ⟨rest, owner⟩, s.deletePendingFromMemory m)
    else s.pass owner rest

def processPendingForSpace (owner : Option Nat) : RotationTask × RotationBuffer :=
  if s.processing then (afterPass owner, s)
  else if s.pendingMessages = [] then (afterPass owner, s)
  else { s with processing := true }.pass owner (s.pendingMessages.insertionSort (· ≤ ·))

/-- A task goes on; `ok` is whether what it awaited went well. -/
def resume (ok : Bool) : RotationTask → Option (RotationTask × RotationBuffer)
  | .classify m frame =>
    some (if ok then (.classified m (s.disposition m) frame, s) else s.rejects frame)
  | .classified m disposition frame =>
    match disposition with
    | .error _ => some (s.rejects frame)
    | .ok .apply => some (.saveKey m frame, s)
    | .ok .futureBuffer => some (.buffer m frame, s.addPendingMessageToMemory m)
    | .ok .ignoreStaleOrDuplicate => some (.handled m frame, s)
  | .saveKey m frame =>
    some (if ok then (.persistKey m frame, s.addKey m) else s.rejects frame)
  | .persistKey m frame =>
    some (if ok then (.deleteApplied m frame, s.deletePendingFromMemory m) else s.rejects frame)
  | .deleteApplied m frame =>
    let s := if ok then s.deleteStored m else s
    match frame with
    | none => some (.processPending (some m), s)
    -- A pass is running, and the call returns at once.
    | some frame => some (.handled m (some frame), s)
  | .handled m frame => some (if ok then s.finish m true frame else s.rejects frame)
  | .buffer m frame =>
    if ok then some ({ s with stored := s.stored.filter (· ≠ m) ++ [m] }.finish m true frame)
    else some (s.finish m false frame)
  | .processPending owner => some (s.processPendingForSpace owner)
  | .nextPending frame => some (s.pass frame.owner frame.rest)
  | .deletePending m frame =>
    let s := if ok then s.deleteStored m else s
    if s.loaded then some (.classify m (some frame), s)
    else some (.buffer m (some frame), s.addPendingMessageToMemory m)
  | .reloadGroupKeys [] drains => some (if drains then .processPending none else .ended, s)
  | .reloadGroupKeys (n :: rest) drains =>
    if ok then some (.reloadGroupKeys rest drains, s.addKey n) else some (.ended, s)
  | .load [] =>
    if s.loaded then some (.ended, s) else some (.saveLoaded, { s with loaded := true })
  | .load (n :: rest) => if ok then some (.load rest, s.addKey n) else some (.ended, s)
  | .saveLoaded => some (if ok then .processPending none else .ended, s)
  | .ended => none

end RotationBuffer

inductive RotationInput where
  | receive (m : Nat)
  /-- `_reloadGroupKeys`, with a pass behind it or without one. -/
  | reload (generations : List Nat) (drains : Bool)
  /-- A space-invite, or a restore from the metadata, with the keys that it brings. -/
  | load (generations : List Nat)
  | run (k : Nat) (ok : Bool)
  /-- A crash; the start after it reads the buffer back. -/
  | crash

def rotationStep (s : RotationBuffer) : RotationInput → Option RotationBuffer
  | .receive m =>
    if m ∈ s.acked then none
    else if s.loaded then some { s with tasks := s.tasks ++ [.classify m none] }
    else
      let s := s.addPendingMessageToMemory m
      some { s with tasks := s.tasks ++ [.buffer m none] }
  | .reload generations drains =>
    some { s with tasks := s.tasks ++ [.reloadGroupKeys generations drains] }
  | .load generations => some { s with tasks := s.tasks ++ [.load generations] }
  | .run k ok =>
    match s.tasks[k]? with
    | none => none
    | some task =>
      match s.resume ok task with
      | none => none
      | some (next, s') => some { s' with tasks := s.tasks.set k next }
  | .crash =>
    some { s with loaded := false, pendingMessages := s.stored, processing := false, tasks := [] }

/-! ## 3. Steps that keep what is buffered -/

namespace RotationTask

def taken : RotationTask → List Nat
  | .classify m (some _) => [m]
  | .classified m _ (some _) => [m]
  | .saveKey m (some _) => [m]
  | .deletePending m _ => [m]
  | _ => []

def buffering : RotationTask → List Nat
  | .buffer m _ => [m]
  | _ => []

def rebuffering : RotationTask → List Nat
  | .buffer m (some _) => [m]
  | _ => []

def held (task : RotationTask) : List Nat := task.taken ++ task.rebuffering

/-- The pass that the task is in looks at `n` yet. -/
def looksAt (n : Nat) : Option DrainFrame → Bool
  | none => false
  | some frame => decide (n ∈ frame.rest)

/-- The same, or the handler calls a pass of its own once it has applied its rotation. -/
def willLookAt (n : Nat) : Option DrainFrame → Bool
  | none => true
  | some frame => decide (n ∈ frame.rest)

def attends (n : Nat) : RotationTask → Bool
  | .classify _ frame => looksAt n frame
  | .classified _ _ frame => looksAt n frame
  | .saveKey _ frame => willLookAt n frame
  | .persistKey _ frame => willLookAt n frame
  | .deleteApplied _ frame => willLookAt n frame
  | .handled _ frame => looksAt n frame
  | .buffer _ frame => looksAt n frame
  | .processPending _ => true
  | .nextPending frame => decide (n ∈ frame.rest)
  | .deletePending _ frame => decide (n ∈ frame.rest)
  | .reloadGroupKeys _ drains => drains
  | .saveLoaded => true
  | .load _ => false
  | .ended => false

end RotationTask

namespace RotationBuffer

section

variable (s : RotationBuffer)

def Buffering (m : Nat) : Prop := ∃ task ∈ s.tasks, m ∈ task.buffering

/-- A task that is to come to a pass that looks at `n`. -/
def Attended (n : Nat) : Prop := ∃ task ∈ s.tasks, task.attends n = true

/-- The same of another task than the `k`-th. -/
def AttendedBut (k n : Nat) : Prop :=
  ∃ task ∈ s.tasks.set k .ended, task.attends n = true

def nextGeneration : Option Nat := s.currentGeneration.map (· + 1)

/-- The `k`-th task may end without a pass: the next rotation is not in the buffer, or
    another task attends to it. -/
def MayEnd (k : Nat) : Prop :=
  s.loaded = true → ∀ n ∈ s.nextGeneration, n ∈ s.pendingMessages → s.AttendedBut k n

/-- A pass may give up `m`, which it has taken. -/
def MayDrop (m : Nat) : Prop :=
  m ∈ s.keys ∨ m ∈ s.pendingMessages ∧ (m ∈ s.acked → m ∈ s.stored) ∨
    m ∉ s.acked ∧ m ∉ s.stored ∧ ¬s.Buffering m

def MayReject (k m : Nat) (frame : Option DrainFrame) : Prop :=
  s.MayEnd k ∧ (frame.isSome = true → s.MayDrop m)

/-- The rotation is not behind the current generation, and it is not the next one either,
    unless a task attends to it. -/
def MayBuffer (m : Nat) : Prop :=
  (∀ c ∈ s.currentGeneration, m ≤ c → m ∈ s.keys) ∧
    (s.loaded = true → s.nextGeneration = some m → s.Attended m)

/-- With the key of `m` the next rotation is not in the buffer, or a task attends to it. -/
def MayRaise (m : Nat) : Prop :=
  s.loaded = true → ∀ n ∈ (s.addKey m).nextGeneration, n ∈ s.pendingMessages → s.Attended n

/-- With the key of `m` no rotation is left behind in the buffer. -/
def MayImport (m : Nat) : Prop :=
  s.MayRaise m ∧ ∀ c ∈ (s.addKey m).currentGeneration,
    ∀ b ∈ s.pendingMessages ++ s.stored ++ s.tasks.flatMap (·.buffering),
      b ≤ c → b ∈ (s.addKey m).keys

def MayGoOn (k : Nat) (ok : Bool) : RotationTask → Prop
  | .classify m frame => ok = false → s.MayReject k m frame
  | .classified m (.error _) frame => s.MayReject k m frame
  | .classified m (.ok .futureBuffer) _ => s.MayBuffer m
  | .classified m (.ok .ignoreStaleOrDuplicate) _ => m ∈ s.keys
  | .saveKey m frame => if ok then s.MayRaise m else s.MayReject k m frame
  | .persistKey m frame => ok = false → s.MayReject k m frame
  | .handled m frame => ok = false → s.MayReject k m frame
  | .buffer m (some _) => ok = false → m ∈ s.acked → m ∈ s.stored ∨ m ∈ s.keys
  | .processPending _ => s.processing = true → s.MayEnd k
  | .deletePending m _ => s.loaded = false → s.MayBuffer m
  | .reloadGroupKeys (n :: _) _ => if ok then s.MayImport n else s.MayEnd k
  | .load (n :: _) => ok = true → s.MayImport n
  | .saveLoaded => ok = false → s.MayEnd k
  | _ => True

end

section

variable (s : RotationBuffer) (k m n : Nat)

instance : Decidable (s.Buffering m) := inferInstanceAs (Decidable (∃ task ∈ s.tasks, _))

instance : Decidable (s.Attended n) := inferInstanceAs (Decidable (∃ task ∈ s.tasks, _))

instance : Decidable (s.AttendedBut k n) := inferInstanceAs
    (Decidable (∃ task ∈ s.tasks.set _ _, _))

instance : Decidable (s.MayEnd k) := inferInstanceAs (Decidable (_ → _))

instance : Decidable (s.MayDrop m) := inferInstanceAs (Decidable (_ ∨ _ ∨ _))

instance (frame : Option DrainFrame) : Decidable (s.MayReject k m frame) :=
  inferInstanceAs (Decidable (_ ∧ _))

instance : Decidable (s.MayBuffer m) := inferInstanceAs (Decidable (_ ∧ _))

instance : Decidable (s.MayRaise m) := inferInstanceAs (Decidable (_ → _))

instance : Decidable (s.MayImport m) := inferInstanceAs (Decidable (_ ∧ _))

instance (ok : Bool) (task : RotationTask) : Decidable (s.MayGoOn k ok task) := by
  unfold MayGoOn
  split <;> infer_instance

end

end RotationBuffer

/-- No step loses a rotation that was acknowledged, and none leaves the next rotation in the
    buffer with no pass to come. -/
def keepsRotations (s : RotationBuffer) : RotationInput → Prop
  | .receive m => s.loaded = false → s.MayBuffer m
  | .run k ok => ∀ task ∈ s.tasks[k]?, s.MayGoOn k ok task
  | .crash => ∀ task ∈ s.tasks, ∀ m ∈ task.held, m ∈ s.acked → m ∈ s.stored ∨ m ∈ s.keys
  | _ => True

instance (s : RotationBuffer) (i : RotationInput) : Decidable (keepsRotations s i) := by
  unfold keepsRotations
  split <;> infer_instance

/-! ## 4. What a step of a task leaves -/

namespace RotationTask

def OwnerHeld (keys : List Nat) : Option DrainFrame → Prop
  | none => True
  | some frame => ∀ m ∈ frame.owner, m ∈ keys

def Sound (keys : List Nat) : RotationTask → Prop
  | .classify _ frame => OwnerHeld keys frame
  | .classified m disposition frame =>
    OwnerHeld keys frame ∧ (disposition = .ok .apply → ∃ c ∈ keys, m ≤ c + 1)
  | .saveKey m frame => OwnerHeld keys frame ∧ ∃ c ∈ keys, m ≤ c + 1
  | .persistKey m frame => OwnerHeld keys frame ∧ m ∈ keys
  | .deleteApplied m frame => OwnerHeld keys frame ∧ m ∈ keys
  | .handled m frame => OwnerHeld keys frame ∧ m ∈ keys
  | .buffer _ frame => OwnerHeld keys frame
  | .processPending owner => ∀ m ∈ owner, m ∈ keys
  | .nextPending frame => ∀ m ∈ frame.owner, m ∈ keys
  | .deletePending _ frame => ∀ m ∈ frame.owner, m ∈ keys
  | _ => True

variable {keys keys' : List Nat}

theorem OwnerHeld.mono (hkeys : keys ⊆ keys') {frame : Option DrainFrame}
    (h : OwnerHeld keys frame) : OwnerHeld keys' frame := by
  cases frame with
  | none => exact h
  | some frame => exact fun m hm => hkeys (h m hm)

theorem Sound.mono (hkeys : keys ⊆ keys') {task : RotationTask} (h : task.Sound keys) :
    task.Sound keys' := by
  have near {m : Nat} (h : ∃ c ∈ keys, m ≤ c + 1) : ∃ c ∈ keys', m ≤ c + 1 :=
    h.imp fun c hc => ⟨hkeys hc.1, hc.2⟩
  cases task with
  | classify m frame | buffer m frame => exact OwnerHeld.mono hkeys h
  | classified m disposition frame => exact ⟨h.1.mono hkeys, fun heq => near (h.2 heq)⟩
  | saveKey m frame => exact ⟨h.1.mono hkeys, near h.2⟩
  | persistKey m frame | deleteApplied m frame | handled m frame =>
    exact ⟨h.1.mono hkeys, hkeys h.2⟩
  | processPending owner | nextPending frame | deletePending m frame =>
    exact fun m hm => hkeys (h m hm)
  | _ => exact h

theorem looksAt_willLookAt {n : Nat} {frame : Option DrainFrame} (h : looksAt n frame = true) :
    willLookAt n frame = true := by
  cases frame with
  | none => rfl
  | some frame => exact h

end RotationTask

open RotationBuffer RotationTask

section

variable {s s' : RotationBuffer} {task next : RotationTask} {k m n : Nat} {ok : Bool}
  {frame : Option DrainFrame}

theorem currentGeneration_eq_some {c : Nat} :
    s.currentGeneration = some c ↔ c ∈ s.keys ∧ ∀ b ∈ s.keys, b ≤ c := max?_eq_some_iff

structure RotationInv (s : RotationBuffer) : Prop where
  acked : ∀ m ∈ s.acked, m ∈ s.stored ∨ m ∈ s.keys ∨ ∃ task ∈ s.tasks, m ∈ task.held
  memory : ∀ m, m ∈ s.stored ∨ s.Buffering m →
    m ∈ s.pendingMessages ∨ m ∈ s.keys ∨ ∃ task ∈ s.tasks, m ∈ task.taken
  gap : ∀ c ∈ s.currentGeneration, ∀ m, m ∈ s.pendingMessages ∨ m ∈ s.stored ∨ s.Buffering m →
    m ≤ c → m ∈ s.keys
  attended : s.loaded = true → ∀ n ∈ s.nextGeneration, n ∈ s.pendingMessages → s.Attended n
  sound : ∀ task ∈ s.tasks, task.Sound s.keys

/-- Another task than the `k`-th is saving the rotation to the buffer. -/
def BufferingBut (s : RotationBuffer) (k m : Nat) : Prop :=
  ∃ task ∈ s.tasks.set k .ended, m ∈ task.buffering

/-- What a step of the `k`-th task leaves, before it is set in its place. -/
structure TaskSound (s : RotationBuffer) (k : Nat) (task next : RotationTask)
    (s' : RotationBuffer) : Prop where
  keys : s.keys ⊆ s'.keys
  acked : ∀ m ∈ s'.acked, m ∈ s.acked ∨ m ∈ s'.stored ∨ m ∈ s'.keys
  durable : ∀ m ∈ s.acked, m ∈ s.stored ∨ m ∈ task.held →
    m ∈ s'.stored ∨ m ∈ s'.keys ∨ m ∈ next.held
  memory : ∀ m, m ∈ s.pendingMessages ∨ m ∈ task.taken →
    m ∈ s'.pendingMessages ∨ m ∈ s'.keys ∨ m ∈ next.taken ∨
      m ∉ s'.stored ∧ m ∉ next.buffering ∧ ¬BufferingBut s k m
  stored : ∀ m, m ∈ s'.stored ∨ m ∈ next.buffering →
    m ∈ s.stored ∨ m ∈ task.buffering ∨ m ∈ s'.pendingMessages
  gap : ∀ c ∈ s'.currentGeneration, ∀ m,
    m ∈ s'.pendingMessages ∨ m ∈ s'.stored ∨ m ∈ next.buffering ∨ BufferingBut s k m →
      m ≤ c → m ∈ s'.keys
  attended : s'.loaded = true → ∀ n ∈ s'.nextGeneration, n ∈ s'.pendingMessages →
    next.attends n = true ∨ s.AttendedBut k n
  sound : next.Sound s'.keys

theorem RotationInv.run (h : RotationInv s) (hk : s.tasks[k]? = some task)
    (hsound : TaskSound s k task next s') :
    RotationInv { s' with tasks := s.tasks.set k next } := by
  have hlt : k < s.tasks.length := (List.getElem?_eq_some_iff.mp hk).1
  have old (f : RotationTask → List Nat) (hf : f .ended = []) (m : Nat) :
      (∃ t ∈ s.tasks, m ∈ f t) ↔ m ∈ f task ∨ ∃ t ∈ s.tasks.set k .ended, m ∈ f t :=
    exists_mem_of_getElem? .ended (by simp [hf]) hk
  have new (f : RotationTask → List Nat) (hf : f .ended = []) (m : Nat) :
      (∃ t ∈ s.tasks.set k next, m ∈ f t) ↔ m ∈ f next ∨ ∃ t ∈ s.tasks.set k .ended, m ∈ f t :=
    exists_mem_set .ended (by simp [hf]) hlt
  constructor
  case acked =>
    intro m hm
    have hfate : m ∈ s.acked → m ∈ s'.stored ∨ m ∈ s'.keys ∨
        ∃ t ∈ s.tasks.set k next, m ∈ t.held := by
      intro hm
      have hcall (hmine : m ∈ s.stored ∨ m ∈ task.held) :=
        (hsound.durable m hm hmine).imp_right fun h => h.imp_right fun h =>
          (new _ rfl m).mpr (.inl h)
      rcases h.acked m hm with hstored | hkeys | hheld
      · exact hcall (.inl hstored)
      · exact .inr (.inl (hsound.keys hkeys))
      rcases (old _ rfl m).mp hheld with hmine | hother
      · exact hcall (.inr hmine)
      · exact .inr (.inr ((new _ rfl m).mpr (.inr hother)))
    rcases hsound.acked m hm with hold | hstored | hkeys
    · exact hfate hold
    · exact .inl hstored
    · exact .inr (.inl hkeys)
  case memory =>
    intro m hm
    have hlives : m ∈ s'.stored ∨ m ∈ next.buffering ∨ BufferingBut s k m :=
      hm.imp_right fun hm => (new _ rfl m).mp hm
    have hfate (hmine : m ∈ s.pendingMessages ∨ m ∈ task.taken) :
        m ∈ s'.pendingMessages ∨ m ∈ s'.keys ∨ ∃ t ∈ s.tasks.set k next, m ∈ t.taken := by
      rcases hsound.memory m hmine with hmem | hkeys | htaken | ⟨hstored, hnext, hbut⟩
      · exact .inl hmem
      · exact .inr (.inl hkeys)
      · exact .inr (.inr ((new _ rfl m).mpr (.inl htaken)))
      · rcases hlives with h | h | h
        · exact absurd h hstored
        · exact absurd h hnext
        · exact absurd h hbut
    have hbefore : (m ∈ s.stored ∨ s.Buffering m) ∨ m ∈ s'.pendingMessages := by
      rcases hlives with hstored | hnext | hbut
      · rcases hsound.stored m (.inl hstored) with h | h | h
        · exact .inl (.inl h)
        · exact .inl (.inr ((old _ rfl m).mpr (.inl h)))
        · exact .inr h
      · rcases hsound.stored m (.inr hnext) with h | h | h
        · exact .inl (.inl h)
        · exact .inl (.inr ((old _ rfl m).mpr (.inl h)))
        · exact .inr h
      · exact .inl (.inr ((old _ rfl m).mpr (.inr hbut)))
    rcases hbefore with hold | hmem
    · rcases h.memory m hold with hmem | hkeys | htaken
      · exact hfate (.inl hmem)
      · exact .inr (.inl (hsound.keys hkeys))
      rcases (old _ rfl m).mp htaken with hmine | hother
      · exact hfate (.inr hmine)
      · exact .inr (.inr ((new _ rfl m).mpr (.inr hother)))
    · exact .inl hmem
  case gap =>
    intro c hc m hm
    exact hsound.gap c hc m (hm.imp_right fun hm => hm.imp_right fun hm => (new _ rfl m).mp hm)
  case attended =>
    intro hloaded n hn hmem
    have hset : (∃ t ∈ s.tasks.set k next, t.attends n = true) ↔
        next.attends n = true ∨ s.AttendedBut k n :=
      exists_mem_set .ended Bool.false_ne_true hlt
    exact hset.mpr (hsound.attended hloaded n hn hmem)
  case sound =>
    intro t ht
    rcases mem_or_eq_of_mem_set ht with hold | rfl
    · exact (h.sound t hold).mono hsound.keys
    · exact hsound.sound

/-! ## 5. One kind of step at a time -/

theorem attended_iff (hk : s.tasks[k]? = some task) :
    s.Attended n ↔ task.attends n = true ∨ s.AttendedBut k n :=
  exists_mem_of_getElem? (p := fun t : RotationTask => t.attends n = true) .ended
    Bool.false_ne_true hk

theorem attendedBut_or (hinv : RotationInv s) (hk : s.tasks[k]? = some task)
    (hloaded : s.loaded = true) (hn : s.nextGeneration = some n) (hmem : n ∈ s.pendingMessages) :
    task.attends n = true ∨ s.AttendedBut k n :=
  (attended_iff hk).mp (hinv.attended hloaded n hn hmem)

theorem buffering_of (hk : s.tasks[k]? = some task)
    (h : m ∈ task.buffering ∨ BufferingBut s k m) : s.Buffering m := by
  have hsplit : s.Buffering m ↔ m ∈ task.buffering ∨ BufferingBut s k m :=
    exists_mem_of_getElem? (p := fun t : RotationTask => m ∈ t.buffering) .ended not_mem_nil hk
  exact hsplit.mpr h

theorem TaskSound.of_eq {r : RotationTask × RotationBuffer} (hr : TaskSound s k task r.1 r.2)
    (h : some r = some (next, s')) : TaskSound s k task next s' := by
  cases h
  exact hr

theorem TaskSound.of_keys_eq (hinv : RotationInv s) (hk : s.tasks[k]? = some task)
    (hkeys : s'.keys = s.keys) (hloaded : s'.loaded = s.loaded)
    (hpending : s'.pendingMessages ⊆ s.pendingMessages)
    (hstored : ∀ m, m ∈ s'.stored ∨ m ∈ next.buffering → m ∈ s.stored ∨ m ∈ task.buffering)
    (hacked : ∀ m ∈ s'.acked, m ∈ s.acked ∨ m ∈ s'.stored ∨ m ∈ s'.keys)
    (hdurable : ∀ m ∈ s.acked, m ∈ s.stored ∨ m ∈ task.held →
      m ∈ s'.stored ∨ m ∈ s'.keys ∨ m ∈ next.held)
    (hmemory : ∀ m, m ∈ s.pendingMessages ∨ m ∈ task.taken →
      m ∈ s'.pendingMessages ∨ m ∈ s'.keys ∨ m ∈ next.taken ∨
        m ∉ s'.stored ∧ m ∉ next.buffering ∧ ¬BufferingBut s k m)
    (hattends : s.loaded = true → ∀ n ∈ s.nextGeneration, n ∈ s'.pendingMessages →
      task.attends n = true → next.attends n = true ∨ s.AttendedBut k n)
    (hsound : next.Sound s.keys) : TaskSound s k task next s' where
  keys := by rw [hkeys]; exact fun _ => id
  acked := hacked
  durable := hdurable
  memory := hmemory
  stored := fun m hm => (hstored m hm).imp_right .inl
  gap := by
    have hcurrent : s'.currentGeneration = s.currentGeneration := by
      rw [currentGeneration, currentGeneration, hkeys]
    rw [hcurrent, hkeys]
    refine fun c hc m hm hle => hinv.gap c hc m ?_ hle
    rcases hm with hpend | hmem | hnext | hbut
    · exact .inl (hpending hpend)
    · exact .inr ((hstored m (.inl hmem)).imp_right fun h => buffering_of hk (.inl h))
    · exact .inr ((hstored m (.inr hnext)).imp_right fun h => buffering_of hk (.inl h))
    · exact .inr (.inr (buffering_of hk (.inr hbut)))
  attended := by
    intro hload n hn hmem
    have hnext : s.nextGeneration = some n := by
      rw [nextGeneration, currentGeneration, hkeys] at hn
      exact hn
    rcases attendedBut_or hinv hk (hloaded ▸ hload) hnext (hpending hmem) with hmine | hother
    · exact hattends (hloaded ▸ hload) n hnext hmem hmine
    · exact .inr hother
  sound := hkeys ▸ hsound

theorem TaskSound.move (hinv : RotationInv s) (hk : s.tasks[k]? = some task)
    (hheld : ∀ m ∈ task.held, m ∈ s.keys ∨ m ∈ next.held)
    (htaken : ∀ m ∈ task.taken, m ∈ s.keys ∨ m ∈ next.taken)
    (hbuffering : next.buffering = [])
    (hattends : ∀ n, task.attends n = true → next.attends n = true)
    (hsound : next.Sound s.keys) : TaskSound s k task next s := by
  refine .of_keys_eq hinv hk rfl rfl (fun _ => id) ?_ (fun _ => .inl) ?_ ?_
    (fun _ n _ _ h => .inl (hattends n h)) hsound
  · rintro m (hm | hm)
    · exact .inl hm
    · rw [hbuffering] at hm
      cases hm
  · rintro m - (hm | hm)
    · exact .inl hm
    · exact .inr (hheld m hm)
  · rintro m (hm | hm)
    · exact .inl hm
    · exact .inr ((htaken m hm).imp_right .inl)

theorem TaskSound.rejects (hinv : RotationInv s) (hk : s.tasks[k]? = some task)
    (hheld : ∀ x ∈ task.held, x = m ∧ frame.isSome = true) (hmay : s.MayReject k m frame) :
    TaskSound s k task (s.rejects frame).1 (s.rejects frame).2 := by
  have htaken : ∀ x ∈ task.taken, x = m ∧ frame.isSome = true := fun x hx =>
    hheld x (mem_append_left _ hx)
  have hsound {p : Bool} : TaskSound s k task .ended { s with processing := p } := by
    refine .of_keys_eq hinv hk rfl rfl (fun _ => id) ?_ (fun _ => .inl) ?_ ?_
      (fun hloaded n hn hmem _ => .inr (hmay.1 hloaded n hn hmem)) trivial
    · rintro x (hx | hx)
      · exact .inl hx
      · cases hx
    · rintro x hacked (hx | hx)
      · exact .inl hx
      obtain ⟨rfl, hframe⟩ := hheld x hx
      rcases hmay.2 hframe with hkeys | ⟨-, hstored⟩ | ⟨hnot, -⟩
      · exact .inr (.inl hkeys)
      · exact .inl (hstored hacked)
      · exact absurd hacked hnot
    · rintro x (hx | hx)
      · exact .inl hx
      obtain ⟨rfl, hframe⟩ := htaken x hx
      rcases hmay.2 hframe with hkeys | ⟨hmem, -⟩ | ⟨-, hstored, hnot⟩
      · exact .inr (.inl hkeys)
      · exact .inl hmem
      · exact .inr (.inr (.inr ⟨hstored, not_mem_nil,
          fun hbut => hnot (buffering_of hk (.inr hbut))⟩))
  cases frame with
  | none | some frame => exact hsound

theorem mem_deletePendingFromMemory : n ∈ (s.deletePendingFromMemory m).pendingMessages ↔
    n ∈ s.pendingMessages ∧ n ≠ m := by
  simp [deletePendingFromMemory]

theorem mem_deleteStored : n ∈ (s.deleteStored m).stored ↔ n ∈ s.stored ∧ n ≠ m := by
  simp [deleteStored]

theorem mem_addPendingMessageToMemory :
    n ∈ (s.addPendingMessageToMemory m).pendingMessages ↔ n ∈ s.pendingMessages ∨ n = m := by
  by_cases h : n = m <;> simp [addPendingMessageToMemory, h]

theorem TaskSound.pass (hinv : RotationInv s) (hk : s.tasks[k]? = some task) {p : Bool}
    {owner : Option Nat} (howner : ∀ m ∈ owner, m ∈ s.keys) (hheld : task.held = [])
    {rest : List Nat} (hrest : ∀ n ∈ s.pendingMessages, task.attends n = true → n ∈ rest) :
    TaskSound s k task ({ s with processing := p }.pass owner rest).1
      ({ s with processing := p }.pass owner rest).2 := by
  have htaken : task.taken = [] := (append_eq_nil_iff.mp hheld).1
  induction rest with
  | nil =>
    have hsound {next : RotationTask} {q : Bool} (hnone : next.buffering = [])
        (hnext : next.Sound s.keys) : TaskSound s k task next { s with processing := q } := by
      refine .of_keys_eq hinv hk rfl rfl (fun _ => id) ?_ (fun _ => .inl) ?_ ?_ ?_ hnext
      · rintro m (hm | hm)
        · exact .inl hm
        · rw [hnone] at hm
          cases hm
      · rintro m - (hm | hm)
        · exact .inl hm
        · rw [hheld] at hm
          cases hm
      · rintro m (hm | hm)
        · exact .inl hm
        · rw [htaken] at hm
          cases hm
      · intro _ n _ hmem hattends
        cases hrest n hmem hattends
    cases owner with
    | none => exact hsound rfl trivial
    | some m => exact hsound rfl ⟨trivial, howner m rfl⟩
  | cons m rest ih =>
    unfold RotationBuffer.pass
    split
    · refine .of_keys_eq hinv hk rfl rfl ?_ ?_ (fun _ => .inl) ?_ ?_ ?_ howner
      · exact fun n hn => (mem_deletePendingFromMemory.mp hn).1
      · rintro n (hn | hn)
        · exact .inl hn
        · cases hn
      · rintro n - (hn | hn)
        · exact .inl hn
        · rw [hheld] at hn
          cases hn
      · rintro n (hn | hn)
        · by_cases heq : n = m
          · exact .inr (.inr (.inl (mem_singleton.mpr heq)))
          · exact .inl (mem_deletePendingFromMemory.mpr ⟨hn, heq⟩)
        · rw [htaken] at hn
          cases hn
      · intro _ n _ hmem hattends
        obtain ⟨hmem, hne⟩ := mem_deletePendingFromMemory.mp hmem
        refine .inl (decide_eq_true ?_)
        exact (mem_cons.mp (hrest n hmem hattends)).resolve_left hne
    · next hnot =>
      refine ih fun n hmem hattends => ?_
      rcases mem_cons.mp (hrest n hmem hattends) with rfl | hn
      · exact absurd hmem hnot
      · exact hn

theorem TaskSound.processPending {owner : Option Nat} (hinv : RotationInv s)
    (hk : s.tasks[k]? = some (.processPending owner))
    (hmay : s.processing = true → s.MayEnd k) :
    TaskSound s k (.processPending owner) (s.processPendingForSpace owner).1
      (s.processPendingForSpace owner).2 := by
  have howner : ∀ m ∈ owner, m ∈ s.keys := hinv.sound _ (mem_of_getElem? hk)
  have hends (hend : s.loaded = true → ∀ n ∈ s.nextGeneration, n ∈ s.pendingMessages →
      s.AttendedBut k n) :
      TaskSound s k (.processPending owner) (afterPass owner) s := by
    refine .of_keys_eq hinv hk rfl rfl (fun _ => id) ?_ (fun _ => .inl) ?_ ?_
      (fun hloaded n hn hmem _ => .inr (hend hloaded n hn hmem)) ?_
    · rintro m (hm | hm)
      · exact .inl hm
      · cases owner <;> cases hm
    · rintro m - (hm | hm)
      · exact .inl hm
      · cases hm
    · rintro m (hm | hm)
      · exact .inl hm
      · cases hm
    · cases owner with
      | none => trivial
      | some m => exact ⟨trivial, howner m rfl⟩
  unfold processPendingForSpace
  split
  · next hprocessing => exact hends (hmay hprocessing)
  split
  · next hempty =>
    refine hends fun _ n _ hmem => ?_
    rw [hempty] at hmem
    cases hmem
  · exact .pass hinv hk howner rfl fun n hmem _ => (mem_insertionSort _).mpr hmem

theorem mem_addKey : n ∈ (s.addKey m).keys ↔ n ∈ s.keys ∨ n = m := by
  simp [addKey]

theorem TaskSound.addKey (hk : s.tasks[k]? = some task)
    (hheld : ∀ x ∈ task.held, x = m) (hbuffering : next.buffering = [])
    (hattends : ∀ n, task.attends n = true → next.attends n = true) (hmay : s.MayRaise m)
    (hgap : ∀ c ∈ (s.addKey m).currentGeneration, ∀ b,
      b ∈ s.pendingMessages ∨ b ∈ s.stored ∨ s.Buffering b → b ≤ c → b ∈ (s.addKey m).keys)
    (hsound : next.Sound (s.addKey m).keys) : TaskSound s k task next (s.addKey m) where
  keys := fun n hn => mem_addKey.mpr (.inl hn)
  acked := fun _ => .inl
  durable := by
    rintro x - (hx | hx)
    · exact .inl hx
    · exact .inr (.inl (mem_addKey.mpr (.inr (hheld x hx))))
  memory := by
    rintro x (hx | hx)
    · exact .inl hx
    · exact .inr (.inl (mem_addKey.mpr (.inr (hheld x (mem_append_left _ hx)))))
  stored := by
    rintro x (hx | hx)
    · exact .inl hx
    · rw [hbuffering] at hx
      cases hx
  gap := by
    intro c hc x hx hle
    refine hgap c hc x ?_ hle
    rcases hx with hpend | hmem | hnext | hbut
    · exact .inl hpend
    · exact .inr (.inl hmem)
    · rw [hbuffering] at hnext
      cases hnext
    · exact .inr (.inr (buffering_of hk (.inr hbut)))
  attended := by
    intro hloaded n hn hmem
    exact ((attended_iff hk).mp (hmay hloaded n hn hmem)).imp_left (hattends n)
  sound := hsound

section

variable (hinv : RotationInv s)
include hinv

theorem gap_addKey (hnear : ∃ c ∈ s.keys, m ≤ c + 1) : ∀ c ∈ (s.addKey m).currentGeneration, ∀ b,
      b ∈ s.pendingMessages ∨ b ∈ s.stored ∨ s.Buffering b → b ≤ c → b ∈ (s.addKey m).keys := by
  intro c hc b hb hle
  obtain ⟨c₀, hc₀, hnear⟩ := hnear
  obtain ⟨top, htop⟩ : ∃ top, s.currentGeneration = some top :=
    Option.isSome_iff_exists.mp (isSome_max?_of_mem hc₀)
  obtain ⟨-, hmax⟩ := currentGeneration_eq_some.mp htop
  have hc₀top : c₀ ≤ top := hmax c₀ hc₀
  rw [mem_addKey]
  rcases mem_addKey.mp (currentGeneration_eq_some.mp hc).1 with hold | rfl
  · exact .inl (hinv.gap top htop b hb (hle.trans (hmax c hold)))
  rcases Nat.lt_or_ge top b with hlt | hge
  · exact .inr (by omega)
  · exact .inl (hinv.gap top htop b hb hge)

theorem TaskSound.buffer (hk : s.tasks[k]? = some task)
    {stored : List Nat} (hsub : stored ⊆ s.stored)
    (hkeep : ∀ x ∈ s.stored, x ∈ stored ∨ x = m ∧ frame.isSome = true)
    (hheld : ∀ x ∈ task.held, x = m ∧ frame.isSome = true)
    (hattends : ∀ n, task.attends n = true → RotationTask.looksAt n frame = true)
    (hmay : s.MayBuffer m) (howner : RotationTask.OwnerHeld s.keys frame) :
    TaskSound s k task (.buffer m frame)
      ({ s with stored := stored }.addPendingMessageToMemory m) := by
  have hback : ∀ x, x = m ∧ frame.isSome = true → x ∈ (RotationTask.buffer m frame).held := by
    rintro x ⟨rfl, hframe⟩
    cases frame with
    | none => cases hframe
    | some frame => exact mem_singleton_self x
  have hpending (x : Nat) : x ∈ ({ s with stored := stored }.addPendingMessageToMemory
      m).pendingMessages ↔ x ∈ s.pendingMessages ∨ x = m := mem_addPendingMessageToMemory
  have hmine : m ∈ ({ s with stored := stored }.addPendingMessageToMemory m).pendingMessages :=
    (hpending m).mpr (.inr rfl)
  constructor
  case keys => exact fun _ => id
  case acked => exact fun _ => .inl
  case durable =>
    rintro x - (hx | hx)
    · exact (hkeep x hx).imp_right fun h => .inr (hback x h)
    · exact .inr (.inr (hback x (hheld x hx)))
  case memory =>
    rintro x (hx | hx)
    · exact .inl ((hpending x).mpr (.inl hx))
    · exact .inl ((hpending x).mpr (.inr (hheld x (mem_append_left _ hx)).1))
  case stored =>
    rintro x (hx | hx)
    · exact .inl (hsub hx)
    · cases mem_singleton.mp hx
      exact .inr (.inr hmine)
  case gap =>
    intro c hc x hx hle
    have hold (h : x ∈ s.pendingMessages ∨ x ∈ s.stored ∨ s.Buffering x) : x ∈ s.keys :=
      hinv.gap c hc x h hle
    rcases hx with hpend | hmem | hnext | hbut
    · rcases (hpending x).mp hpend with hpend | rfl
      · exact hold (.inl hpend)
      · exact hmay.1 c hc hle
    · exact hold (.inr (.inl (hsub hmem)))
    · cases mem_singleton.mp hnext
      exact hmay.1 c hc hle
    · exact hold (.inr (.inr (buffering_of hk (.inr hbut))))
  case attended =>
    intro hloaded n hn hmem
    rcases (hpending n).mp hmem with hmem | rfl
    · exact (attendedBut_or hinv hk hloaded hn hmem).imp_left (hattends n)
    · exact ((attended_iff hk).mp (hmay.2 hloaded hn)).imp_left (hattends n)
  case sound => exact howner

omit hinv in
theorem held_of_frame {f : Option DrainFrame → RotationTask} (hnone : (f none).held = [])
    (hsome : ∀ frame, (f (some frame)).held = [m]) :
    ∀ x ∈ (f frame).held, x = m ∧ frame.isSome = true := by
  intro x hx
  cases frame with
  | none =>
    rw [hnone] at hx
    cases hx
  | some frame =>
    rw [hsome] at hx
    exact ⟨mem_singleton.mp hx, rfl⟩

theorem TaskSound.deleteStored (hk : s.tasks[k]? = some task)
    (hsame : s' = s ∨ s' = s.deleteStored m) (hmine : m ∈ s.keys ∨ m ∈ next.held)
    (hheld : ∀ x ∈ task.held, x ∈ s.keys ∨ x ∈ next.held)
    (htaken : ∀ x ∈ task.taken, x ∈ s.keys ∨ x ∈ next.taken) (hbuffering : next.buffering = [])
    (hattends : ∀ n, task.attends n = true → next.attends n = true)
    (hsound : next.Sound s.keys) : TaskSound s k task next s' := by
  have hmove : TaskSound s k task next s :=
    .move hinv hk hheld htaken hbuffering hattends hsound
  rcases hsame with rfl | rfl
  · exact hmove
  constructor
  case keys => exact fun _ => id
  case acked => exact fun _ => .inl
  case attended => exact hmove.attended
  case sound => exact hsound
  case durable =>
    intro x hacked hx
    rcases hmove.durable x hacked hx with hstored | hrest
    · by_cases heq : x = m
      · rw [heq]
        exact .inr hmine
      · exact .inl (mem_deleteStored.mpr ⟨hstored, heq⟩)
    · exact .inr hrest
  case memory =>
    rintro x (hx | hx)
    · exact .inl hx
    · exact .inr ((htaken x hx).imp_right .inl)
  case stored =>
    rintro x (hx | hx)
    · exact .inl (mem_deleteStored.mp hx).1
    · exact hmove.stored x (.inr hx)
  case gap =>
    intro c hc x hx
    refine hmove.gap c hc x (hx.imp_right fun h => h.imp_left fun h => ?_)
    exact (mem_deleteStored.mp h).1

theorem TaskSound.finish {conclusive : Bool} (hk : s.tasks[k]? = some (.handled m frame)) :
    TaskSound s k (.handled m frame) (s.finish m conclusive frame).1
      (s.finish m conclusive frame).2 := by
  obtain ⟨howner, hkeys⟩ := hinv.sound _ (mem_of_getElem? hk)
  cases frame with
  | none =>
    have hmove : TaskSound s k (.handled m none) .ended s :=
      .move hinv hk nofun nofun rfl (fun _ => id) trivial
    rcases conclusive with _ | _
    · exact hmove
    refine { hmove with acked := fun x hx => ?_ }
    rcases mem_append.mp hx with hx | hx
    · exact .inl hx
    · cases mem_singleton.mp hx
      exact .inr (.inr hkeys)
  | some frame => exact .move hinv hk nofun nofun rfl (fun _ => id) howner

theorem TaskSound.buffered (hk : s.tasks[k]? = some (.buffer m frame))
    (hmay : s.MayGoOn k ok (.buffer m frame))
    (h : s.resume ok (.buffer m frame) = some (next, s')) :
    TaskSound s k (.buffer m frame) next s' := by
  have howner : OwnerHeld s.keys frame := hinv.sound _ (mem_of_getElem? hk)
  cases ok with
  | false =>
    rcases frame with _ | frame
    · cases h
      exact .move hinv hk nofun nofun rfl (fun _ => id) trivial
    cases h
    refine .of_keys_eq hinv hk rfl rfl (fun _ => id) ?_ (fun _ => .inl) ?_ ?_
      (fun _ n _ _ h => .inl h) howner
    · rintro x (hx | hx)
      · exact .inl hx
      · cases hx
    · rintro x hacked (hx | hx)
      · exact .inl hx
      · cases mem_singleton.mp hx
        exact (hmay rfl hacked).imp_right .inl
    · rintro x (hx | hx)
      · exact .inl hx
      · cases hx
  | true =>
    have hstored (x : Nat) : x ∈ s.stored.filter (· ≠ m) ++ [m] ↔ x ∈ s.stored ∨ x = m := by
      by_cases heq : x = m <;> simp [heq]
    have hlands {next : RotationTask} {acked : List Nat} (hnone : next.buffering = [])
        (hacked : ∀ x ∈ acked, x ∈ s.acked ∨ x = m)
        (hattends : ∀ n, looksAt n frame = true → next.attends n = true)
        (hsound : next.Sound s.keys) :
        TaskSound s k (.buffer m frame) next
          { s with stored := s.stored.filter (· ≠ m) ++ [m], acked } := by
      refine .of_keys_eq hinv hk rfl rfl (fun _ => id) ?_ ?_ ?_ ?_
        (fun _ n _ _ h => .inl (hattends n h)) hsound
      · rintro x (hx | hx)
        · refine ((hstored x).mp hx).imp_right fun heq => ?_
          exact mem_singleton.mpr heq
        · rw [hnone] at hx
          cases hx
      · intro x hx
        exact (hacked x hx).imp_right fun heq => .inl ((hstored x).mpr (.inr heq))
      · rintro x - (hx | hx)
        · exact .inl ((hstored x).mpr (.inl hx))
        cases frame with
        | none => cases hx
        | some frame => exact .inl ((hstored x).mpr (.inr (mem_singleton.mp hx)))
      · rintro x (hx | hx)
        · exact .inl hx
        · cases hx
    cases frame with
    | none =>
      cases h
      refine hlands rfl (fun x hx => ?_) (fun _ => id) trivial
      exact (mem_append.mp hx).imp_right mem_singleton.mp
    | some frame =>
      cases h
      exact hlands rfl (fun _ => .inl) (fun _ => id) howner

omit hinv in
theorem near_of_apply (h : s.disposition m = .ok .apply) : ∃ c ∈ s.keys, m ≤ c + 1 := by
  unfold disposition at h
  split at h
  · cases h
  next c hc =>
  refine ⟨c, (currentGeneration_eq_some.mp hc).1, ?_⟩
  unfold evaluateKeyRotationDisposition at h
  split at h
  · cases h
  split at h
  · cases h
  split at h
  · next heq => exact Nat.le_of_eq heq
  · cases h

theorem resume_taskSound (hk : s.tasks[k]? = some task)
    (hmay : s.MayGoOn k ok task) (h : s.resume ok task = some (next, s')) :
    TaskSound s k task next s' := by
  have hsound : task.Sound s.keys := hinv.sound _ (mem_of_getElem? hk)
  cases task with
  | classify m frame =>
    simp only [resume] at h
    split at h
    · cases h
      refine .move hinv hk ?_ ?_ rfl (fun _ => id) ⟨hsound, near_of_apply⟩
      · cases frame <;> exact fun _ => .inr
      · cases frame <;> exact fun _ => .inr
    next hok =>
    exact (TaskSound.rejects hinv hk (held_of_frame (f := .classify m) rfl fun _ => rfl)
        (hmay (Bool.eq_false_iff.mpr hok))).of_eq h
  | classified m disposition frame =>
    have hheld := @held_of_frame m frame (.classified m disposition) rfl fun _ => rfl
    rcases disposition with e | disposition
    · exact (TaskSound.rejects hinv hk hheld hmay).of_eq h
    cases disposition with
    | apply =>
      cases h
      refine .move hinv hk ?_ ?_ rfl (fun n => looksAt_willLookAt) ⟨hsound.1, hsound.2 rfl⟩
      · cases frame <;> exact fun _ => .inr
      · cases frame <;> exact fun _ => .inr
    | futureBuffer =>
      cases h
      exact .buffer hinv hk (fun _ => id) (fun _ => .inl) hheld (fun _ => id) hmay hsound.1
    | ignoreStaleOrDuplicate =>
      cases h
      have hkeys : ∀ x, x = m ∧ frame.isSome = true → x ∈ s.keys := by
        rintro x ⟨rfl, -⟩
        exact hmay
      exact .move hinv hk (fun x hx => .inl (hkeys x (hheld x hx)))
        (fun x hx => .inl (hkeys x (hheld x (mem_append_left _ hx)))) rfl (fun _ => id)
        ⟨hsound.1, hmay⟩
  | saveKey m frame =>
    have hheld := @held_of_frame m frame (.saveKey m) rfl fun _ => rfl
    rcases ok with _ | _
    · exact (TaskSound.rejects hinv hk hheld hmay).of_eq h
    cases h
    refine .addKey hk (fun x hx => (hheld x hx).1) rfl (fun _ => id) hmay
      (gap_addKey hinv hsound.2) ⟨hsound.1.mono fun x hx => mem_addKey.mpr (.inl hx), ?_⟩
    exact mem_addKey.mpr (.inr rfl)
  | persistKey m frame =>
    rcases ok with _ | _
    · exact (TaskSound.rejects hinv hk nofun (hmay rfl)).of_eq h
    cases h
    refine .of_keys_eq hinv hk rfl rfl ?_ ?_ (fun _ => .inl) ?_ ?_ (fun _ n _ _ h => .inl h)
      hsound
    · exact fun x hx => (mem_deletePendingFromMemory.mp hx).1
    · rintro x (hx | hx)
      · exact .inl hx
      · cases hx
    · rintro x - (hx | hx)
      · exact .inl hx
      · cases hx
    · rintro x (hx | hx)
      · by_cases heq : x = m
        · exact .inr (.inl (heq ▸ hsound.2))
        · exact .inl (mem_deletePendingFromMemory.mpr ⟨hx, heq⟩)
      · cases hx
  | deleteApplied m frame =>
    have hsame : (if ok then s.deleteStored m else s) = s ∨
        (if ok then s.deleteStored m else s) = s.deleteStored m := by
      cases ok
      · exact .inl rfl
      · exact .inr rfl
    cases frame with
    | none =>
      cases h
      refine .deleteStored hinv hk hsame (.inl hsound.2) nofun nofun rfl (fun _ _ => rfl) ?_
      rintro x ⟨⟩
      exact hsound.2
    | some frame =>
      cases h
      exact .deleteStored hinv hk hsame (.inl hsound.2) nofun nofun rfl (fun _ => id) hsound
  | handled m frame =>
    cases ok with
    | true =>
      exact (TaskSound.finish hinv hk).of_eq h
    | false =>
      exact (TaskSound.rejects hinv hk nofun (hmay rfl)).of_eq h
  | buffer m frame => exact .buffered hinv hk hmay h
  | processPending owner =>
    exact (TaskSound.processPending hinv hk hmay).of_eq h
  | nextPending frame =>
    have hrest (n : Nat) (_ : n ∈ s.pendingMessages)
        (hn : (nextPending frame).attends n = true) : n ∈ frame.rest :=
      of_decide_eq_true hn
    exact (TaskSound.pass hinv hk hsound rfl hrest).of_eq h
  | deletePending m frame =>
    have hsame : (if ok then s.deleteStored m else s) = s ∨
        (if ok then s.deleteStored m else s) = s.deleteStored m := by
      cases ok
      · exact .inl rfl
      · exact .inr rfl
    have hloaded : (if ok then s.deleteStored m else s).loaded = s.loaded := by
      cases ok <;> rfl
    simp only [resume, hloaded] at h
    split at h
    · cases h
      exact .deleteStored hinv hk hsame (.inr (mem_singleton_self m)) (fun _ => .inr)
        (fun _ => .inr) rfl (fun _ => id) hsound
    next hnot =>
    have hmine : ∀ x ∈ [m], x = m ∧ (some frame).isSome = true := fun x hx =>
      ⟨mem_singleton.mp hx, rfl⟩
    have hbuffer := hmay (Bool.eq_false_iff.mpr hnot)
    rcases ok with _ | _
    · cases h
      exact .buffer hinv hk (fun _ => id) (fun _ => .inl) hmine (fun _ => id) hbuffer hsound
    cases h
    refine .buffer hinv hk (fun x hx => (mem_deleteStored.mp hx).1) (fun x hx => ?_) hmine
      (fun _ => id) hbuffer hsound
    by_cases heq : x = m
    · exact .inr ⟨heq, rfl⟩
    · exact .inl (mem_deleteStored.mpr ⟨hx, heq⟩)
  | reloadGroupKeys generations drains =>
    cases generations with
    | nil =>
      cases h
      cases drains with
      | true => exact .move hinv hk nofun nofun rfl (fun _ _ => rfl) nofun
      | false => exact .move hinv hk nofun nofun rfl (fun _ => id) trivial
    | cons n rest =>
      cases ok with
      | true =>
        cases h
        refine .addKey hk nofun rfl (fun _ => id) hmay.1 (fun c hc b hb => hmay.2 c hc b ?_) trivial
        simpa [or_assoc, Buffering] using hb
      | false =>
        cases h
        exact .of_keys_eq hinv hk rfl rfl (fun _ => id) (fun _ => Or.imp_right nofun)
          (fun _ => .inl) (fun _ _ h => .inl (h.resolve_right nofun))
          (fun _ h => .inl (h.resolve_right nofun))
          (fun hloaded x hx hmem _ => .inr (hmay hloaded x hx hmem)) trivial
  | load generations =>
    cases generations with
    | nil =>
      simp only [resume] at h
      have hmove (next : RotationTask) (hnext : next = .ended ∨ next = .saveLoaded) :
          TaskSound s k (.load []) next s := by
        rcases hnext with rfl | rfl
        · exact .move hinv hk nofun nofun rfl nofun trivial
        · exact .move hinv hk nofun nofun rfl nofun trivial
      split at h
      · cases h
        exact hmove _ (.inl rfl)
      cases h
      exact { hmove _ (.inr rfl) with
        acked := fun _ => .inl
        attended := fun _ _ _ _ => .inl rfl }
    | cons n rest =>
      rcases ok with _ | _
      · cases h
        exact .move hinv hk nofun nofun rfl nofun trivial
      cases h
      have himport := hmay rfl
      refine .addKey hk nofun rfl nofun himport.1 (fun c hc b hb => himport.2 c hc b ?_) trivial
      simpa [or_assoc, Buffering] using hb
  | saveLoaded =>
    cases ok with
    | true =>
      cases h
      exact .move hinv hk nofun nofun rfl (fun _ _ => rfl) nofun
    | false =>
      cases h
      exact .of_keys_eq hinv hk rfl rfl (fun _ => id) (fun _ => Or.imp_right nofun)
        (fun _ => .inl) (fun _ _ h => .inl (h.resolve_right nofun))
        (fun _ h => .inl (h.resolve_right nofun))
        (fun hloaded x hx hmem _ => .inr (hmay rfl hloaded x hx hmem)) trivial
  | ended => cases h

end

/-! ## 6. Every run -/

theorem rotationInv_start : RotationInv .start := by
  constructor <;> simp [start, Buffering, nextGeneration, currentGeneration]

/-- A task sets out; it may put its rotation into memory where the space is not loaded. -/
theorem RotationInv.addTask (h : RotationInv s) {pending : List Nat}
    (hsub : s.pendingMessages ⊆ pending)
    (hpending : ∀ x ∈ pending, x ∈ s.pendingMessages ∨
      s.loaded = false ∧ ∀ c ∈ s.currentGeneration, x ≤ c → x ∈ s.keys)
    (hbuffering : ∀ x ∈ task.buffering, x ∈ pending) (hsound : task.Sound s.keys) :
    RotationInv { s with pendingMessages := pending, tasks := s.tasks ++ [task] } := by
  have old {p : RotationTask → Prop} (h : ∃ t ∈ s.tasks, p t) : ∃ t ∈ s.tasks ++ [task], p t :=
    exists_mem_concat.mpr (.inl h)
  have split {x : Nat} (h : ∃ t ∈ s.tasks ++ [task], x ∈ t.buffering) :
      s.Buffering x ∨ x ∈ pending :=
    (exists_mem_concat.mp h).imp_right (hbuffering x)
  constructor
  case acked => exact fun m hm => (h.acked m hm).imp_right fun h => h.imp_right old
  case memory =>
    intro m hm
    have hfate (hold : m ∈ s.stored ∨ s.Buffering m) :
        m ∈ pending ∨ m ∈ s.keys ∨ ∃ t ∈ s.tasks ++ [task], m ∈ t.taken := by
      rcases h.memory m hold with hmem | hkeys | htaken
      · exact .inl (hsub hmem)
      · exact .inr (.inl hkeys)
      · exact .inr (.inr (old htaken))
    rcases hm with hstored | hbuffer
    · exact hfate (.inl hstored)
    rcases split hbuffer with hbuffer | hmem
    · exact hfate (.inr hbuffer)
    · exact .inl hmem
  case gap =>
    intro c hc m hm hle
    have hmem (hp : m ∈ pending) : m ∈ s.keys := by
      rcases hpending m hp with hold | ⟨-, hgap⟩
      · exact h.gap c hc m (.inl hold) hle
      · exact hgap c hc hle
    rcases hm with hp | hstored | hbuffer
    · exact hmem hp
    · exact h.gap c hc m (.inr (.inl hstored)) hle
    rcases split hbuffer with hbuffer | hp
    · exact h.gap c hc m (.inr (.inr hbuffer)) hle
    · exact hmem hp
  case attended =>
    intro hloaded n hn hp
    rcases hpending n hp with hold | ⟨hunloaded, -⟩
    · exact old (h.attended hloaded n hn hold)
    · exact absurd hloaded (Bool.eq_false_iff.mp hunloaded)
  case sound =>
    intro t ht
    rcases mem_append.mp ht with hold | hnew
    · exact h.sound t hold
    · cases mem_singleton.mp hnew
      exact hsound

theorem RotationInv.crash (h : RotationInv s) (hadm : keepsRotations s .crash) :
    RotationInv { s with
      loaded := false, pendingMessages := s.stored, processing := false, tasks := [] } := by
  constructor
  case acked =>
    intro m hm
    rcases h.acked m hm with hstored | hkeys | ⟨task, htask, hheld⟩
    · exact .inl hstored
    · exact .inr (.inl hkeys)
    · exact (hadm task htask m hheld hm).imp_right .inl
  case memory =>
    rintro m (hstored | ⟨task, htask, -⟩)
    · exact .inl hstored
    · cases htask
  case gap =>
    rintro c hc m (hstored | hstored | ⟨task, htask, -⟩) hle
    · exact h.gap c hc m (.inr (.inl hstored)) hle
    · exact h.gap c hc m (.inr (.inl hstored)) hle
    · cases htask
  case attended => exact nofun
  case sound => exact nofun

theorem rotationStep_inv {i : RotationInput} (hinv : RotationInv s) (hadm : keepsRotations s i)
    (h : rotationStep s i = some s') : RotationInv s' := by
  cases i with
  | receive m =>
    simp only [rotationStep] at h
    split at h
    · cases h
    split at h
    · cases h
      exact hinv.addTask (fun _ => id) (fun _ => .inl) nofun trivial
    next hunloaded =>
    cases h
    have hunloaded := Bool.eq_false_iff.mpr hunloaded
    refine hinv.addTask (fun x hx => mem_addPendingMessageToMemory.mpr (.inl hx))
      (fun x hx => ?_) (fun x hx => ?_) trivial
    · rcases mem_addPendingMessageToMemory.mp hx with hold | rfl
      · exact .inl hold
      · exact .inr ⟨hunloaded, (hadm hunloaded).1⟩
    · exact mem_addPendingMessageToMemory.mpr (.inr (mem_singleton.mp hx))
  | reload generations drains | load generations =>
    cases h
    exact hinv.addTask (fun _ => id) (fun _ => .inl) nofun trivial
  | run k ok =>
    simp only [rotationStep] at h
    split at h
    · cases h
    next task hk =>
    split at h
    · cases h
    next next s₁ hresume =>
    cases h
    exact hinv.run hk (resume_taskSound hinv hk (hadm task hk) hresume)
  | crash =>
    cases h
    exact hinv.crash hadm

def RotationTask.isEnded : RotationTask → Bool
  | .ended => true
  | _ => false

def RotationBuffer.Settled (s : RotationBuffer) : Prop := ∀ task ∈ s.tasks, task.isEnded = true

instance (s : RotationBuffer) : Decidable s.Settled :=
  inferInstanceAs (Decidable (∀ task ∈ s.tasks, _))

theorem eq_ended_of_settled (hsettled : s.Settled) (hmem : task ∈ s.tasks) : task = .ended := by
  have hended := hsettled task hmem
  cases task with
  | ended => rfl
  | _ => cases hended

theorem RotationInv.next_not_buffered (h : RotationInv s) (hsettled : s.Settled)
    (hloaded : s.loaded = true) {c : Nat} (hc : s.currentGeneration = some c) :
    c + 1 ∉ s.pendingMessages ∧ c + 1 ∉ s.stored := by
  have hnext : s.nextGeneration = some (c + 1) := by
    rw [nextGeneration, hc]
    rfl
  have hmemory : c + 1 ∉ s.pendingMessages := by
    intro hmem
    obtain ⟨task, htask, hattends⟩ := h.attended hloaded (c + 1) hnext hmem
    cases eq_ended_of_settled hsettled htask
    cases hattends
  refine ⟨hmemory, fun hstored => ?_⟩
  rcases h.memory (c + 1) (.inl hstored) with hmem | hkeys | ⟨task, htask, htaken⟩
  · exact hmemory hmem
  · exact Nat.not_succ_le_self c ((currentGeneration_eq_some.mp hc).2 _ hkeys)
  · cases eq_ended_of_settled hsettled htask
    cases htaken

/-- **Acknowledged rotations are kept and applied**, in every run whose steps lose none and
    leave none behind: one that no pass holds is in the durable buffer, or its key is there;
    once everything has settled, the next rotation is not in the buffer; and where all that
    follow a generation of the device were acknowledged, it holds them. -/
theorem rotations_kept (h : Reaches rotationStep keepsRotations .start s) :
    (∀ m ∈ s.acked, (∀ task ∈ s.tasks, m ∉ task.held) → m ∈ s.stored ∨ m ∈ s.keys) ∧
      (s.Settled → s.loaded = true →
        (∀ c, s.currentGeneration = some c → c + 1 ∉ s.pendingMessages ∧ c + 1 ∉ s.stored) ∧
        ∀ g n, g ∈ s.keys → (∀ m, g < m → m ≤ g + n → m ∈ s.acked) →
          ∀ m, g < m → m ≤ g + n → m ∈ s.keys) := by
  have hinv : RotationInv s := h.invariant rotationInv_start fun _ _ _ => rotationStep_inv
  have hdurable : ∀ m ∈ s.acked, (∀ task ∈ s.tasks, m ∉ task.held) → m ∈ s.stored ∨ m ∈ s.keys := by
    intro m hm hnone
    rcases hinv.acked m hm with hstored | hkeys | ⟨task, htask, hheld⟩
    · exact .inl hstored
    · exact .inr hkeys
    · exact absurd hheld (hnone task htask)
  refine ⟨hdurable, fun hsettled hloaded => ⟨fun c => hinv.next_not_buffered hsettled hloaded, ?_⟩⟩
  intro g n hg hacked m hlt hle
  obtain ⟨c, hc⟩ : ∃ c, s.currentGeneration = some c :=
    Option.isSome_iff_exists.mp (isSome_max?_of_mem hg)
  have hgc : g ≤ c := (currentGeneration_eq_some.mp hc).2 g hg
  have hfate (m : Nat) (hlt : g < m) (hle : m ≤ g + n) : m ∈ s.stored ∨ m ∈ s.keys := by
    refine hdurable m (hacked m hlt hle) fun task htask => ?_
    rw [eq_ended_of_settled hsettled htask]
    exact not_mem_nil
  -- The generation that follows the current one is not among those acknowledged.
  have hall : g + n ≤ c := by
    by_contra hnot
    rcases hfate (c + 1) (by omega) (by omega) with hstored | hkeys
    · exact (hinv.next_not_buffered hsettled hloaded hc).2 hstored
    · exact Nat.not_succ_le_self c ((currentGeneration_eq_some.mp hc).2 _ hkeys)
  rcases hfate m hlt hle with hstored | hkeys
  · exact hinv.gap c hc m (.inr (.inl hstored)) (hle.trans hall)
  · exact hkeys

end

/-! ## 7. Runs -/

def runsOf (k n : Nat) : List RotationInput := replicate n (.run k true)

/-- The second rotation comes before the invite, and the first one applies both; the fourth
    is buffered over a crash, until the third has come. -/
theorem rotations_kept_early : ∃ s,
    Reaches rotationStep keepsRotations .start s ∧ s.acked = [2, 1, 4, 3] ∧
      ∀ m, 0 < m → m ≤ 4 → m ∈ s.keys := by
  obtain ⟨s, hreach, hp⟩ := Reaches.of_exec rotationStep keepsRotations .start
    (flatten [[.receive 2, .run 0 true, .load [0]], runsOf 1 9, [.receive 1], runsOf 2 15,
      [.receive 4], runsOf 3 3, [.crash, .load []], runsOf 0 8, [.receive 3], runsOf 1 15])
    (fun s => decide (s.Settled ∧ s.loaded = true ∧ s.acked = [2, 1, 4, 3] ∧ 0 ∈ s.keys))
    (by decide +kernel)
  obtain ⟨hsettled, hloaded, hacked, hzero⟩ := of_decide_eq_true hp
  have hall : ∀ m, 0 < m → m ≤ 0 + 4 → m ∈ s.acked := by
    intro m hlt hle
    simp only [hacked, mem_cons, not_mem_nil, or_false]
    omega
  have hheld := ((rotations_kept hreach).2 hsettled hloaded).2 0 4 hzero hall
  exact ⟨s, hreach, hacked, fun m hlt hle => hheld m hlt (by omega)⟩

/-- A pass has deleted the second rotation, which was acknowledged, when the device crashes;
    and a third rotation, buffered while a pass applies the second one, stays in the buffer. -/
theorem rotation_lost_stuck : (∃ s, Reaches rotationStep (fun _ _ => True) .start s ∧
      decide (s.Settled ∧ s.acked = [2] ∧ 2 ∉ s.stored ∧ s.keys = [0, 1]) = true) ∧
    ∃ s, Reaches rotationStep (fun _ _ => True) .start s ∧
      decide (s.Settled ∧ s.loaded = true ∧ s.currentGeneration = some 2 ∧
        s.pendingMessages = [3] ∧ s.stored = [3]) = true := by
  constructor
  · exact Reaches.of_exec rotationStep (fun _ _ => True) .start
      (flatten [[.load [0]], runsOf 0 4, [.receive 2], runsOf 1 3, [.receive 1], runsOf 2 7,
        [.crash, .load []], runsOf 0 3])
      (fun s => decide (s.Settled ∧ s.acked = [2] ∧ 2 ∉ s.stored ∧ s.keys = [0, 1]))
      (by decide +kernel)
  · exact Reaches.of_exec rotationStep (fun _ _ => True) .start
      (flatten [[.load [0]], runsOf 0 4, [.receive 2], runsOf 1 3, [.receive 1], runsOf 2 7,
        [.receive 3], runsOf 3 3, runsOf 2 8])
      (fun s => decide (s.Settled ∧ s.loaded = true ∧ s.currentGeneration = some 2 ∧
        s.pendingMessages = [3] ∧ s.stored = [3]))
      (by decide +kernel)

end WebOfTrust
