/-
  **From the document of a space into its log** (`YjsReplicationAdapter.ts`:
  `writeLocalUpdateViaLog`, `rememberUnloggedUpdate`, `flushUnloggedUpdate`,
  `createSpaceWithId`, `writeFullStateViaLog`, `restoreUnloggedUpdates`,
  `_transactDurable`, `commitMembershipEventDurable`).

  A local edit is written to the log by a call of its own; one that fails before the append
  is buffered, in memory and on disk, until the next catch-up.  An edit that finds no
  content key or coordinator, or whose append fails, is dropped, and so is the seed of a
  new space that cannot be published (`change_dropped`).  What a durable transaction or a
  membership commit changes is written by its own call; one that fails rejects, and leaves
  the change in the document.
  Where nothing is dropped, and no step leaves a change neither logged nor in the
  buffer, the log and the buffer rebuild the document (`local_changes_kept`).
-/
import WebOfTrust.Machine

namespace WebOfTrust

open Machine List

/-! ## 1. Writes under way

A change is a number, and an update is the list of the changes that it brings. -/

/-- What `createSpaceWithId` awaits, from `spaces.set` on. -/
inductive SeedPhase where
  | save (snapshot : List Nat)
  | metadata
  | groupKey
  | coordinator
  | publish
  | logIsEmpty
deriving DecidableEq

/-- A create carries the epoch of its lease, and the seed, which no observer has seen. -/
inductive UpdateCall where
  | coordinator (update : List Nat)
  | append (update : List Nat)
  | flush (pending : List Nat)
  | create (epoch : Nat) (seed : List Nat) (phase : SeedPhase)
  /-- Awaits the coordinator; with `rePresents`, `rePresentCapability` after it. -/
  | durable (update : List Nat) (rePresents : Bool)
  /-- A write whose caller remembers nothing. -/
  | write (update : List Nat)
  | compact (snapshot : List Nat)
  | restore (stored : Option (List Nat))
  | ended
deriving DecidableEq

/-- How an await ends.  In `writeLocalUpdate` the content key may be missing, what comes
    before the append may fail, the append may, and the send after it. -/
inductive UpdateOutcome where
  | ok
  | noKey
  | fails
  | authorMismatch
  | appendFailed
  | sendFails
deriving DecidableEq

namespace UpdateCall

def carries : UpdateCall → List Nat
  | .coordinator update => update
  | .append update => update
  | .flush pending => pending
  | .create _ seed _ => seed
  | .durable update _ => update
  | .write update => update
  | .restore stored => stored.getD []
  | .compact _ => []
  | .ended => []

def snapshot : UpdateCall → List Nat
  | .create _ _ (.save snapshot) => snapshot
  | .compact snapshot => snapshot
  | _ => []

def savesMetadata : UpdateCall → Bool
  | .create _ _ .metadata => true
  | _ => false

end UpdateCall

/-- One space of an adapter.  `saved` is its snapshot in the compact store, `stored` the
    durable buffer; the store takes `storeOps` in their order, a save or a deletion each. -/
structure UnloggedUpdates where
  loaded : Bool
  doc : List Nat
  epoch : Nat
  metadata : Bool
  saved : List Nat
  log : List (List Nat)
  unlogged : Option (List Nat)
  stored : Option (List Nat)
  storeOps : List (Option (List Nat))
  calls : List UpdateCall

namespace UnloggedUpdates

def start : UnloggedUpdates where
  loaded := false
  doc := []
  epoch := 0
  metadata := false
  saved := []
  log := []
  unlogged := none
  stored := none
  storeOps := []
  calls := []

variable (s : UnloggedUpdates)

def appendLocalEntry (update : List Nat) : UnloggedUpdates :=
  { s with log := s.log ++ [update] }

def rememberUnloggedUpdate (update : List Nat) : UnloggedUpdates :=
  let merged := s.unlogged.getD [] ++ update
  { s with unlogged := some merged, storeOps := s.storeOps ++ [some merged] }

def settleUnlogged : UnloggedUpdates :=
  { s with storeOps := s.storeOps ++ [s.unlogged] }

def settled : Option (List Nat) :=
  s.storeOps.foldl (fun _ op => op) s.stored

def replayed : List Nat := (s.log ++ s.stored.toList).flatten

def Quiescent : Prop := s.calls.all (· = .ended) = true ∧ s.storeOps = []

instance (s : UnloggedUpdates) : Decidable s.Quiescent := inferInstanceAs (Decidable (_ ∧ _))

/-! ## 2. Steps -/

def goOn (epoch : Nat) (seed : List Nat) (outcome : UpdateOutcome)
    (phase : SeedPhase) : UpdateCall :=
  if outcome = .ok ∧ epoch = s.epoch then .create epoch seed phase else .ended

def resumeCreate (epoch : Nat) (seed : List Nat) (outcome : UpdateOutcome) :
    SeedPhase → UpdateCall × UnloggedUpdates
  | .save snapshot =>
    (s.goOn epoch seed outcome .metadata, if outcome = .ok then { s with saved := snapshot } else s)
  | .metadata =>
    (s.goOn epoch seed outcome .groupKey, if outcome = .ok then { s with metadata := true } else s)
  | .groupKey => (s.goOn epoch seed outcome .coordinator, s)
  | .coordinator => (s.goOn epoch seed outcome .publish, s)
  | .publish =>
    -- Only a failed append is thrown again.
    if outcome = .appendFailed ∨ epoch ≠ s.epoch then (.ended, s)
    else (.create epoch seed .logIsEmpty, s)
  | .logIsEmpty =>
    if outcome = .ok ∧ epoch = s.epoch ∧ s.log = [] then (.write s.doc, s) else (.ended, s)

def resume (outcome : UpdateOutcome) : UpdateCall → Option (UpdateCall × UnloggedUpdates)
  | .coordinator update => some (if outcome = .ok then .append update else .ended, s)
  | .append update =>
    match outcome with
    | .ok => some (.ended, s.appendLocalEntry update)
    | .sendFails => some (.ended, (s.appendLocalEntry update).rememberUnloggedUpdate update)
    | .fails => some (.ended, s.rememberUnloggedUpdate update)
    | _ => some (.ended, s)
  | .flush pending =>
    match outcome with
    | .ok => some (.ended, (s.appendLocalEntry pending).settleUnlogged)
    | .sendFails => some (.ended, (s.appendLocalEntry pending).rememberUnloggedUpdate pending)
    | _ => some (.ended, s.rememberUnloggedUpdate pending)
  | .create epoch seed phase => some (s.resumeCreate epoch seed outcome phase)
  | .durable update rePresents =>
    some (if outcome ≠ .ok then .ended else if rePresents then .durable update false
      else .write update, s)
  | .write update =>
    match outcome with
    | .ok => some (.ended, s.appendLocalEntry update)
    | .sendFails => some (.ended, s.appendLocalEntry update)
    | _ => some (.ended, s)
  | .compact snapshot => some (.ended, if outcome = .ok then { s with saved := snapshot } else s)
  | .restore stored =>
    if outcome = .ok then
      -- A loaded space is left as it is.
      some (.ended, { s with
        unlogged := stored.or s.unlogged
        doc := if s.loaded then s.doc else if s.metadata then s.saved else []
        loaded := s.loaded || s.metadata })
    else none
  | .ended => none

end UnloggedUpdates

inductive UnloggedInput where
  | create (seed : List Nat)
  | edit (update : List Nat)
  /-- `transactDurable` and `transactRootDurable`. -/
  | transactDurable (update : List Nat)
  /-- `commitMembershipEventDurable`, from where it has read the generation: the event and
      its activity entry. -/
  | commitMembershipEventDurable (event : List Nat)
  /-- The last member leaves: the event is in the document only, until the space is
      removed. -/
  | leaveLocally (event : List Nat)
  /-- A catch-up is complete. -/
  | flush
  | compact
  | run (k : Nat) (outcome : UpdateOutcome)
  /-- The store takes its next operation, or fails to. -/
  | store (ok : Bool)
  | stop
  | start
  /-- A crash, and the start after it. -/
  | crash

section

variable (s : UnloggedUpdates)

def unloggedStep : UnloggedInput → Option UnloggedUpdates
  | .create seed =>
    if s.loaded then
      some { s with calls := s.calls ++ [.create s.epoch [] (.save s.doc)] }
    else
      some { s with
        loaded := true
        doc := seed
        calls := s.calls ++ [.create s.epoch seed (.save seed)] }
  | .edit update =>
    if s.loaded then
      some { s with doc := s.doc ++ update, calls := s.calls ++ [.coordinator update] }
    else none
  | .transactDurable update =>
    if s.loaded then
      if update = [] then some s
      else some { s with doc := s.doc ++ update, calls := s.calls ++ [.durable update false] }
    else none
  | .commitMembershipEventDurable event =>
    if s.loaded then
      -- What is in the document already has no delta: then the full state is written.
      let captured := event.filter (· ∉ s.doc)
      let update := if captured = [] then s.doc else captured
      some { s with doc := s.doc ++ captured, calls := s.calls ++ [.durable update true] }
    else none
  | .leaveLocally event => if s.loaded then some { s with doc := s.doc ++ event } else none
  | .flush =>
    match s.unlogged with
    | none => some s
    | some pending => some { s with unlogged := none, calls := s.calls ++ [.flush pending] }
  | .compact => if s.loaded then some { s with calls := s.calls ++ [.compact s.doc] } else none
  | .run k outcome =>
    match s.calls[k]? with
    | none => none
    | some call =>
      match s.resume outcome call with
      | none => none
      | some (next, s') => some { s' with calls := s.calls.set k next }
  | .store ok =>
    match s.storeOps with
    | [] => none
    | op :: rest => some { s with stored := if ok then op else s.stored, storeOps := rest }
  | .stop => some { s with loaded := false, doc := [], epoch := s.epoch + 1 }
  | .start => some { s with calls := s.calls ++ [.restore s.settled] }
  | .crash =>
    some { s with
      loaded := false, doc := [], unlogged := none, storeOps := [], calls := [.restore s.stored] }

/-! ## 3. Steps that lose nothing -/

namespace UnloggedUpdates

def present : List Nat :=
  s.doc ++ (if s.metadata || s.calls.any (·.savesMetadata) then s.saved else []) ++
    s.calls.flatMap (·.snapshot)

def Logged (c : Nat) : Prop := c ∈ s.log.flatten

def Buffered (c : Nat) : Prop :=
  c ∈ s.unlogged.getD [] ∧ c ∈ s.settled.getD []

def Carried (c : Nat) : Prop := c ∈ s.calls.flatMap (·.carries)

/-- Another call than the `k`-th carries the change. -/
def CarriedBut (k : Nat) (c : Nat) : Prop :=
  c ∈ (s.calls.set k .ended).flatMap (·.carries)

instance (s : UnloggedUpdates) (c : Nat) : Decidable (s.Logged c) :=
  inferInstanceAs (Decidable (_ ∈ _))

instance (s : UnloggedUpdates) (c : Nat) : Decidable (s.Buffered c) :=
  inferInstanceAs (Decidable (_ ∧ _))

instance (s : UnloggedUpdates) (c : Nat) : Decidable (s.Carried c) :=
  inferInstanceAs (Decidable (_ ∈ _))

instance (s : UnloggedUpdates) (k c : Nat) : Decidable (s.CarriedBut k c) :=
  inferInstanceAs (Decidable (_ ∈ _))

def drops (outcome : UpdateOutcome) : UpdateCall → Bool
  | .coordinator _ => decide (outcome ≠ .ok)
  | .append _ => decide (outcome ∉ [.ok, .sendFails, .fails])
  | .create epoch _ phase =>
    match phase with
    | .publish => decide (outcome = .appendFailed ∨ epoch ≠ s.epoch)
    | .logIsEmpty => decide ¬(outcome = .ok ∧ epoch = s.epoch ∧ s.log = [])
    | _ => decide ¬(outcome = .ok ∧ epoch = s.epoch)
  | .durable _ _ => decide (outcome ≠ .ok)
  | .write _ => decide (outcome ∉ [.ok, .sendFails])
  | _ => false

/-- A call that drops its changes, or that puts back a buffer it has read, loses none. -/
def callKeeps (k : Nat) (outcome : UpdateOutcome) : UpdateCall → Prop
  | .restore (some stored) =>
    ∀ c ∈ s.present, c ∈ stored ∨ c ∈ s.unlogged.getD [] →
      s.Logged c ∨ s.CarriedBut k c ∨ c ∈ stored ∧ c ∈ s.settled.getD []
  | call =>
    s.drops outcome call = true →
      ∀ c ∈ s.present, c ∈ call.carries → s.Logged c ∨ s.CarriedBut k c ∨ s.Buffered c

instance (s : UnloggedUpdates) (k : Nat) (outcome : UpdateOutcome) (call : UpdateCall) :
    Decidable (s.callKeeps k outcome call) := by
  unfold callKeeps
  split <;> infer_instance

end UnloggedUpdates

/-- No change of the document is left without its entry, its place in the buffer and its
    call: not by a call that drops it, not by the last save of the buffer, which fails, not
    by the last member's leave, and not by a crash that finds it in the compact store
    already. -/
def losesNothing : UnloggedInput → Prop
  | .run k outcome => ∀ call ∈ s.calls[k]?, s.callKeeps k outcome call
  | .leaveLocally event => ∀ c ∈ event, s.Logged c ∨ s.Carried c ∨ s.Buffered c
  | .store ok =>
    ok = false → s.storeOps.length = 1 → ∀ c ∈ s.present, c ∈ s.unlogged.getD [] →
      s.Logged c ∨ s.Carried c ∨ c ∈ s.stored.getD []
  | .crash =>
    s.metadata = true → ∀ c ∈ s.saved, c ∈ s.unlogged.getD [] ∨ s.Carried c →
      s.Logged c ∨ c ∈ s.stored.getD []
  | _ => True

end

instance (s : UnloggedUpdates) (i : UnloggedInput) : Decidable (losesNothing s i) := by
  unfold losesNothing
  split <;> infer_instance

/-! ## 4. What a call keeps -/

open UnloggedUpdates

section

variable {s s' : UnloggedUpdates} {call next : UpdateCall} {outcome : UpdateOutcome} {k c : Nat}
  {update : List Nat}

theorem mem_present : c ∈ s.present ↔ c ∈ s.doc ∨
    ((s.metadata = true ∨ ∃ call ∈ s.calls, call.savesMetadata = true) ∧ c ∈ s.saved) ∨
    ∃ call ∈ s.calls, c ∈ call.snapshot := by
  have hread : (s.metadata || s.calls.any (·.savesMetadata)) = true ↔
      s.metadata = true ∨ ∃ call ∈ s.calls, call.savesMetadata = true := by simp
  rw [← hread, present]
  simp only [mem_append, mem_flatMap, or_assoc]
  split
  · next h => simp only [h, true_and]
  · next h => simp [h]

theorem logged_appendLocalEntry :
    (s.appendLocalEntry update).Logged c ↔ s.Logged c ∨ c ∈ update := by
  simp [UnloggedUpdates.Logged, UnloggedUpdates.appendLocalEntry]

theorem settled_remember : (s.rememberUnloggedUpdate update).settled =
    (s.rememberUnloggedUpdate update).unlogged := by
  simp [settled, rememberUnloggedUpdate]

theorem settled_settle : s.settleUnlogged.settled = s.unlogged := by
  simp [settled, settleUnlogged]

theorem buffered_remember : (s.rememberUnloggedUpdate update).Buffered c ↔
    c ∈ s.unlogged.getD [] ∨ c ∈ update := by
  rw [Buffered, settled_remember]
  simp [rememberUnloggedUpdate]

theorem buffered_settle : s.settleUnlogged.Buffered c ↔ c ∈ s.unlogged.getD [] := by
  rw [Buffered, settled_settle]
  exact and_self_iff

/-- What a step of the `k`-th call leaves, before it is set in its place. -/
structure CallSound (s : UnloggedUpdates) (k : Nat) (call next : UpdateCall)
    (s' : UnloggedUpdates) : Prop where
  epoch : s'.epoch = s.epoch
  loaded : s.loaded = true → s'.loaded = true ∧ s'.doc = s.doc
  doc : ∀ c ∈ s'.doc, c ∈ s.doc ∨ s.metadata = true ∧ c ∈ s.saved
  saved : ∀ c ∈ s'.saved, c ∈ call.snapshot ∨ c ∈ s.saved ∧
    (s'.metadata = true ∨ next.savesMetadata = true → s.metadata = true ∨ call.savesMetadata = true)
  snapshot : next.snapshot = []
  seed : ∀ epoch seed phase, next = .create epoch seed phase →
    ∃ phase', call = .create epoch seed phase'
  logged : ∀ c, s.Logged c → s'.Logged c
  kept : ∀ c ∈ s.present, c ∈ call.carries ∨ s.Buffered c →
    s'.Logged c ∨ c ∈ next.carries ∨ s.CarriedBut k c ∨ s'.Buffered c

theorem CallSound.of_same (hdoc : s'.doc = s.doc) (hloaded : s'.loaded = s.loaded)
    (hepoch : s'.epoch = s.epoch) (hsaved : s'.saved = s.saved)
    (hmetadata : s'.metadata = s.metadata) (hnext : next.savesMetadata = false)
    (hsnapshot : next.snapshot = [])
    (hseed : ∀ epoch seed phase, next = .create epoch seed phase →
      ∃ phase', call = .create epoch seed phase')
    (hlogged : ∀ c, s.Logged c → s'.Logged c)
    (hkept : ∀ c ∈ s.present, c ∈ call.carries ∨ s.Buffered c →
      s'.Logged c ∨ c ∈ next.carries ∨ s.CarriedBut k c ∨ s'.Buffered c) :
    CallSound s k call next s' where
  epoch := hepoch
  loaded := fun h => ⟨hloaded.trans h, hdoc⟩
  doc := fun c hc => .inl (hdoc ▸ hc)
  saved := by
    intro c hc
    refine .inr ⟨hsaved ▸ hc, fun h => .inl ?_⟩
    simpa [hmetadata, hnext] using h
  snapshot := hsnapshot
  seed := hseed
  logged := hlogged
  kept := hkept

theorem kept_drop (hcall : s.callKeeps k outcome call) (hdrops : s.drops outcome call = true) :
    ∀ c ∈ s.present, c ∈ call.carries ∨ s.Buffered c →
      s.Logged c ∨ c ∈ UpdateCall.ended.carries ∨ s.CarriedBut k c ∨ s.Buffered c := by
  have hkeeps : ∀ c ∈ s.present, c ∈ call.carries →
      s.Logged c ∨ s.CarriedBut k c ∨ s.Buffered c := by
    cases call with
    | restore stored => cases hdrops
    | _ => exact hcall hdrops
  rintro c hc (hcarries | hbuffered)
  · exact (hkeeps c hc hcarries).imp_right .inr
  · exact .inr (.inr (.inr hbuffered))

theorem callSound_drop (hcall : s.callKeeps k outcome call) (hdrops : s.drops outcome call = true) :
    CallSound s k call .ended s :=
  .of_same rfl rfl rfl rfl rfl rfl rfl (by rintro _ _ _ ⟨⟩) (fun _ => id) (kept_drop hcall hdrops)

theorem callSound_stay (hsaves : next.savesMetadata = false) (hsnapshot : next.snapshot = [])
    (hseed : ∀ epoch seed phase, next = .create epoch seed phase →
      ∃ phase', call = .create epoch seed phase')
    (hcarries : ∀ c ∈ call.carries, c ∈ next.carries) : CallSound s k call next s := by
  refine .of_same rfl rfl rfl rfl rfl hsaves hsnapshot hseed (fun _ => id) ?_
  rintro c - (hc | hbuffered)
  · exact .inr (.inl (hcarries c hc))
  · exact .inr (.inr (.inr hbuffered))

section

variable (hcarries : call.carries = update)
include hcarries

theorem callSound_append : CallSound s k call .ended (s.appendLocalEntry update) := by
  refine .of_same rfl rfl rfl rfl rfl rfl rfl (by rintro _ _ _ ⟨⟩)
    (fun c h => logged_appendLocalEntry.mpr (.inl h)) ?_
  rintro c - (hc | hbuffered)
  · exact .inl (logged_appendLocalEntry.mpr (.inr (hcarries ▸ hc)))
  · exact .inr (.inr (.inr hbuffered))

theorem callSound_flush : CallSound s k call .ended (s.appendLocalEntry update).settleUnlogged := by
  refine .of_same rfl rfl rfl rfl rfl rfl rfl (by rintro _ _ _ ⟨⟩)
    (fun c h => logged_appendLocalEntry.mpr (.inl h)) ?_
  rintro c - (hc | hbuffered)
  · exact .inl (logged_appendLocalEntry.mpr (.inr (hcarries ▸ hc)))
  · exact .inr (.inr (.inr (buffered_settle.mpr hbuffered.1)))

theorem callSound_remember (hsame : s' = s ∨ s' = s.appendLocalEntry update) :
    CallSound s k call .ended (s'.rememberUnloggedUpdate update) := by
  have hunlogged : s'.unlogged = s.unlogged := by
    rcases hsame with rfl | rfl <;> rfl
  have hlogged : ∀ c, s.Logged c → s'.Logged c := by
    rintro c h
    rcases hsame with rfl | rfl
    · exact h
    · exact logged_appendLocalEntry.mpr (.inl h)
  have hsound : ∀ c ∈ s.present, c ∈ call.carries ∨ s.Buffered c →
      (s'.rememberUnloggedUpdate update).Buffered c := by
    rintro c - (hc | hbuffered)
    · exact buffered_remember.mpr (.inr (hcarries ▸ hc))
    · exact buffered_remember.mpr (.inl (hunlogged ▸ hbuffered.1))
  refine .of_same ?_ ?_ ?_ ?_ ?_ rfl rfl (by rintro _ _ _ ⟨⟩) hlogged
    fun c hc h => .inr (.inr (.inr (hsound c hc h)))
  all_goals rcases hsame with rfl | rfl <;> rfl

end

section

variable {epoch : Nat} {seed : List Nat} {phase : SeedPhase}

theorem goOn_seed (e : Nat) (sd : List Nat) (ph : SeedPhase)
    (h : s.goOn epoch seed outcome phase = .create e sd ph) : e = epoch ∧ sd = seed ∧ ph = phase := by
  unfold goOn at h
  split at h
  · cases h
    exact ⟨rfl, rfl, rfl⟩
  · cases h

theorem goOn_ne_save (h : ∀ snapshot, phase ≠ .save snapshot) :
    (s.goOn epoch seed outcome phase).snapshot = [] := by
  unfold goOn
  split
  · cases phase with
    | save snapshot => exact absurd rfl (h snapshot)
    | _ => rfl
  · rfl

theorem kept_goOn {phase' : SeedPhase} (hcall : s.callKeeps k outcome (.create epoch seed phase))
    (hdrops : ¬(outcome = .ok ∧ epoch = s.epoch) →
      s.drops outcome (.create epoch seed phase) = true) :
    ∀ c ∈ s.present, c ∈ seed ∨ s.Buffered c →
      s.Logged c ∨ c ∈ (s.goOn epoch seed outcome phase').carries ∨ s.CarriedBut k c ∨
        s.Buffered c := by
  unfold goOn
  split
  · rintro c - (hc | hbuffered)
    · exact .inr (.inl hc)
    · exact .inr (.inr (.inr hbuffered))
  · next hon => exact kept_drop hcall (hdrops hon)

theorem callSound_goOn {phase' : SeedPhase}
    (hcall : s.callKeeps k outcome (.create epoch seed phase))
    (hdrops : ¬(outcome = .ok ∧ epoch = s.epoch) →
      s.drops outcome (.create epoch seed phase) = true)
    (hsaves : phase' ≠ .metadata) (hsnapshot : ∀ snapshot, phase' ≠ .save snapshot) :
    CallSound s k (.create epoch seed phase) (s.goOn epoch seed outcome phase') s := by
  refine .of_same rfl rfl rfl rfl rfl ?_ (goOn_ne_save hsnapshot) ?_ (fun _ => id)
    (kept_goOn hcall hdrops)
  · unfold goOn
    split
    · cases phase' with
      | metadata => exact absurd rfl hsaves
      | _ => rfl
    · rfl
  · intro e sd ph heq
    obtain ⟨rfl, rfl, -⟩ := goOn_seed e sd ph heq
    exact ⟨phase, rfl⟩

theorem callSound_create (hseed : epoch = s.epoch → seed ⊆ s.doc)
    (hcall : s.callKeeps k outcome (.create epoch seed phase)) :
    CallSound s k (.create epoch seed phase) (s.resumeCreate epoch seed outcome phase).1
      (s.resumeCreate epoch seed outcome phase).2 := by
  have hended (phase' : SeedPhase) (hfails : outcome ≠ .ok) :
      s.goOn epoch seed outcome phase' = .ended := if_neg fun hon => hfails hon.1
  have hphase (phase' : SeedPhase) (e : Nat) (sd : List Nat) (ph : SeedPhase)
      (heq : s.goOn epoch seed outcome phase' = .create e sd ph) :
      ∃ ph', UpdateCall.create epoch seed phase = .create e sd ph' := by
    obtain ⟨rfl, rfl, -⟩ := goOn_seed e sd ph heq
    exact ⟨phase, rfl⟩
  cases phase with
  | save snapshot =>
    simp only [resumeCreate]
    split
    · exact {
        epoch := rfl
        loaded := fun h => ⟨h, rfl⟩
        doc := fun _ => .inl
        saved := fun _ => .inl
        snapshot := goOn_ne_save nofun
        seed := hphase _
        logged := fun _ => id
        kept := kept_goOn hcall fun hon => decide_eq_true hon }
    · next hfails =>
      rw [hended _ hfails]
      exact callSound_drop hcall (decide_eq_true fun hon => hfails hon.1)
  | metadata =>
    simp only [resumeCreate]
    split
    · exact {
        epoch := rfl
        loaded := fun h => ⟨h, rfl⟩
        doc := fun _ => .inl
        saved := fun _ hc => .inr ⟨hc, fun _ => .inr rfl⟩
        snapshot := goOn_ne_save nofun
        seed := hphase _
        logged := fun _ => id
        kept := kept_goOn hcall fun hon => decide_eq_true hon }
    · next hfails =>
      rw [hended _ hfails]
      exact callSound_drop hcall (decide_eq_true fun hon => hfails hon.1)
  | groupKey | coordinator =>
    exact callSound_goOn hcall (fun hon => decide_eq_true hon) (by decide) nofun
  | publish =>
    simp only [resumeCreate]
    split
    · next hends => exact callSound_drop hcall (decide_eq_true hends)
    refine callSound_stay rfl rfl ?_ fun _ => id
    rintro e sd ph ⟨⟩
    exact ⟨.publish, rfl⟩
  | logIsEmpty =>
    simp only [resumeCreate]
    split
    · next hempty => exact callSound_stay rfl rfl nofun (hseed hempty.2.1)
    · next hends => exact callSound_drop hcall (decide_eq_true hends)

end

theorem callSound_restore {stored : Option (List Nat)}
    (hcall : s.callKeeps k outcome (.restore stored))
    (h : s.resume outcome (.restore stored) = some (next, s')) :
    CallSound s k (.restore stored) next s' := by
  simp only [resume] at h
  split at h
  · cases h
    refine { epoch := rfl, loaded := ?_, doc := ?_, saved := ?_, snapshot := rfl, seed := nofun,
             logged := fun _ => id, kept := ?_ }
    · intro hloaded
      simp [hloaded]
    · intro c hc
      dsimp only at hc
      split at hc
      · exact .inl hc
      split at hc
      · next hmetadata => exact .inr ⟨hmetadata, hc⟩
      · cases hc
    · exact fun c hc => .inr ⟨hc, fun hsaves => .inl (hsaves.resolve_right Bool.false_ne_true)⟩
    · intro c hc hcarried
      cases stored with
      | none =>
        rcases hcarried with hc | hbuffered
        · cases hc
        · exact .inr (.inr (.inr hbuffered))
      | some stored =>
        rcases hcall c hc (hcarried.imp_right And.left) with hlogged | hcarried | hstored
        · exact .inl hlogged
        · exact .inr (.inr (.inl hcarried))
        · exact .inr (.inr (.inr hstored))
  · cases h

theorem callSound_resume
    (hseed : ∀ epoch seed phase, call = .create epoch seed phase → epoch = s.epoch →
      seed ⊆ s.doc)
    (hcall : s.callKeeps k outcome call) (h : s.resume outcome call = some (next, s')) :
    CallSound s k call next s' := by
  cases call with
  | coordinator update =>
    simp only [resume] at h
    split at h
    · cases h
      exact callSound_stay rfl rfl nofun fun _ => id
    next hfails =>
    cases h
    exact callSound_drop hcall (decide_eq_true hfails)
  | append update =>
    cases outcome with
    | ok =>
      cases h
      exact callSound_append rfl
    | sendFails =>
      cases h
      exact callSound_remember rfl (.inr rfl)
    | fails =>
      cases h
      exact callSound_remember rfl (.inl rfl)
    | _ =>
      cases h
      exact callSound_drop hcall rfl
  | flush pending =>
    cases outcome with
    | ok =>
      cases h
      exact callSound_flush rfl
    | sendFails =>
      cases h
      exact callSound_remember rfl (.inr rfl)
    | _ =>
      cases h
      exact callSound_remember rfl (.inl rfl)
  | create epoch seed phase =>
    have hcreate := callSound_create (hseed epoch seed phase rfl) hcall
    rw [Option.some.inj h] at hcreate
    exact hcreate
  | durable update rePresents =>
    by_cases hok : outcome = .ok
    · cases rePresents with
      | true | false =>
        simp only [resume, hok, ne_eq, not_true_eq_false, if_false, if_true] at h
        cases h
        exact callSound_stay rfl rfl nofun fun _ => id
    · simp only [resume, ne_eq, hok, not_false_eq_true, if_true] at h
      cases h
      exact callSound_drop hcall (decide_eq_true hok)
  | write update =>
    cases outcome with
    | ok | sendFails =>
      cases h
      exact callSound_append rfl
    | _ =>
      cases h
      exact callSound_drop hcall rfl
  | compact snapshot =>
    simp only [resume] at h
    split at h
    · cases h
      exact {
        epoch := rfl
        loaded := fun h => ⟨h, rfl⟩
        doc := fun _ => .inl
        saved := fun _ => .inl
        snapshot := rfl
        seed := nofun
        logged := fun _ => id
        kept := fun c hc h => .inr (.inr (.inr (h.resolve_left (not_mem_nil)))) }
    · cases h
      exact callSound_stay rfl rfl nofun fun _ => id
  | restore stored => exact callSound_restore hcall h
  | ended => cases h

/-! ## 5. Every run -/

structure UnloggedInv (s : UnloggedUpdates) : Prop where
  covered : ∀ c ∈ s.present, s.Logged c ∨ s.Carried c ∨ s.Buffered c
  seeds : ∀ epoch seed phase, .create epoch seed phase ∈ s.calls →
    epoch ≤ s.epoch ∧ (epoch = s.epoch → s.loaded = true ∧ seed ⊆ s.doc)

theorem unloggedInv_start : UnloggedInv .start := by
  constructor <;> simp [start, present]

theorem UnloggedInv.addCall (h : UnloggedInv s) {loaded : Bool} {doc : List Nat}
    {unlogged : Option (List Nat)} (hsaves : call.savesMetadata = false)
    (hsnapshot : call.snapshot ⊆ doc) (hdoc : ∀ c ∈ doc, c ∈ s.doc ∨ c ∈ call.carries)
    (hgrows : s.loaded = true → loaded = true ∧ s.doc ⊆ doc)
    (hbuffer : ∀ c, s.Buffered c → c ∈ call.carries ∨ c ∈ unlogged.getD [])
    (hseed : ∀ epoch seed phase, call = .create epoch seed phase →
      epoch ≤ s.epoch ∧ (epoch = s.epoch → loaded = true ∧ seed ⊆ doc)) :
    UnloggedInv { s with loaded, doc, unlogged, calls := s.calls ++ [call] } := by
  have hcarried (c : Nat) : c ∈ (s.calls ++ [call]).flatMap (·.carries) ↔
      s.Carried c ∨ c ∈ call.carries := by
    simp only [Carried, mem_flatMap]
    exact exists_mem_concat
  constructor
  · intro c hc
    have hpresent : c ∈ s.present ∨ c ∈ call.carries := by
      rcases mem_present.mp hc with hmem | ⟨hsaved, hmem⟩ | ⟨x, hx, hmem⟩
      · exact (hdoc c hmem).imp_left fun hold => mem_present.mpr (.inl hold)
      · refine .inl (mem_present.mpr (.inr (.inl ⟨hsaved.imp_right ?_, hmem⟩)))
        rintro ⟨x, hx, hsaves'⟩
        rcases mem_append.mp hx with hx | hx
        · exact ⟨x, hx, hsaves'⟩
        · cases mem_singleton.mp hx
          cases hsaves.symm.trans hsaves'
      · rcases mem_append.mp hx with hx | hx
        · exact .inl (mem_present.mpr (.inr (.inr ⟨x, hx, hmem⟩)))
        · cases mem_singleton.mp hx
          exact (hdoc c (hsnapshot hmem)).imp_left fun hold => mem_present.mpr (.inl hold)
    rcases hpresent with hpresent | hcall
    · rcases h.covered c hpresent with hlogged | hmem | hbuffered
      · exact .inl hlogged
      · exact .inr (.inl ((hcarried c).mpr (.inl hmem)))
      rcases hbuffer c hbuffered with hcall | hunlogged
      · exact .inr (.inl ((hcarried c).mpr (.inr hcall)))
      · exact .inr (.inr ⟨hunlogged, hbuffered.2⟩)
    · exact .inr (.inl ((hcarried c).mpr (.inr hcall)))
  · intro epoch seed phase hmem
    rcases mem_append.mp hmem with hold | hnew
    · obtain ⟨hle, hlive⟩ := h.seeds epoch seed phase hold
      refine ⟨hle, fun heq => ?_⟩
      obtain ⟨hloaded, hsub⟩ := hlive heq
      exact ⟨(hgrows hloaded).1, fun c hc => (hgrows hloaded).2 (hsub hc)⟩
    · exact hseed epoch seed phase (mem_singleton.mp hnew).symm

theorem UnloggedInv.leaveLocally {event : List Nat} (h : UnloggedInv s)
    (hadm : losesNothing s (.leaveLocally event)) :
    UnloggedInv { s with doc := s.doc ++ event } := by
  constructor
  · intro c hc
    have hpresent : c ∈ s.present ∨ c ∈ event := by
      rcases mem_present.mp hc with hdoc | hrest
      · exact (mem_append.mp hdoc).imp_left fun hold => mem_present.mpr (.inl hold)
      · exact .inl (mem_present.mpr (.inr hrest))
    exact hpresent.elim (h.covered c) (hadm c)
  · intro epoch seed phase hmem
    obtain ⟨hle, hlive⟩ := h.seeds epoch seed phase hmem
    exact ⟨hle, fun heq => (hlive heq).imp_right fun hsub => subset_append_of_subset_left _ hsub⟩

theorem UnloggedInv.resume (h : UnloggedInv s) (hk : s.calls[k]? = some call)
    (hsound : CallSound s k call next s') :
    UnloggedInv { s' with calls := s.calls.set k next } := by
  have hmem : call ∈ s.calls := mem_of_getElem? hk
  have hlt : k < s.calls.length := (List.getElem?_eq_some_iff.mp hk).1
  have hold (c : Nat) : s.Carried c ↔ c ∈ call.carries ∨ s.CarriedBut k c := by
    simp only [Carried, CarriedBut, mem_flatMap]
    exact exists_mem_of_getElem? (p := (c ∈ ·.carries)) .ended not_mem_nil hk
  have hnew (c : Nat) : c ∈ (s.calls.set k next).flatMap (·.carries) ↔
      c ∈ next.carries ∨ s.CarriedBut k c := by
    simp only [CarriedBut, mem_flatMap]
    exact exists_mem_set (p := (c ∈ ·.carries)) .ended not_mem_nil hlt
  have hsub : ∀ x ∈ s.calls.set k next, x = next ∨ x ∈ s.calls := fun x hx =>
    (mem_or_eq_of_mem_set hx).symm
  constructor
  · intro c hc
    have hpresent : c ∈ s.present := by
      rcases mem_present.mp hc with hdoc | ⟨hsaves, hsaved⟩ | ⟨x, hx, hsnapshot⟩
      · rcases hsound.doc c hdoc with hdoc | ⟨hmetadata, hsaved⟩
        · exact mem_present.mpr (.inl hdoc)
        · exact mem_present.mpr (.inr (.inl ⟨.inl hmetadata, hsaved⟩))
      · rcases hsound.saved c hsaved with hsnapshot | ⟨hsaved, hkeep⟩
        · exact mem_present.mpr (.inr (.inr ⟨call, hmem, hsnapshot⟩))
        refine mem_present.mpr (.inr (.inl ⟨?_, hsaved⟩))
        have hcall (hs : s'.metadata = true ∨ next.savesMetadata = true) :
            s.metadata = true ∨ ∃ call ∈ s.calls, call.savesMetadata = true :=
          (hkeep hs).imp_right fun hsaves => ⟨call, hmem, hsaves⟩
        rcases hsaves with hmetadata | ⟨x, hx, hsaves⟩
        · exact hcall (.inl hmetadata)
        rcases hsub x hx with rfl | hx
        · exact hcall (.inr hsaves)
        · exact .inr ⟨x, hx, hsaves⟩
      · rcases hsub x hx with rfl | hx
        · rw [hsound.snapshot] at hsnapshot
          cases hsnapshot
        · exact mem_present.mpr (.inr (.inr ⟨x, hx, hsnapshot⟩))
    have hkept (hcarried : c ∈ call.carries ∨ s.Buffered c) :
        s'.Logged c ∨ c ∈ (s.calls.set k next).flatMap (·.carries) ∨ s'.Buffered c := by
      rcases hsound.kept c hpresent hcarried with hlogged | hnext | hbut | hbuffered
      · exact .inl hlogged
      · exact .inr (.inl ((hnew c).mpr (.inl hnext)))
      · exact .inr (.inl ((hnew c).mpr (.inr hbut)))
      · exact .inr (.inr hbuffered)
    rcases h.covered c hpresent with hlogged | hcarried | hbuffered
    · exact .inl (hsound.logged c hlogged)
    · rcases (hold c).mp hcarried with hcall | hbut
      · exact hkept (.inl hcall)
      · exact .inr (.inl ((hnew c).mpr (.inr hbut)))
    · exact hkept (.inr hbuffered)
  · intro epoch seed phase hx
    have hbefore : epoch ≤ s.epoch ∧ (epoch = s.epoch → s.loaded = true ∧ seed ⊆ s.doc) := by
      rcases hsub _ hx with heq | hx
      · obtain ⟨phase', rfl⟩ := hsound.seed epoch seed phase heq.symm
        exact h.seeds epoch seed phase' hmem
      · exact h.seeds epoch seed phase hx
    refine ⟨hsound.epoch ▸ hbefore.1, fun heq => ?_⟩
    obtain ⟨hloaded, hseed⟩ := hbefore.2 (heq.trans hsound.epoch)
    obtain ⟨hloaded', hdoc⟩ := hsound.loaded hloaded
    exact ⟨hloaded', hdoc ▸ hseed⟩

theorem UnloggedInv.store {op : Option (List Nat)} {rest : List (Option (List Nat))} {ok : Bool}
    (h : UnloggedInv s) (hops : s.storeOps = op :: rest) (hadm : losesNothing s (.store ok)) :
    UnloggedInv { s with stored := if ok then op else s.stored, storeOps := rest } := by
  refine ⟨fun c hc => ?_, h.seeds⟩
  rcases h.covered c hc with hlogged | hcarried | ⟨hmemory, hsettled⟩
  · exact .inl hlogged
  · exact .inr (.inl hcarried)
  rw [settled, hops] at hsettled
  cases ok with
  | true => exact .inr (.inr ⟨hmemory, hsettled⟩)
  | false =>
    cases rest with
    | cons op' rest => exact .inr (.inr ⟨hmemory, hsettled⟩)
    | nil =>
      rcases hadm rfl (by rw [hops]; rfl) c hc hmemory with hlogged | hcarried | hstored
      · exact .inl hlogged
      · exact .inr (.inl hcarried)
      · exact .inr (.inr ⟨hmemory, hstored⟩)

theorem unloggedStep_inv {i : UnloggedInput} (hinv : UnloggedInv s) (hadm : losesNothing s i)
    (h : unloggedStep s i = some s') : UnloggedInv s' := by
  cases i with
  | create seed =>
    simp only [unloggedStep] at h
    split at h
    · next hloaded =>
      cases h
      refine hinv.addCall rfl (fun _ => id) (fun _ => .inl) (fun h => ⟨h, fun _ => id⟩)
        (fun _ h => .inr h.1) ?_
      rintro e sd ph ⟨⟩
      exact ⟨Nat.le_refl _, fun _ => ⟨hloaded, nil_subset _⟩⟩
    · next hloaded =>
      cases h
      refine hinv.addCall rfl (fun _ => id) (fun _ => .inr) (fun h => absurd h hloaded)
        (fun _ h => .inr h.1) ?_
      rintro e sd ph ⟨⟩
      exact ⟨Nat.le_refl _, fun _ => ⟨rfl, fun _ => id⟩⟩
  | edit update =>
    simp only [unloggedStep] at h
    split at h
    · cases h
      exact hinv.addCall rfl (nil_subset _) (fun _ => mem_append.mp)
        (fun h => ⟨h, subset_append_left _ _⟩) (fun _ h => .inr h.1) nofun
    · cases h
  | transactDurable update =>
    simp only [unloggedStep] at h
    split at h
    · split at h
      · cases h
        exact hinv
      cases h
      exact hinv.addCall rfl (nil_subset _) (fun _ => mem_append.mp)
        (fun h => ⟨h, subset_append_left _ _⟩) (fun _ h => .inr h.1) nofun
    · cases h
  | commitMembershipEventDurable event =>
    simp only [unloggedStep] at h
    split at h
    · cases h
      refine hinv.addCall rfl (nil_subset _) (fun c hc => ?_)
        (fun h => ⟨h, subset_append_left _ _⟩) (fun _ h => .inr h.1) nofun
      refine (mem_append.mp hc).imp_right fun hcaptured => ?_
      rwa [UpdateCall.carries, if_neg (ne_nil_of_mem hcaptured)]
    · cases h
  | leaveLocally event =>
    simp only [unloggedStep] at h
    split at h
    · cases h
      exact hinv.leaveLocally hadm
    · cases h
  | flush =>
    simp only [unloggedStep] at h
    split at h
    · cases h
      exact hinv
    next pending hpending =>
    cases h
    refine hinv.addCall rfl (nil_subset _) (fun _ => .inl) (fun h => ⟨h, fun _ => id⟩)
      (fun c h => .inl ?_) nofun
    have hmemory := h.1
    rwa [hpending] at hmemory
  | compact =>
    simp only [unloggedStep] at h
    split at h
    · cases h
      exact hinv.addCall rfl (fun _ => id) (fun _ => .inl) (fun h => ⟨h, fun _ => id⟩)
        (fun _ h => .inr h.1) nofun
    · cases h
  | run k outcome =>
    simp only [unloggedStep] at h
    split at h
    · cases h
    next call hk =>
    split at h
    · cases h
    next next s₁ hresume =>
    cases h
    refine hinv.resume hk (callSound_resume ?_ (hadm call hk) hresume)
    rintro epoch seed phase rfl heq
    exact ((hinv.seeds epoch seed phase (mem_of_getElem? hk)).2 heq).2
  | store ok =>
    simp only [unloggedStep] at h
    split at h
    · cases h
    next op rest hops =>
    cases h
    exact hinv.store hops hadm
  | stop =>
    cases h
    constructor
    · intro c hc
      refine hinv.covered c (mem_present.mpr ?_)
      rcases mem_present.mp hc with hdoc | hsaved | hsnapshot
      · cases hdoc
      · exact .inr (.inl hsaved)
      · exact .inr (.inr hsnapshot)
    · intro epoch seed phase hmem
      have hle := (hinv.seeds epoch seed phase hmem).1
      exact ⟨Nat.le_succ_of_le hle, fun heq => absurd hle (heq ▸ Nat.not_succ_le_self _)⟩
  | start =>
    cases h
    exact hinv.addCall rfl (nil_subset _) (fun _ => .inl) (fun h => ⟨h, fun _ => id⟩)
      (fun _ h => .inr h.1) nofun
  | crash =>
    cases h
    constructor
    · intro c hc
      have hsaved : s.metadata = true ∧ c ∈ s.saved := by
        rcases mem_present.mp hc with hdoc | ⟨hmetadata | ⟨x, hx, hsaves⟩, hsaved⟩ | ⟨x, hx, hsnap⟩
        · cases hdoc
        · exact ⟨hmetadata, hsaved⟩
        · cases mem_singleton.mp hx
          cases hsaves
        · cases mem_singleton.mp hx
          cases hsnap
      have hcovered := hinv.covered c (mem_present.mpr (.inr (.inl ⟨.inl hsaved.1, hsaved.2⟩)))
      have hdurable : s.Logged c ∨ c ∈ s.stored.getD [] := by
        rcases hcovered with hlogged | hcarried | hbuffered
        · exact .inl hlogged
        · exact hadm hsaved.1 c hsaved.2 (.inr hcarried)
        · exact hadm hsaved.1 c hsaved.2 (.inl hbuffered.1)
      refine hdurable.imp_right fun hstored => .inl ?_
      simpa [Carried, UpdateCall.carries] using hstored
    · intro epoch seed phase hmem
      cases mem_singleton.mp hmem

/-- **No local change is lost**, in every run whose steps leave no change of the document
    without an entry, a place in the buffer and a call: whenever nothing is under way, the
    log and the durable buffer rebuild the document. -/
theorem local_changes_kept (h : Reaches unloggedStep losesNothing .start s)
    (hquiet : s.Quiescent) : s.doc ⊆ s.replayed := by
  have hinv : UnloggedInv s := h.invariant unloggedInv_start fun _ _ _ => unloggedStep_inv
  intro c hc
  rw [replayed, flatten_append, mem_append]
  rcases hinv.covered c (mem_present.mpr (.inl hc)) with hlogged | hcarried | hbuffered
  · exact .inl hlogged
  · obtain ⟨call, hmem, hcall⟩ := mem_flatMap.mp hcarried
    rw [of_decide_eq_true (all_eq_true.mp hquiet.1 call hmem)] at hcall
    cases hcall
  have hstored := hbuffered.2
  rw [settled, hquiet.2] at hstored
  refine .inr ?_
  cases hs : s.stored with
  | none =>
    rw [foldl_nil, hs] at hstored
    cases hstored
  | some stored =>
    rw [foldl_nil, hs] at hstored
    simpa using hstored

end

/-! ## 6. Runs -/

/-- A space is created online; one edit is written, one fails before the append and is kept;
    after a crash, the next catch-up flushes it.  Of two commits of one event the first
    fails, and the second, which finds the event in the document, writes the full state. -/
theorem local_changes_kept_crash : ∃ s,
    Reaches unloggedStep losesNothing .start s ∧ s.doc = [1, 2, 3, 4, 5] ∧
      s.log = [[1], [2], [3], [4], [1, 2, 3, 4, 5]] ∧ s.doc ⊆ s.replayed := by
  obtain ⟨s, hreach, hp⟩ := Reaches.of_exec unloggedStep losesNothing .start
    [.create [1], .run 0 .ok, .run 0 .ok, .run 0 .ok, .run 0 .ok, .run 0 .ok, .run 0 .ok,
      .run 0 .ok, .edit [2], .run 1 .ok, .run 1 .ok, .edit [3], .run 2 .ok, .run 2 .fails,
      .store true, .compact, .run 3 .ok, .crash, .run 0 .ok, .flush, .run 1 .ok, .store true,
      .transactDurable [4], .run 2 .ok, .run 2 .ok, .commitMembershipEventDurable [5],
      .commitMembershipEventDurable [5], .run 3 .fails, .run 4 .ok, .run 4 .ok, .run 4 .ok]
    (fun s => decide (s.Quiescent ∧ s.doc = [1, 2, 3, 4, 5] ∧
      s.log = [[1], [2], [3], [4], [1, 2, 3, 4, 5]]))
    (by decide +kernel)
  obtain ⟨hquiet, hdoc, hlog⟩ := of_decide_eq_true hp
  exact ⟨s, hreach, hdoc, hlog, local_changes_kept hreach hquiet⟩

/-- The seed of a space that is created offline is in neither log nor buffer; an edit whose
    content key is missing is dropped; a change that is in the compact store, but not yet in
    the log, is lost to the log by a crash. -/
theorem change_dropped : (∃ s, Reaches unloggedStep (fun _ _ => True) .start s ∧
      decide (s.Quiescent ∧ s.doc = [1] ∧ s.replayed = []) = true) ∧
    (∃ s, Reaches unloggedStep (fun _ _ => True) .start s ∧
      decide (s.Quiescent ∧ s.doc = [1, 2] ∧ s.replayed = [1]) = true) ∧
    ∃ s, Reaches unloggedStep (fun _ _ => True) .start s ∧
      decide (s.Quiescent ∧ s.doc = [1, 2] ∧ s.replayed = [1]) = true := by
  refine ⟨?_, ?_, ?_⟩
  · exact Reaches.of_exec unloggedStep (fun _ _ => True) .start
      [.create [1], .run 0 .ok, .run 0 .ok, .run 0 .ok, .run 0 .ok, .run 0 .fails, .run 0 .ok,
        .run 0 .fails]
      (fun s => decide (s.Quiescent ∧ s.doc = [1] ∧ s.replayed = [])) (by decide +kernel)
  · exact Reaches.of_exec unloggedStep (fun _ _ => True) .start
      [.create [1], .run 0 .ok, .run 0 .ok, .run 0 .ok, .run 0 .ok, .run 0 .ok, .run 0 .ok,
        .run 0 .ok, .edit [2], .run 1 .ok, .run 1 .noKey]
      (fun s => decide (s.Quiescent ∧ s.doc = [1, 2] ∧ s.replayed = [1])) (by decide +kernel)
  · exact Reaches.of_exec unloggedStep (fun _ _ => True) .start
      [.create [1], .run 0 .ok, .run 0 .ok, .run 0 .ok, .run 0 .ok, .run 0 .ok, .run 0 .ok,
        .run 0 .ok, .edit [2], .compact, .run 2 .ok, .crash, .run 0 .ok]
      (fun s => decide (s.Quiescent ∧ s.doc = [1, 2] ∧ s.replayed = [1])) (by decide +kernel)

end WebOfTrust
