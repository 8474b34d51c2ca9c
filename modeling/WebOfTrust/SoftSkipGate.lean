/-
  **When a hole is skipped.**  The gate counts epochs where it means connections.  Where
  the epoch of every observation identifies its connection, a hole is soft-skipped when,
  and only when, it was confirmed absent on three connections and for a minute
  (`soft_skip_gate`).  A process restart takes the identity away: the epochs start at zero
  again while the durable record remembers the old ones (`restarts_hide_connections`).
-/
import Mathlib.Data.List.Perm.Subperm
import WebOfTrust.DocLogAgree
import WebOfTrust.SoftSkip

namespace WebOfTrust

open Async DocLogStore KeyedTable List

/-! ## 1. Counting -/

theorem length_dedup_map {α β γ : Type} [DecidableEq β] [DecidableEq γ] {l : List α} {f : α → β}
    {g : α → γ} (h : ∀ a ∈ l, ∀ b ∈ l, f a = f b ↔ g a = g b) :
    (l.map f).dedup.length = (l.map g).dedup.length := by
  induction l with
  | nil => rfl
  | cons a rest ih =>
    have hrest := ih fun x hx y hy =>
      h x (mem_cons_of_mem _ hx) y (mem_cons_of_mem _ hy)
    have hmem : f a ∈ rest.map f ↔ g a ∈ rest.map g := by
      simp only [mem_map]
      constructor
      · rintro ⟨x, hx, hfx⟩
        exact ⟨x, hx, (h x (mem_cons_of_mem _ hx) a mem_cons_self).mp hfx⟩
      · rintro ⟨x, hx, hgx⟩
        exact ⟨x, hx, (h x (mem_cons_of_mem _ hx) a mem_cons_self).mpr hgx⟩
    rw [map_cons, map_cons]
    by_cases hin : f a ∈ rest.map f
    · rw [dedup_cons_of_mem hin, dedup_cons_of_mem (hmem.mp hin), hrest]
    · rw [dedup_cons_of_notMem hin, dedup_cons_of_notMem fun hg => hin (hmem.mpr hg),
        length_cons, length_cons, hrest]

/-- The epoch of every observation identifies its connection. -/
def Identified (history : List GapObservation) : Prop :=
  ∀ o ∈ history, ∀ o' ∈ history, o.connection = o'.connection ↔ o.epoch = o'.epoch

variable {history : List GapObservation} {docId : DocId}

theorem Identified.length (h : Identified history) {epochs : List Int} (hnodup : epochs.Nodup)
    (hmem : ∀ e, e ∈ epochs ↔ ∃ o ∈ history, (o.epoch : Int) = e) :
    (history.map (·.connection)).dedup.length = epochs.length := by
  have hepochs : (history.map fun o => (o.epoch : Int)).dedup.Perm epochs := by
    apply (perm_ext_iff_of_nodup (nodup_dedup _) hnodup).mpr
    intro e
    rw [mem_dedup, mem_map, hmem]
  rw [← hepochs.length_eq]
  apply length_dedup_map
  intro o ho o' ho'
  rw [h o ho o' ho', Int.natCast_inj]

theorem confirmedAbsent_append (o : GapObservation) (h : confirmedAbsent history = true) :
    confirmedAbsent (history ++ [o]) = true := by
  unfold confirmedAbsent at h ⊢
  rw [Bool.and_eq_true, decide_eq_true_eq] at h ⊢
  obtain ⟨hcount, hspan⟩ := h
  constructor
  · have hsub : (history.map (·.connection)).dedup.Subperm
        ((history ++ [o]).map (·.connection)).dedup := by
      apply Nodup.subperm (nodup_dedup _)
      intro c hc
      rw [mem_dedup] at hc ⊢
      rw [map_append]
      exact mem_append_left _ hc
    exact Nat.le_trans hcount hsub.length_le
  · rcases history with _ | ⟨first, rest⟩
    · cases hspan
    rw [cons_append]
    dsimp only at hspan ⊢
    rw [← cons_append, any_append, hspan, Bool.true_or]

/-! ## 2. Gap records -/

theorem gapKey_inj {device device' : DeviceId} {n n' : Nat}
    (h : gapKey docId device n = gapKey docId device' n') : device = device' ∧ n = n' := by
  have htext : ∀ (d : DeviceId) (n : Nat), (gapKey docId d n).toList.reverse =
      n.repr.toList.reverse ++ '\x00' :: (d.toList.reverse ++ '\x00' :: docId.toList.reverse) := by
    intro d n
    simp [gapKey]
  have hdigits : ∀ n : Nat, '\x00' ∉ n.repr.toList.reverse := by
    intro n hmem
    rw [mem_reverse, Nat.toList_repr] at hmem
    have hdigit := Nat.isDigit_of_mem_toDigits (by decide) (by decide) hmem
    exact absurd hdigit (by decide)
  have hlist := congrArg (fun s : String => s.toList.reverse) h
  simp only [htext] at hlist
  obtain ⟨hn, hrest⟩ := append_sep_inj (hdigits n) (hdigits n') hlist
  have hdevice := append_cancel_right hrest
  exact ⟨String.toList_inj.mp (reverse_inj.mp hdevice),
    repr_inj (String.toList_inj.mp (reverse_inj.mp hn))⟩

/-- The record of a hole that is confirmed by `history`. -/
structure Recorded (docId : DocId) (history : List GapObservation) (g : GapRepair) : Prop where
  docId : g.docId = docId
  nextDueAt : g.nextDueAt ≤ maxSafeInteger
  firstSeenAt : history.head?.map (·.now) = some g.firstSeenAt
  nodup : g.observedEpochs.Nodup
  epochs : ∀ e, e ∈ g.observedEpochs ↔ ∃ o ∈ history, (o.epoch : Int) = e
  lastObservedEpoch : g.lastObservedEpoch ∈ g.observedEpochs

theorem Recorded.skipsAt_iff {g : GapRepair} (hg : Recorded docId history g)
    (hid : Identified history) {now : Nat} (hnow : ∃ o ∈ history, o.now = now)
    (hlast : ∀ o ∈ history, o.now ≤ now) :
    g.skipsAt now = true ↔ g.softSkipped = false ∧ confirmedAbsent history = true := by
  unfold GapRepair.skipsAt confirmedAbsent
  rw [hid.length hg.nodup hg.epochs]
  simp only [Bool.and_eq_true, Bool.not_eq_true', decide_eq_true_eq, and_assoc]
  apply and_congr_right
  intro _
  apply and_congr_right
  intro _
  have hfirst := hg.firstSeenAt
  rcases history with _ | ⟨first, rest⟩
  · cases hfirst
  simp only [head?_cons, Option.map_some, Option.some.injEq] at hfirst
  rw [any_eq_true, ← hfirst]
  simp only [decide_eq_true_eq]
  constructor
  · intro hage
    obtain ⟨o, ho, rfl⟩ := hnow
    exact ⟨o, ho, hage⟩
  · rintro ⟨o, ho, hage⟩
    exact Nat.le_trans hage (hlast o ho)

theorem Recorded.confirmed_of_skipsAt {g : GapRepair} (hg : Recorded docId history g)
    (hid : Identified history) {now : Nat} (hnow : ∃ o ∈ history, o.now = now)
    (hskips : g.skipsAt now = true) : confirmedAbsent history = true := by
  unfold GapRepair.skipsAt at hskips
  unfold confirmedAbsent
  rw [hid.length hg.nodup hg.epochs]
  simp only [Bool.and_eq_true, decide_eq_true_eq] at hskips ⊢
  refine ⟨hskips.1.2, ?_⟩
  have hfirst := hg.firstSeenAt
  rcases history with _ | ⟨first, rest⟩
  · cases hfirst
  simp only [head?_cons, Option.map_some, Option.some.injEq] at hfirst
  obtain ⟨o, ho, rfl⟩ := hnow
  rw [any_eq_true]
  refine ⟨o, ho, ?_⟩
  rw [hfirst]
  exact decide_eq_true hskips.2

/-! ## 3. The other calls of the store -/

/-- Every gap record is an old one, but for its next repair. -/
def GapFrame (s s' : DocLogStore) : Prop :=
  ∀ g' ∈ s'.gapState.rows, ∃ g ∈ s.gapState.rows, ∃ nextDueAt attempts,
    g' = { g with nextDueAt := nextDueAt, attempts := attempts } ∧
      (nextDueAt = g.nextDueAt ∨ nextDueAt ≤ maxSafeInteger)

variable {s s' : DocLogStore}

theorem gapFrame_of_subset (h : ∀ g ∈ s'.gapState.rows, g ∈ s.gapState.rows) : GapFrame s s' :=
  fun g hg => ⟨g, h g hg, g.nextDueAt, g.attempts, rfl, .inl rfl⟩

theorem gapFrame_of_eq (h : s'.gapState = s.gapState) : GapFrame s s' := by
  apply gapFrame_of_subset
  intro g hg
  rwa [h] at hg

theorem gapState_appendEntry (docId : DocId) (deviceId : DeviceId)
    (build : Nat → Except String EntryJws) (now attempts : Nat) :
    (s.appendEntry docId deviceId build now attempts).2.gapState = s.gapState := by
  induction attempts with
  | zero => rfl
  | succ attempts ih =>
    unfold appendEntry
    dsimp only
    split
    · rfl
    split
    · next hadd =>
      obtain ⟨-, hs', -⟩ := addEntry_eq_some hadd
      rw [hs']
    · exact ih

theorem gapFrame_batch (es : List RecordRemoteAppliedEntry) (now : Nat) :
    GapFrame s (s.recordAppliedBatch es now) := by
  apply gapFrame_of_subset
  intro g hg
  obtain ⟨-, hrows⟩ := foldl_autoResolveGaps es
    (s := es.foldl (fun s e => s.putRemoteApplied e now) s)
  unfold recordAppliedBatch at hg
  rw [hrows, foldl_putRemoteApplied_gapState] at hg
  exact (mem_filter.mp hg).1

/-- **No other call notes an observation**, forgets one of several, or skips a hole. -/
theorem gapFrame_perform (L : Listing) {op : PortOp} (h : op.gapNeutral = true) :
    GapFrame s (s.perform L op).2 := by
  cases op with
  | appendLocalEntry docId deviceId build now =>
    exact gapFrame_of_eq (gapState_appendEntry docId deviceId build now maxSeqRetries)
  | getOrCreateDeviceId uuid =>
    apply gapFrame_of_eq
    simp only [DocLogStore.perform]
    split
    · rfl
    · rfl
  | resolveConnectDeviceId uuid =>
    apply gapFrame_of_eq
    simp only [DocLogStore.perform]
    split
    · split
      · rfl
      · rfl
    split
    · rfl
    · rfl
    · rfl
  | recordRemoteApplied entry now => exact gapFrame_batch [entry] now
  | recordRemoteAppliedBatch entries now => exact gapFrame_batch entries now
  | recordGapObservation docId device firstMissing observedMax epoch now
  | markGapSoftSkipped docId device firstMissing => cases h
  | markGapRepairAttempt docId device firstMissing nextDueAt =>
    have hdue : nextDueAt ≤ maxSafeInteger := of_decide_eq_true h
    intro g' hg'
    have hrows := s.gapState.rows_update (gapKey docId device firstMissing)
      (fun g => { g with attempts := g.attempts + 1, nextDueAt := nextDueAt }) fun _ => rfl
    change g' ∈ (s.gapState.update _ _).rows at hg'
    rw [hrows] at hg'
    obtain ⟨g, hg, hchange⟩ := mem_map.mp hg'
    by_cases hkey : g.key = gapKey docId device firstMissing
    · rw [if_pos hkey] at hchange
      exact ⟨g, hg, nextDueAt, g.attempts + 1, hchange.symm, .inr hdue⟩
    · rw [if_neg hkey] at hchange
      exact ⟨g, hg, g.nextDueAt, g.attempts, hchange.symm, .inl rfl⟩
  | deleteGapRepair docId device firstMissing =>
    apply gapFrame_of_subset
    intro g hg
    exact (mem_rows_filter.mp hg).1
  | putPendingRemoval removal expect =>
    apply gapFrame_of_eq
    simp only [DocLogStore.perform, putStoredRemoval]
    split
    · rfl
    · rfl
  | clear =>
    intro g hg
    cases hg
  | _ => exact gapFrame_of_eq rfl

/-! ## 4. The flow of the programs -/

def Unchecked : Place GapPoint → Prop
  | .at (.listDueGapRepairs ..) => False
  | .at (.markGapSoftSkipped ..) => False
  | _ => True

section

variable (L : Listing) (docId : DocId) {α : Type} {env : Env} {w : GapWorld}

def gatePasses (env : Env) (w : GapWorld) (now : Nat) (device : DeviceId) (firstMissing : Nat) :
    Bool :=
  env.failure.isNone && (findGap docId w.store device firstMissing).any fun g => g.skipsAt now

def gapFlow : Flow GapPoint Env GapWorld where
  ready _ _ := true
  upd t env w :=
    match t with
    | .recordGapObservation receivedOn now epoch device firstMissing brokerMax =>
      (env.storeCall w (w.observe docId receivedOn now epoch device firstMissing brokerMax) ()).2
    | .markGapSoftSkipped device firstMissing =>
      (env.storeCall w (w.softSkip docId device firstMissing) ()).2
    | .port op => (env.storeCall w (w.setStore (w.store.perform L op.1).2) ()).2
    | .connect => w.connect
    | .resetForReconnect => w.resetForReconnect
    | _ => w
  next t env w o :=
    match t with
    | .recordGapObservation _ now _ device firstMissing _ =>
      if env.failure = none then o = .at (.listDueGapRepairs now device firstMissing)
      else Unchecked o
    | .listDueGapRepairs now device firstMissing =>
      if gatePasses docId env w now device firstMissing then
        o = .at (.markGapSoftSkipped device firstMissing)
      else Unchecked o
    | _ => Unchecked o

variable {docId} in
theorem storeCall_ok {w' : GapWorld} {a b : α} (h : (env.storeCall w w' a).1 = .ok b) :
    env.failure = none ∧ b = a := by
  unfold Env.storeCall at h
  cases hfail : env.failure with
  | some text =>
    rw [hfail] at h
    cases h
  | none =>
    rw [hfail] at h
    cases h
    exact ⟨rfl, rfl⟩

theorem storeCall_error {w' : GapWorld} {a : α} {e : String}
    (h : (env.storeCall w w' a).1 = .error e) : env.failure ≠ none := by
  unfold Env.storeCall at h
  cases hfail : env.failure with
  | some text => simp
  | none =>
    rw [hfail] at h
    cases h

theorem storeCall_same (env : Env) (w : GapWorld) (a : α) : (env.storeCall w w a).2 = w := by
  unfold Env.storeCall
  split
  · rfl
  · rfl

theorem follows_maybeSoftSkipGap (device : DeviceId) (firstMissing now : Nat) :
    Follows (gapFlow L docId) (maybeSoftSkipGap docId device firstMissing now) := by
  apply follows_atomic_bind
  · intro _
    rfl
  · intro env w
    exact storeCall_same env w _
  · intro env w gap hgap
    obtain ⟨hfail, rfl⟩ := storeCall_ok hgap
    simp only [gapFlow, gatePasses, hfail, Option.isNone_none, Bool.true_and]
    by_cases hpass : (findGap docId w.store device firstMissing).any (fun g => g.skipsAt now) = true
    · rw [if_pos hpass, if_pos hpass]
      refine ⟨rfl, ?_⟩
      apply follows_atomic
      · intro _
        rfl
      · intro env' w'
        rfl
      · intro _ _ _ _
        trivial
      · intro _ _ _ _
        trivial
    · rw [if_neg hpass, if_neg hpass]
      exact ⟨trivial, trivial⟩
  · intro env w e herr
    have hfail := storeCall_error herr
    have hnone : gatePasses docId env w now device firstMissing = false := by
      unfold gatePasses
      rw [Option.isNone_eq_false_iff.mpr (Option.isSome_iff_ne_none.mpr hfail), Bool.false_and]
    simp only [gapFlow, hnone]
    trivial

theorem follows_recordGapOfDevice (receivedOn now : Nat) (known : Heads)
    (lowest : DeviceId → Option Nat) (cursor : Heads) (brokerHead : DeviceId × Nat) :
    Follows (gapFlow L docId)
      (recordGapOfDevice docId receivedOn now known lowest cursor brokerHead) := by
  unfold recordGapOfDevice
  dsimp only
  split
  · trivial
  split
  · trivial
  split
  · trivial
  split
  · trivial
  apply follows_atomic_bind
  · intro _
    rfl
  · intro _ _
    rfl
  · intro env w epoch _
    refine ⟨trivial, ?_⟩
    apply follows_atomic_bind
    · intro _
      rfl
    · intro _ _
      rfl
    · intro env' w' _ hok
      obtain ⟨hfail, -⟩ := storeCall_ok hok
      simp only [gapFlow, hfail, if_true]
      exact ⟨rfl, follows_maybeSoftSkipGap L docId _ _ _⟩
    · intro env' w' e herr
      have hfail := storeCall_error herr
      simp only [gapFlow, hfail, if_false]
      trivial
  · intro _ _ _ herr
    cases herr

theorem place_recordGapOfDevice (receivedOn now : Nat) (known : Heads)
    (lowest : DeviceId → Option Nat) (cursor : Heads) (brokerHead : DeviceId × Nat) :
    Unchecked (recordGapOfDevice docId receivedOn now known lowest cursor brokerHead).place := by
  unfold recordGapOfDevice
  dsimp only
  split
  · trivial
  split
  · trivial
  split
  · trivial
  split
  · trivial
  · trivial

theorem gapFlow_next_of_returned {t : GapPoint} {o : Place GapPoint}
    (hend : (gapFlow L docId).next t env w .returned) (ho : Unchecked o) :
    (gapFlow L docId).next t env w o := by
  cases t with
  | recordGapObservation receivedOn now epoch device firstMissing brokerMax
  | listDueGapRepairs now device firstMissing =>
    simp only [gapFlow] at hend ⊢
    split at hend
    · cases hend
    next hnot =>
    rw [if_neg hnot]
    exact ho
  | _ => exact ho

theorem follows_gapSystem (k : GapCall) :
    Follows (gapFlow L docId) ((gapSystem L docId).call k) := by
  cases k with
  | page brokerHeads lowest cursor =>
    apply follows_atomic_bind
    · intro _
      rfl
    · intro _ _
      rfl
    · intro _ w receivedOn _
      refine ⟨trivial, ?_⟩
      apply follows_atomic_bind
      · intro _
        rfl
      · intro env w'
        exact storeCall_same env w' _
      · intro env w' read _
        obtain ⟨known, now⟩ := read
        have hrounds : ∀ x ∈ brokerHeads, Follows (gapFlow L docId)
              (recordGapOfDevice docId receivedOn now known lowest cursor x) :=
          fun x _ => follows_recordGapOfDevice L docId receivedOn now known lowest cursor x
        constructor
        · apply next_forEach trivial
          intro x _
          exact .inr (place_recordGapOfDevice docId receivedOn now known lowest cursor x)
        · apply follows_forEach hrounds
          intro t i s hend x _
          exact .inr (gapFlow_next_of_returned L docId hend
            (place_recordGapOfDevice docId receivedOn now known lowest cursor x))
      · intro _ _ _ _
        trivial
    · intro _ _ _ herr
      cases herr
  | port op | connect | resetForReconnect =>
    apply follows_atomic
    · intro _
      rfl
    · intro _ _
      rfl
    · intro _ _ _ _
      trivial
    · intro _ _ _ _
      trivial

theorem point_gapSystem (k : GapCall) : ∀ o : Place GapPoint,
    o.point = ((gapSystem L docId).call k).point → Unchecked o := by
  intro o ho
  cases o with
  | returned | failed => trivial
  | «at» t =>
    cases k with
    | page brokerHeads lowest cursor | port op | connect | resetForReconnect =>
      cases ho
      trivial

end

/-! ## 5. Undisturbed runs -/

open GapWorld

section

variable (L : Listing) (docId : DocId) {m firstMissing brokerMax receivedOn epoch now n : Nat}
  {t : GapPoint} {g : GapRepair} {device : DeviceId} {w' : GapWorld} {o : Place GapPoint}

def GapPoint.checkedKey : GapPoint → Option String
  | .listDueGapRepairs _ device firstMissing => some (gapKey docId device firstMissing)
  | .markGapSoftSkipped device firstMissing => some (gapKey docId device firstMissing)
  | _ => none

def checkedKeys (c : GapConfig) : List String :=
  c.procs.filterMap fun p => p.point.bind (GapPoint.checkedKey docId)

def GapWorld.overdue (w : GapWorld) (key : String) : Bool :=
  confirmedAbsent (w.history key) && (w.store.gapState.get? key).any fun g => !g.softSkipped

/-- A step that leaves the identity of the connections and the gate alone:

    * an observation comes with an epoch that no other connection has used for the hole,
      and with the one that its own connection has used, and is not older than the last;
    * while a hole is overdue, the call that skips it does not fail and the process does
      not die;
    * no record is dropped while it is at the gate. -/
def steadyGate (c : GapConfig) : Action Env GapCall → Bool
  | .call _ => true
  | .run n env =>
    match c.pointAt n with
    | some (.recordGapObservation receivedOn now epoch device firstMissing _) =>
      env.failure.isSome || (c.world.history (gapKey docId device firstMissing)).all fun o =>
        decide (o.connection = receivedOn ↔ o.epoch = epoch) && decide (o.now ≤ now)
    | some (.listDueGapRepairs _ device firstMissing) =>
      env.failure.isNone || !c.world.overdue (gapKey docId device firstMissing)
    | some (.markGapSoftSkipped device firstMissing) =>
      env.failure.isNone || !c.world.overdue (gapKey docId device firstMissing)
    | some (.port op) =>
      (checkedKeys docId c).all fun key =>
        !c.world.store.gapState.has key || (c.world.store.perform L op.1).2.gapState.has key
    | _ => true
  | .crash _ => false
  | .restart => c.world.store.gapState.rows.all fun g => !c.world.overdue g.key

def ofOneProcess (_ : GapConfig) : Action Env GapCall → Bool
  | .crash _ => false
  | _ => true

variable {docId} in
theorem mem_checkedKeys {c : GapConfig} {key : String} (ht : c.pointAt m = some t)
    (hkey : t.checkedKey docId = some key) : key ∈ checkedKeys docId c := by
  obtain ⟨p, hp, hpoint⟩ := Option.bind_eq_some_iff.mp ht
  refine mem_filterMap.mpr ⟨p, mem_of_getElem? hp, ?_⟩
  rw [hpoint]
  exact hkey

/-! ## 6. The invariant -/

/-- A program that will skip the hole of a record if it is overdue. -/
def Attended (c : GapConfig) (m : Nat) (device : DeviceId) (firstMissing : Nat) : Prop :=
  c.pointAt m = some (.markGapSoftSkipped device firstMissing) ∨
    ∃ now, c.pointAt m = some (.listDueGapRepairs now device firstMissing) ∧
      ∀ o ∈ c.world.history (gapKey docId device firstMissing), o.now ≤ now

/-- The records say what was observed, and a skipped hole was confirmed absent. -/
structure GapWorld.Sound (w : GapWorld) : Prop where
  recorded : ∀ g ∈ w.store.gapState.rows, Recorded docId (w.history g.key) g
  has : ∀ o ∈ w.observed, w.store.gapState.has o.key = true
  identified : ∀ key, Identified (w.history key)
  skipped : ∀ g ∈ w.store.gapState.rows, g.softSkipped = true →
    confirmedAbsent (w.history g.key) = true

/-- A hole that is overdue is being attended to; a program at the gate has made its
    observation, and one past it may skip the hole. -/
structure GapInv (c : GapConfig) : Prop where
  sound : c.world.Sound docId
  attended : ∀ g ∈ c.world.store.gapState.rows, c.world.overdue g.key = true →
    ∃ m, Attended docId c m g.device g.firstMissing
  checks : ∀ m now device firstMissing,
    c.pointAt m = some (.listDueGapRepairs now device firstMissing) →
      ∃ o ∈ c.world.history (gapKey docId device firstMissing), o.now = now
  marks : ∀ m device firstMissing, c.pointAt m = some (.markGapSoftSkipped device firstMissing) →
    confirmedAbsent (c.world.history (gapKey docId device firstMissing)) = true

variable {docId} {w : GapWorld} {c c' : GapConfig}

theorem GapWorld.Sound.key_eq (h : w.Sound docId) (hg : g ∈ w.store.gapState.rows) :
    g.key = gapKey docId g.device g.firstMissing := by
  unfold GapRepair.key
  rw [(h.recorded g hg).docId]

theorem GapWorld.Sound.findGap (h : w.Sound docId) (hg : g ∈ w.store.gapState.rows) :
    findGap docId w.store g.device g.firstMissing = some g := by
  unfold WebOfTrust.findGap
  cases hfind : (w.store.listDueGapRepairs maxSafeInteger).find? _ with
  | none =>
    have hno := find?_eq_none.mp hfind g
      (mem_filter.mpr ⟨hg, decide_eq_true (h.recorded g hg).nextDueAt⟩)
    simp [(h.recorded g hg).docId] at hno
  | some g' =>
    have hmem := (mem_filter.mp (mem_of_find?_eq_some hfind)).1
    have hsame := find?_some hfind
    simp only [Bool.and_eq_true, decide_eq_true_eq] at hsame
    have hkey : g'.key = g.key := by
      rw [h.key_eq hmem, h.key_eq hg, hsame.1.2, hsame.2]
    rw [eq_of_key_eq hmem hg hkey]

theorem mem_of_findGap (h : WebOfTrust.findGap docId s device firstMissing = some g) :
    g ∈ s.gapState.rows ∧ g.device = device ∧ g.firstMissing = firstMissing := by
  have hmem := (mem_filter.mp (mem_of_find?_eq_some h)).1
  have hsame := find?_some h
  simp only [Bool.and_eq_true, decide_eq_true_eq] at hsame
  exact ⟨hmem, hsame.1.2, hsame.2⟩

theorem overdue_iff (hg : g ∈ w.store.gapState.rows) :
    w.overdue g.key = true ↔ confirmedAbsent (w.history g.key) = true ∧ g.softSkipped = false := by
  unfold overdue
  rw [mem_rows_iff.mp hg, Option.any_some, Bool.and_eq_true, Bool.not_eq_true']

theorem GapWorld.Sound.congr (h : w.Sound docId) (hstore : w'.store = w.store)
    (hobserved : w'.observed = w.observed) : w'.Sound docId := by
  have hhistory : ∀ key, w'.history key = w.history key := by
    intro key
    unfold history
    rw [hobserved]
  constructor
  · intro g hg
    rw [hhistory]
    rw [hstore] at hg
    exact h.recorded g hg
  · intro o ho
    rw [hstore]
    rw [hobserved] at ho
    exact h.has o ho
  · intro key
    rw [hhistory]
    exact h.identified key
  · intro g hg hskipped
    rw [hhistory]
    rw [hstore] at hg
    exact h.skipped g hg hskipped

theorem GapWorld.Sound.history_nil (h : w.Sound docId) {key : String}
    (hnone : w.store.gapState.get? key = none) : w.history key = [] := by
  apply filter_eq_nil_iff.mpr
  intro o ho hkey
  have hhas := h.has o ho
  rw [of_decide_eq_true hkey, KeyedTable.has, hnone] at hhas
  cases hhas

/-! ### Other calls -/

theorem history_setStore (w : GapWorld) (s : DocLogStore) (key : String) :
    (w.setStore s).history key = if s.gapState.has key = true then w.history key else [] := by
  unfold history setStore
  rw [List.filter_filter]
  split
  · next hhas =>
    apply List.filter_congr
    intro o _
    by_cases hkey : o.key = key
    · simp [hkey, hhas]
    · simp [hkey]
  · next hhas =>
    apply List.filter_eq_nil_iff.mpr
    intro o _
    by_cases hkey : o.key = key
    · simp [hkey, hhas]
    · simp [hkey]

theorem GapWorld.Sound.recorded_setStore (h : w.Sound docId) (hframe : GapFrame w.store s)
    (hg : g ∈ s.gapState.rows) :
    ∃ g' ∈ w.store.gapState.rows, g'.key = g.key ∧ g'.softSkipped = g.softSkipped ∧
      g'.device = g.device ∧ g'.firstMissing = g.firstMissing ∧
      (w.setStore s).history g.key = w.history g'.key ∧ Recorded docId (w.history g'.key) g := by
  obtain ⟨g', hg', nextDueAt, attempts, rfl, hdue⟩ := hframe g hg
  have hold := h.recorded g' hg'
  have hhas :
    s.gapState.has (GapRepair.key { g' with nextDueAt := nextDueAt, attempts := attempts }) =
      true := has_iff.mpr ⟨_, hg, rfl⟩
  refine ⟨g', hg', rfl, rfl, rfl, rfl, ?_, ?_⟩
  · rw [history_setStore, if_pos hhas]
    rfl
  refine ⟨hold.docId, ?_, hold.firstSeenAt, hold.nodup, hold.epochs, hold.lastObservedEpoch⟩
  rcases hdue with hsame | hle
  · rw [hsame]
    exact hold.nextDueAt
  · exact hle

theorem GapWorld.Sound.setStore (h : w.Sound docId) (hframe : GapFrame w.store s) :
    (w.setStore s).Sound docId := by
  constructor
  · intro g hg
    obtain ⟨g', -, -, -, -, -, hhistory, hrecorded⟩ := h.recorded_setStore hframe hg
    rw [hhistory]
    exact hrecorded
  · intro o ho
    exact (mem_filter.mp ho).2
  · intro key
    rw [history_setStore]
    split
    · exact h.identified key
    · intro o ho
      cases ho
  · intro g hg hskipped
    obtain ⟨g', hg', -, hsame, -, -, hhistory, -⟩ := h.recorded_setStore hframe hg
    rw [hhistory]
    exact h.skipped g' hg' (hsame.trans hskipped)

/-! ### Skipping a hole -/

theorem history_softSkip (w : GapWorld) (device : DeviceId) (firstMissing : Nat) (key : String) :
    (w.softSkip docId device firstMissing).history key = w.history key := rfl

theorem mem_rows_softSkip (hg : g ∈ (w.softSkip docId device firstMissing).store.gapState.rows) :
    ∃ g' ∈ w.store.gapState.rows, (g'.key = gapKey docId device firstMissing ∧
      g = { g' with softSkipped := true }) ∨
        (g'.key ≠ gapKey docId device firstMissing ∧ g = g') := by
  have hrows := w.store.gapState.rows_update (gapKey docId device firstMissing)
    (fun g => { g with softSkipped := true }) fun _ => rfl
  change g ∈ (w.store.gapState.update _ _).rows at hg
  rw [hrows] at hg
  obtain ⟨g', hg', hchange⟩ := mem_map.mp hg
  refine ⟨g', hg', ?_⟩
  by_cases hkey : g'.key = gapKey docId device firstMissing
  · rw [if_pos hkey] at hchange
    exact .inl ⟨hkey, hchange.symm⟩
  · rw [if_neg hkey] at hchange
    exact .inr ⟨hkey, hchange.symm⟩

theorem GapWorld.Sound.softSkip (h : w.Sound docId)
    (hconfirmed : confirmedAbsent (w.history (gapKey docId device firstMissing)) = true) :
    (w.softSkip docId device firstMissing).Sound docId := by
  constructor
  · intro g hg
    obtain ⟨g', hg', ⟨-, rfl⟩ | ⟨-, rfl⟩⟩ := mem_rows_softSkip hg
    · have hold := h.recorded g' hg'
      exact ⟨hold.docId, hold.nextDueAt, hold.firstSeenAt, hold.nodup, hold.epochs,
        hold.lastObservedEpoch⟩
    · exact h.recorded g hg'
  · intro o ho
    obtain ⟨g, hg, hkey⟩ := has_iff.mp (h.has o ho)
    have hrows := w.store.gapState.rows_update (gapKey docId device firstMissing)
      (fun g => { g with softSkipped := true }) fun _ => rfl
    apply has_iff.mpr
    refine ⟨if g.key = gapKey docId device firstMissing then { g with softSkipped := true } else g,
      ?_, ?_⟩
    · show _ ∈ (w.store.gapState.update _ _).rows
      rw [hrows]
      exact mem_map_of_mem hg
    · rw [← hkey]
      split
      · rfl
      · rfl
  · exact h.identified
  · intro g hg hskipped
    obtain ⟨g', hg', ⟨hkey, rfl⟩ | ⟨-, rfl⟩⟩ := mem_rows_softSkip hg
    · rw [history_softSkip]
      show confirmedAbsent (w.history g'.key) = true
      rw [hkey]
      exact hconfirmed
    · exact h.skipped g hg' hskipped

/-! ### An observation -/

def notedGap (old : Option GapRepair) (docId : DocId) (device : DeviceId)
    (firstMissing observedMax : Nat) (connectionEpoch : Int) (now : Nat) : GapRepair :=
  let gap := old.getD
    { docId := docId, device := device, firstMissing := firstMissing, observedMax := observedMax
      observations := 0, observedEpochs := [], lastObservedEpoch := -1, firstSeenAt := now
      softSkipped := false, nextDueAt := 0, attempts := 0 }
  let gap := { gap with
    observations := gap.observations + 1
    observedMax := if observedMax > gap.observedMax then observedMax else gap.observedMax }
  if gap.lastObservedEpoch ≠ connectionEpoch then
    { gap with
      observedEpochs :=
        if gap.observedEpochs.contains connectionEpoch then gap.observedEpochs
        else gap.observedEpochs ++ [connectionEpoch]
      lastObservedEpoch := connectionEpoch }
  else gap

theorem recordGapObservation_eq (s : DocLogStore) (docId : DocId) (device : DeviceId)
    (firstMissing observedMax : Nat) (connectionEpoch : Int) (now : Nat) :
    s.recordGapObservation docId device firstMissing observedMax connectionEpoch now =
      { s with gapState := s.gapState.put (notedGap
        (s.gapState.get? (gapKey docId device firstMissing)) docId device firstMissing observedMax
          connectionEpoch now) } := rfl

theorem recorded_notedGap_none :
    Recorded docId [⟨gapKey docId device firstMissing, receivedOn, epoch, now⟩]
        (notedGap none docId device firstMissing brokerMax epoch now) ∧
      (notedGap none docId device firstMissing brokerMax epoch now).key =
        gapKey docId device firstMissing ∧
      (notedGap none docId device firstMissing brokerMax epoch now).softSkipped = false := by
  have hnew : (-1 : Int) ≠ (epoch : Int) := by omega
  unfold notedGap
  simp only [Option.getD_none]
  rw [if_pos hnew]
  refine ⟨⟨rfl, Nat.zero_le _, rfl, ?_, ?_, ?_⟩, rfl, rfl⟩
  · simp
  · intro e
    simp [eq_comm]
  · simp

theorem recorded_notedGap_some (h : Recorded docId history g) :
    Recorded docId (history ++ [⟨gapKey docId device firstMissing, receivedOn, epoch, now⟩])
        (notedGap (some g) docId device firstMissing brokerMax epoch now) ∧
      (notedGap (some g) docId device firstMissing brokerMax epoch now).key = g.key ∧
      (notedGap (some g) docId device firstMissing brokerMax epoch now).softSkipped =
        g.softSkipped := by
  have hfirst : (history ++ [(⟨gapKey docId device firstMissing, receivedOn, epoch, now⟩ :
      GapObservation)]).head?.map (·.now) = some g.firstSeenAt := by
    have hold := h.firstSeenAt
    cases history with
    | nil => cases hold
    | cons first rest => exact hold
  have hepochs : ∀ e : Int, (∃ o ∈ history ++ [(⟨gapKey docId device firstMissing, receivedOn,
      epoch, now⟩ : GapObservation)], (o.epoch : Int) = e) ↔ e ∈ g.observedEpochs ∨ e = epoch := by
    intro e
    rw [h.epochs]
    simp only [mem_append, mem_singleton]
    constructor
    · rintro ⟨o, ho | rfl, he⟩
      · exact .inl ⟨o, ho, he⟩
      · exact .inr he.symm
    · rintro (⟨o, ho, he⟩ | rfl)
      · exact ⟨o, .inl ho, he⟩
      · exact ⟨_, .inr rfl, rfl⟩
  unfold notedGap
  simp only [Option.getD_some]
  by_cases hlast : g.lastObservedEpoch ≠ (epoch : Int)
  · rw [if_pos hlast]
    by_cases hin : g.observedEpochs.contains (epoch : Int) = true
    · have hmem : (epoch : Int) ∈ g.observedEpochs := contains_iff_mem.mp hin
      rw [if_pos hin]
      refine ⟨⟨h.docId, h.nextDueAt, hfirst, h.nodup, ?_, hmem⟩, rfl, rfl⟩
      intro e
      rw [hepochs]
      constructor
      · exact .inl
      · rintro (he | rfl)
        · exact he
        · exact hmem
    · have hnot : (epoch : Int) ∉ g.observedEpochs := fun hmem =>
        hin (contains_iff_mem.mpr hmem)
      rw [if_neg hin]
      refine ⟨⟨h.docId, h.nextDueAt, hfirst, ?_, ?_, ?_⟩, rfl, rfl⟩
      · apply nodup_append.mpr
        refine ⟨h.nodup, by simp, ?_⟩
        rintro a ha b hb rfl
        rw [mem_singleton] at hb
        exact hnot (hb ▸ ha)
      · intro e
        rw [hepochs, mem_append, mem_singleton]
      · exact mem_append_right _ (mem_singleton_self _)
  · have hsame : g.lastObservedEpoch = (epoch : Int) := not_not.mp hlast
    rw [if_neg hlast]
    refine ⟨⟨h.docId, h.nextDueAt, hfirst, h.nodup, ?_, h.lastObservedEpoch⟩, rfl, rfl⟩
    intro e
    rw [hepochs]
    constructor
    · exact .inl
    · rintro (he | rfl)
      · exact he
      · rw [← hsame]
        exact h.lastObservedEpoch

section

variable {receivedOn now epoch brokerMax firstMissing : Nat} {device : DeviceId}

theorem history_observe (w : GapWorld) (key : String) :
    (w.observe docId receivedOn now epoch device firstMissing brokerMax).history key =
      if gapKey docId device firstMissing = key then
        w.history key ++ [⟨gapKey docId device firstMissing, receivedOn, epoch, now⟩]
      else w.history key := by
  unfold GapWorld.history GapWorld.observe
  rw [filter_append]
  split
  · next hkey => simp [hkey]
  · next hkey => simp [hkey]

theorem GapWorld.Sound.noted (h : w.Sound docId) :
    Recorded docId (w.history (gapKey docId device firstMissing) ++
        [⟨gapKey docId device firstMissing, receivedOn, epoch, now⟩])
        (notedGap (w.store.gapState.get? (gapKey docId device firstMissing)) docId device
          firstMissing brokerMax epoch now) ∧
      (notedGap (w.store.gapState.get? (gapKey docId device firstMissing)) docId device
          firstMissing brokerMax epoch now).key = gapKey docId device firstMissing ∧
      ((notedGap (w.store.gapState.get? (gapKey docId device firstMissing)) docId device
          firstMissing brokerMax epoch now).softSkipped = true →
        confirmedAbsent (w.history (gapKey docId device firstMissing)) = true) := by
  cases hget : w.store.gapState.get? (gapKey docId device firstMissing) with
  | none =>
    obtain ⟨hrecorded, hkey, hskipped⟩ := recorded_notedGap_none
    rw [h.history_nil hget]
    refine ⟨hrecorded, hkey, fun htrue => ?_⟩
    rw [hskipped] at htrue
    cases htrue
  | some g =>
    obtain ⟨hg, hgkey⟩ := get?_eq_some_iff.mp hget
    have hold := h.recorded g hg
    rw [hgkey] at hold
    obtain ⟨hrecorded, hkey, hskipped⟩ := recorded_notedGap_some hold
    refine ⟨hrecorded, hkey.trans hgkey, fun htrue => ?_⟩
    rw [← hgkey]
    exact h.skipped g hg (hskipped ▸ htrue)

theorem GapWorld.Sound.mem_rows_observe (h : w.Sound docId) :
    g ∈ (w.observe docId receivedOn now epoch device firstMissing brokerMax).store.gapState.rows ↔
      (g.key ≠ gapKey docId device firstMissing ∧ g ∈ w.store.gapState.rows) ∨
        g = notedGap (w.store.gapState.get? (gapKey docId device firstMissing)) docId device
          firstMissing brokerMax epoch now := by
  obtain ⟨-, hkey, -⟩ :=
    @Sound.noted _ _ receivedOn now epoch brokerMax firstMissing device h
  unfold observe
  rw [recordGapObservation_eq]
  dsimp only
  rw [mem_rows_iff, get?_put, hkey]
  by_cases hsame : gapKey docId device firstMissing = g.key
  · rw [if_pos hsame]
    constructor
    · intro heq
      exact .inr (Option.some.inj heq).symm
    · rintro (⟨hne, -⟩ | rfl)
      · exact absurd hsame.symm hne
      · rfl
  · rw [if_neg hsame, ← mem_rows_iff]
    constructor
    · intro hg
      exact .inl ⟨Ne.symm hsame, hg⟩
    · rintro (⟨-, hg⟩ | rfl)
      · exact hg
      · exact absurd hkey.symm hsame

theorem GapWorld.Sound.observe (h : w.Sound docId)
    (hid : ∀ o ∈ w.history (gapKey docId device firstMissing),
      o.connection = receivedOn ↔ o.epoch = epoch) :
    (w.observe docId receivedOn now epoch device firstMissing brokerMax).Sound docId := by
  obtain ⟨hnoted, hkey, hskipped⟩ := h.noted
  constructor
  · intro g hg
    rw [history_observe]
    rcases h.mem_rows_observe.mp hg with ⟨hne, hold⟩ | rfl
    · rw [if_neg (Ne.symm hne)]
      exact h.recorded g hold
    · rw [hkey, if_pos rfl]
      exact hnoted
  · intro o ho
    have hput : ∀ key, (w.store.gapState.put (notedGap
        (w.store.gapState.get? (gapKey docId device firstMissing)) docId device firstMissing
          brokerMax epoch now)).has key =
        (decide (gapKey docId device firstMissing = key) || w.store.gapState.has key) := by
      intro key
      unfold KeyedTable.has
      rw [get?_put, hkey]
      by_cases hsame : gapKey docId device firstMissing = key
      · simp [hsame]
      · simp [hsame]
    unfold GapWorld.observe at ho ⊢
    rw [recordGapObservation_eq]
    dsimp only at ho ⊢
    rw [hput]
    rcases mem_append.mp ho with ho | ho
    · rw [h.has o ho, Bool.or_true]
    · rw [mem_singleton.mp ho]
      simp
  · intro key
    rw [history_observe]
    split
    · next hsame =>
      subst hsame
      intro o ho o' ho'
      rcases mem_append.mp ho with ho | ho
      · rcases mem_append.mp ho' with ho' | ho'
        · exact h.identified _ o ho o' ho'
        · rw [mem_singleton.mp ho']
          exact hid o ho
      rw [mem_singleton.mp ho]
      rcases mem_append.mp ho' with ho' | ho'
      · have hold := hid o' ho'
        constructor
        · intro heq
          exact (hold.mp heq.symm).symm
        · intro heq
          exact (hold.mpr heq.symm).symm
      · rw [mem_singleton.mp ho']
        exact ⟨fun _ => rfl, fun _ => rfl⟩
    · exact h.identified key
  · intro g hg htrue
    rw [history_observe]
    rcases h.mem_rows_observe.mp hg with ⟨hne, hold⟩ | rfl
    · rw [if_neg (Ne.symm hne)]
      exact h.skipped g hold htrue
    · rw [hkey, if_pos rfl]
      exact confirmedAbsent_append _ (hskipped htrue)

end

/-! ## 7. Every step keeps it -/

theorem Attended.transfer (h : Attended docId c m device firstMissing)
    (hpoint : c'.pointAt m = c.pointAt m)
    (hhistory : c'.world.history (gapKey docId device firstMissing) =
      c.world.history (gapKey docId device firstMissing)) :
    Attended docId c' m device firstMissing := by
  rcases h with hmark | ⟨now, hcheck, hlast⟩
  · exact .inl (hpoint.trans hmark)
  refine .inr ⟨now, hpoint.trans hcheck, ?_⟩
  rw [hhistory]
  exact hlast

theorem Attended.checkedKey (h : Attended docId c m device firstMissing)
    (ht : c.pointAt m = some t) :
    t.checkedKey docId = some (gapKey docId device firstMissing) := by
  rcases h with hmark | ⟨now, hcheck, -⟩
  · rw [ht] at hmark
    cases hmark
    rfl
  rw [ht] at hcheck
  cases hcheck
  rfl

theorem history_congr (hobserved : w'.observed = w.observed) (key : String) :
    w'.history key = w.history key := by
  unfold history
  rw [hobserved]

theorem overdue_congr (hstore : w'.store = w.store) (hobserved : w'.observed = w.observed)
    (key : String) : w'.overdue key = w.overdue key := by
  unfold overdue
  rw [history_congr hobserved, hstore]

section

variable (h : GapInv docId c)
include h

theorem GapInv.move (hstore : c'.world.store = c.world.store)
    (hobserved : c'.world.observed = c.world.observed) (hn : c'.pointAt n = o.point)
    (hother : ∀ m, m ≠ n → c'.pointAt m = c.pointAt m)
    (hcheck : ∀ now device firstMissing, o = .at (.listDueGapRepairs now device firstMissing) →
      ∃ o ∈ c.world.history (gapKey docId device firstMissing), o.now = now)
    (hmark : ∀ device firstMissing, o = .at (.markGapSoftSkipped device firstMissing) →
      confirmedAbsent (c.world.history (gapKey docId device firstMissing)) = true)
    (hleft : ∀ g ∈ c.world.store.gapState.rows, c.world.overdue g.key = true →
      Attended docId c n g.device g.firstMissing → Attended docId c' n g.device g.firstMissing) :
    GapInv docId c' := by
  have hplace : ∀ t, c'.pointAt n = some t → o = .at t := by
    intro t ht
    rw [hn] at ht
    cases o with
    | «at» t' =>
      cases ht
      rfl
    | returned | failed => cases ht
  constructor
  · exact h.sound.congr hstore hobserved
  · intro g hg hover
    rw [hstore] at hg
    rw [overdue_congr hstore hobserved] at hover
    obtain ⟨m, hattended⟩ := h.attended g hg hover
    by_cases hmn : m = n
    · subst hmn
      exact ⟨m, hleft g hg hover hattended⟩
    · exact ⟨m, hattended.transfer (hother m hmn) (history_congr hobserved _)⟩
  · intro m now device firstMissing hpoint
    rw [history_congr hobserved]
    by_cases hmn : m = n
    · subst hmn
      exact hcheck now device firstMissing (hplace _ hpoint)
    · rw [hother m hmn] at hpoint
      exact h.checks m now device firstMissing hpoint
  · intro m device firstMissing hpoint
    rw [history_congr hobserved]
    by_cases hmn : m = n
    · subst hmn
      exact hmark device firstMissing (hplace _ hpoint)
    · rw [hother m hmn] at hpoint
      exact h.marks m device firstMissing hpoint

theorem GapInv.move_unchecked (ht : c.pointAt n = some t)
    (hfree : t.checkedKey docId = none) (hstore : c'.world.store = c.world.store)
    (hobserved : c'.world.observed = c.world.observed) (hn : c'.pointAt n = o.point)
    (hother : ∀ m, m ≠ n → c'.pointAt m = c.pointAt m) (ho : Unchecked o) : GapInv docId c' := by
  apply h.move hstore hobserved hn hother
  · rintro now device firstMissing rfl
    exact ho.elim
  · rintro device firstMissing rfl
    exact ho.elim
  intro g _ _ hattended
  have hkey := hattended.checkedKey ht
  rw [hfree] at hkey
  cases hkey

theorem GapInv.gate {env : Env}
    (ht : c.pointAt n = some (.listDueGapRepairs now device firstMissing))
    (hundisturbed : (env.failure.isNone ||
      !c.world.overdue (gapKey docId device firstMissing)) = true) (hworld : c'.world = c.world)
    (hnext : if gatePasses docId env c.world now device firstMissing then
        o = .at (.markGapSoftSkipped device firstMissing) else Unchecked o)
    (hn : c'.pointAt n = o.point) (hother : ∀ m, m ≠ n → c'.pointAt m = c.pointAt m) :
    GapInv docId c' := by
  have hobservation := h.checks n now device firstMissing ht
  apply h.move (congrArg store hworld) (congrArg observed hworld) hn hother
  · rintro now' device' firstMissing' rfl
    split at hnext
    · cases hnext
    · exact hnext.elim
  · rintro device' firstMissing' rfl
    split at hnext
    · next hpass =>
      cases hnext
      unfold gatePasses at hpass
      rw [Bool.and_eq_true] at hpass
      obtain ⟨g, hfind, hskips⟩ := (Option.any_eq_true _ _).mp hpass.2
      obtain ⟨hg, hdevice, hfirst⟩ := mem_of_findGap hfind
      have hkey := h.sound.key_eq hg
      rw [hdevice, hfirst] at hkey
      rw [← hkey] at hobservation ⊢
      exact (h.sound.recorded g hg).confirmed_of_skipsAt (h.sound.identified _) hobservation hskips
    · exact hnext.elim
  · rintro g hg hover (hmark | ⟨now', hcheck, hlast⟩)
    · rw [ht] at hmark
      cases hmark
    rw [ht] at hcheck
    cases hcheck
    have hkey := h.sound.key_eq hg
    rw [← hkey] at hobservation hlast hundisturbed
    rw [hover, Bool.not_true, Bool.or_false] at hundisturbed
    obtain ⟨hconfirmed, hopen⟩ := (overdue_iff hg).mp hover
    have hskips : g.skipsAt now = true :=
      ((h.sound.recorded g hg).skipsAt_iff (h.sound.identified _) hobservation hlast).mpr
        ⟨hopen, hconfirmed⟩
    have hpass : gatePasses docId env c.world now g.device g.firstMissing = true := by
      unfold gatePasses
      rw [hundisturbed, h.sound.findGap hg, Option.any_some, hskips]
      rfl
    rw [if_pos hpass] at hnext
    left
    rw [hn, hnext]
    rfl

omit h in
theorem Unchecked.point (ho : Unchecked o) (ht : o.point = some t) : Unchecked (.at t) := by
  cases o with
  | «at» t' =>
    cases ht
    exact ho
  | returned | failed => cases ht

theorem GapInv.skip (ht : c.pointAt n = some (.markGapSoftSkipped device firstMissing))
    (hworld : c'.world = c.world.softSkip docId device firstMissing) (ho : Unchecked o)
    (hn : c'.pointAt n = o.point) (hother : ∀ m, m ≠ n → c'.pointAt m = c.pointAt m) :
    GapInv docId c' := by
  have hconfirmed := h.marks n device firstMissing ht
  have hhistory : ∀ key, c'.world.history key = c.world.history key := by
    intro key
    rw [hworld]
    rfl
  constructor
  · rw [hworld]
    exact h.sound.softSkip hconfirmed
  · intro g hg hover
    obtain ⟨hgconfirmed, hopen⟩ := (overdue_iff hg).mp hover
    rw [hhistory] at hgconfirmed
    rw [hworld] at hg
    obtain ⟨g', hg', ⟨-, rfl⟩ | ⟨hne, rfl⟩⟩ := mem_rows_softSkip hg
    · cases hopen
    obtain ⟨m, hattended⟩ := h.attended g hg' ((overdue_iff hg').mpr ⟨hgconfirmed, hopen⟩)
    have hmn : m ≠ n := by
      rintro rfl
      have hkey := Option.some.inj (hattended.checkedKey ht)
      exact hne ((h.sound.key_eq hg').trans hkey.symm)
    exact ⟨m, hattended.transfer (hother m hmn) (hhistory _)⟩
  · intro m now device' firstMissing' hpoint
    rw [hhistory]
    by_cases hmn : m = n
    · subst hmn
      exact (ho.point (hn.symm.trans hpoint)).elim
    · rw [hother m hmn] at hpoint
      exact h.checks m now device' firstMissing' hpoint
  · intro m device' firstMissing' hpoint
    rw [hhistory]
    by_cases hmn : m = n
    · subst hmn
      exact (ho.point (hn.symm.trans hpoint)).elim
    · rw [hother m hmn] at hpoint
      exact h.marks m device' firstMissing' hpoint

theorem GapInv.observed (ht : c.pointAt n =
      some (.recordGapObservation receivedOn now epoch device firstMissing brokerMax))
    (hundisturbed : ((c.world.history (gapKey docId device firstMissing)).all fun o =>
      decide (o.connection = receivedOn ↔ o.epoch = epoch) && decide (o.now ≤ now)) = true)
    (hworld : c'.world = c.world.observe docId receivedOn now epoch device firstMissing brokerMax)
    (hn : c'.pointAt n = some (.listDueGapRepairs now device firstMissing))
    (hother : ∀ m, m ≠ n → c'.pointAt m = c.pointAt m) : GapInv docId c' := by
  have hall : ∀ o ∈ c.world.history (gapKey docId device firstMissing),
      (o.connection = receivedOn ↔ o.epoch = epoch) ∧ o.now ≤ now := by
    intro o ho
    have hone := all_eq_true.mp hundisturbed o ho
    rw [Bool.and_eq_true, decide_eq_true_eq, decide_eq_true_eq] at hone
    exact hone
  have hsound : c'.world.Sound docId := by
    rw [hworld]
    exact h.sound.observe fun o ho => (hall o ho).1
  have hhistory : ∀ key, c'.world.history key = if gapKey docId device firstMissing = key then
      c.world.history key ++ [⟨gapKey docId device firstMissing, receivedOn, epoch, now⟩]
      else c.world.history key := by
    intro key
    rw [hworld, history_observe]
  constructor
  · exact hsound
  · intro g hg hover
    by_cases hsame : gapKey docId device firstMissing = g.key
    · obtain ⟨hdevice, hfirst⟩ := gapKey_inj (hsame.trans (hsound.key_eq hg))
      refine ⟨n, .inr ⟨now, ?_, ?_⟩⟩
      · rw [hn, hdevice, hfirst]
      intro o ho
      rw [← hdevice, ← hfirst, hhistory, if_pos rfl] at ho
      rcases mem_append.mp ho with ho | ho
      · exact (hall o ho).2
      · rw [mem_singleton.mp ho]
    · obtain ⟨hconfirmed, hopen⟩ := (overdue_iff hg).mp hover
      rw [hhistory, if_neg hsame] at hconfirmed
      have hkey' := hsound.key_eq hg
      rw [hworld] at hg
      rcases h.sound.mem_rows_observe.mp hg with ⟨-, hold⟩ | rfl
      · obtain ⟨m, hattended⟩ := h.attended g hold ((overdue_iff hold).mpr ⟨hconfirmed, hopen⟩)
        have hmn : m ≠ n := by
          rintro rfl
          cases hattended.checkedKey ht
        refine ⟨m, hattended.transfer (hother m hmn) ?_⟩
        rw [hhistory, if_neg (hkey' ▸ hsame)]
      · exact absurd (@Sound.noted _ _ receivedOn _ _ _ _ _ h.sound).2.1.symm hsame
  · intro m now' device' firstMissing' hpoint
    rw [hhistory]
    by_cases hmn : m = n
    · subst hmn
      rw [hn] at hpoint
      cases hpoint
      rw [if_pos rfl]
      exact ⟨_, mem_append_right _ (mem_singleton_self _), rfl⟩
    rw [hother m hmn] at hpoint
    obtain ⟨o, ho, hnow⟩ := h.checks m now' device' firstMissing' hpoint
    refine ⟨o, ?_, hnow⟩
    split
    · exact mem_append_left _ ho
    · exact ho
  · intro m device' firstMissing' hpoint
    rw [hhistory]
    have hmn : m ≠ n := by
      rintro rfl
      rw [hn] at hpoint
      cases hpoint
    rw [hother m hmn] at hpoint
    have hold := h.marks m device' firstMissing' hpoint
    split
    · exact confirmedAbsent_append _ hold
    · exact hold

theorem GapInv.portStep {op : NeutralOp} (ht : c.pointAt n = some (.port op))
    (hundisturbed : ((checkedKeys docId c).all fun key =>
      !c.world.store.gapState.has key || (c.world.store.perform L op.1).2.gapState.has key) = true)
    (hworld : c'.world = c.world.setStore (c.world.store.perform L op.1).2) (ho : Unchecked o)
    (hn : c'.pointAt n = o.point) (hother : ∀ m, m ≠ n → c'.pointAt m = c.pointAt m) :
    GapInv docId c' := by
  have hframe := gapFrame_perform (s := c.world.store) L op.2
  have hgate : ∀ m t, c'.pointAt m = some t → ∀ key, t.checkedKey docId = some key →
      c.pointAt m = some t ∧ (c.world.history key ≠ [] →
        c'.world.history key = c.world.history key) := by
    intro m t hpoint key hkey
    have hmn : m ≠ n := by
      rintro rfl
      rw [hn] at hpoint
      have hunchecked := ho.point hpoint
      cases t with
      | listDueGapRepairs now device firstMissing | markGapSoftSkipped device firstMissing =>
        exact hunchecked.elim
      | _ => cases hkey
    rw [hother m hmn] at hpoint
    refine ⟨hpoint, fun hne => ?_⟩
    obtain ⟨obs, hobs⟩ := exists_mem_of_ne_nil _ hne
    obtain ⟨hmem, hobskey⟩ := mem_filter.mp hobs
    have hhas := h.sound.has obs hmem
    rw [of_decide_eq_true hobskey] at hhas
    have hkept := all_eq_true.mp hundisturbed key (mem_checkedKeys hpoint hkey)
    rw [hhas, Bool.not_true, Bool.false_or] at hkept
    rw [hworld, history_setStore, if_pos hkept]
  constructor
  · rw [hworld]
    exact h.sound.setStore hframe
  · intro g hg hover
    obtain ⟨hconfirmed, hopen⟩ := (overdue_iff hg).mp hover
    rw [hworld] at hg hconfirmed
    obtain ⟨g', hg', hkey, hsame, hdevice, hfirst, hhistory, -⟩ :=
      h.sound.recorded_setStore hframe hg
    rw [hhistory] at hconfirmed
    obtain ⟨m, hattended⟩ :=
      h.attended g' hg' ((overdue_iff hg').mpr ⟨hconfirmed, hsame.trans hopen⟩)
    have hmn : m ≠ n := by
      rintro rfl
      cases hattended.checkedKey ht
    rw [hdevice, hfirst] at hattended
    refine ⟨m, hattended.transfer (hother m hmn) ?_⟩
    have hgkey : gapKey docId g.device g.firstMissing = g'.key := by
      rw [h.sound.key_eq hg', hdevice, hfirst]
    rw [hworld, hgkey, ← hhistory, hkey]
  · intro m now device firstMissing hpoint
    obtain ⟨hold, hsame⟩ := hgate m _ hpoint _ rfl
    obtain ⟨obs, hobs, hnow⟩ := h.checks m now device firstMissing hold
    rw [hsame (ne_nil_of_mem hobs)]
    exact ⟨obs, hobs, hnow⟩
  · intro m device firstMissing hpoint
    obtain ⟨hold, hsame⟩ := hgate m _ hpoint _ rfl
    have hconfirmed := h.marks m device firstMissing hold
    have hne : c.world.history (gapKey docId device firstMissing) ≠ [] := by
      intro hnil
      rw [hnil] at hconfirmed
      exact absurd hconfirmed (by decide)
    rw [hsame hne]
    exact hconfirmed

omit h in
theorem gapInv_start : GapInv docId { world := .fresh, procs := [] } := by
  constructor
  · constructor
    · intro g hg
      cases hg
    · intro o ho
      cases ho
    · intro key o ho
      cases ho
    · intro g hg
      cases hg
  · intro g hg
    cases hg
  · intro m now device firstMissing hpoint
    cases hpoint
  · intro m device firstMissing hpoint
    cases hpoint

theorem GapInv.step
    (hreach : Reachable (gapSystem L docId) (fun c a => steadyGate L docId c a = true) .fresh c)
    {a : Action Env GapCall} (ha : steadyGate L docId c a = true)
    (hs : c.step (gapSystem L docId) a = some c') : GapInv docId c' := by
  cases a with
  | call k =>
    obtain ⟨hworld, hother, hlast⟩ := Config.flow_call hs
    have hplace : ((gapSystem L docId).call k).place.point = c'.pointAt c.procs.length := by
      rw [point_place, hlast]
    apply h.move (congrArg GapWorld.store hworld) (congrArg GapWorld.observed hworld) hplace.symm
      hother
    · intro now device firstMissing hat
      have hfree := point_gapSystem L docId k _ (point_place _)
      rw [hat] at hfree
      exact hfree.elim
    · intro device firstMissing hat
      have hfree := point_gapSystem L docId k _ (point_place _)
      rw [hat] at hfree
      exact hfree.elim
    · rintro g - - (hmark | ⟨now, hcheck, -⟩)
      · rw [c.pointAt_length] at hmark
        cases hmark
      · rw [c.pointAt_length] at hcheck
        cases hcheck
  | run n env =>
    obtain ⟨t, o, ht, -, hworld, hnext, hn, hother⟩ :=
      hreach.flow_run (follows_gapSystem L docId) hs
    simp only [steadyGate, ht] at ha
    cases t with
    | recordGapObservation receivedOn now epoch device firstMissing brokerMax =>
      simp only [gapFlow, Env.storeCall] at hworld hnext
      cases hfail : env.failure with
      | some text =>
        rw [hfail] at hworld hnext
        exact h.move_unchecked ht rfl (congrArg GapWorld.store hworld)
          (congrArg GapWorld.observed hworld) hn hother hnext
      | none =>
        rw [hfail] at hworld hnext ha
        rw [if_pos rfl] at hnext
        subst hnext
        exact h.observed ht ha hworld hn hother
    | listDueGapRepairs now device firstMissing =>
      exact h.gate ht ha hworld hnext hn hother
    | markGapSoftSkipped device firstMissing =>
      simp only [gapFlow, Env.storeCall] at hworld hnext
      cases hfail : env.failure with
      | some text =>
        -- the hole was not overdue
        rw [hfail] at hworld ha
        apply h.move (congrArg GapWorld.store hworld) (congrArg GapWorld.observed hworld) hn hother
        · rintro now' device' firstMissing' rfl
          exact hnext.elim
        · rintro device' firstMissing' rfl
          exact hnext.elim
        rintro g hg hover (hmark | ⟨now', hcheck, -⟩)
        · rw [ht] at hmark
          cases hmark
          change (!c.world.overdue (gapKey docId g.device g.firstMissing)) = true at ha
          rw [← h.sound.key_eq hg, hover] at ha
          cases ha
        · rw [ht] at hcheck
          cases hcheck
      | none =>
        rw [hfail] at hworld
        exact h.skip ht hworld hnext hn hother
    | port op =>
      simp only [gapFlow, Env.storeCall] at hworld hnext
      rcases hfail : env.failure with _ | text
      · rw [hfail] at hworld
        exact h.portStep L ht ha hworld hnext hn hother
      rw [hfail] at hworld
      exact h.move_unchecked ht rfl (congrArg GapWorld.store hworld)
        (congrArg GapWorld.observed hworld) hn hother hnext
    | connect | resetForReconnect =>
      have hstore : c'.world.store = c.world.store := by
        rw [hworld]
        rfl
      have hobserved : c'.world.observed = c.world.observed := by
        rw [hworld]
        rfl
      exact h.move_unchecked ht rfl hstore hobserved hn hother hnext
    | syncResponse | getKnownHeads receivedOn
    | connectionEpoch receivedOn now device firstMissing brokerMax =>
      exact h.move_unchecked ht rfl (congrArg GapWorld.store hworld)
        (congrArg GapWorld.observed hworld) hn hother hnext
  | crash n => cases ha
  | restart =>
    cases hs
    constructor
    · exact h.sound.congr rfl rfl
    · intro g hg hover
      have hnot := all_eq_true.mp ha g hg
      rw [← overdue_congr (w := c.world) rfl rfl] at hnot
      rw [Bool.not_eq_true'] at hnot
      exact absurd hover (by rw [Bool.not_eq_true]; exact hnot)
    · intro m now device firstMissing hpoint
      cases hpoint
    · intro m device firstMissing hpoint
      cases hpoint

end

section

variable (h : Reachable (gapSystem L docId) (fun c a => steadyGate L docId c a = true) .fresh c)
include h

theorem gapInv_reachable : GapInv docId c := by
  induction h with
  | start => exact gapInv_start
  | step hreach ha hs ih => exact ih.step L hreach ha hs

/-! ## 8. The gate -/

/-- **A hole is skipped when it is due, and not before.**  In every undisturbed run, over
    any number of reconnects and restarts: a hole that is soft-skipped was confirmed absent
    on three connections and for a minute, and a hole that was is skipped, unless the
    program that made one of its observations is still at the gate. -/
theorem soft_skip_gate {g : GapRepair} (hg : g ∈ c.world.store.gapState.rows) :
    (g.softSkipped = true → confirmedAbsent (c.world.history g.key) = true) ∧
      (confirmedAbsent (c.world.history g.key) = true →
        g.softSkipped = true ∨ g.key ∈ checkedKeys docId c) := by
  have hinv := gapInv_reachable L h
  constructor
  · exact hinv.sound.skipped g hg
  · intro hconfirmed
    cases hskipped : g.softSkipped with
    | true => exact .inl rfl
    | false =>
      right
      obtain ⟨m, hmark | ⟨now, hcheck, -⟩⟩ :=
        hinv.attended g hg ((overdue_iff hg).mpr ⟨hconfirmed, hskipped⟩)
      · apply mem_checkedKeys hmark
        rw [hinv.sound.key_eq hg]
        rfl
      apply mem_checkedKeys hcheck
      rw [hinv.sound.key_eq hg]
      rfl

end

end

/-- One connection: its page confirms that seq 1 of the device is missing, at a time. -/
def observeOnce (n now : Nat) : List (Action Env GapCall) :=
  [.call (.page [("dev", 3)] (fun _ => some 3) fun _ => some 0), .run n ⟨none, now, ""⟩,
    .run n ⟨none, now, ""⟩, .run n ⟨none, now, ""⟩, .run n ⟨none, now, ""⟩,
    .run n ⟨none, now, ""⟩]

def applyFirst : List (Action Env GapCall) :=
  [.call (.port ⟨.recordRemoteApplied ⟨"doc", "dev", 0, none⟩ 0, rfl⟩), .run 0 ⟨none, 0, ""⟩]

def reconnect (n : Nat) : List (Action Env GapCall) :=
  [.call .connect, .run n ⟨none, 0, ""⟩, .call .resetForReconnect, .run (n + 1) ⟨none, 0, ""⟩]

/-- The hole after seq 0 is there, has been confirmed absent, is skipped or not, and is
    not at the gate. -/
def gapSkipped (skipped : Bool) (c : GapConfig) : Bool :=
  (c.world.store.gapState.get? (gapKey "doc" "dev" 1)).any fun g =>
    decide (g.softSkipped = skipped) && confirmedAbsent (c.world.history g.key) &&
      !(checkedKeys "doc" c).contains g.key

theorem soft_skip_gate_reconnects : ∃ c,
    Reachable (gapSystem .inOrder "doc") (fun c a => steadyGate .inOrder "doc" c a = true)
      .fresh c ∧
    ∃ g ∈ c.world.store.gapState.rows, g.softSkipped = true ∧
      confirmedAbsent (c.world.history g.key) = true := by
  obtain ⟨c, hreach, hc⟩ := Reachable.of_exec (gapSystem .inOrder "doc")
    (fun c a => steadyGate .inOrder "doc" c a = true) .fresh
    (flatten [applyFirst, observeOnce 1 0, reconnect 2, observeOnce 4 40000, reconnect 5,
      observeOnce 7 70000, [.run 7 ⟨none, 70000, ""⟩]])
    (gapSkipped true) (by decide +kernel)
  obtain ⟨g, hget, hg⟩ := (Option.any_eq_true _ _).mp hc
  simp only [Bool.and_eq_true, decide_eq_true_eq] at hg
  have hmem := mem_of_get? hget
  exact ⟨c, hreach, g, hmem, hg.1.1, (soft_skip_gate .inOrder hreach hmem).1 hg.1.1⟩

/-- **Three processes with one connection each**: all of them count as epoch zero, so the
    hole is confirmed absent on three connections and for a minute, and never skipped. -/
theorem restarts_hide_connections : ¬ ∀ (L : Listing) (docId : DocId) (c : GapConfig),
    Reachable (gapSystem L docId) (fun c a => ofOneProcess c a = true) .fresh c →
      ∀ g ∈ c.world.store.gapState.rows,
        (g.softSkipped = true → confirmedAbsent (c.world.history g.key) = true) ∧
          (confirmedAbsent (c.world.history g.key) = true →
            g.softSkipped = true ∨ g.key ∈ checkedKeys docId c) := by
  intro hall
  obtain ⟨c, hreach, hc⟩ := Reachable.of_exec (gapSystem .inOrder "doc")
    (fun c a => ofOneProcess c a = true) .fresh
    (flatten [applyFirst, [.restart], observeOnce 0 0, [.restart], observeOnce 0 40000,
      [.restart], observeOnce 0 70000])
    (gapSkipped false) (by decide +kernel)
  obtain ⟨g, hget, hg⟩ := (Option.any_eq_true _ _).mp hc
  simp only [Bool.and_eq_true, decide_eq_true_eq] at hg
  rcases (hall .inOrder "doc" c hreach g (mem_of_get? hget)).2 hg.1.2 with hskip | hgate
  · rw [hg.1.1] at hskip
    cases hskip
  · rw [contains_iff_mem.mpr hgate] at hg
    cases hg.2

end WebOfTrust
