/-
  **The document of a space, on many replicas** (`YjsReplicationAdapter.ts`).

  Membership events, admin entries and app data are keys of root maps, which every replica has.
  The activity map is a child of `data`, and a replica that does not know of one creates it:
  where two replicas do so, one map is kept, and the entries of the other are lost with it.
-/
import WebOfTrust.MembershipEvents
import WebOfTrust.Machine
import Mathlib.Data.Finset.Max

namespace WebOfTrust

/-! ## 1. Operations on maps -/

inductive RootMap where
  | membersMap
  | adminsMap
  | metaMap
  | data
deriving DecidableEq

/-- A root map, or the map that the operation of this number has set. -/
inductive YMapId where
  | root (name : RootMap)
  | child (op : Nat)
deriving DecidableEq

inductive YKey where
  | event (key : MembershipEventKey)
  | did (did : Did)
  | text (key : String)
deriving DecidableEq

structure AdminEntry where
  did : Did
  addedBy : Option Did
deriving DecidableEq

/-- `deleted` is what `delete` leaves behind. -/
inductive YValue (V : Type) where
  | event (event : MembershipEvent)
  | admin (entry : AdminEntry)
  | json (value : V)
  | ymap
  | deleted
deriving DecidableEq

structure YOp (V : Type) where
  map : YMapId
  key : YKey
  value : YValue V
deriving DecidableEq

/-- What Yjs keeps of the operations on one key: exactly one of them, whatever the order in
    which they have come. -/
structure YMerge where
  keep : Finset Nat → Option Nat
  keep_mem : ∀ ops, ∀ n ∈ keep ops, n ∈ ops
  keep_some : ∀ ops, ops.Nonempty → (keep ops).isSome

theorem YMerge.keep_eq (y : YMerge) {ops : Finset Nat} {n : Nat} (hn : n ∈ ops)
    (honly : ∀ m ∈ ops, m = n) : y.keep ops = some n := by
  obtain ⟨m, hm⟩ := Option.isSome_iff_exists.mp (y.keep_some ops ⟨n, hn⟩)
  rw [hm, honly m (y.keep_mem ops m hm)]

/-! ## 2. Replicas -/

variable {V : Type}

/-- All operations, in some order, and those that each replica knows. -/
structure SpaceDocs (V : Type) where
  ops : List (YOp V)
  known : Nat → Finset Nat

/-- The fields of an `activityEntry`. -/
structure ActivityItem (V : Type) where
  id : String
  value : V

structure SpaceDocMeta (V : Type) where
  name : Option V
  description : Option V
  image : Option V
  modules : Option V
  /-- A value of `none` deletes its key. -/
  appData : List (String × Option V)

def APP_DATA_PREFIX : String := "appData:"

namespace SpaceDocs

def start : SpaceDocs V := ⟨[], fun _ => ∅⟩

section

variable (y : YMerge) (w : SpaceDocs V) (r : Nat)

/-- What is kept under a key, for a replica. -/
def get (map : YMapId) (key : YKey) : Option (Nat × YValue V) :=
  (y.keep ((w.known r).filter fun n =>
    (w.ops[n]?.any fun op => decide (op.map = map ∧ op.key = key)) = true)).bind fun n =>
      w.ops[n]?.map fun op => (n, op.value)

def has [DecidableEq V] (map : YMapId) (key : YKey) : Bool :=
  (w.get y r map key).any fun kept => decide (kept.2 ≠ .deleted)

def learn (n : Nat) : Nat → Finset Nat := Function.update w.known r (insert n (w.known r))

/-- A local `set` or `delete`. -/
def set (map : YMapId) (key : YKey) (value : YValue V) : SpaceDocs V :=
  ⟨w.ops ++ [⟨map, key, value⟩], w.learn r w.ops.length⟩

def activityMap : Option Nat :=
  match w.get y r (.root .data) (.text "activity") with
  | some (n, .ymap) => some n
  | _ => none

def writeActivityEntry (entry : ActivityItem V) : SpaceDocs V :=
  match w.activityMap y r with
  | some activity => w.set r (.child activity) (.text entry.id) (.json entry.value)
  | none =>
    (w.set r (.root .data) (.text "activity") .ymap).set r (.child w.ops.length) (.text entry.id)
      (.json entry.value)

def writeMembershipEvent [DecidableEq V] (event : MembershipEvent)
    (activityEntry : Option (ActivityItem V)) : SpaceDocs V :=
  if w.has y r (.root .membersMap) (.event event.key) then w
  else
    let w := w.set r (.root .membersMap) (.event event.key) (.event event)
    match activityEntry with
    | some entry => w.writeActivityEntry y r entry
    | none => w

def writeAdminEntry [DecidableEq V] (entry : AdminEntry) : SpaceDocs V :=
  if w.has y r (.root .adminsMap) (.did entry.did) then w
  else w.set r (.root .adminsMap) (.did entry.did) (.admin entry)

def setField (key : String) : Option V → SpaceDocs V
  | some value => w.set r (.root .metaMap) (.text key) (.json value)
  | none => w

def setAppData (field : String × Option V) : SpaceDocs V :=
  w.set r (.root .metaMap) (.text (APP_DATA_PREFIX ++ field.1)) (field.2.elim .deleted .json)

def updateSpace (docMeta : SpaceDocMeta V) : SpaceDocs V :=
  let w := w.setField r "name" docMeta.name
  let w := w.setField r "description" docMeta.description
  let w := w.setField r "image" docMeta.image
  let w := w.setField r "modules" docMeta.modules
  docMeta.appData.foldl (fun w field => w.setAppData r field) w

end

inductive Input (V : Type) where
  | membership (r : Nat) (event : MembershipEvent) (activityEntry : Option (ActivityItem V))
  | admin (r : Nat) (entry : AdminEntry)
  | activity (r : Nat) (entry : ActivityItem V)
  | update (r : Nat) (docMeta : SpaceDocMeta V)
  /-- An operation arrives, in any order and any number of times. -/
  | receive (r n : Nat)

def step [DecidableEq V] (y : YMerge) (w : SpaceDocs V) : Input V → Option (SpaceDocs V)
  | .membership r event activityEntry => some (w.writeMembershipEvent y r event activityEntry)
  | .admin r entry => some (w.writeAdminEntry y r entry)
  | .activity r entry => some (w.writeActivityEntry y r entry)
  | .update r docMeta => some (w.updateSpace r docMeta)
  | .receive r n =>
    if n < w.ops.length then some { w with known := w.learn r n } else none

/-- The replica knows every activity map that anyone has created. -/
def activityKnown (w : SpaceDocs V) (r : Nat) : Bool :=
  (List.range w.ops.length).all fun n => decide (n ∈ w.known r) ||
    !w.ops[n]?.any fun op => decide (op.map = .root .data ∧ op.key = .text "activity")

def Known (w : SpaceDocs V) : Input V → Prop
  | .membership r _ (some _) | .activity r _ => w.activityKnown r = true
  | _ => True

instance (w : SpaceDocs V) : ∀ i, Decidable (w.Known i)
  | .membership _ _ (some _) | .activity _ _ => inferInstanceAs (Decidable (_ = true))
  | .membership _ _ none | .admin _ _ | .update _ _ | .receive _ _ => isTrue trivial

/-- An entry of the document: a key of a root map, or an id in the activity map. -/
inductive Entry where
  | root (name : RootMap) (key : YKey)
  | activity (id : YKey)
deriving DecidableEq

end SpaceDocs

def YOp.entry (op : YOp V) : SpaceDocs.Entry :=
  match op.map with
  | .root name => .root name op.key
  | .child _ => .activity op.key

def SpaceDocs.read (y : YMerge) (w : SpaceDocs V) (r : Nat) : SpaceDocs.Entry → Option (YValue V)
  | .root name key => (w.get y r (.root name) key).map (·.2)
  | .activity id => (w.activityMap y r).bind fun activity =>
    (w.get y r (.child activity) id).map (·.2)

/-! ## 3. One activity map -/

namespace SpaceDocs

variable {y : YMerge} {w w' : SpaceDocs V} {r r' n m : Nat} {op : YOp V}
  {map : YMapId} {key : YKey} {value : YValue V}

def ActivityOp (w : SpaceDocs V) (n : Nat) : Prop :=
  w.ops[n]? = some ⟨.root .data, .text "activity", .ymap⟩

/-- Nobody knows what does not exist; there is one activity map, and no other child. -/
structure OneActivity (w : SpaceDocs V) : Prop where
  bounded : ∀ r, ∀ n ∈ w.known r, n < w.ops.length
  isMap : ∀ (n : Nat) op, w.ops[n]? = some op → op.map = .root .data → op.key = .text "activity" →
    w.ActivityOp n
  unique : ∀ m n, w.ActivityOp m → w.ActivityOp n → m = n
  child : ∀ (n : Nat) op k, w.ops[n]? = some op → op.map = .child k → w.ActivityOp k

theorem getElem?_set : (w.set r map key value).ops[n]? = some op ↔
    w.ops[n]? = some op ∨ n = w.ops.length ∧ op = ⟨map, key, value⟩ := by
  rw [set, List.getElem?_append]
  split
  · next h => simp [Nat.ne_of_lt h]
  next h =>
  have hlen := Nat.not_lt.mp h
  rw [List.getElem?_eq_none hlen]
  rcases Nat.eq_or_lt_of_le hlen with heq | hlt
  · simp [heq, eq_comm]
  · rw [List.getElem?_eq_none (by simp; omega)]
    simp [Nat.ne_of_gt hlt]

theorem mem_learn : m ∈ w.learn r n r' ↔ m ∈ w.known r' ∨ m = n ∧ r' = r := by
  by_cases hr : r' = r
  · subst hr
    simp [learn, or_comm]
  · simp [learn, hr]

theorem get_eq (hn : n ∈ w.known r) (hop : w.ops[n]? = some op)
    (honly : ∀ (m : Nat) op', w.ops[m]? = some op' → op'.map = op.map → op'.key = op.key → m = n) :
    w.get y r op.map op.key = some (n, op.value) := by
  have hmem : n ∈ (w.known r).filter fun n =>
      (w.ops[n]?.any fun other => decide (other.map = op.map ∧ other.key = op.key)) = true :=
    Finset.mem_filter.mpr ⟨hn, by simp [hop]⟩
  rw [get, y.keep_eq hmem, Option.bind_some, hop, Option.map_some]
  intro m hm
  cases hop' : w.ops[m]? with
  | none => simp [hop'] at hm
  | some op' =>
    simp only [Finset.mem_filter, hop', Option.any_some, decide_eq_true_eq] at hm
    exact honly m op' hop' hm.2.1 hm.2.2

theorem of_activityMap (h : OneActivity w) (hn : w.activityMap y r = some n) :
    n ∈ w.known r ∧ w.ActivityOp n := by
  unfold activityMap get at hn
  split at hn
  · next hget =>
    cases hn
    obtain ⟨m, hm, hkept⟩ := Option.bind_eq_some_iff.mp hget
    obtain ⟨op, hop, heq⟩ := Option.map_eq_some_iff.mp hkept
    obtain ⟨rfl, -⟩ := Prod.mk.inj heq
    obtain ⟨hknown, hkey⟩ := Finset.mem_filter.mp (y.keep_mem _ _ hm)
    rw [hop, Option.any_some, decide_eq_true_eq] at hkey
    exact ⟨hknown, h.isMap m op hop hkey.1 hkey.2⟩
  · cases hn

namespace OneActivity

variable (h : OneActivity w)
include h

theorem activityMap_eq (hn : n ∈ w.known r) (hop : w.ActivityOp n) :
    w.activityMap y r = some n := by
  have hget := get_eq (y := y) hn hop fun m op' hop' hmap hkey =>
    h.unique m n (h.isMap m op' hop' hmap hkey) hop
  simp only at hget
  rw [activityMap, hget]

omit h in
theorem known_of (hknown : w.activityKnown r = true) (hn : w.ActivityOp n) : n ∈ w.known r := by
  have hlt := (List.getElem?_eq_some_iff.mp hn).1
  have hn' := List.all_eq_true.mp hknown n (List.mem_range.mpr hlt)
  unfold ActivityOp at hn
  simpa [hn] using hn'

/-- **One operation**: the activity map where there is none, or a key of something else. -/
theorem set (hchild : ∀ k, map = .child k → w.ActivityOp k)
    (hactivity : map = .root .data → key = .text "activity" →
      value = .ymap ∧ ∀ n, ¬w.ActivityOp n) : OneActivity (w.set r map key value) := by
  have hold : ∀ n, w.ActivityOp n → (w.set r map key value).ActivityOp n :=
    fun n hn => getElem?_set.mpr (.inl hn)
  have hnew : ∀ n, (w.set r map key value).ActivityOp n → w.ActivityOp n ∨
      n = w.ops.length ∧ ∀ m, ¬w.ActivityOp m := by
    intro n hn
    refine (getElem?_set.mp hn).imp id fun ⟨hlen, heq⟩ => ⟨hlen, ?_⟩
    cases heq
    exact (hactivity rfl rfl).2
  constructor
  · intro r' n hn
    have hlen : (w.set r map key value).ops.length = w.ops.length + 1 := by simp [SpaceDocs.set]
    rw [hlen]
    rcases mem_learn.mp hn with hn | ⟨rfl, -⟩
    · exact Nat.lt_succ_of_lt (h.bounded _ _ hn)
    · exact Nat.lt_succ_self _
  · intro n op hop hmap hkey
    rcases getElem?_set.mp hop with hop' | ⟨-, rfl⟩
    · exact hold n (h.isMap n op hop' hmap hkey)
    cases hmap
    cases hkey
    cases (hactivity rfl rfl).1
    exact hop
  · intro m n hm hn
    rcases hnew m hm with hm | ⟨rfl, hnone⟩ <;> rcases hnew n hn with hn | ⟨rfl, hnone'⟩
    · exact h.unique m n hm hn
    · exact absurd hm (hnone' m)
    · exact absurd hn (hnone n)
    · rfl
  · intro n op k hop hmap
    rcases getElem?_set.mp hop with hop' | ⟨-, rfl⟩
    · exact hold k (h.child n op k hop' hmap)
    · exact hold k (hchild k hmap)

theorem set_root {name : RootMap} (hname : name ≠ .data) :
    OneActivity (w.set r (.root name) key value) :=
  h.set nofun fun heq => absurd (YMapId.root.inj heq) hname

theorem writeActivityEntry (hknown : ∀ n, w.ActivityOp n → n ∈ w.known r)
    (entry : ActivityItem V) : OneActivity (w.writeActivityEntry y r entry) := by
  unfold SpaceDocs.writeActivityEntry
  cases hactivity : w.activityMap y r with
  | some n =>
    refine h.set (fun k hk => ?_) nofun
    cases hk
    exact (of_activityMap h hactivity).2
  | none =>
    have hnone : ∀ n, ¬w.ActivityOp n := by
      intro n hn
      rw [h.activityMap_eq (hknown n hn) hn] at hactivity
      cases hactivity
    have hset : OneActivity (w.set r (.root .data) (.text "activity") .ymap) :=
      h.set nofun fun _ _ => ⟨rfl, hnone⟩
    refine hset.set (fun k hk => ?_) nofun
    cases hk
    exact getElem?_set.mpr (.inr ⟨rfl, rfl⟩)

theorem step [DecidableEq V] {i : Input V} (hknown : w.Known i) (hs : w.step y i = some w') :
    OneActivity w' := by
  cases i with
  | membership r event activityEntry =>
    cases hs
    unfold writeMembershipEvent
    split
    · exact h
    rcases activityEntry with _ | entry
    · exact h.set_root (by decide)
    have hset : OneActivity (w.set r (.root .membersMap) (.event event.key) (.event event)) :=
      h.set_root (by decide)
    refine hset.writeActivityEntry (fun n hn => ?_) entry
    rcases getElem?_set.mp hn with hn | ⟨-, heq⟩
    · exact mem_learn.mpr (.inl (known_of hknown hn))
    · cases heq
  | admin r entry =>
    cases hs
    unfold writeAdminEntry
    split
    · exact h
    · exact h.set_root (by decide)
  | activity r entry =>
    cases hs
    exact h.writeActivityEntry (fun n hn => known_of hknown hn) entry
  | update r docMeta =>
    cases hs
    have hfield : ∀ {w : SpaceDocs V} key value, OneActivity w →
        OneActivity (w.setField r key value) := by
      intro w key value h
      cases value with
      | none => exact h
      | some value => exact h.set_root (by decide)
    have hfields : ∀ (fields : List (String × Option V)) (w : SpaceDocs V), OneActivity w →
        OneActivity (fields.foldl (fun w field => w.setAppData r field) w) := by
      intro fields
      induction fields with
      | nil => exact fun _ h => h
      | cons field rest ih => exact fun w h => ih _ (h.set_root (by decide))
    exact hfields _ _ (hfield _ _ (hfield _ _ (hfield _ _ (hfield _ _ h))))
  | receive r n =>
    simp only [SpaceDocs.step] at hs
    split at hs
    · next hlt =>
      cases hs
      refine ⟨fun r' m hm => ?_, h.isMap, h.unique, h.child⟩
      rcases mem_learn.mp hm with hm | ⟨rfl, -⟩
      · exact h.bounded _ _ hm
      · exact hlt
    · cases hs

end OneActivity

/-! ## 4. After the exchange -/

/-- **Independent additions survive**, in every run in which a replica writes to the activity map
    only when it knows every one that exists: whoever knows all operations reads what was written
    for an entry with one writer. -/
theorem additions_survive [DecidableEq V] {y : YMerge} {w : SpaceDocs V}
    (h : Machine.Reaches (step y) Known start w) {r n : Nat} {op : YOp V}
    (hall : ∀ n < w.ops.length, n ∈ w.known r) (hop : w.ops[n]? = some op)
    (hdistinct : ∀ (m : Nat) op', w.ops[m]? = some op' → op'.entry = op.entry → m = n) :
    w.read y r op.entry = some op.value := by
  have hone : OneActivity w := by
    refine h.invariant ?_ fun _ _ _ hone hknown hs => hone.step hknown hs
    constructor <;> simp [start, ActivityOp]
  have hknown : ∀ {n op}, w.ops[n]? = some op → n ∈ w.known r :=
    fun hop => hall _ (List.getElem?_eq_some_iff.mp hop).1
  have hget : w.get y r op.map op.key = some (n, op.value) := by
    refine get_eq (hknown hop) hop fun m op' hop' hmap hkey => hdistinct m op' hop' ?_
    rw [YOp.entry, YOp.entry, hmap, hkey]
  unfold YOp.entry
  cases hmap : op.map with
  | root name =>
    rw [hmap] at hget
    simp [read, hget]
  | child activity =>
    have hactivity := hone.child n op activity hop hmap
    rw [hmap] at hget
    simp [read, hone.activityMap_eq (y := y) (hknown hactivity) hactivity, hget]

def keepLast : YMerge where
  keep ops := if h : ops.Nonempty then some (ops.max' h) else none
  keep_mem ops n hn := by
    split at hn
    · cases hn
      exact ops.max'_mem _
    · cases hn
  keep_some ops h := by simp [h]

theorem additions_survive_received :
    ∃ w : SpaceDocs Nat, w.read keepLast 0 (.activity (.text "b")) = some (.json 2) := by
  obtain ⟨w, hreach, htest⟩ := Machine.Reaches.of_exec (step keepLast) Known start
    [.activity 0 ⟨"a", 1⟩, .receive 1 0, .receive 1 1, .activity 1 ⟨"b", 2⟩, .receive 0 2]
    (fun w : SpaceDocs Nat => decide (w.ops = [⟨.root .data, .text "activity", .ymap⟩,
      ⟨.child 0, .text "a", .json 1⟩, ⟨.child 0, .text "b", .json 2⟩]) &&
      (List.range w.ops.length).all fun n => decide (n ∈ w.known 0)) (by decide +kernel)
  obtain ⟨hops, hknown⟩ := Bool.and_eq_true_iff.mp htest
  replace hops := of_decide_eq_true hops
  have hop : w.ops[2]? = some ⟨.child 0, .text "b", .json 2⟩ := by rw [hops]; rfl
  refine ⟨w, additions_survive hreach (fun n hn => ?_) hop fun m op hop heq => ?_⟩
  · exact of_decide_eq_true (List.all_eq_true.mp hknown n (List.mem_range.mpr hn))
  · rw [hops] at hop
    rcases m with _ | _ | _ | m <;> cases hop <;> first | rfl | simp [YOp.entry] at heq

/-- **Both create the activity map**: one of the entries is lost. -/
theorem first_activity_lost :
    ¬ ∀ (y : YMerge) (w : SpaceDocs Nat), Machine.Reaches (step y) (fun _ _ => True) start w →
      ∀ (r n : Nat) op, (∀ n < w.ops.length, n ∈ w.known r) → w.ops[n]? = some op →
        (∀ (m : Nat) op', w.ops[m]? = some op' → op'.entry = op.entry → m = n) →
        w.read y r op.entry = some op.value := by
  intro h
  obtain ⟨w, hreach, htest⟩ := Machine.Reaches.of_exec (step keepLast) (fun _ _ => True) start
    [.activity 0 ⟨"a", 1⟩, .activity 1 ⟨"b", 2⟩, .receive 0 2, .receive 0 3]
    (fun w : SpaceDocs Nat => decide (w.ops = [⟨.root .data, .text "activity", .ymap⟩,
      ⟨.child 0, .text "a", .json 1⟩, ⟨.root .data, .text "activity", .ymap⟩,
      ⟨.child 2, .text "b", .json 2⟩] ∧ w.read keepLast 0 (.activity (.text "a")) = none) &&
      (List.range w.ops.length).all fun n => decide (n ∈ w.known 0)) (by decide +kernel)
  obtain ⟨hops, hknown⟩ := Bool.and_eq_true_iff.mp htest
  obtain ⟨hops, hlost⟩ := of_decide_eq_true hops
  have hread := h keepLast w hreach 0 1 ⟨.child 0, .text "a", .json 1⟩
    (fun n hn => of_decide_eq_true (List.all_eq_true.mp hknown n (List.mem_range.mpr hn)))
    (by rw [hops]; rfl) fun m op hop heq => by
      rw [hops] at hop
      rcases m with _ | _ | _ | _ | m <;> cases hop <;> first | rfl | simp [YOp.entry] at heq
  exact nomatch hlost.symm.trans hread

end SpaceDocs

end WebOfTrust
