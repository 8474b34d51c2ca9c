/-
  **The order of the gestures on one contact** (`CONTACT-ORDER.md`; `session.ts`: `section`,
  `runOrdered`, `orderedGesture`, `recoverOrdered`; the ordered acts of `acts.ts`).

  Each gesture and each recovery runs in the contact's section, one after the other.  A gesture
  journals its record, ends in the same write the open records whose lanes it covers, and runs
  what is open before it.  A record that stays open holds the rest, and its recovery is
  planned (`contact_order`).

  `taken` and `refusals` are history.
-/
import WebOfTrust.IntentJournal
import WebOfTrust.Machine
import WebOfTrust.Overwrite
import Mathlib.Data.List.Sort

namespace WebOfTrust

open Overwrite KeyedTable Option
open List hiding filter filter_filter filter_map map_map mem_map

/-! ## 1. Ordered acts -/

inductive TrustClass where
  | star
  | groupStar
  | anchorMapping
  | sealedGroupStar
  | profile
deriving DecidableEq

inductive ClassSetting where
  | default
  | on
  | off
deriving DecidableEq

inductive ContactLane where
  | cls (cls : TrustClass)
  | block
deriving DecidableEq

inductive LibraryAct where
  | trust
  | untrust
  | pauseTrust (paused : Bool)
  | setClass (cls : TrustClass) (setting : ClassSetting)
  | block
  | unblock
deriving DecidableEq

def LibraryAct.lanes : LibraryAct → List ContactLane
  | .trust | .untrust => [.cls .anchorMapping]
  | .pauseTrust _ => [.cls .star, .cls .groupStar]
  | .setClass cls _ => [.cls cls]
  | .block | .unblock => [.block]

/-- The library, as far as the order relies on it: an act sets its lanes and no others. -/
structure ContactLibrary (ν : Type) where
  set : LibraryAct → Overwrite ContactLane ν
  set_isSome : ∀ act lane, (set act lane).isSome = true ↔ lane ∈ act.lanes

inductive PartSuffix where
  | whole
  | block
  | pause
  | unblock
  | resume
deriving DecidableEq

inductive OrderedCommand where
  | giveTrust
  | withdrawTrust
  | setPaused (paused : Bool)
  | setClass (cls : TrustClass) (setting : ClassSetting)
  | block
  | unblock
deriving DecidableEq

namespace OrderedCommand

def lanes : OrderedCommand → List ContactLane
  | .giveTrust | .withdrawTrust => [.cls .anchorMapping]
  | .setPaused _ => [.cls .star, .cls .groupStar]
  | .setClass cls _ => [.cls cls]
  | .block | .unblock => [.block, .cls .star, .cls .groupStar]

def parts : OrderedCommand → List (PartSuffix × LibraryAct)
  | .giveTrust => [(.whole, .trust)]
  | .withdrawTrust => [(.whole, .untrust)]
  | .setPaused paused => [(.whole, .pauseTrust paused)]
  | .setClass cls setting => [(.whole, .setClass cls setting)]
  | .block => [(.block, .block), (.pause, .pauseTrust true)]
  | .unblock => [(.unblock, .unblock), (.resume, .pauseTrust false)]

end OrderedCommand

/-! ## 2. The queue of a contact -/

abbrev OrderedRecord := IntentRecord OrderedCommand

def covers (lanes : List ContactLane) (older : OrderedRecord) : Bool :=
  older.gesture.lanes.all fun lane => decide (lane ∈ lanes)

section

variable (journal : IntentStore OrderedCommand)

def openRecords : List OrderedRecord :=
  journal.rows.filter (·.isOpen)

def openOrdered : List OrderedRecord :=
  (openRecords journal).insertionSort fun a b => a.place ≤ b.place

variable (records : List OrderedRecord)

def undecidable : List OrderedRecord :=
  records.filter fun r =>
    records.any fun o => decide (o.actId ≠ r.actId ∧ o.place = r.place)

def dropInvalid : IntentStore OrderedCommand :=
  records.foldl (fun journal r => journal.erase r.actId) journal

end

def supersededWrite (now : Nat) (r : OrderedRecord) : OrderedRecord :=
  { r with
    state := .done
    hasInput := false
    outcome := some .superseded
    finishedAt := some now }

def openWrite (r : OrderedRecord) : OrderedRecord :=
  { r with state := .outcomeUnknown, attempts := r.attempts + 1 }

def doneWrite (now : Nat) (outcome : IntentOutcome) (r : OrderedRecord) : OrderedRecord :=
  { r with
    state := .done
    hasInput := false
    attempts := r.attempts + 1
    outcome := some outcome
    finishedAt := some now }

def sameGesture (command : OrderedCommand) (records : List OrderedRecord) : Option OrderedRecord :=
  records.getLast?.filter fun r => decide (r.gesture = command)

def newRecord (actId : ActId) (command : OrderedCommand) (now : Nat)
    (records : List OrderedRecord) : OrderedRecord where
  actId
  gesture := command
  policy := .replay
  state := .journaled
  hasInput := true
  createdAt := now
  seq := some (records.getLast?.elim 0 (·.place) + 1)
  attempts := 0
  outcome := none
  finishedAt := none

structure Dedupe where
  same : Option OrderedRecord
  record : OrderedRecord
  superseded : List OrderedRecord
  ahead : List OrderedRecord

def dedupe (actId : ActId) (command : OrderedCommand) (now : Nat) (records : List OrderedRecord) :
    Dedupe :=
  let same := sameGesture command records
  let superseded := records.filter fun r => decide (some r ≠ same) && covers command.lanes r
  { same
    record := same.getD (newRecord actId command now records)
    superseded
    ahead := records.filter fun r => decide (some r ≠ same ∧ r ∉ superseded) }

def Dedupe.write (d : Dedupe) (now : Nat) (journal : IntentStore OrderedCommand) :
    IntentStore OrderedCommand :=
  let ended := d.superseded.foldl (fun journal r => journal.put (supersededWrite now r)) journal
  if d.same.isSome then ended else ended.put d.record

/-! ## 3. Sections -/

inductive OrderStage where
  | taken (actId : ActId) (command : OrderedCommand)
  | journal (actId : ActId) (command : OrderedCommand) (records : List OrderedRecord)
  | recover
  | recovering
  | recovered (records : List OrderedRecord)
  | attempt (record : OrderedRecord) (rest : List OrderedRecord)
  /-- A library act of the record; `partly` is whether one before it has committed. -/
  | part (record : OrderedRecord) (act : PartSuffix × LibraryAct)
      (acts : List (PartSuffix × LibraryAct)) (partly : Bool) (rest : List OrderedRecord)
  | markOpen (record : OrderedRecord)
  | finish (record : OrderedRecord) (outcome : IntentOutcome) (rest : List OrderedRecord)
deriving DecidableEq

structure OrderSection where
  /-- The handle of a gesture. -/
  handle : Option ActId
  stage : OrderStage

/-- What comes of an await.  `failCommitted` is an act that throws after its commit. -/
inductive OrderAnswer where
  | ok
  | fail
  | failCommitted
  | refuse (transient : Bool)
deriving DecidableEq

structure ContactOrder (ν : Type) where
  journal : IntentStore OrderedCommand
  /-- The state of the contact in the library, and the acts that it has journaled. -/
  lanes : ContactLane → ν
  committed : List (ActId × PartSuffix)
  now : Nat
  nextActId : ActId
  /-- The opening runs; and its first `replayOpen` is on its way or on the clock. -/
  running : Bool
  opening : Bool
  sections : List OrderSection
  lastTaken : Option (OrderedCommand × ActId)
  recovering : Bool
  planned : Bool
  /-- Runs of `replayOpen` that have read the journal, and whether they have met an open record. -/
  replays : List Bool
  taken : List OrderedCommand
  refusals : List ActId

namespace ContactOrder

variable {ν : Type}

def start (lanes : ContactLane → ν) : ContactOrder ν where
  journal := .empty
  lanes
  committed := []
  now := 0
  nextActId := 0
  running := false
  opening := false
  sections := []
  lastTaken := none
  recovering := false
  planned := false
  replays := []
  taken := []
  refusals := []

variable (s : ContactOrder ν)

def advance (stage : OrderStage) : ContactOrder ν :=
  match s.sections with
  | [] => s
  | first :: rest => { s with sections := { first with stage } :: rest }

def leave : ContactOrder ν :=
  match s.sections with
  | [] => s
  | first :: rest =>
    { s with
      sections := rest
      lastTaken := s.lastTaken.filter fun last => decide (some last.2 ≠ first.handle) }

def planOrdered : ContactOrder ν :=
  if s.running then { s with planned := true } else s

/-- `recoverOrdered`: one recovery waits for the section. -/
def recoverOrdered : ContactOrder ν :=
  if s.recovering then s
  else { s with recovering := true, sections := s.sections ++ [⟨none, .recover⟩] }

def runQueue : List OrderedRecord → ContactOrder ν
  | [] => s.leave
  | record :: rest => s.advance (.attempt record rest)

variable (library : ContactLibrary ν)

def commit (actId : ActId) (act : PartSuffix × LibraryAct) : ContactOrder ν :=
  if (actId, act.1) ∈ s.committed then s
  else
    { s with
      lanes := (library.set act.2).apply s.lanes
      committed := s.committed ++ [(actId, act.1)] }

def stayOpen : ContactOrder ν := s.planOrdered.leave

def goOn (s : ContactOrder ν) : OrderStage → OrderAnswer → Option (ContactOrder ν)
  | .taken actId command, .ok =>
    if s.running then some (s.advance (.journal actId command (openOrdered s.journal)))
    else some s.leave
  | .taken _ _, .fail => some s.leave
  | .journal actId command records, .ok =>
    let d := dedupe actId command s.now records
    let s := { s with journal := d.write s.now s.journal, taken := s.taken ++ [command] }
    some (s.runQueue (d.ahead ++ [d.record]))
  | .journal _ _ _, .fail => some s.leave
  | .recover, .ok =>
    let s := { s with recovering := false }
    some (if s.running then s.advance .recovering else s.leave)
  | .recovering, .ok => some (s.advance (.recovered (openOrdered s.journal)))
  | .recovering, .fail => some s.stayOpen
  | .recovered records, .ok =>
    let invalid := undecidable records
    let s := { s with journal := dropInvalid s.journal invalid }
    some (s.runQueue (records.filter fun r => decide (r ∉ invalid)))
  | .recovered _, .fail => some s.stayOpen
  | .attempt record rest, .ok =>
    if s.running then
      match record.gesture.parts with
      | [] => some (s.advance (.finish record .ok rest))
      | act :: acts => some (s.advance (.part record act acts false rest))
    else some s.leave
  | .part record act acts _ rest, .ok =>
    let s := s.commit library record.actId act
    match acts with
    | [] => some (s.advance (.finish record .ok rest))
    | next :: acts => some (s.advance (.part record next acts true rest))
  | .part record _ _ _ _, .fail => some (s.advance (.markOpen record))
  | .part record act _ _ _, .failCommitted =>
    some ((s.commit library record.actId act).advance (.markOpen record))
  | .part record act _ partly rest, .refuse transient =>
    if (record.actId, act.1) ∈ s.committed then none
    else if partly ∨ transient then some (s.advance (.markOpen record))
    else some (s.advance (.finish record .refused rest))
  | .markOpen record, .ok =>
    some { s with journal := s.journal.put (openWrite record) }.stayOpen
  | .markOpen _, .fail => some s.stayOpen
  | .finish record outcome rest, .ok =>
    let s := { s with
      journal := s.journal.put (doneWrite s.now outcome record)
      planned := false
      refusals :=
        if outcome = IntentOutcome.refused then s.refusals ++ [record.actId] else s.refusals }
    some (s.runQueue rest)
  | .finish _ _ _, .fail => some s.stayOpen
  | _, _ => none

end ContactOrder

inductive OrderInput where
  | gesture (command : OrderedCommand)
  | goOn (answer : OrderAnswer)
  | timer
  /-- `retryIntent` of a record that it has read as open. -/
  | retry
  /-- The first `replayOpen` of an opening, and those at an activation or a network return. -/
  | due (ok : Bool)
  | replayOpen
  | replay (k : Nat)
  | purge (actId : ActId)
  | tick (ms : Nat)
  /-- The end of the opening, which its sections may outlive. -/
  | stop
  | crash
  | reopen

section

variable {ν : Type} (library : ContactLibrary ν)

def orderStep (s : ContactOrder ν) : OrderInput → Option (ContactOrder ν)
  | .gesture command =>
    let joins := s.lastTaken.any fun last => decide (last.1 = command)
    if joins ∨ s.running = false then some s
    else some { s with
      sections := s.sections ++ [⟨some s.nextActId, .taken s.nextActId command⟩]
      lastTaken := some (command, s.nextActId)
      nextActId := s.nextActId + 1 }
  | .goOn answer =>
    match s.sections with
    | [] => none
    | first :: _ => s.goOn library first.stage answer
  | .timer => if s.planned then some { s with planned := false }.recoverOrdered else none
  | .retry => some s.recoverOrdered
  | .due ok =>
    if s.opening = false then none
    else if ok then
      let met := !(openRecords s.journal).isEmpty
      some { s with opening := false, replays := s.replays ++ [met] }
    else some s
  | .replayOpen =>
    if s.running then
      let met := !(openRecords s.journal).isEmpty
      some { s with replays := s.replays ++ [met] }
    else none
  | .replay k =>
    match s.replays[k]? with
    | none => none
    | some met =>
      let s := { s with replays := s.replays.eraseIdx k }
      some (if met then s.recoverOrdered else s)
  | .purge actId =>
    match s.journal.get? actId with
    | none => none
    | some r =>
      if r.isOpen = false ∧ r.finishedAt.getD r.createdAt + DONE_RETENTION_MS < s.now then
        some { s with journal := s.journal.erase actId }
      else none
  | .tick ms => some { s with now := s.now + ms }
  | .stop =>
    some { s with running := false, opening := false, planned := false }
  | .crash =>
    some { s with
      running := false
      opening := false
      planned := false
      sections := []
      lastTaken := none
      recovering := false
      replays := [] }
  | .reopen =>
    if s.running = true ∨ s.sections ≠ [] then none
    else some { s with
      journal := dropInvalid s.journal (undecidable (openOrdered s.journal))
      running := true
      opening := true
      recovering := false
      planned := false
      replays := [] }

end

/-! ## 4. What the claim of the order says -/

def OrderedCommand.updates {ν : Type} (library : ContactLibrary ν) (command : OrderedCommand) :
    List (Overwrite ContactLane ν) := command.parts.map fun part => library.set part.2

def lastFor (lane : ContactLane) (taken : List OrderedCommand) : Option OrderedCommand :=
  taken.reverse.find? fun command => decide (lane ∈ command.lanes)

def OrderStage.run? : OrderStage → Option OrderedRecord
  | .attempt record _ | .part record _ _ _ _ | .markOpen record | .finish record _ _ => some record
  | _ => none

def OrderStage.Attends (record : OrderedRecord) : OrderStage → Prop
  | .recovering | .markOpen _ => True
  | .recovered records => record ∈ records
  | .attempt ahead rest | .part ahead _ _ _ rest | .finish ahead _ rest => record ∈ ahead :: rest
  | _ => False

namespace ContactOrder

variable {ν : Type} (s : ContactOrder ν)

def run? : Option OrderedRecord := s.sections.head?.bind (·.stage.run?)

/-- A recovery of the contact is planned, or waits for the section. -/
def RecoveryPlanned : Prop :=
  s.planned = true ∨ s.opening = true ∨ true ∈ s.replays ∨
    ∃ first ∈ s.sections, first.stage = .recover

def RunInProgress (record : OrderedRecord) : Prop :=
  ∃ first ∈ s.sections.head?, first.stage.Attends record

end ContactOrder

/-! ## 5. The open records of a write -/

section

variable {journal : IntentStore OrderedCommand} {r : OrderedRecord} {records : List OrderedRecord}

theorem mem_openRecords : r ∈ openRecords journal ↔ r ∈ journal.rows ∧ r.isOpen = true :=
  mem_filter

theorem openRecords_put_closed (hhas : journal.has r.actId = true) (hclosed : r.isOpen = false) :
    openRecords (journal.put r) =
      (openRecords journal).filter fun x => decide (x.actId ≠ r.actId) := by
  simp only [openRecords, rows_put, if_pos hhas, List.filter_map, List.filter_filter]
  generalize journal.rows = rows
  induction rows with
  | nil => rfl
  | cons x rows ih =>
    by_cases hx : x.actId = r.actId <;> by_cases hopen : x.isOpen = true <;>
      simp [hx, hopen, hclosed, ih]

theorem openRecords_put_open (hhas : journal.has r.actId = true) (hopen : r.isOpen = true)
    (hold : ∀ x ∈ journal.rows, x.actId = r.actId → x.isOpen = true) :
    openRecords (journal.put r) =
      (openRecords journal).map fun x => if x.actId = r.actId then r else x := by
  simp only [openRecords, rows_put, if_pos hhas]
  revert hold
  generalize journal.rows = rows
  intro hold
  induction rows with
  | nil => rfl
  | cons x rows ih =>
    have ih := ih fun y hy => hold y (mem_cons_of_mem _ hy)
    by_cases hx : x.actId = r.actId
    · simp [hx, hopen, hold x mem_cons_self hx, ih]
    · by_cases hxopen : x.isOpen = true <;> simp [hx, hxopen, ih]

theorem openRecords_nodup (journal : IntentStore OrderedCommand) : (openRecords journal).Nodup :=
  (List.Nodup.of_map _ journal.keys_nodup).filter _

theorem openRecords_put_new (hfree : journal.has r.actId = false) (hopen : r.isOpen = true) :
    openRecords (journal.put r) = openRecords journal ++ [r] := by
  simp [openRecords, rows_put, hfree, hopen]

theorem map_actId_put (hhas : journal.has r.actId = true) :
    (journal.put r).rows.map (·.actId) = journal.rows.map (·.actId) := by
  rw [rows_put, if_pos hhas, List.map_map]
  refine map_congr_left fun x _ => ?_
  by_cases hx : x.actId = r.actId <;> simp [hx]

theorem has_of_mem_openRecords (h : r ∈ openRecords journal) : journal.has r.actId = true :=
  has_iff.mpr ⟨r, (mem_openRecords.mp h).1, rfl⟩

theorem eq_of_actId_eq {r' : OrderedRecord} (h : r ∈ openRecords journal)
    (h' : r' ∈ openRecords journal) (hid : r.actId = r'.actId) : r = r' :=
  eq_of_key_eq (mem_openRecords.mp h).1 (mem_openRecords.mp h').1 hid

theorem actId_ne_of_rest (hopen : r :: records = openRecords journal) {x : OrderedRecord}
    (hx : x ∈ records) : x.actId ≠ r.actId := by
  intro hid
  have hnodup := openRecords_nodup journal
  rw [← hopen] at hnodup
  have heq : x = r := eq_of_actId_eq (hopen ▸ mem_cons_of_mem _ hx)
    (hopen ▸ mem_cons_self) hid
  exact (nodup_cons.mp hnodup).1 (heq ▸ hx)

theorem openRecords_finish (hopen : r :: records = openRecords journal) (finished : OrderedRecord)
    (hid : finished.actId = r.actId) (hclosed : finished.isOpen = false) :
    openRecords (journal.put finished) = records := by
  have hhas : journal.has finished.actId = true := by
    rw [hid]
    exact has_of_mem_openRecords (hopen ▸ mem_cons_self)
  rw [openRecords_put_closed hhas hclosed, ← hopen, hid, filter_cons_of_neg (by simp)]
  exact filter_eq_self.mpr fun x hx => decide_eq_true (actId_ne_of_rest hopen hx)

def endSuperseded (now : Nat) (records : List OrderedRecord)
    (journal : IntentStore OrderedCommand) : IntentStore OrderedCommand :=
  records.foldl (fun journal r => journal.put (supersededWrite now r)) journal

theorem map_actId_endSuperseded {now : Nat} (h : ∀ r ∈ records, journal.has r.actId = true) :
    (endSuperseded now records journal).rows.map (·.actId) = journal.rows.map (·.actId) := by
  induction records generalizing journal with
  | nil => rfl
  | cons r records ih =>
    have hr : journal.has (supersededWrite now r).actId = true := h r mem_cons_self
    rw [endSuperseded, foldl_cons]
    refine (ih fun x hx => ?_).trans (map_actId_put hr)
    rw [has_iff]
    obtain ⟨y, hy, hid⟩ := has_iff.mp (h x (mem_cons_of_mem _ hx))
    have hmem : x.actId ∈ (journal.put (supersededWrite now r)).rows.map (·.actId) := by
      rw [map_actId_put hr]
      exact List.mem_map.mpr ⟨y, hy, hid⟩
    exact List.mem_map.mp hmem

theorem openRecords_endSuperseded {now : Nat} (h : ∀ r ∈ records, journal.has r.actId = true) :
    openRecords (endSuperseded now records journal) =
      (openRecords journal).filter fun x => decide (x.actId ∉ records.map (·.actId)) := by
  induction records generalizing journal with
  | nil => simp [endSuperseded]
  | cons r records ih =>
    have hr : journal.has (supersededWrite now r).actId = true := h r mem_cons_self
    rw [endSuperseded, foldl_cons]
    refine (ih fun x hx => ?_).trans ?_
    · have hmem : x.actId ∈ (journal.put (supersededWrite now r)).rows.map (·.actId) := by
        rw [map_actId_put hr]
        obtain ⟨y, hy, hid⟩ := has_iff.mp (h x (mem_cons_of_mem _ hx))
        exact List.mem_map.mpr ⟨y, hy, hid⟩
      exact has_iff.mpr (List.mem_map.mp hmem)
    · rw [openRecords_put_closed hr rfl, List.filter_filter]
      refine filter_congr fun x _ => ?_
      by_cases hx : x.actId = r.actId <;> simp [supersededWrite, hx]

end

/-! ## 6. The queue -/

open OrderedCommand

variable {ν : Type} {library : ContactLibrary ν} {s s' : ContactOrder ν} {lanes₀ : ContactLane → ν}
  {r record : OrderedRecord} {rest records : List OrderedRecord} {command : OrderedCommand}
  {actId : ActId} {now : Nat} {lane : ContactLane} {committed : List (ActId × PartSuffix)}

def pending (library : ContactLibrary ν) (committed : List (ActId × PartSuffix))
    (r : OrderedRecord) : List (Overwrite ContactLane ν) :=
  (r.gesture.parts.filter fun part => decide ((r.actId, part.1) ∉ committed)).map fun part =>
    library.set part.2

theorem OrderedCommand.mem_lanes :
    lane ∈ command.lanes ↔ ∃ part ∈ command.parts, lane ∈ part.2.lanes := by
  cases command <;> simp [lanes, parts, LibraryAct.lanes]

theorem OrderedCommand.parts_nodup : (command.parts.map (·.1)).Nodup := by
  cases command <;> simp [parts]

theorem updates_isSome :
    lane ∈ command.lanes ↔ ∃ u ∈ command.updates library, (u lane).isSome = true := by
  rw [mem_lanes]
  constructor
  · rintro ⟨part, hpart, hlane⟩
    exact ⟨_, mem_map_of_mem hpart, (library.set_isSome part.2 lane).mpr hlane⟩
  · rintro ⟨u, hu, hlane⟩
    obtain ⟨part, hpart, rfl⟩ := List.mem_map.mp hu
    exact ⟨part, hpart, (library.set_isSome part.2 lane).mp hlane⟩

theorem pending_isSome {u : Overwrite ContactLane ν} (hu : u ∈ pending library committed r)
    (hlane : (u lane).isSome = true) : lane ∈ r.gesture.lanes := by
  obtain ⟨part, hpart, rfl⟩ := List.mem_map.mp hu
  exact updates_isSome.mpr ⟨_, mem_map_of_mem (mem_filter.mp hpart).1, hlane⟩

theorem pending_of_fresh (h : ∀ p ∈ committed, p.1 ≠ r.actId) :
    pending library committed r = r.gesture.updates library := by
  rw [pending, updates, filter_eq_self.mpr]
  exact fun part _ => decide_eq_true fun hmem => h _ hmem rfl

theorem pending_of_committed (h : ∀ part ∈ r.gesture.parts, (r.actId, part.1) ∈ committed) :
    pending library committed r = [] := by
  rw [pending, filter_eq_nil_iff.mpr, map_nil]
  exact fun part hpart hnot => of_decide_eq_true hnot (h part hpart)

structure QueueInv (library : ContactLibrary ν) (lanes₀ : ContactLane → ν) (s : ContactOrder ν) :
    Prop where
  queue : (openRecords s.journal).Pairwise fun older newer =>
    older.place < newer.place ∧ covers newer.gesture.lanes older = false
  last : ∀ r ∈ (openRecords s.journal).getLast?, s.taken.getLast? = some r.gesture
  /-- The state of the contact with all that is open done is what the gestures have asked for. -/
  aim : s.refusals = [] → applyEach (pending library s.committed) (openRecords s.journal) s.lanes =
      applyEach (updates library) s.taken lanes₀

section

variable (h : QueueInv library lanes₀ s)
include h

theorem openOrdered_eq : openOrdered s.journal = openRecords s.journal := by
  refine List.Pairwise.insertionSort_eq (h.queue.imp fun hlt => ?_)
  exact Nat.le_of_lt hlt.1

theorem undecidable_eq_nil : undecidable (openRecords s.journal) = [] := by
  refine filter_eq_nil_iff.mpr fun r hr hany => ?_
  obtain ⟨o, ho, hsame⟩ := any_eq_true.mp hany
  obtain ⟨hne, hplace⟩ := of_decide_eq_true hsame
  have hnodup : ((openRecords s.journal).map (·.place)).Nodup := by
    rw [List.Nodup, pairwise_map]
    exact h.queue.imp fun hlt => Nat.ne_of_lt hlt.1
  exact hne (congrArg _ (inj_on_of_nodup_map hnodup ho hr hplace))

theorem place_lt_of_head (hopen : record :: rest = openRecords s.journal)
    (hr : r ∈ openRecords s.journal)
    (hne : r ≠ record) : record.place < r.place := by
  rw [← hopen] at hr
  have hqueue := h.queue
  rw [← hopen] at hqueue
  rcases mem_cons.mp hr with rfl | hrest
  · exact absurd rfl hne
  · exact ((pairwise_cons.mp hqueue).1 r hrest).1

theorem place_le_last (hr : r ∈ openRecords s.journal) :
    r.place ≤ (openRecords s.journal).getLast?.elim 0 (·.place) := by
  rcases hlast : (openRecords s.journal).getLast? with _ | last
  · rw [getLast?_eq_none_iff.mp hlast] at hr
    cases hr
  obtain ⟨before, hbefore⟩ := getLast?_eq_some_iff.mp hlast
  have hqueue := h.queue
  rw [hbefore] at hqueue hr
  rcases mem_append.mp hr with hr | hr
  · have hlt := (pairwise_append.mp hqueue).2.2 r hr last (mem_singleton_self last)
    exact Nat.le_of_lt hlt.1
  · cases mem_singleton.mp hr
    exact Nat.le_refl _

end

/-! ## 7. What a write and a commit leave of the queue -/

open ContactOrder

variable {d : Dedupe}

theorem dedupe_same (h : QueueInv library lanes₀ s)
    (hsame : sameGesture command (openRecords s.journal) = some r)
    (hd : dedupe actId command s.now (openRecords s.journal) = d) :
    d.same = some r ∧ d.superseded = [] ∧ d.ahead ++ [d.record] = openRecords s.journal := by
  obtain ⟨hlast, hcommand⟩ := filter_eq_some_iff.mp hsame
  obtain ⟨ahead, hahead⟩ := getLast?_eq_some_iff.mp hlast
  have hqueue := h.queue
  have hnodup := openRecords_nodup s.journal
  rw [hahead] at hqueue hnodup
  have hbefore := (pairwise_append.mp hqueue).2.2
  have hdistinct := (nodup_append.mp hnodup).2.2
  have hsuperseded : d.superseded = [] := by
    rw [← hd]
    refine filter_eq_nil_iff.mpr fun x hx hcovers => ?_
    obtain ⟨hne, hcovers⟩ := Bool.and_eq_true_iff.mp hcovers
    rw [hahead] at hx
    rcases mem_append.mp hx with hx | hx
    · have hnot := (hbefore x hx r (mem_singleton_self r)).2
      rw [of_decide_eq_true hcommand, hcovers] at hnot
      cases hnot
    · cases mem_singleton.mp hx
      exact of_decide_eq_true hne hsame.symm
  have hfilter : d.ahead = ahead := by
    have hdef : d.ahead = (openRecords s.journal).filter fun x =>
        decide (some x ≠ sameGesture command (openRecords s.journal) ∧ x ∉ d.superseded) := by
      rw [← hd]
      rfl
    rw [hdef, hsame, hsuperseded, hahead, filter_append, filter_eq_self.mpr,
      filter_eq_nil_iff.mpr, append_nil]
    · simp
    · intro x hx
      simpa using hdistinct x hx r (mem_singleton_self r)
  have hrecord : d.record = r := by
    rw [← hd, dedupe, hsame, getD_some]
  exact ⟨by rw [← hd, dedupe, hsame], hsuperseded, by rw [hrecord, hfilter, hahead]⟩

theorem dedupe_new (hsame : sameGesture command records = none)
    (hd : dedupe actId command now records = d) :
    d.same = none ∧ d.record = newRecord actId command now records ∧
      d.superseded = records.filter (covers command.lanes) ∧
      d.ahead = records.filter fun x => !covers command.lanes x := by
  have hsuperseded : d.superseded = records.filter (covers command.lanes) := by
    rw [← hd]
    refine filter_congr fun x _ => ?_
    simp [hsame]
  refine ⟨by rw [← hd, dedupe, hsame], by rw [← hd, dedupe, hsame, getD_none],
    hsuperseded, ?_⟩
  have hdef : d.ahead = records.filter fun x =>
      decide (some x ≠ sameGesture command records ∧ x ∉ d.superseded) := by
    rw [← hd]
    rfl
  rw [hdef, hsame, hsuperseded]
  refine filter_congr fun x hx => ?_
  cases hcovers : covers command.lanes x <;> simp [hcovers, hx]

theorem taken_updates (taken : List OrderedCommand) :
    applyEach (updates library) (taken ++ [command]) lanes₀ =
      applyAll (command.updates library) (applyEach (updates library) taken lanes₀) :=
  applyEach_append taken [command]

theorem write_new (hfree : s.journal.has actId = false)
    (hsame : sameGesture command (openRecords s.journal) = none)
    (hd : dedupe actId command s.now (openRecords s.journal) = d) :
    (∀ x ∈ d.superseded, s.journal.has x.actId = true) ∧
      d.write s.now s.journal = (endSuperseded s.now d.superseded s.journal).put d.record ∧
      (endSuperseded s.now d.superseded s.journal).has d.record.actId = false := by
  obtain ⟨hnone, hrecord, hsuperseded, -⟩ := dedupe_new hsame hd
  have hhas : ∀ x ∈ d.superseded, s.journal.has x.actId = true := by
    intro x hx
    rw [hsuperseded] at hx
    exact has_of_mem_openRecords (mem_filter.mp hx).1
  refine ⟨hhas, by rw [Dedupe.write, hnone]; rfl, ?_⟩
  rw [Bool.eq_false_iff, ne_eq, has_iff, ← List.mem_map, hrecord,
    map_actId_endSuperseded hhas, List.mem_map, ← has_iff]
  exact Bool.eq_false_iff.mp hfree

theorem write_same (h : QueueInv library lanes₀ s)
    (hsame : sameGesture command (openRecords s.journal) = some r)
    (hd : dedupe actId command s.now (openRecords s.journal) = d) :
    d.write s.now s.journal = s.journal := by
  obtain ⟨hsome, hsuperseded, -⟩ := dedupe_same h hsame hd
  rw [Dedupe.write, hsome, hsuperseded]
  rfl

theorem map_actId_write (h : QueueInv library lanes₀ s) (hfree : s.journal.has actId = false)
    (hd : dedupe actId command s.now (openRecords s.journal) = d) :
    List.Sublist ((d.write s.now s.journal).rows.map (·.actId))
      (s.journal.rows.map (·.actId) ++ [actId]) := by
  cases hsame : sameGesture command (openRecords s.journal) with
  | some r =>
    rw [write_same h hsame hd]
    exact sublist_append_left _ _
  | none =>
    obtain ⟨hhas, hwrite, hstill⟩ := write_new hfree hsame hd
    obtain ⟨-, hrecord, -⟩ := dedupe_new hsame hd
    rw [hwrite, rows_put, hstill, if_neg Bool.false_ne_true, map_append,
      map_actId_endSuperseded hhas, hrecord]
    exact List.Sublist.refl _

theorem openRecords_write (hfree : s.journal.has actId = false)
    (hsame : sameGesture command (openRecords s.journal) = none)
    (hd : dedupe actId command s.now (openRecords s.journal) = d) :
    openRecords (d.write s.now s.journal) = d.ahead ++ [d.record] := by
  obtain ⟨-, hrecord, hsuperseded, hahead⟩ := dedupe_new hsame hd
  obtain ⟨hhas, hwrite, hstill⟩ := write_new hfree hsame hd
  rw [hwrite, openRecords_put_new hstill (by rw [hrecord]; rfl), openRecords_endSuperseded hhas,
    hahead, hsuperseded]
  congr 1
  refine filter_congr fun x hx => ?_
  have hmem : x.actId ∈ ((openRecords s.journal).filter (covers command.lanes)).map (·.actId) ↔
      covers command.lanes x = true := by
    constructor
    · intro hmem
      obtain ⟨y, hy, hid⟩ := List.mem_map.mp hmem
      obtain ⟨hy, hcovers⟩ := mem_filter.mp hy
      exact eq_of_actId_eq hy hx hid ▸ hcovers
    · exact fun hcovers => List.mem_map.mpr ⟨x, mem_filter.mpr ⟨hx, hcovers⟩, rfl⟩
  rw [Bool.eq_iff_iff, decide_eq_true_iff, hmem]
  simp

theorem aim_new (hfresh : ∀ p ∈ s.committed, p.1 ≠ actId)
    (haim : applyEach (pending library s.committed) (openRecords s.journal) s.lanes =
      applyEach (updates library) s.taken lanes₀)
    (hsame : sameGesture command (openRecords s.journal) = none)
    (hd : dedupe actId command s.now (openRecords s.journal) = d) :
    applyEach (pending library s.committed) (d.ahead ++ [d.record]) s.lanes =
      applyEach (updates library) (s.taken ++ [command]) lanes₀ := by
  obtain ⟨-, hrecord, -, hahead⟩ := dedupe_new hsame hd
  have hpending : pending library s.committed d.record = command.updates library := by
    rw [hrecord]
    exact pending_of_fresh hfresh
  rw [applyEach_append, taken_updates, ← haim, hahead]
  show applyAll (pending library s.committed d.record) _ = _
  rw [hpending]
  -- What is ended only sets lanes that the gesture sets too.
  refine (AgreeOff.applyAll_eq (p := (· ∈ command.lanes))
    (fun lane hlane => updates_isSome.mp hlane) ?_).symm
  refine agreeOff_applyEach_filter (fun x _ hcovers u hu lane hlane => ?_) .refl
  have hcovers : covers command.lanes x = true := by simpa using hcovers
  exact of_decide_eq_true (all_eq_true.mp hcovers lane (pending_isSome hu hlane))

theorem queueInv_journal (h : QueueInv library lanes₀ s) (hfree : s.journal.has actId = false)
    (hfresh : ∀ p ∈ s.committed, p.1 ≠ actId)
    (hd : dedupe actId command s.now (openRecords s.journal) = d) :
    openRecords (d.write s.now s.journal) = d.ahead ++ [d.record] ∧ QueueInv library lanes₀
        { s with journal := d.write s.now s.journal, taken := s.taken ++ [command] } := by
  cases hsame : sameGesture command (openRecords s.journal) with
  | some r =>
    obtain ⟨-, -, hahead⟩ := dedupe_same h hsame hd
    obtain ⟨hlast, hcommand⟩ := filter_eq_some_iff.mp hsame
    rw [write_same h hsame hd, hahead]
    refine ⟨rfl, h.queue, fun x hx => ?_, fun hrefusals => ?_⟩
    · rw [hlast] at hx
      cases hx
      rw [getLast?_concat, of_decide_eq_true hcommand]
    · obtain ⟨before, hbefore⟩ := getLast?_eq_some_iff.mp (h.last r hlast)
      rw [of_decide_eq_true hcommand] at hbefore
      rw [taken_updates, hbefore, taken_updates, applyAll_applyAll, ← taken_updates, ← hbefore]
      exact h.aim hrefusals
  | none =>
    obtain ⟨-, hrecord, -, hahead⟩ := dedupe_new hsame hd
    have hopen := openRecords_write hfree hsame hd
    refine ⟨hopen, ?_, fun x hx => ?_, fun hrefusals => ?_⟩
    · rw [hopen, pairwise_append]
      rw [hahead, hrecord]
      refine ⟨h.queue.filter _, pairwise_singleton _ _, fun x hx y hy => ?_⟩
      cases mem_singleton.mp hy
      obtain ⟨hx, hcovers⟩ := mem_filter.mp hx
      exact ⟨Nat.lt_succ_of_le (place_le_last h hx),
        show covers command.lanes x = false by simpa using hcovers⟩
    · rw [hopen, getLast?_concat, hrecord] at hx
      cases hx
      exact getLast?_concat
    · rw [hopen]
      exact aim_new hfresh (h.aim hrefusals) hsame hd

section

variable {act : PartSuffix × LibraryAct} {before acts : List (PartSuffix × LibraryAct)}

theorem pending_of_parts (hparts : r.gesture.parts = before ++ acts)
    (hbefore : ∀ part ∈ before, (r.actId, part.1) ∈ committed) :
    pending library committed r =
      (acts.filter fun part => decide ((r.actId, part.1) ∉ committed)).map fun part =>
        library.set part.2 := by
  rw [pending, hparts, filter_append, filter_eq_nil_iff.mpr, nil_append]
  exact fun part hpart hnot => of_decide_eq_true hnot (hbefore part hpart)

theorem pending_of_ne (hne : r.actId ≠ actId) :
    pending library (committed ++ [(actId, act.1)]) r = pending library committed r := by
  have hfilter : ∀ part : PartSuffix × LibraryAct,
      decide ((r.actId, part.1) ∉ committed ++ [(actId, act.1)]) =
        decide ((r.actId, part.1) ∉ committed) := by
    intro part
    simp [hne]
  simp only [pending, hfilter]

theorem aim_commit (hopen : record :: rest = openRecords s.journal)
    (hparts : record.gesture.parts = before ++ act :: acts)
    (hbefore : ∀ part ∈ before, (record.actId, part.1) ∈ s.committed)
    (hnot : (record.actId, act.1) ∉ s.committed) :
    applyEach (pending library (s.committed ++ [(record.actId, act.1)]))
        (openRecords s.journal) ((library.set act.2).apply s.lanes) =
      applyEach (pending library s.committed) (openRecords s.journal) s.lanes := by
  have hsuffix := record.gesture.parts_nodup
  rw [hparts, map_append, map_cons] at hsuffix
  have hacts := (nodup_cons.mp (nodup_append.mp hsuffix).2.1).1
  have hpending : pending library s.committed record = library.set act.2 ::
      pending library (s.committed ++ [(record.actId, act.1)]) record := by
    have hparts' : record.gesture.parts = (before ++ [act]) ++ acts := by
      rw [hparts, append_assoc, singleton_append]
    rw [pending_of_parts hparts hbefore, pending_of_parts hparts' fun part hpart => ?_,
      filter_cons_of_pos (by simpa using hnot), map_cons]
    · congr 2
      refine filter_congr fun part hpart => ?_
      have hne : part.1 ≠ act.1 := fun heq => hacts (heq ▸ mem_map_of_mem hpart)
      simp [hne]
    rcases mem_append.mp hpart with hold | hnew
    · exact mem_append_left _ (hbefore part hold)
    · cases mem_singleton.mp hnew
      exact mem_append_right _ (mem_singleton_self _)
  rw [← hopen]
  show applyEach _ rest (applyAll _ _) = applyEach _ rest (applyAll _ _)
  rw [hpending, applyEach_congr fun x hx => pending_of_ne (actId_ne_of_rest hopen hx)]
  rfl

theorem queueInv_commit (h : QueueInv library lanes₀ s)
    (hopen : record :: rest = openRecords s.journal)
    (hparts : record.gesture.parts = before ++ act :: acts)
    (hbefore : ∀ part ∈ before, (record.actId, part.1) ∈ s.committed) :
    QueueInv library lanes₀ (s.commit library record.actId act) := by
  rw [commit]
  split
  · exact h
  next hnot =>
  refine ⟨h.queue, h.last, fun hrefusals => ?_⟩
  exact (aim_commit hopen hparts hbefore hnot).trans (h.aim hrefusals)

end

section

variable (h : QueueInv library lanes₀ s)
include h

theorem queueInv_markOpen (hopen : record :: rest = openRecords s.journal) (again : OrderedRecord)
    (hid : again.actId = record.actId) (hgesture : again.gesture = record.gesture)
    (hseq : again.seq = record.seq) (hstill : again.isOpen = true) :
    openRecords (s.journal.put again) = again :: rest ∧
      (s.journal.put again).rows.map (·.actId) = s.journal.rows.map (·.actId) ∧
      QueueInv library lanes₀ { s with journal := s.journal.put again } := by
  have hmem : record ∈ openRecords s.journal := hopen ▸ mem_cons_self
  have hput : openRecords (s.journal.put again) = again :: rest := by
    rw [openRecords_put_open (hid ▸ has_of_mem_openRecords hmem) hstill fun x hx hx' => ?_, ← hopen,
      map_cons, if_pos hid.symm]
    · congr 1
      refine (map_congr_left fun x hx => if_neg ?_).trans (map_id' rest)
      exact hid ▸ actId_ne_of_rest hopen hx
    have heq : x = record :=
      eq_of_key_eq hx (mem_openRecords.mp hmem).1 (hx'.trans hid)
    exact heq ▸ (mem_openRecords.mp hmem).2
  have hqueue := h.queue
  have hlast := h.last
  have haim := h.aim
  rw [← hopen] at hqueue hlast haim
  refine ⟨hput, map_actId_put (hid ▸ has_of_mem_openRecords hmem), ?_, fun x hx => ?_,
    fun hrefusals => ?_⟩
  · rw [hput]
    obtain ⟨hhead, hrest⟩ := pairwise_cons.mp hqueue
    refine pairwise_cons.mpr ⟨fun x hx => ?_, hrest⟩
    have hplace : again.place = record.place := by
      rw [IntentRecord.place, IntentRecord.place, hseq]
    rw [hplace, covers, hgesture]
    exact hhead x hx
  · rw [hput] at hx
    cases rest with
    | nil =>
      cases hx
      exact (hlast record rfl).trans (congrArg some hgesture.symm)
    | cons y rest =>
      rw [getLast?_cons_cons] at hx
      exact hlast x (by rwa [getLast?_cons_cons])
  · rw [hput]
    have hpending : pending library s.committed again = pending library s.committed record := by
      rw [pending, pending, hid, hgesture]
    show applyEach _ rest (applyAll _ _) = _
    rw [hpending]
    exact haim hrefusals

theorem queueInv_finish (hopen : record :: rest = openRecords s.journal) (finished : OrderedRecord)
    (refusals : List ActId) (hid : finished.actId = record.actId)
    (hclosed : finished.isOpen = false) (hrefusals : refusals = [] → s.refusals = [] ∧
      ∀ part ∈ record.gesture.parts, (record.actId, part.1) ∈ s.committed) :
    openRecords (s.journal.put finished) = rest ∧
      (s.journal.put finished).rows.map (·.actId) = s.journal.rows.map (·.actId) ∧
      QueueInv library lanes₀
        { s with journal := s.journal.put finished, planned := false, refusals } := by
  have hmem : record ∈ openRecords s.journal := hopen ▸ mem_cons_self
  have hput := openRecords_finish hopen finished hid hclosed
  have hqueue := h.queue
  have hlast := h.last
  have haim := h.aim
  rw [← hopen] at hqueue hlast haim
  refine ⟨hput, map_actId_put (hid ▸ has_of_mem_openRecords hmem), ?_, fun x hx => ?_,
    fun hnone => ?_⟩
  · rw [hput]
    exact (pairwise_cons.mp hqueue).2
  · rw [hput] at hx
    cases rest with
    | nil => cases hx
    | cons y rest => exact hlast x (by rwa [getLast?_cons_cons])
  · obtain ⟨hnone, hcommitted⟩ := hrefusals hnone
    rw [hput, ← haim hnone]
    show _ = applyEach _ rest (applyAll _ _)
    rw [pending_of_committed hcommitted]
    rfl

theorem queueInv_purge (hget : s.journal.get? actId = some r) (hclosed : r.isOpen = false) :
    openRecords (s.journal.erase actId) = openRecords s.journal ∧
      QueueInv library lanes₀ { s with journal := s.journal.erase actId } := by
  have herase : openRecords (s.journal.erase actId) = openRecords s.journal := by
    rw [openRecords, erase, filter, List.filter_filter]
    refine filter_congr fun x hx => ?_
    by_cases hx' : x.actId = actId
    · have heq := get?_eq_some_iff.mpr ⟨hx, hx'⟩
      rw [hget] at heq
      cases heq
      simp [hclosed]
    · simp [hx']
  refine ⟨herase, ?_, ?_, ?_⟩
  · rw [herase]
    exact h.queue
  · rw [herase]
    exact h.last
  · rw [herase]
    exact h.aim

end

/-! ## 8. The sections -/

def OrderStage.newId? : OrderStage → Option ActId
  | .taken actId _ | .journal actId _ _ => some actId
  | _ => none

def OrderStage.Waiting : OrderStage → Prop
  | .taken _ _ | .recover => True
  | _ => False

def OrderStage.Held (journal : IntentStore OrderedCommand) (committed : List (ActId × PartSuffix)) :
    OrderStage → Prop
  | .journal _ _ records | .recovered records => records = openRecords journal
  | .attempt record rest => record :: rest = openRecords journal
  | .part record act acts _ rest => record :: rest = openRecords journal ∧
      ∃ before, record.gesture.parts = before ++ act :: acts ∧
        ∀ part ∈ before, (record.actId, part.1) ∈ committed
  | .markOpen record => ∃ rest, record :: rest = openRecords journal
  | .finish record outcome rest => record :: rest = openRecords journal ∧
      (outcome = .refused ∨ ∀ part ∈ record.gesture.parts, (record.actId, part.1) ∈ committed)
  | _ => True

section

variable {first : OrderSection} {rest : List OrderSection}

def newIds (sections : List OrderSection) : List ActId := sections.filterMap (·.stage.newId?)

def journaledIds (journal : IntentStore OrderedCommand) : List ActId := journal.rows.map (·.actId)

structure SectionInv (s : ContactOrder ν) : Prop where
  nodup : (journaledIds s.journal ++ newIds s.sections).Nodup
  fresh : ∀ a ∈ journaledIds s.journal ++ newIds s.sections, a < s.nextActId
  committed : ∀ p ∈ s.committed, p.1 < s.nextActId ∧ p.1 ∉ newIds s.sections
  waiting : ∀ later ∈ s.sections.tail, later.stage.Waiting
  recovering : s.recovering = true → ∃ waits ∈ s.sections, waits.stage = .recover
  held : ∀ first ∈ s.sections.head?, first.stage.Held s.journal s.committed
  attended : s.running = true → ∀ r ∈ openRecords s.journal, s.RunInProgress r ∨ s.RecoveryPlanned

theorem OrderStage.Waiting.held {stage : OrderStage} (h : stage.Waiting)
    (journal : IntentStore OrderedCommand) (committed : List (ActId × PartSuffix)) :
    stage.Held journal committed := by
  cases stage <;> trivial

theorem SectionInv.of_head (h : SectionInv s) (next : Option OrderSection)
    (hs : s.sections = first :: rest)
    (hs' : s'.sections = next.toList ++ rest) (hnext : s'.nextActId = s.nextActId)
    (hids : List.Sublist (journaledIds s'.journal ++ newIds next.toList)
      (journaledIds s.journal ++ newIds [first]))
    (hnew : ∀ a ∈ newIds next.toList, a ∈ newIds [first])
    (hcommitted : ∀ p ∈ s'.committed, p ∈ s.committed ∨ p.1 ∈ journaledIds s.journal)
    (hrecovering : s'.recovering = true → s.recovering = true ∧ first.stage ≠ .recover)
    (hheld : ∀ first' ∈ next, first'.stage.Held s'.journal s'.committed)
    (hattended : s'.running = true → ∀ r ∈ openRecords s'.journal,
      s'.RunInProgress r ∨ s'.RecoveryPlanned) : SectionInv s' := by
  have hsplit : newIds s.sections = newIds [first] ++ newIds rest := by
    rw [hs, newIds, newIds, newIds, ← filterMap_append, singleton_append]
  have hsplit' : newIds s'.sections = newIds next.toList ++ newIds rest := by
    rw [hs', newIds, filterMap_append]
    rfl
  have hsub : List.Sublist (journaledIds s'.journal ++ newIds s'.sections)
      (journaledIds s.journal ++ newIds s.sections) := by
    rw [hsplit, hsplit', ← append_assoc, ← append_assoc]
    exact hids.append_right _
  have hwaiting : ∀ later ∈ rest, later.stage.Waiting := by
    have hw := h.waiting
    rwa [hs] at hw
  refine ⟨h.nodup.sublist hsub, fun a ha => hnext ▸ h.fresh a (hsub.subset ha), fun p hp => ?_,
    fun later hlater => ?_, fun hset => ?_, fun first' hfirst' => ?_, hattended⟩
  · have hkeep : p.1 < s.nextActId ∧ p.1 ∉ newIds s.sections := by
      rcases hcommitted p hp with hold | hjournaled
      · exact h.committed p hold
      · refine ⟨h.fresh _ (mem_append_left _ hjournaled), fun hmem => ?_⟩
        exact (nodup_append.mp h.nodup).2.2 _ hjournaled _ hmem rfl
    refine ⟨hnext ▸ hkeep.1, fun hmem => hkeep.2 ?_⟩
    rw [hsplit'] at hmem
    rw [hsplit]
    rcases mem_append.mp hmem with hmem | hmem
    · exact mem_append_left _ (hnew _ hmem)
    · exact mem_append_right _ hmem
  · rw [hs'] at hlater
    cases next with
    | none => exact hwaiting later (mem_of_mem_tail hlater)
    | some first' => exact hwaiting later hlater
  · obtain ⟨hset, hne⟩ := hrecovering hset
    obtain ⟨waits, hwaits, hstage⟩ := h.recovering hset
    rw [hs] at hwaits
    rcases mem_cons.mp hwaits with rfl | hrest
    · exact absurd hstage hne
    · exact ⟨waits, hs' ▸ mem_append_right _ hrest, hstage⟩
  · rw [hs'] at hfirst'
    cases next with
    | none => exact (hwaiting first' (mem_of_mem_head? hfirst')).held _ _
    | some _ =>
      cases hfirst'
      exact hheld first' rfl

end

section

variable {first : OrderSection} {sections : List OrderSection} {stage : OrderStage}
  {answer : OrderAnswer}

section

variable (hs : s.sections = first :: sections)
include hs

theorem advance_eq : s.advance stage = { s with sections := { first with stage } :: sections } := by
  rw [advance, hs]

theorem leave_eq : s.leave = { s with
      sections
      lastTaken := s.lastTaken.filter fun last => decide (some last.2 ≠ first.handle) } := by
  rw [leave, hs]

structure OrderInv (library : ContactLibrary ν) (lanes₀ : ContactLane → ν) (s : ContactOrder ν) :
    Prop where
  queue : QueueInv library lanes₀ s
  sections : SectionInv s

omit hs in
theorem planned_of_idle (h : SectionInv s) (hs : s.sections = first :: sections)
    (hidle : ∀ r, ¬first.stage.Attends r) (hr : r ∈ openRecords s.journal)
    (hrunning : s.running = true) : s.RecoveryPlanned := by
  rcases h.attended hrunning r hr with ⟨head, hhead, hattends⟩ | hplanned
  · rw [hs] at hhead
    cases hhead
    exact absurd hattends (hidle r)
  · exact hplanned

theorem recoveryPlanned_of_rest (hne : first.stage ≠ .recover) (h : s.RecoveryPlanned) :
    s.planned = true ∨ s.opening = true ∨ true ∈ s.replays ∨
      ∃ waits ∈ sections, waits.stage = .recover := by
  rcases h with h | h | h | ⟨waits, hwaits, hstage⟩
  · exact .inl h
  · exact .inr (.inl h)
  · exact .inr (.inr (.inl h))
  · rw [hs] at hwaits
    rcases mem_cons.mp hwaits with rfl | hrest
    · exact absurd hstage hne
    · exact .inr (.inr (.inr ⟨waits, hrest, hstage⟩))

end

section

variable (h : SectionInv s) (hs : s.sections = first :: sections)
include h hs

theorem sectionInv_advance (hne : first.stage ≠ .recover)
    (hid : ∀ a ∈ stage.newId?, first.stage.newId? = some a)
    (hheld : stage.Held s.journal s.committed)
    (hattended : s.running = true → ∀ r ∈ openRecords s.journal,
      stage.Attends r ∨ s.RecoveryPlanned) : SectionInv (s.advance stage) := by
  have hnew : List.Sublist (newIds [{ first with stage }]) (newIds [first]) := by
    simp only [newIds, filterMap_cons, filterMap_nil]
    cases hstage : stage.newId? with
    | none => exact nil_sublist _
    | some a => rw [hid a hstage]
  rw [advance_eq hs]
  refine h.of_head (some { first with stage }) hs rfl rfl
    ((List.Sublist.refl _).append hnew) hnew.subset (fun p hp => .inl hp)
    (fun hset => ⟨hset, hne⟩) (fun first' hfirst' => ?_) fun hrunning r hr => ?_
  · cases hfirst'
    exact hheld
  rcases hattended hrunning r hr with hattends | hplanned
  · exact .inl ⟨_, rfl, hattends⟩
  rcases recoveryPlanned_of_rest hs hne hplanned with hp | hp | hp | ⟨waits, hwaits, hstage⟩
  · exact .inr (.inl hp)
  · exact .inr (.inr (.inl hp))
  · exact .inr (.inr (.inr (.inl hp)))
  · exact .inr (.inr (.inr (.inr ⟨waits, mem_cons_of_mem _ hwaits, hstage⟩)))

theorem sectionInv_leave (hs' : s'.sections = s.sections) (hnext : s'.nextActId = s.nextActId)
    (hids : journaledIds s'.journal = journaledIds s.journal)
    (hcommitted : s'.committed = s.committed)
    (hrecovering : s'.recovering = true → s.recovering = true ∧ first.stage ≠ .recover)
    (hplanned : s'.running = true → ∀ r ∈ openRecords s'.journal,
      s'.planned = true ∨ s'.opening = true ∨ true ∈ s'.replays ∨
        ∃ waits ∈ sections, waits.stage = .recover) : SectionInv s'.leave := by
  have hsections : s'.sections = first :: sections := hs'.trans hs
  rw [leave_eq hsections]
  refine h.of_head none hs rfl hnext ?_ (fun a ha => ?_) (fun p hp => ?_) hrecovering
    (fun _ hnone => nomatch hnone) fun hrunning r hr => .inr (hplanned hrunning r hr)
  · rw [toList_none, newIds, filterMap_nil, append_nil, hids]
    exact sublist_append_left _ _
  · cases ha
  · exact .inl (hcommitted ▸ hp)

theorem sectionInv_runQueue (hne : first.stage ≠ .recover) (hs' : s'.sections = s.sections)
    (hnext : s'.nextActId = s.nextActId)
    (hids : List.Sublist (journaledIds s'.journal) (journaledIds s.journal ++ newIds [first]))
    (hcommitted : s'.committed = s.committed) (hrecovering : s'.recovering = s.recovering)
    (hopen : records = openRecords s'.journal) : SectionInv (s'.runQueue records) := by
  have hsections : s'.sections = first :: sections := hs'.trans hs
  have hids' : List.Sublist (journaledIds s'.journal ++ newIds [])
      (journaledIds s.journal ++ newIds [first]) := by
    rwa [newIds, filterMap_nil, append_nil]
  cases records with
  | nil =>
    rw [runQueue, leave_eq hsections]
    refine h.of_head none hs rfl hnext hids' (fun a ha => ?_) (fun p hp => ?_)
      (fun hset => ⟨hrecovering ▸ hset, hne⟩) (fun _ hnone => nomatch hnone) fun _ r hr => ?_
    · cases ha
    · exact .inl (hcommitted ▸ hp)
    · rw [← hopen] at hr
      cases hr
  | cons record rest =>
    rw [runQueue, advance_eq hsections]
    refine h.of_head (some { first with stage := .attempt record rest }) hs rfl hnext hids'
      (fun a ha => ?_) (fun p hp => ?_) (fun hset => ⟨hrecovering ▸ hset, hne⟩)
      (fun first' hfirst' => ?_) fun _ r hr => ?_
    · cases ha
    · exact .inl (hcommitted ▸ hp)
    · cases hfirst'
      exact hopen
    · rw [← hopen] at hr
      exact .inl ⟨_, rfl, hr⟩

end

theorem planOrdered_eq : s.planOrdered = { s with planned := s.planned || s.running } := by
  rw [planOrdered]
  split
  · next hrunning => rw [hrunning, Bool.or_true]
  next hstopped =>
  have hsame : (s.planned || s.running) = s.planned := by
    rw [Bool.eq_false_iff.mpr hstopped, Bool.or_false]
  rw [hsame]

theorem sectionInv_stayOpen (h : SectionInv s) (hs : s.sections = first :: sections)
    (hne : first.stage ≠ .recover) (hs' : s'.sections = s.sections)
    (hnext : s'.nextActId = s.nextActId)
    (hids : journaledIds s'.journal = journaledIds s.journal)
    (hcommitted : s'.committed = s.committed) (hrecovering : s'.recovering = s.recovering) :
    SectionInv s'.stayOpen := by
  rw [stayOpen, planOrdered_eq]
  refine sectionInv_leave h hs hs' hnext hids hcommitted (fun hset => ⟨hrecovering ▸ hset, hne⟩)
    fun hrunning r hr => .inl ?_
  show (s'.planned || s'.running) = true
  rw [show s'.running = true from hrunning, Bool.or_true]

section

variable (h : QueueInv library lanes₀ s)
include h

theorem QueueInv.of_same (hjournal : s'.journal = s.journal)
    (hlanes : s'.lanes = s.lanes) (hcommitted : s'.committed = s.committed)
    (htaken : s'.taken = s.taken) (hrefusals : s'.refusals = s.refusals) :
    QueueInv library lanes₀ s' := by
  refine ⟨hjournal ▸ h.queue, ?_, ?_⟩
  · rw [hjournal, htaken]
    exact h.last
  · rw [hjournal, hlanes, hcommitted, htaken, hrefusals]
    exact h.aim

theorem QueueInv.advance : QueueInv library lanes₀ (s.advance stage) := by
  rw [ContactOrder.advance]
  split
  · exact h
  · exact h.of_same rfl rfl rfl rfl rfl

theorem QueueInv.leave : QueueInv library lanes₀ s.leave := by
  rw [ContactOrder.leave]
  split
  · exact h
  · exact h.of_same rfl rfl rfl rfl rfl

theorem QueueInv.stayOpen : QueueInv library lanes₀ s.stayOpen := by
  rw [ContactOrder.stayOpen, planOrdered_eq]
  exact .leave (h.of_same rfl rfl rfl rfl rfl)

theorem QueueInv.runQueue : QueueInv library lanes₀ (s.runQueue records) := by
  cases records with
  | nil => exact h.leave
  | cons record rest => exact h.advance

end

/-! One lemma for each stage. -/

section

variable (h : OrderInv library lanes₀ s) (hs : s.sections = first :: sections)
include h hs

section

variable (hne : first.stage ≠ .recover)
include hne

theorem orderInv_leave (hidle : ∀ r, ¬first.stage.Attends r) : OrderInv library lanes₀ s.leave :=
  ⟨h.queue.leave, sectionInv_leave h.sections hs rfl rfl rfl rfl (fun hset => ⟨hset, hne⟩)
    fun hrunning _ hr => recoveryPlanned_of_rest hs hne
      (planned_of_idle h.sections hs hidle hr hrunning)⟩

theorem orderInv_locked (hstopped : ¬s.running = true) : OrderInv library lanes₀ s.leave :=
  ⟨h.queue.leave, sectionInv_leave h.sections hs rfl rfl rfl rfl (fun hset => ⟨hset, hne⟩)
    fun hrunning => absurd hrunning hstopped⟩

theorem orderInv_stayOpen : OrderInv library lanes₀ s.stayOpen :=
  ⟨h.queue.stayOpen, sectionInv_stayOpen h.sections hs hne rfl rfl rfl rfl rfl⟩

end

theorem orderInv_taken (hstage : first.stage = .taken actId command)
    (hgo : s.goOn library (.taken actId command) answer = some s') :
    OrderInv library lanes₀ s' := by
  have hidle : ∀ r, ¬first.stage.Attends r := by
    rw [hstage]
    exact fun _ => id
  have hne : first.stage ≠ .recover := by
    rw [hstage]
    nofun
  cases answer with
  | ok =>
    rw [goOn] at hgo
    split at hgo
    · cases hgo
      refine ⟨h.queue.advance, sectionInv_advance h.sections hs hne (fun a ha => ?_)
        (openOrdered_eq h.queue) fun hrunning r hr => .inr ?_⟩
      · rw [hstage]
        exact ha
      · exact planned_of_idle h.sections hs hidle hr hrunning
    · next hstopped =>
      cases hgo
      exact orderInv_locked h hs hne hstopped
  | fail =>
    cases hgo
    exact orderInv_leave h hs hne hidle
  | _ => cases hgo

end

theorem fresh_of_journal (h : SectionInv s) (hs : s.sections = first :: sections)
    (hstage : first.stage = .journal actId command records) :
    s.journal.has actId = false ∧ ∀ p ∈ s.committed, p.1 ≠ actId := by
  have hnew : actId ∈ newIds s.sections := by
    rw [hs, newIds, filterMap_cons, hstage]
    exact mem_cons_self
  refine ⟨?_, fun p hp heq => (h.committed p hp).2 (heq ▸ hnew)⟩
  rw [Bool.eq_false_iff, ne_eq, has_iff, ← List.mem_map]
  exact fun hmem => (nodup_append.mp h.nodup).2.2 _ hmem _ hnew rfl

section

variable (h : OrderInv library lanes₀ s) (hs : s.sections = first :: sections)
include h hs

theorem orderInv_journal (hstage : first.stage = .journal actId command records)
    (hgo : s.goOn library (.journal actId command records) answer = some s') :
    OrderInv library lanes₀ s' := by
  have hidle : ∀ r, ¬first.stage.Attends r := by
    rw [hstage]
    exact fun _ => id
  have hne : first.stage ≠ .recover := by
    rw [hstage]
    nofun
  obtain ⟨hfree, hfresh⟩ := fresh_of_journal h.sections hs hstage
  cases answer with
  | ok =>
    cases hgo
    have hrecords : records = openRecords s.journal := by
      have hheld := h.sections.held first (by rw [hs]; rfl)
      rwa [hstage] at hheld
    subst hrecords
    obtain ⟨hopen, hqueue⟩ := queueInv_journal h.queue hfree hfresh rfl
    refine ⟨hqueue.runQueue, sectionInv_runQueue h.sections hs hne rfl rfl ?_ rfl rfl hopen.symm⟩
    have hfirst : newIds [first] = [actId] := by
      rw [newIds, filterMap_cons, hstage]
      rfl
    rw [hfirst]
    exact map_actId_write h.queue hfree rfl
  | fail =>
    cases hgo
    exact orderInv_leave h hs hne hidle
  | _ => cases hgo

theorem orderInv_recover (hgo : s.goOn library .recover answer = some s') :
    OrderInv library lanes₀ s' := by
  cases answer with
  | ok =>
    have hqueue : QueueInv library lanes₀ { s with recovering := false } :=
      h.queue.of_same rfl rfl rfl rfl rfl
    rw [goOn] at hgo
    split at hgo
    · cases hgo
      refine ⟨hqueue.advance, ?_⟩
      have hsections : ({ s with recovering := false } : ContactOrder ν).sections =
          first :: sections := hs
      rw [advance_eq hsections]
      refine h.sections.of_head (some { first with stage := .recovering }) hs rfl rfl
        ((List.Sublist.refl _).append (nil_sublist _)) (fun a ha => ?_)
        (fun p hp => .inl hp) (fun hset => nomatch hset) (fun first' hfirst' => ?_)
        fun _ r _ => ?_
      · cases ha
      · cases hfirst'
        exact trivial
      · exact .inl ⟨_, rfl, trivial⟩
    · next hstopped =>
      cases hgo
      exact ⟨hqueue.leave, sectionInv_leave h.sections hs rfl rfl rfl rfl
        (fun hset => nomatch hset) fun hrunning => absurd hrunning hstopped⟩
  | _ => cases hgo

theorem orderInv_recovering (hstage : first.stage = .recovering)
    (hgo : s.goOn library .recovering answer = some s') : OrderInv library lanes₀ s' := by
  have hne : first.stage ≠ .recover := by
    rw [hstage]
    nofun
  cases answer with
  | ok =>
    cases hgo
    exact ⟨h.queue.advance, sectionInv_advance h.sections hs hne nofun (openOrdered_eq h.queue)
      fun _ r hr => .inl ((openOrdered_eq h.queue).symm ▸ hr)⟩
  | fail =>
    cases hgo
    exact orderInv_stayOpen h hs hne
  | _ => cases hgo

theorem orderInv_recovered (hstage : first.stage = .recovered records)
    (hgo : s.goOn library (.recovered records) answer = some s') : OrderInv library lanes₀ s' := by
  have hne : first.stage ≠ .recover := by
    rw [hstage]
    nofun
  have hrecords : records = openRecords s.journal := by
    have hheld := h.sections.held first (by rw [hs]; rfl)
    rwa [hstage] at hheld
  cases answer with
  | ok =>
    cases hgo
    -- The order of what is open can be told.
    rw [hrecords, undecidable_eq_nil h.queue]
    have hall : (openRecords s.journal).filter (fun r => decide (r ∉ ([] : List OrderedRecord))) =
        openRecords s.journal := filter_eq_self.mpr fun _ _ => rfl
    rw [hall]
    exact ⟨h.queue.runQueue, sectionInv_runQueue h.sections hs hne rfl rfl
      (sublist_append_left _ _) rfl rfl rfl⟩
  | fail =>
    cases hgo
    exact orderInv_stayOpen h hs hne
  | _ => cases hgo

theorem orderInv_attempt (hstage : first.stage = .attempt record rest)
    (hgo : s.goOn library (.attempt record rest) answer = some s') :
    OrderInv library lanes₀ s' := by
  have hne : first.stage ≠ .recover := by
    rw [hstage]
    nofun
  have hopen : record :: rest = openRecords s.journal := by
    have hheld := h.sections.held first (by rw [hs]; rfl)
    rwa [hstage] at hheld
  have hall : ∀ r ∈ openRecords s.journal, r ∈ record :: rest := fun r hr => by rwa [hopen]
  cases answer with
  | ok =>
    rw [goOn] at hgo
    split at hgo
    · split at hgo
      · next hparts =>
        cases hgo
        refine ⟨h.queue.advance, sectionInv_advance h.sections hs hne nofun ⟨hopen, .inr ?_⟩
          fun _ r hr => .inl (hall r hr)⟩
        rw [hparts]
        nofun
      · next act acts hparts =>
        cases hgo
        exact ⟨h.queue.advance, sectionInv_advance h.sections hs hne nofun
          ⟨hopen, [], hparts, nofun⟩ fun _ r hr => .inl (hall r hr)⟩
    · next hstopped =>
      cases hgo
      exact orderInv_locked h hs hne hstopped
  | _ => cases hgo

end

theorem OrderStage.Held.mono {journal : IntentStore OrderedCommand}
    {committed committed' : List (ActId × PartSuffix)} (hsub : committed ⊆ committed')
    (h : stage.Held journal committed) : stage.Held journal committed' := by
  cases stage with
  | part record act acts partly rest =>
    obtain ⟨hopen, before, hparts, hbefore⟩ := h
    exact ⟨hopen, before, hparts, fun part hpart => hsub (hbefore part hpart)⟩
  | finish record outcome rest =>
    exact ⟨h.1, h.2.imp_right fun hall part hpart => hsub (hall part hpart)⟩
  | _ => exact h

section

variable {act : PartSuffix × LibraryAct}

theorem subset_commit : s.committed ⊆ (s.commit library actId act).committed := by
  rw [commit]
  split
  · exact List.Subset.refl _
  · exact subset_append_left _ _

theorem mem_commit : (actId, act.1) ∈ (s.commit library actId act).committed := by
  rw [commit]
  split
  · next hmem => exact hmem
  · exact mem_append_right _ (mem_singleton_self _)

theorem commit_journal : (s.commit library actId act).journal = s.journal := by
  rw [commit]
  split <;> rfl

theorem commit_sections : (s.commit library actId act).sections = s.sections := by
  rw [commit]
  split <;> rfl

theorem sectionInv_commit (h : SectionInv s) (hrecord : record ∈ openRecords s.journal) :
    SectionInv (s.commit library record.actId act) := by
  have hsub : s.committed ⊆ (s.commit library record.actId act).committed := subset_commit
  have hheld := fun first hfirst => (h.held first hfirst).mono hsub
  rw [commit] at hheld ⊢
  split
  · exact h
  next hnot =>
  rw [if_neg hnot] at hheld
  refine ⟨h.nodup, h.fresh, fun p hp => ?_, h.waiting, h.recovering, hheld, h.attended⟩
  rcases mem_append.mp hp with hold | hnew
  · exact h.committed p hold
  cases mem_singleton.mp hnew
  have hid : record.actId ∈ journaledIds s.journal :=
    mem_map_of_mem (mem_openRecords.mp hrecord).1
  exact ⟨h.fresh _ (mem_append_left _ hid),
    fun hmem => (nodup_append.mp h.nodup).2.2 _ hid _ hmem rfl⟩

end

section

variable (h : OrderInv library lanes₀ s)
include h

section

variable (hs : s.sections = first :: sections)
include hs

theorem orderInv_part {act : PartSuffix × LibraryAct} {acts : List (PartSuffix × LibraryAct)}
    {partly : Bool}
    (hstage : first.stage = .part record act acts partly rest)
    (hgo : s.goOn library (.part record act acts partly rest) answer = some s') :
    OrderInv library lanes₀ s' := by
  have hne : first.stage ≠ .recover := by
    rw [hstage]
    nofun
  have hheld := h.sections.held first (by rw [hs]; rfl)
  rw [hstage] at hheld
  obtain ⟨hopen, before, hparts, hbefore⟩ := hheld
  have hall : ∀ r ∈ openRecords s.journal, r ∈ record :: rest := fun r hr => by rwa [hopen]
  -- The state that the act leaves where it commits.
  have hcommit : OrderInv library lanes₀ (s.commit library record.actId act) :=
    ⟨queueInv_commit h.queue hopen hparts hbefore,
      sectionInv_commit h.sections (hopen ▸ mem_cons_self)⟩
  have hs₁ : (s.commit library record.actId act).sections = first :: sections :=
    commit_sections.trans hs
  have hopen₁ : record :: rest = openRecords (s.commit library record.actId act).journal := by
    rwa [commit_journal]
  have hall₁ : ∀ r ∈ openRecords (s.commit library record.actId act).journal, r ∈ record :: rest :=
    fun r hr => by rwa [hopen₁]
  have hbefore₁ : ∀ part ∈ before ++ [act],
      (record.actId, part.1) ∈ (s.commit library record.actId act).committed := by
    intro part hpart
    rcases mem_append.mp hpart with hold | hnew
    · exact subset_commit (hbefore part hold)
    · cases mem_singleton.mp hnew
      exact mem_commit
  have hmark : OrderInv library lanes₀ (s.advance (.markOpen record)) :=
    ⟨h.queue.advance, sectionInv_advance h.sections hs hne nofun ⟨rest, hopen⟩
      fun _ _ _ => .inl trivial⟩
  cases answer with
  | ok =>
    cases acts with
    | nil =>
      cases hgo
      refine ⟨hcommit.queue.advance, sectionInv_advance hcommit.sections hs₁ hne nofun
        ⟨hopen₁, .inr ?_⟩ fun _ r hr => .inl (hall₁ r hr)⟩
      rw [hparts]
      exact hbefore₁
    | cons next acts =>
      cases hgo
      refine ⟨hcommit.queue.advance, sectionInv_advance hcommit.sections hs₁ hne nofun
        ⟨hopen₁, before ++ [act], ?_, hbefore₁⟩ fun _ r hr => .inl (hall₁ r hr)⟩
      rw [hparts, append_assoc, singleton_append]
  | fail =>
    cases hgo
    exact hmark
  | failCommitted =>
    cases hgo
    exact ⟨hcommit.queue.advance, sectionInv_advance hcommit.sections hs₁ hne nofun
      ⟨rest, hopen₁⟩ fun _ _ _ => .inl trivial⟩
  | refuse transient =>
    rw [goOn] at hgo
    split at hgo
    · cases hgo
    split at hgo
    · cases hgo
      exact hmark
    cases hgo
    exact ⟨h.queue.advance, sectionInv_advance h.sections hs hne nofun ⟨hopen, .inl rfl⟩
      fun _ r hr => .inl (hall r hr)⟩

theorem orderInv_markOpen (hstage : first.stage = .markOpen record)
    (hgo : s.goOn library (.markOpen record) answer = some s') : OrderInv library lanes₀ s' := by
  have hne : first.stage ≠ .recover := by
    rw [hstage]
    nofun
  have hheld := h.sections.held first (by rw [hs]; rfl)
  rw [hstage] at hheld
  obtain ⟨rest, hopen⟩ := hheld
  cases answer with
  | ok =>
    cases hgo
    obtain ⟨-, hids, hqueue⟩ := queueInv_markOpen h.queue hopen (openWrite record) rfl rfl rfl rfl
    exact ⟨hqueue.stayOpen, sectionInv_stayOpen h.sections hs hne rfl rfl hids rfl rfl⟩
  | fail =>
    cases hgo
    exact orderInv_stayOpen h hs hne
  | _ => cases hgo

theorem orderInv_finish {outcome : IntentOutcome}
    (hstage : first.stage = .finish record outcome rest)
    (hgo : s.goOn library (.finish record outcome rest) answer = some s') :
    OrderInv library lanes₀ s' := by
  have hne : first.stage ≠ .recover := by
    rw [hstage]
    nofun
  have hheld := h.sections.held first (by rw [hs]; rfl)
  rw [hstage] at hheld
  obtain ⟨hopen, houtcome⟩ := hheld
  cases answer with
  | ok =>
    cases hgo
    obtain ⟨hrest, hids, hqueue⟩ := queueInv_finish h.queue hopen (doneWrite s.now outcome record)
      (if outcome = .refused then s.refusals ++ [record.actId] else s.refusals) rfl rfl
      fun hnone => by
        split at hnone
        · simp at hnone
        · next hok => exact ⟨hnone, houtcome.resolve_left hok⟩
    refine ⟨hqueue.runQueue, sectionInv_runQueue h.sections hs hne rfl rfl ?_ rfl rfl hrest.symm⟩
    show List.Sublist ((s.journal.put _).rows.map (·.actId)) _
    rw [hids]
    exact sublist_append_left _ _
  | fail =>
    cases hgo
    exact orderInv_stayOpen h hs hne
  | _ => cases hgo

theorem orderInv_goOn (hgo : s.goOn library first.stage answer = some s') :
    OrderInv library lanes₀ s' := by
  cases hstage : first.stage with
  | taken actId command => exact orderInv_taken h hs hstage (hstage ▸ hgo)
  | journal actId command records => exact orderInv_journal h hs hstage (hstage ▸ hgo)
  | recover => exact orderInv_recover h hs (hstage ▸ hgo)
  | recovering => exact orderInv_recovering h hs hstage (hstage ▸ hgo)
  | recovered records => exact orderInv_recovered h hs hstage (hstage ▸ hgo)
  | attempt record rest => exact orderInv_attempt h hs hstage (hstage ▸ hgo)
  | part record act acts partly rest => exact orderInv_part h hs hstage (hstage ▸ hgo)
  | markOpen record => exact orderInv_markOpen h hs hstage (hstage ▸ hgo)
  | finish record outcome rest => exact orderInv_finish h hs hstage (hstage ▸ hgo)

end

end

end

/-! ## 9. Whole runs -/

variable {i : OrderInput}

theorem runInProgress_append {sections : List OrderSection} (h : s.RunInProgress r)
    (hs' : s'.sections = s.sections ++ sections) : s'.RunInProgress r := by
  obtain ⟨first, hfirst, hattends⟩ := h
  refine ⟨first, ?_, hattends⟩
  rw [hs', head?_append, mem_def.mp hfirst]
  rfl

theorem sectionInv_append (h : SectionInv s) (new : OrderSection)
    (hs' : s'.sections = s.sections ++ [new]) (hwaiting : new.stage.Waiting)
    (hjournal : s'.journal = s.journal) (hcommitted : s'.committed = s.committed)
    (hnext : s.nextActId ≤ s'.nextActId)
    (hid : ∀ a ∈ newIds [new], a = s.nextActId ∧ s.nextActId < s'.nextActId)
    (hnodup : (newIds [new]).Nodup)
    (hrecovering : s'.recovering = true → s.recovering = true ∨ new.stage = .recover)
    (hattended : s'.running = true → ∀ r ∈ openRecords s'.journal,
      s'.RunInProgress r ∨ s'.RecoveryPlanned) : SectionInv s' := by
  have hsplit : newIds s'.sections = newIds s.sections ++ newIds [new] := by
    rw [hs', newIds, filterMap_append]
    rfl
  refine ⟨?_, fun a ha => ?_, fun p hp => ?_, fun later hlater => ?_, fun hset => ?_,
    fun first hfirst => ?_, hattended⟩
  · rw [hjournal, hsplit, ← append_assoc]
    refine nodup_append.mpr ⟨h.nodup, hnodup, fun a ha b hb heq => ?_⟩
    have hlt := h.fresh a ha
    rw [heq, (hid b hb).1] at hlt
    exact Nat.lt_irrefl _ hlt
  · rw [hjournal, hsplit, ← append_assoc] at ha
    rcases mem_append.mp ha with hold | hnew
    · exact Nat.lt_of_lt_of_le (h.fresh a hold) hnext
    · exact (hid a hnew).1 ▸ (hid a hnew).2
  · rw [hcommitted] at hp
    obtain ⟨hlt, hnot⟩ := h.committed p hp
    refine ⟨Nat.lt_of_lt_of_le hlt hnext, fun hmem => ?_⟩
    rw [hsplit] at hmem
    rcases mem_append.mp hmem with hold | hnew
    · exact hnot hold
    · rw [(hid _ hnew).1] at hlt
      exact Nat.lt_irrefl _ hlt
  · rw [hs'] at hlater
    rcases hsections : s.sections with _ | ⟨first, rest⟩
    · rw [hsections] at hlater
      cases hlater
    rw [hsections, cons_append, tail_cons] at hlater
    rcases mem_append.mp hlater with hold | hnew
    · exact h.waiting later (by rwa [hsections])
    · exact mem_singleton.mp hnew ▸ hwaiting
  · rw [hs']
    rcases hrecovering hset with hset | hnew
    · obtain ⟨waits, hwaits, hstage⟩ := h.recovering hset
      exact ⟨waits, mem_append_left _ hwaits, hstage⟩
    · exact ⟨new, mem_append_right _ (mem_singleton_self _), hnew⟩
  · rw [hs', head?_append] at hfirst
    cases hsections : s.sections with
    | nil =>
      rw [hsections] at hfirst
      cases hfirst
      exact hwaiting.held _ _
    | cons first' rest =>
      rw [hsections] at hfirst
      cases hfirst
      rw [hjournal, hcommitted]
      exact h.held first (by rw [hsections]; rfl)

theorem SectionInv.of_same (h : SectionInv s) (hs' : s'.sections = s.sections)
    (hids : List.Sublist (journaledIds s'.journal) (journaledIds s.journal))
    (hopen : openRecords s'.journal = openRecords s.journal)
    (hcommitted : s'.committed = s.committed) (hnext : s'.nextActId = s.nextActId)
    (hrecovering : s'.recovering = true → s.recovering = true)
    (hattended : s'.running = true → ∀ r ∈ openRecords s'.journal,
      s'.RunInProgress r ∨ s'.RecoveryPlanned) : SectionInv s' := by
  have hsub : List.Sublist (journaledIds s'.journal ++ newIds s'.sections)
      (journaledIds s.journal ++ newIds s.sections) := by
    rw [hs']
    exact hids.append_right _
  refine ⟨h.nodup.sublist hsub, fun a ha => hnext ▸ h.fresh a (hsub.subset ha), fun p hp => ?_,
    hs' ▸ h.waiting, fun hset => hs' ▸ h.recovering (hrecovering hset), fun first hfirst => ?_,
    hattended⟩
  · rw [hnext, hs']
    exact h.committed p (hcommitted ▸ hp)
  have hheld := h.held first (hs' ▸ hfirst)
  rw [hcommitted]
  cases hstage : first.stage <;> rw [hstage] at hheld <;>
    first | exact trivial | (simp only [OrderStage.Held, hopen] at hheld ⊢; exact hheld)

section

variable (h : OrderInv library lanes₀ s)
include h

theorem orderInv_recoverOrdered (hs' : s'.sections = s.sections)
    (hjournal : s'.journal = s.journal) (hlanes : s'.lanes = s.lanes)
    (hcommitted : s'.committed = s.committed) (htaken : s'.taken = s.taken)
    (hrefusals : s'.refusals = s.refusals) (hnext : s'.nextActId = s.nextActId)
    (hrecovering : s'.recovering = s.recovering) : OrderInv library lanes₀ s'.recoverOrdered := by
  have hqueue : QueueInv library lanes₀ s' :=
    h.queue.of_same hjournal hlanes hcommitted htaken hrefusals
  rw [recoverOrdered]
  split
  · next hset =>
    obtain ⟨waits, hwaits, hstage⟩ := h.sections.recovering (hrecovering ▸ hset)
    refine ⟨hqueue, h.sections.of_same hs' (hjournal ▸ List.Sublist.refl _)
      (congrArg openRecords hjournal) hcommitted hnext (fun hset => hrecovering ▸ hset)
      fun _ r _ => ?_⟩
    exact .inr (.inr (.inr (.inr ⟨waits, hs' ▸ hwaits, hstage⟩)))
  · refine ⟨hqueue.of_same rfl rfl rfl rfl rfl, sectionInv_append h.sections ⟨none, .recover⟩
      (congrArg (· ++ _) hs') trivial hjournal hcommitted (Nat.le_of_eq hnext.symm) nofun
      nodup_nil (fun _ => .inr rfl) fun _ r _ => ?_⟩
    exact .inr (.inr (.inr (.inr
      ⟨⟨none, .recover⟩, mem_append_right _ (mem_singleton_self _), rfl⟩)))

theorem orderInv_gesture : OrderInv library lanes₀ { s with
      sections := s.sections ++ [⟨some s.nextActId, .taken s.nextActId command⟩]
      lastTaken := some (command, s.nextActId)
      nextActId := s.nextActId + 1 } := by
  refine ⟨h.queue.of_same rfl rfl rfl rfl rfl, sectionInv_append h.sections
    ⟨some s.nextActId, .taken s.nextActId command⟩ rfl trivial rfl rfl (Nat.le_succ _)
    (fun a ha => ?_) (nodup_singleton _) .inl fun hrunning r hr => ?_⟩
  · exact ⟨mem_singleton.mp ha, Nat.lt_succ_self _⟩
  rcases h.sections.attended hrunning r hr with hrun | hp | hp | hp | ⟨waits, hwaits, hstage⟩
  · exact .inl (runInProgress_append hrun rfl)
  · exact .inr (.inl hp)
  · exact .inr (.inr (.inl hp))
  · exact .inr (.inr (.inr (.inl hp)))
  · exact .inr (.inr (.inr (.inr ⟨waits, mem_append_left _ hwaits, hstage⟩)))

theorem orderInv_replays (hs' : s'.sections = s.sections)
    (hjournal : s'.journal = s.journal) (hlanes : s'.lanes = s.lanes)
    (hcommitted : s'.committed = s.committed) (htaken : s'.taken = s.taken)
    (hrefusals : s'.refusals = s.refusals) (hnext : s'.nextActId = s.nextActId)
    (hrecovering : s'.recovering = s.recovering)
    (hreplays : s'.replays = s.replays ++ [!(openRecords s.journal).isEmpty]) :
    OrderInv library lanes₀ s' := by
  refine ⟨h.queue.of_same hjournal hlanes hcommitted htaken hrefusals,
    h.sections.of_same hs' (hjournal ▸ List.Sublist.refl _) (congrArg openRecords hjournal)
      hcommitted hnext (fun hset => hrecovering ▸ hset) fun _ r hr => ?_⟩
  refine .inr (.inr (.inr (.inl ?_)))
  rw [hreplays]
  refine mem_append_right _ (mem_singleton.mpr ?_)
  rw [hjournal] at hr
  cases hopen : openRecords s.journal with
  | nil =>
    rw [hopen] at hr
    cases hr
  | cons x rest => rfl

end

section

variable (h : OrderInv library lanes₀ s)
include h

theorem orderInv_replay {k : Nat} {met : Bool} (hk : s.replays[k]? = some met) :
    OrderInv library lanes₀ (let s' := { s with replays := s.replays.eraseIdx k }
      if met then s'.recoverOrdered else s') := by
  cases met with
  | true => exact orderInv_recoverOrdered h rfl rfl rfl rfl rfl rfl rfl rfl
  | false =>
    refine ⟨h.queue.of_same rfl rfl rfl rfl rfl, h.sections.of_same rfl (List.Sublist.refl _) rfl
      rfl rfl id fun hrunning r hr => ?_⟩
    rcases h.sections.attended hrunning r hr with hrun | hp | hp | hp | hp
    · exact .inl hrun
    · exact .inr (.inl hp)
    · exact .inr (.inr (.inl hp))
    · obtain ⟨j, hj⟩ := mem_iff_getElem?.mp hp
      have hne : j ≠ k := by
        rintro rfl
        rw [hk] at hj
        cases hj
      exact .inr (.inr (.inr (.inl (mem_eraseIdx_iff_getElem?.mpr ⟨j, hne, hj⟩))))
    · exact .inr (.inr (.inr (.inr hp)))

theorem orderInv_purge (hget : s.journal.get? actId = some r) (hclosed : r.isOpen = false) :
    OrderInv library lanes₀ { s with journal := s.journal.erase actId } := by
  obtain ⟨hopen, hqueue⟩ := queueInv_purge h.queue hget hclosed
  refine ⟨hqueue, h.sections.of_same rfl (filter_sublist.map _) hopen rfl rfl id
    fun hrunning x hx => ?_⟩
  exact h.sections.attended hrunning x (hopen ▸ hx)

theorem orderInv_stop :
    OrderInv library lanes₀ { s with running := false, opening := false, planned := false } :=
  ⟨h.queue.of_same rfl rfl rfl rfl rfl, h.sections.of_same rfl (List.Sublist.refl _) rfl rfl rfl id
    nofun⟩

omit h in
theorem sectionInv_nil (h : SectionInv s) (hs' : s'.sections = [])
    (hids : List.Sublist (journaledIds s'.journal) (journaledIds s.journal))
    (hcommitted : s'.committed = s.committed) (hnext : s'.nextActId = s.nextActId)
    (hrecovering : s'.recovering = false)
    (hattended : s'.running = true → s'.opening = true) : SectionInv s' := by
  have hsub : List.Sublist (journaledIds s'.journal ++ newIds s'.sections)
      (journaledIds s.journal ++ newIds s.sections) := by
    rw [hs']
    exact hids.append (nil_sublist _)
  refine ⟨h.nodup.sublist hsub, fun a ha => hnext ▸ h.fresh a (hsub.subset ha), fun p hp => ?_,
    by simp [hs'], fun hset => ?_, by simp [hs'], fun hrunning r _ => ?_⟩
  · rw [hs', hnext]
    exact ⟨(h.committed p (hcommitted ▸ hp)).1, not_mem_nil⟩
  · rw [hrecovering] at hset
    cases hset
  · exact .inr (.inr (.inl (hattended hrunning)))

theorem orderInv_crash : OrderInv library lanes₀ { s with
    running := false
    opening := false
    planned := false
    sections := []
    lastTaken := none
    recovering := false
    replays := [] } :=
  ⟨h.queue.of_same rfl rfl rfl rfl rfl,
    sectionInv_nil h.sections rfl (List.Sublist.refl _) rfl rfl rfl nofun⟩

theorem orderInv_reopen (hs : s.sections = []) : OrderInv library lanes₀ { s with
      journal := dropInvalid s.journal (undecidable (openOrdered s.journal))
      running := true
      opening := true
      recovering := false
      planned := false
      replays := [] } := by
  have hdrop : dropInvalid s.journal (undecidable (openOrdered s.journal)) = s.journal := by
    rw [openOrdered_eq h.queue, undecidable_eq_nil h.queue]
    rfl
  rw [hdrop]
  exact ⟨h.queue.of_same rfl rfl rfl rfl rfl,
    sectionInv_nil h.sections hs (List.Sublist.refl _) rfl rfl rfl fun _ => rfl⟩

omit h in
theorem orderInv_start : OrderInv library lanes₀ (.start lanes₀) := by
  refine ⟨⟨List.Pairwise.nil, ?_, fun _ => rfl⟩, ?_⟩
  · simp [start, openRecords]
  · constructor <;> simp [start, journaledIds, newIds]

theorem orderInv_step (hs : orderStep library s i = some s') : OrderInv library lanes₀ s' := by
  cases i with
  | gesture command =>
    rw [orderStep] at hs
    split at hs
    · cases hs
      exact h
    · cases hs
      exact orderInv_gesture h
  | goOn answer =>
    rw [orderStep] at hs
    split at hs
    · cases hs
    · next hsections => exact orderInv_goOn h hsections hs
  | timer =>
    rw [orderStep] at hs
    split at hs
    · cases hs
      exact orderInv_recoverOrdered h rfl rfl rfl rfl rfl rfl rfl rfl
    · cases hs
  | retry =>
    cases hs
    exact orderInv_recoverOrdered h rfl rfl rfl rfl rfl rfl rfl rfl
  | due ok =>
    rw [orderStep] at hs
    split at hs
    · cases hs
    split at hs
    · cases hs
      exact orderInv_replays h rfl rfl rfl rfl rfl rfl rfl rfl rfl
    · cases hs
      exact h
  | replayOpen =>
    rw [orderStep] at hs
    split at hs
    · cases hs
      exact orderInv_replays h rfl rfl rfl rfl rfl rfl rfl rfl rfl
    · cases hs
  | replay k =>
    rw [orderStep] at hs
    split at hs
    · cases hs
    next hk =>
    cases hs
    exact orderInv_replay h hk
  | purge actId =>
    rw [orderStep] at hs
    split at hs
    · cases hs
    next hget =>
    split at hs
    · next hfinished =>
      cases hs
      exact orderInv_purge h hget hfinished.1
    · cases hs
  | tick ms =>
    cases hs
    exact ⟨h.queue.of_same rfl rfl rfl rfl rfl, h.sections.of_same rfl (List.Sublist.refl _) rfl rfl
      rfl id h.sections.attended⟩
  | stop =>
    cases hs
    exact orderInv_stop h
  | crash =>
    cases hs
    exact orderInv_crash h
  | reopen =>
    rw [orderStep] at hs
    split at hs
    · cases hs
    next hclosed =>
    cases hs
    refine orderInv_reopen h ?_
    by_contra hne
    exact hclosed (.inr hne)

end

/-! ## 10. The contact order -/

theorem last_taken {taken : List OrderedCommand} (h : lastFor lane taken = some command) :
    last (command.updates library) lane = some (applyEach (updates library) taken lanes₀ lane) := by
  induction taken using reverseRecOn with
  | nil => cases h
  | append_singleton taken last ih =>
    rw [taken_updates, applyAll_eq, apply]
    rw [lastFor, reverse_append, reverse_singleton, singleton_append,
      find?_cons] at h
    by_cases hlane : lane ∈ last.lanes
    · have hset : ∃ u ∈ last.updates library, (u lane).isSome = true := updates_isSome.mp hlane
      rw [decide_eq_true hlane] at h
      cases h
      obtain ⟨v, hv⟩ := isSome_iff_exists.mp (last_isSome.mpr hset)
      rw [hv, getD_some]
    rw [decide_eq_false hlane] at h
    have hnone : Overwrite.last (last.updates library) lane = none := by
      rw [← not_isSome_iff_eq_none, last_isSome, ← updates_isSome]
      exact hlane
    rw [hnone, getD_none]
    exact ih h

theorem advance_journal {stage : OrderStage} : (s.advance stage).journal = s.journal := by
  rw [advance]
  split <;> rfl

theorem leave_journal : s.leave.journal = s.journal := by
  rw [leave]
  split <;> rfl

theorem stayOpen_journal : s.stayOpen.journal = s.journal := by
  rw [stayOpen, planOrdered_eq, leave_journal]

theorem runQueue_journal : (s.runQueue records).journal = s.journal := by
  cases records with
  | nil => exact leave_journal
  | cons record rest => exact advance_journal

theorem recoverOrdered_journal : s.recoverOrdered.journal = s.journal := by
  rw [recoverOrdered]
  split <;> rfl

theorem get?_endSuperseded {journal : IntentStore OrderedCommand}
    (hone : ∀ x ∈ records, x.actId = r.actId → x = r) :
    (endSuperseded now records journal).get? r.actId =
      if r ∈ records then some (supersededWrite now r) else journal.get? r.actId := by
  induction records generalizing journal with
  | nil => rfl
  | cons x records ih =>
    rw [endSuperseded, foldl_cons]
    refine (ih fun y hy => hone y (mem_cons_of_mem _ hy)).trans ?_
    rw [get?_put]
    by_cases hid : x.actId = r.actId
    · have heq := hone x mem_cons_self hid
      subst heq
      simp [supersededWrite]
    · have hne : r ≠ x := fun heq => hid (heq ▸ rfl)
      simp [supersededWrite, hid, hne]

/-- How an open record ends: by its own run, or in the write of a newer one that covers it. -/
def EndsInOrder (s s' : ContactOrder ν) (r : OrderedRecord) : Prop :=
  (∃ first ∈ s.sections.head?, ∃ outcome rest, first.stage = .finish r outcome rest) ∨
    ∃ newer ∈ openRecords s'.journal, s.journal.has newer.actId = false ∧
      r.place < newer.place ∧ covers newer.gesture.lanes r = true ∧
      s'.journal.get? r.actId = some (supersededWrite s.now r)

theorem endsInOrder_journal (h : QueueInv library lanes₀ s)
    (hfree : s.journal.has actId = false) (hr : r ∈ openRecords s.journal)
    (hd : dedupe actId command s.now (openRecords s.journal) = d)
    (hs' : s'.journal = d.write s.now s.journal)
    (hgone : ∀ x ∈ openRecords s'.journal, x.actId ≠ r.actId) : EndsInOrder s s' r := by
  rw [hs'] at hgone
  cases hsame : sameGesture command (openRecords s.journal) with
  | some same =>
    rw [write_same h hsame hd] at hgone
    exact absurd rfl (hgone r hr)
  | none =>
    obtain ⟨-, hrecord, hsuperseded, hahead⟩ := dedupe_new hsame hd
    obtain ⟨hhas, hwrite, hstill⟩ := write_new hfree hsame hd
    rw [openRecords_write hfree hsame hd] at hgone
    have hcovers : covers command.lanes r = true := by
      by_contra hnot
      refine hgone r (mem_append_left _ ?_) rfl
      rw [hahead]
      exact mem_filter.mpr ⟨hr, by simpa using hnot⟩
    refine .inr ⟨d.record, ?_, ?_, ?_, ?_, ?_⟩
    · rw [hs', openRecords_write hfree hsame hd]
      exact mem_append_right _ (mem_singleton_self _)
    · rw [hrecord]
      exact hfree
    · rw [hrecord]
      exact Nat.lt_succ_of_le (place_le_last h hr)
    · rw [hrecord]
      exact hcovers
    · have hne : d.record.actId ≠ r.actId := by
        intro heq
        rw [hrecord] at heq
        rw [show actId = r.actId from heq, has_of_mem_openRecords hr] at hfree
        cases hfree
      have hmem : r ∈ d.superseded := by
        rw [hsuperseded]
        exact mem_filter.mpr ⟨hr, hcovers⟩
      rw [hs', hwrite, get?_put, if_neg hne, get?_endSuperseded fun x hx hid => ?_, if_pos hmem]
      rw [hsuperseded] at hx
      exact eq_of_actId_eq (mem_filter.mp hx).1 hr hid

theorem goOn_journal {stage : OrderStage} {answer : OrderAnswer}
    (hgo : s.goOn library stage answer = some s')
    (hstage : match stage with
      | .journal _ _ _ | .recovered _ | .markOpen _ | .finish _ _ _ => False
      | _ => True) : s'.journal = s.journal := by
  cases stage with
  | taken actId command =>
    cases answer <;> simp only [goOn, reduceCtorEq] at hgo
    · split at hgo <;> cases hgo
      · exact advance_journal
      · exact leave_journal
    · cases hgo
      exact leave_journal
  | recover =>
    cases answer <;> simp only [goOn, reduceCtorEq] at hgo
    split at hgo <;> cases hgo
    · exact advance_journal
    · exact leave_journal
  | recovering =>
    cases answer <;> cases hgo
    · exact advance_journal
    · exact stayOpen_journal
  | attempt record rest =>
    cases answer <;> simp only [goOn, reduceCtorEq] at hgo
    split at hgo
    · split at hgo <;> cases hgo <;> exact advance_journal
    · cases hgo
      exact leave_journal
  | part record act acts partly rest =>
    cases answer with
    | ok =>
      cases acts <;> cases hgo <;> exact advance_journal.trans commit_journal
    | fail =>
      cases hgo
      exact advance_journal
    | failCommitted =>
      cases hgo
      exact advance_journal.trans commit_journal
    | refuse transient =>
      rw [goOn] at hgo
      split at hgo
      · cases hgo
      · split at hgo <;> cases hgo <;> exact advance_journal
  | journal actId command records | recovered records | markOpen record
  | finish record outcome rest => cases hstage

theorem endsInOrder_goOn {first : OrderSection} {sections : List OrderSection}
    {answer : OrderAnswer} (h : OrderInv library lanes₀ s)
    (hs : s.sections = first :: sections) (hgo : s.goOn library first.stage answer = some s')
    (hr : r ∈ openRecords s.journal)
    (hgone : ∀ x ∈ openRecords s'.journal, x.actId ≠ r.actId) : EndsInOrder s s' r := by
  have hkept (hjournal : s'.journal = s.journal) : EndsInOrder s s' r :=
    absurd rfl (hgone r (hjournal ▸ hr))
  have hheld := h.sections.held first (by rw [hs]; rfl)
  cases hstage : first.stage with
  | journal actId command records =>
    rw [hstage] at hheld hgo
    cases answer with
    | ok =>
      cases hgo
      obtain ⟨hfree, -⟩ := fresh_of_journal h.sections hs hstage
      have hrecords : records = openRecords s.journal := hheld
      subst hrecords
      exact endsInOrder_journal h.queue hfree hr rfl runQueue_journal hgone
    | fail =>
      cases hgo
      exact hkept leave_journal
    | _ => cases hgo
  | recovered records =>
    rw [hstage] at hheld hgo
    have hrecords : records = openRecords s.journal := hheld
    cases answer with
    | ok =>
      cases hgo
      refine hkept (runQueue_journal.trans ?_)
      rw [hrecords, undecidable_eq_nil h.queue]
      rfl
    | fail =>
      cases hgo
      exact hkept stayOpen_journal
    | _ => cases hgo
  | markOpen record =>
    rw [hstage] at hheld hgo
    obtain ⟨rest, hopen⟩ := hheld
    cases answer with
    | ok =>
      cases hgo
      obtain ⟨hput, -, -⟩ := queueInv_markOpen h.queue hopen (openWrite record) rfl rfl rfl rfl
      rw [stayOpen_journal, hput] at hgone
      rw [← hopen] at hr
      rcases mem_cons.mp hr with rfl | hrest
      · exact (hgone _ mem_cons_self rfl).elim
      · exact absurd rfl (hgone r (mem_cons_of_mem _ hrest))
    | fail =>
      cases hgo
      exact hkept stayOpen_journal
    | _ => cases hgo
  | finish record outcome rest =>
    rw [hstage] at hheld hgo
    obtain ⟨hopen, -⟩ := hheld
    cases answer with
    | ok =>
      cases hgo
      rw [runQueue_journal] at hgone
      dsimp only at hgone
      rw [openRecords_finish hopen (doneWrite s.now outcome record) rfl rfl] at hgone
      rw [← hopen] at hr
      rcases mem_cons.mp hr with rfl | hrest
      · exact .inl ⟨first, by rw [hs]; rfl, outcome, rest, hstage⟩
      · exact absurd rfl (hgone r hrest)
    | fail =>
      cases hgo
      exact hkept stayOpen_journal
    | _ => cases hgo
  | _ =>
    rw [hstage] at hgo
    exact hkept (goOn_journal hgo trivial)

theorem endsInOrder_step (h : OrderInv library lanes₀ s) (hs : orderStep library s i = some s')
    (hr : r ∈ openRecords s.journal)
    (hgone : ∀ x ∈ openRecords s'.journal, x.actId ≠ r.actId) : EndsInOrder s s' r := by
  have hkept (hjournal : s'.journal = s.journal) : EndsInOrder s s' r :=
    absurd rfl (hgone r (hjournal ▸ hr))
  cases i with
  | goOn answer =>
    rw [orderStep] at hs
    split at hs
    · cases hs
    · next hsections => exact endsInOrder_goOn h hsections hs hr hgone
  | purge actId =>
    rw [orderStep] at hs
    split at hs
    · cases hs
    next hget =>
    split at hs
    · next hfinished =>
      cases hs
      obtain ⟨hopen, -⟩ := queueInv_purge h.queue hget hfinished.1
      exact absurd rfl (hgone r (hopen.symm ▸ hr))
    · cases hs
  | reopen =>
    rw [orderStep] at hs
    split at hs
    · cases hs
    cases hs
    refine hkept ?_
    show dropInvalid s.journal (undecidable (openOrdered s.journal)) = s.journal
    rw [openOrdered_eq h.queue, undecidable_eq_nil h.queue]
    rfl
  | gesture command =>
    rw [orderStep] at hs
    split at hs <;> cases hs <;> exact hkept rfl
  | timer =>
    rw [orderStep] at hs
    split at hs <;> cases hs
    exact hkept recoverOrdered_journal
  | retry =>
    cases hs
    exact hkept recoverOrdered_journal
  | due ok =>
    rw [orderStep] at hs
    split at hs
    · cases hs
    · split at hs <;> cases hs <;> exact hkept rfl
  | replayOpen =>
    rw [orderStep] at hs
    split at hs <;> cases hs
    exact hkept rfl
  | replay k =>
    rw [orderStep] at hs
    split at hs
    · cases hs
    next met hk =>
    cases hs
    cases met with
    | true => exact hkept recoverOrdered_journal
    | false => exact hkept rfl
  | _ =>
    cases hs
    exact hkept rfl

/-- **The contact order**: where nothing is open and nothing was refused for good, each lane has
    what the last gesture that was taken for it asks for; an open record ends in order; the
    record that runs is the oldest open one; and while the opening runs, an open record has a
    run in progress or a recovery to come. -/
theorem contact_order
    (h : Machine.Reaches (orderStep library) (fun _ _ => True) (.start lanes₀) s) :
    (openRecords s.journal = [] → s.refusals = [] →
      ∀ lane command, lastFor lane s.taken = some command →
        last (command.updates library) lane = some (s.lanes lane)) ∧
    (∀ i s' r, orderStep library s i = some s' → r ∈ openRecords s.journal →
      (∀ x ∈ openRecords s'.journal, x.actId ≠ r.actId) → EndsInOrder s s' r) ∧
    (∀ record, s.run? = some record → record ∈ openRecords s.journal ∧
      ∀ r ∈ openRecords s.journal, r ≠ record → record.place < r.place) ∧
    (s.running = true → ∀ r ∈ openRecords s.journal, s.RunInProgress r ∨ s.RecoveryPlanned) := by
  have hinv : OrderInv library lanes₀ s :=
    h.invariant orderInv_start fun _ _ _ hinv _ hs => orderInv_step hinv hs
  refine ⟨fun hopen hrefusals lane command hlast => ?_,
    fun i s' r hs hr hgone => endsInOrder_step hinv hs hr hgone, fun record hrun => ?_,
    hinv.sections.attended⟩
  · have haim := hinv.queue.aim hrefusals
    rw [hopen] at haim
    rw [last_taken hlast, ← haim]
    rfl
  · obtain ⟨first, hfirst, hstage⟩ := bind_eq_some_iff.mp hrun
    have hheld := hinv.sections.held first hfirst
    have hhead : ∃ rest, record :: rest = openRecords s.journal := by
      cases hfirst' : first.stage <;> rw [hfirst'] at hstage hheld <;> cases hstage
      · exact ⟨_, hheld⟩
      · exact ⟨_, hheld.1⟩
      · exact hheld
      · exact ⟨_, hheld.1⟩
    obtain ⟨rest, hopen⟩ := hhead
    exact ⟨hopen ▸ List.mem_cons_self, fun r hr hne => place_lt_of_head hinv.queue hopen hr hne⟩

/-! ## 11. A run -/

def plainLibrary : ContactLibrary ClassSetting where
  set act lane :=
    if lane ∈ act.lanes then
      some (match act with
        | .trust | .block => .on
        | .untrust | .unblock => .off
        | .pauseTrust paused => if paused then .off else .on
        | .setClass _ setting => setting)
    else none
  set_isSome act lane := by
    split <;> simp [*]

/-- The pause of a block fails, a resume that does not cover the block waits behind it, and the
    next opening completes both. -/
theorem contact_order_block : ∃ s,
    Machine.Reaches (orderStep plainLibrary) (fun _ _ => True) (.start fun _ => .default) s ∧
      s.taken = [.block, .setPaused false] ∧ s.lanes .block = .on ∧
      s.lanes (.cls .star) = .on ∧ s.lanes (.cls .groupStar) = .on := by
  obtain ⟨s, hreach, hp⟩ := Machine.Reaches.of_exec (orderStep plainLibrary) (fun _ _ => True)
    (.start fun _ => .default)
    (List.flatten [[.reopen, .due true, .gesture .block], List.replicate 4 (.goOn .ok),
      [.goOn .fail, .goOn .ok, .gesture (.setPaused false), .goOn .ok, .goOn .ok, .crash, .reopen,
        .due true, .replay 0], List.replicate 10 (.goOn .ok)])
    (fun s => decide (openRecords s.journal = [] ∧ s.refusals = [] ∧
      s.taken = [.block, .setPaused false] ∧ s.sections = []))
    (by decide +kernel)
  obtain ⟨hopen, hrefusals, htaken, -⟩ := of_decide_eq_true hp
  have hlast := (contact_order hreach).1 hopen hrefusals
  rw [htaken] at hlast
  exact ⟨s, hreach, htaken, (some.inj (hlast .block .block rfl)).symm,
    (some.inj (hlast (.cls .star) (.setPaused false) rfl)).symm,
    (some.inj (hlast (.cls .groupStar) (.setPaused false) rfl)).symm⟩

end WebOfTrust
