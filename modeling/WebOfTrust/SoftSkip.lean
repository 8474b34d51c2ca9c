/-
  **Soft-skipping a hole** (`log-sync-coordinator.ts`: `recordGapsFromPage`,
  `maybeSoftSkipGap`, `resetForReconnect`).

  A page whose lowest seq of a device lies above the one the client asked for confirms
  that the broker does not have it.  The client notes this in the durable gap record, under
  the epoch of its connection, and skips the hole once it has been seen in three epochs
  and for a minute.

  The epoch starts at zero with every process and counts the calls of `resetForReconnect`.
  The model keeps the real connection next to it, also with every observation.
-/
import WebOfTrust.AsyncFlow
import WebOfTrust.DocLogPort

namespace WebOfTrust

open Async

/-! ## 1. The state -/

/-- One confirmed absence: the record it counts for, and when and where it was seen. -/
structure GapObservation where
  key : String
  connection : Nat
  epoch : Nat
  now : Nat

/-- The coordinator of one document over its durable store.  `connection` and `observed`
    are history variables: the number of the real connection, and the observations that
    the present gap records stand for. -/
structure GapWorld where
  store : DocLogStore
  connectionEpoch : Nat
  connection : Nat
  observed : List GapObservation

namespace GapWorld

def fresh : GapWorld where
  store := .fresh
  connectionEpoch := 0
  connection := 0
  observed := []

variable (w : GapWorld)

def history (key : String) : List GapObservation :=
  w.observed.filter fun o => decide (o.key = key)

/-- The store after a call of its port; the observations of a dropped record go with it. -/
def setStore (store : DocLogStore) : GapWorld :=
  { w with
    store := store
    observed := w.observed.filter fun o => store.gapState.has o.key }

/-- `recordGapObservation`. -/
def observe (docId : DocId) (receivedOn now epoch : Nat) (device : DeviceId)
    (firstMissing brokerMax : Nat) (w : GapWorld) : GapWorld :=
  { w with
    store := w.store.recordGapObservation docId device firstMissing brokerMax epoch now
    observed := w.observed ++ [⟨gapKey docId device firstMissing, receivedOn, epoch, now⟩] }

/-- `markGapSoftSkipped`. -/
def softSkip (docId : DocId) (device : DeviceId) (firstMissing : Nat) (w : GapWorld) : GapWorld :=
  { w with store := w.store.markGapSoftSkipped docId device firstMissing }

def connect : GapWorld := { w with connection := w.connection + 1 }

def resetForReconnect : GapWorld :=
  { w with connectionEpoch := w.connectionEpoch + 1 }

def restart : GapWorld :=
  { w with connectionEpoch := 0, connection := w.connection + 1 }

end GapWorld

def gapSoftSkipMinEpochs : Nat := 3

def gapSoftSkipMinAgeMs : Nat := 60000

/-- Three distinct connections, and a minute between the first observation and some
    other. -/
def confirmedAbsent (history : List GapObservation) : Bool :=
  decide (gapSoftSkipMinEpochs ≤ (history.map (·.connection)).dedup.length) && match history with
    | [] => false
    | first :: _ => history.any fun o => decide (first.now + gapSoftSkipMinAgeMs ≤ o.now)

/-! ## 2. The programs -/

/-- A call that neither notes an observation nor skips a hole; a repair is due again at a
    time that the clock can show. -/
def PortOp.gapNeutral : PortOp → Bool
  | .recordGapObservation .. => false
  | .markGapSoftSkipped .. => false
  | .markGapRepairAttempt _ _ _ nextDueAt => decide (nextDueAt ≤ maxSafeInteger)
  | _ => true

abbrev NeutralOp := { op : PortOp // op.gapNeutral = true }

inductive GapPoint where
  | syncResponse
  | getKnownHeads (receivedOn : Nat)
  | connectionEpoch (receivedOn now : Nat) (device : DeviceId) (firstMissing brokerMax : Nat)
  | recordGapObservation (receivedOn now epoch : Nat) (device : DeviceId)
      (firstMissing brokerMax : Nat)
  | listDueGapRepairs (now : Nat) (device : DeviceId) (firstMissing : Nat)
  | markGapSoftSkipped (device : DeviceId) (firstMissing : Nat)
  | port (op : NeutralOp)
  | connect
  | resetForReconnect

abbrev GapProgram := Async GapPoint Env GapWorld String

def Env.storeCall {α : Type} (env : Env) (w w' : GapWorld) (a : α) : Except String α × GapWorld :=
  match env.failure with
  | some text => (.error text, w)
  | none => (.ok a, w')

section

variable (L : Listing) (docId : DocId)

def findGap (s : DocLogStore) (device : DeviceId) (firstMissing : Nat) : Option GapRepair :=
  (s.listDueGapRepairs maxSafeInteger).find? fun g =>
    decide (g.docId = docId) && decide (g.device = device) && decide (g.firstMissing = firstMissing)

/-- The three tests of `maybeSoftSkipGap`. -/
def GapRepair.skipsAt (gap : GapRepair) (now : Nat) : Bool :=
  !gap.softSkipped && decide (gapSoftSkipMinEpochs ≤ gap.observedEpochs.length) &&
    decide (gap.firstSeenAt + gapSoftSkipMinAgeMs ≤ now)

def maybeSoftSkipGap (device : DeviceId) (firstMissing now : Nat) : GapProgram Unit := do
  let gap ← atomic (.listDueGapRepairs now device firstMissing) fun env w =>
    env.storeCall w w (findGap docId w.store device firstMissing)
  if gap.any fun g => g.skipsAt now then
    atomic (.markGapSoftSkipped device firstMissing) fun env w =>
      env.storeCall w (w.softSkip docId device firstMissing) ()

/-- `recordGapsFromPage`, for one device of the broker's heads. -/
def recordGapOfDevice (receivedOn now : Nat) (known : DocLogStore.Heads)
    (lowestSeqByDevice : DeviceId → Option Nat) (requestCursor : DocLogStore.Heads)
    (brokerHead : DeviceId × Nat) : GapProgram Unit :=
  let (device, brokerMax) := brokerHead
  let cursorHead := (requestCursor device).getD (-1)
  if (known device).isNone then pure ()
  else if cursorHead ≥ brokerMax then pure ()
  else
    let firstMissing := (cursorHead + 1).toNat
    match lowestSeqByDevice device with
    | none => pure ()
    | some pageLowest =>
      if pageLowest ≤ firstMissing then pure ()
      else do
        let epoch ← query (.connectionEpoch receivedOn now device firstMissing brokerMax)
          fun _ w => w.connectionEpoch
        atomic (.recordGapObservation receivedOn now epoch device firstMissing brokerMax)
          fun env w =>
            env.storeCall w (w.observe docId receivedOn now epoch device firstMissing brokerMax) ()
        maybeSoftSkipGap docId device firstMissing now

/-- A page comes in, is applied, and `recordGapsFromPage` looks at it.  What is in the
    page does not matter here. -/
def recordGapsFromPage (brokerHeads : List (DeviceId × Nat))
    (lowestSeqByDevice : DeviceId → Option Nat) (requestCursor : DocLogStore.Heads) :
    GapProgram Unit := do
  let receivedOn ← query .syncResponse fun _ w => w.connection
  let (known, now) ← atomic (.getKnownHeads receivedOn) fun env w =>
    env.storeCall w w (knownHead w.store.entries.rows docId, env.now)
  forEach brokerHeads (recordGapOfDevice docId receivedOn now known lowestSeqByDevice requestCursor)

def portCall (op : NeutralOp) : GapProgram Unit :=
  atomic (.port op) fun env w => env.storeCall w (w.setStore (w.store.perform L op.1).2) ()

inductive GapCall where
  | page (brokerHeads : List (DeviceId × Nat)) (lowestSeqByDevice : DeviceId → Option Nat)
      (requestCursor : DocLogStore.Heads)
  | port (op : NeutralOp)
  | connect
  | resetForReconnect

def gapSystem : System GapPoint Env GapWorld String Unit GapCall where
  call
    | .page brokerHeads lowestSeqByDevice requestCursor =>
      recordGapsFromPage docId brokerHeads lowestSeqByDevice requestCursor
    | .port op => portCall L op
    | .connect => mutate .connect fun _ w => w.connect
    | .resetForReconnect => mutate .resetForReconnect fun _ w => w.resetForReconnect
  restart := GapWorld.restart

end

abbrev GapConfig := Config GapPoint Env GapWorld String Unit

end WebOfTrust
