/-
  **The multi-broker multiplexer** (`MultiBrokerMessagingAdapter.ts`): which children a
  message goes to, what becomes of their answers, and what the subscribers of `onReceipt`
  are shown.

  The children are adapters of any kind: they connect and disconnect, settle their sends
  and report receipts on their streams whenever they like.  Every handler of the
  multiplexer runs to its end at once.  `events` is history.

  The connection side (dialling, the reconnect loop, the aggregate state) and the
  pass-throughs to the primary are left out.
-/
import WebOfTrust.KeyedTable
import WebOfTrust.Machine
import WebOfTrust.Messaging

namespace WebOfTrust

/-! ## 1. Routing -/

inductive BrokerRoute where
  | fanout
  | primary
deriving DecidableEq

def FANOUT_TYPES : List String :=
  [INBOX_MESSAGE_TYPE, SPACE_INVITE_MESSAGE_TYPE, MEMBER_UPDATE_MESSAGE_TYPE,
    KEY_ROTATION_MESSAGE_TYPE, ACK_MESSAGE_TYPE]

def routeForEnvelope (envelope : Envelope) : BrokerRoute :=
  if FANOUT_TYPES.contains envelope.type then .fanout else .primary

/-! ## 2. The state -/

/-- An entry of `fanoutTracker`, with the message id it is filed under. -/
structure FanoutEntry where
  messageId : String
  targets : Nat
  failed : Nat
  okSeen : Bool

abbrev FanoutTracker := KeyedTable FanoutEntry.messageId

/-- What the promise of a fanned-out `send` closes over.  `settled` is also what the promise
    was settled with, and `unsettled` are the targets whose own promise is still open. -/
structure FanoutSend where
  envelope : Envelope
  unsettled : List Nat
  pending : Nat
  settled : Option (Except String DeliveryReceipt)
  lastFailed : Option DeliveryReceipt
  firstError : Option String

inductive BrokerEvent where
  | handedTo (child : Nat) (envelope : Envelope)
  | fannedOut (send : Nat) (messageId : String) (targets : List Nat)
  /-- A child reports a receipt on its stream while these subscribers listen. -/
  | reported (child : Nat) (receipt : DeliveryReceipt) (listeners : List Nat)
  /-- The promise of a child settles that was handed the message in this send. -/
  | sendSettled (send child : Nat) (messageId : String) (result : Except String DeliveryReceipt)
      (listeners : List Nat)
  | shown (subscriber : Nat) (receipt : DeliveryReceipt)

/-- `children` are the states of the children, the primary first.  A subscriber stands for
    the wrapper that `onReceipt` registered for it on every child. -/
structure MultiBrokerMessagingAdapter where
  children : List MessagingState
  fanoutTracker : FanoutTracker
  subscribers : List Nat
  nextSubscriber : Nat
  sends : List FanoutSend
  events : List BrokerEvent

namespace MultiBrokerMessagingAdapter

def TRACKER_MAX : Nat := 256

def start (primary : MessagingState) (secondaries : List MessagingState) :
    MultiBrokerMessagingAdapter where
  children := primary :: secondaries
  fanoutTracker := .empty
  subscribers := []
  nextSubscriber := 0
  sends := []
  events := []

/-! ## 3. Sending -/

def trackFanout (tracker : FanoutTracker) (messageId : String) (targets : Nat) : FanoutTracker :=
  let tracker := tracker.put ⟨messageId, targets, 0, false⟩
  if tracker.rows.length > TRACKER_MAX then
    match tracker.rows.head? with
    | some oldest => tracker.erase oldest.messageId
    | none => tracker
  else tracker

def markFanoutOk (tracker : FanoutTracker) (messageId : String) : FanoutTracker :=
  tracker.update messageId fun entry => { entry with okSeen := true }

variable (a : MultiBrokerMessagingAdapter)

def connectedChildren : List Nat :=
  (List.range a.children.length).filter fun child => a.children[child]? = some .connected

/-- `children[0].send(envelope)`. -/
def sendToPrimary (envelope : Envelope) : MultiBrokerMessagingAdapter :=
  { a with events := a.events ++ [.handedTo 0 envelope] }

def send (envelope : Envelope) : MultiBrokerMessagingAdapter :=
  if routeForEnvelope envelope = .primary ∨ a.children.length = 1 then a.sendToPrimary envelope
  else
    let targets := a.connectedChildren
    if targets = [] then a.sendToPrimary envelope
    else
      { a with
        -- an empty id is falsy
        fanoutTracker := if envelope.id = "" then a.fanoutTracker
          else trackFanout a.fanoutTracker envelope.id targets.length
        sends := a.sends ++ [⟨envelope, targets, targets.length, none, none, none⟩]
        events := a.events ++ .fannedOut a.sends.length envelope.id targets ::
          targets.map (.handedTo · envelope) }

def settleFailure (s : FanoutSend) : FanoutSend :=
  let s := { s with pending := s.pending - 1 }
  if s.pending = 0 ∧ s.settled.isNone then
    match s.lastFailed with
    | some receipt => { s with settled := some (.ok receipt) }
    | none => { s with settled := some (.error (s.firstError.getD "null")) }
  else s

def settleOne (s : FanoutSend) (result : Except String DeliveryReceipt) : FanoutSend :=
  match result with
  | .ok receipt =>
    if receipt.isOk then
      if s.settled.isNone then { s with settled := some (.ok receipt) } else s
    else settleFailure { s with lastFailed := some receipt }
  | .error err => settleFailure { s with firstError := s.firstError.or (some err) }

def childSettles (n : Nat) (s : FanoutSend) (child : Nat)
    (result : Except String DeliveryReceipt) : MultiBrokerMessagingAdapter :=
  { a with
    fanoutTracker := match result with
      | .ok receipt =>
        if receipt.isOk then markFanoutOk a.fanoutTracker receipt.messageId else a.fanoutTracker
      | .error _ => a.fanoutTracker
    sends := a.sends.set n (settleOne { s with unsettled := s.unsettled.erase child } result)
    events := a.events ++ [.sendSettled n child s.envelope.id result a.subscribers] }

/-! ## 4. Receiving -/

/-- `wrapped`: what the wrapper of one subscriber does to the tracker, and whether the
    subscriber is called. -/
def wrapped (tracker : FanoutTracker) (receipt : DeliveryReceipt) : FanoutTracker × Bool :=
  if receipt.isOk then (markFanoutOk tracker receipt.messageId, true)
  else
    match tracker.get? receipt.messageId with
    | none => (tracker, true)
    | some entry =>
      if entry.okSeen then (tracker, false)
      else if entry.failed + 1 ≥ entry.targets then (tracker.erase receipt.messageId, true)
      else (tracker.update receipt.messageId fun e => { e with failed := e.failed + 1 }, false)

def notify (receipt : DeliveryReceipt) : FanoutTracker → List Nat → FanoutTracker × List Nat
  | tracker, [] => (tracker, [])
  | tracker, subscriber :: rest =>
    let (tracker', called) := wrapped tracker receipt
    let (tracker'', shown) := notify receipt tracker' rest
    (tracker'', if called then subscriber :: shown else shown)

def childReports (child : Nat) (receipt : DeliveryReceipt) : MultiBrokerMessagingAdapter :=
  let (tracker, shown) := notify receipt a.fanoutTracker a.subscribers
  { a with
    fanoutTracker := tracker
    events := a.events ++ .reported child receipt a.subscribers :: shown.map (.shown · receipt) }

def onReceipt : MultiBrokerMessagingAdapter :=
  { a with
    subscribers := a.subscribers ++ [a.nextSubscriber]
    nextSubscriber := a.nextSubscriber + 1 }

def unsubscribe (subscriber : Nat) : MultiBrokerMessagingAdapter :=
  { a with subscribers := a.subscribers.filter (· ≠ subscriber) }

/-! ## 5. Steps -/

inductive Input where
  | childState (child : Nat) (state : MessagingState)
  | send (envelope : Envelope)
  | childSettles (send child : Nat) (result : Except String DeliveryReceipt)
  | childReports (child : Nat) (receipt : DeliveryReceipt)
  | onReceipt
  | unsubscribe (subscriber : Nat)

def step : Input → Option MultiBrokerMessagingAdapter
  | .childState child state => some { a with children := a.children.set child state }
  | .send envelope => some (a.send envelope)
  | .childSettles n child result =>
    a.sends[n]?.bind fun s =>
      if child ∈ s.unsettled then some (a.childSettles n s child result) else none
  | .childReports child receipt =>
    if child < a.children.length then some (a.childReports child receipt) else none
  | .onReceipt => some a.onReceipt
  | .unsubscribe subscriber => some (a.unsubscribe subscriber)

end MultiBrokerMessagingAdapter

end WebOfTrust
