/-
  **The outbox** (`OutboxMessagingAdapter.ts`, `InMemoryOutboxStore.ts`): what cannot be sent
  is kept in a store, and a flush sends it again.

  Sends and one flush run side by side.  A call of the inner adapter is an attempt, which
  the adapter settles whenever it likes and a timer may give up before; a call of the
  store takes effect at one step, and the code behind it runs later.  A restart keeps the
  store and nothing else.  `events` is history.

  The reconnect timer and the pass-throughs to the inner adapter are left out: a flush may
  start and the connection may change at any time.
-/
import WebOfTrust.KeyedTable
import WebOfTrust.Machine
import WebOfTrust.Messaging

namespace WebOfTrust

/-! ## 1. The store -/

structure OutboxEntry where
  envelope : Envelope
  createdAt : Nat
  retryCount : Nat

def OutboxEntry.id (entry : OutboxEntry) : String := entry.envelope.id

abbrev OutboxStore := KeyedTable OutboxEntry.id

namespace OutboxStore

variable (store : OutboxStore)

/-- `enqueue`, idempotent on the id. -/
def enqueue (envelope : Envelope) (now : Nat) : OutboxStore :=
  store.add ⟨envelope, now, 0⟩

def dequeue (envelopeId : String) : OutboxStore := store.erase envelopeId

def incrementRetry (envelopeId : String) : OutboxStore :=
  store.update envelopeId fun entry => { entry with retryCount := entry.retryCount + 1 }

/-- `getPending`: ordered by `createdAt`, in a stable way. -/
def getPending : List OutboxEntry :=
  store.rows.mergeSort fun a b => decide (a.createdAt ≤ b.createdAt)

end OutboxStore

/-! ## 2. The state -/

def NEVER_QUEUE_TYPES : List String :=
  [LOG_ENTRY_MESSAGE_TYPE, SYNC_REQUEST_MESSAGE_TYPE, SPACE_SYNC_REQUEST_MESSAGE_TYPE]

structure OutboxOptions where
  skipTypes : List String
  sendTimeoutMs : Nat
  maxRetries : Nat

/-- A call `inner.send(envelope)`.  `innerSettled`: the promise of the inner adapter has
    settled; `outcome` is what its caller sees, by the adapter or by the timer. -/
structure Attempt where
  envelope : Envelope
  timer : Bool
  innerSettled : Bool
  outcome : Option (Except String DeliveryReceipt)

inductive StoreOp where
  /-- A stale entry of a never-queue type is dequeued. -/
  | drain
  /-- An entry over the retry limit is dequeued, to be traced. -/
  | drop
  /-- An entry whose send has resolved is dequeued. -/
  | deliver
  /-- The retry count of an entry whose send has failed goes up. -/
  | retry
deriving DecidableEq

/-- What `flushOutbox` waits for.  `storing`: the store has been called; `stored`: the call has
    taken effect, and the code behind it is still to run. -/
inductive FlushState where
  | fetching
  | fetched (pending : List OutboxEntry)
  | sending (entry : OutboxEntry) (rest : List OutboxEntry) (attempt : Nat)
  | storing (op : StoreOp) (entry : OutboxEntry) (rest : List OutboxEntry)
  | stored (op : StoreOp) (entry : OutboxEntry) (rest : List OutboxEntry)

/-- What a `send` waits for, or how it ended. -/
inductive SendCall where
  /-- It has returned the promise of the inner adapter. -/
  | passed (attempt : Nat)
  | sending (envelope : Envelope) (attempt : Nat)
  | enqueuing (envelope : Envelope)
  | enqueued (envelope : Envelope)
  | returned (receipt : DeliveryReceipt)
  | rejected (error : String)

inductive OutboxEvent where
  /-- The entry was in the store at the start. -/
  | found (envelope : Envelope)
  | enqueued (envelope : Envelope)
  /-- The flush hands an entry of the outbox to the inner adapter. -/
  | resent (envelope : Envelope)
  /-- The inner adapter settles a send of the envelope. -/
  | reported (envelope : Envelope) (result : Except String DeliveryReceipt)
  | left (envelope : Envelope) (op : StoreOp)
  /-- `traceOutboxDrop`. -/
  | traced (envelope : Envelope) (retryCount maxRetries : Nat)

/-- `flushing` is `flush.isSome`. -/
structure OutboxMessagingAdapter where
  options : OutboxOptions
  inner : MessagingState
  store : OutboxStore
  flush : Option FlushState
  attempts : List Attempt
  sends : List SendCall
  events : List OutboxEvent

namespace OutboxMessagingAdapter

def start (options : OutboxOptions) (store : OutboxStore) : OutboxMessagingAdapter where
  options := options
  inner := .disconnected
  store := store
  flush := none
  attempts := []
  sends := []
  events := store.rows.map fun entry => .found entry.envelope

variable (a : OutboxMessagingAdapter)

def restart (options : OutboxOptions) : OutboxMessagingAdapter :=
  { a with
    options := options
    inner := .disconnected
    flush := none
    attempts := []
    sends := [] }

/-! ## 3. Sending -/

section

variable (envelope : Envelope)

def queuedReceipt : DeliveryReceipt :=
  ⟨envelope.id, .accepted, some "queued-in-outbox"⟩

/-- `inner.send(envelope)`, or `sendWithTimeout(envelope)`. -/
def attempt (timer : Bool) : OutboxMessagingAdapter :=
  { a with attempts := a.attempts ++ [⟨envelope, timer, false, none⟩] }

def sendWithTimeout : OutboxMessagingAdapter :=
  a.attempt envelope (decide (0 < a.options.sendTimeoutMs))

def addCall (call : SendCall) : OutboxMessagingAdapter :=
  { a with sends := a.sends ++ [call] }

/-- `send`, up to its first `await`. -/
def send : OutboxMessagingAdapter :=
  if a.options.skipTypes.contains envelope.type then
    (a.attempt envelope false).addCall (.passed a.attempts.length)
  else if NEVER_QUEUE_TYPES.contains envelope.type then
    (a.attempt envelope false).addCall (.passed a.attempts.length)
  else if a.inner ≠ .connected then a.addCall (.enqueuing envelope)
  else (a.sendWithTimeout envelope).addCall (.sending envelope a.attempts.length)

end

/-- The code of a `send` behind the promise it waits for. -/
def sendResumes (n : Nat) : SendCall → Option OutboxMessagingAdapter
  | .sending envelope k =>
    (a.attempts[k]?.bind Attempt.outcome).map fun outcome =>
      match outcome with
      | .ok receipt => { a with sends := a.sends.set n (.returned receipt) }
      | .error _ => { a with sends := a.sends.set n (.enqueuing envelope) }
  | .enqueued envelope =>
    some { a with sends := a.sends.set n (.returned (queuedReceipt envelope)) }
  | _ => none

/-- The `enqueue` of a `send` takes effect. -/
def enqueues (n : Nat) (envelope : Envelope) (now : Nat) : OutboxMessagingAdapter :=
  { a with
    store := a.store.enqueue envelope now
    sends := a.sends.set n (.enqueued envelope)
    events := a.events ++ if a.store.has envelope.id then [] else [.enqueued envelope] }

/-! ## 4. The inner adapter and the timer -/

def innerSettles (k : Nat) (attempt : Attempt)
    (result : Except String DeliveryReceipt) : OutboxMessagingAdapter :=
  { a with
    attempts := a.attempts.set k
      { attempt with innerSettled := true, outcome := attempt.outcome.or (some result) }
    events := a.events ++ [.reported attempt.envelope result] }

def timerFires (k : Nat) (attempt : Attempt) : OutboxMessagingAdapter :=
  { a with attempts := a.attempts.set k { attempt with outcome := some (.error "Send timeout") } }

/-! ## 5. The flush -/

/-- The loop of `flushOutbox`, from the head of an iteration to the next `await`. -/
def flushLoop : List OutboxEntry → OutboxMessagingAdapter
  | [] => { a with flush := none }
  | entry :: rest =>
    if a.inner ≠ .connected then { a with flush := none }
    else if NEVER_QUEUE_TYPES.contains entry.envelope.type then
      { a with flush := some (.storing .drain entry rest) }
    else if entry.retryCount ≥ a.options.maxRetries then
      { a with flush := some (.storing .drop entry rest) }
    else
      { a.sendWithTimeout entry.envelope with
        flush := some (.sending entry rest a.attempts.length)
        events := a.events ++ [.resent entry.envelope] }

def flushOutbox : OutboxMessagingAdapter :=
  if a.flush.isSome then a else { a with flush := some .fetching }

def flushStores : FlushState → Option OutboxMessagingAdapter
  | .fetching => some { a with flush := some (.fetched a.store.getPending) }
  | .storing .retry entry rest =>
    some { a with
      store := a.store.incrementRetry entry.id
      flush := some (.stored .retry entry rest) }
  | .storing op entry rest =>
    some { a with
      store := a.store.dequeue entry.id
      flush := some (.stored op entry rest)
      events := a.events ++ ((a.store.get? entry.id).map fun row =>
        OutboxEvent.left row.envelope op).toList }
  | _ => none

/-- A call of the store by the flush rejects: only that of a delivered entry is caught. -/
def flushStoreRejects : FlushState → Option OutboxMessagingAdapter
  | .fetching => some { a with flush := none }
  | .storing .deliver entry rest => some { a with flush := some (.storing .retry entry rest) }
  | .storing _ _ _ => some { a with flush := none }
  | _ => none

def traceOutboxDrop (entry : OutboxEntry) : OutboxMessagingAdapter :=
  { a with
    events := a.events ++ [.traced entry.envelope entry.retryCount a.options.maxRetries] }

def flushResumes : FlushState → Option OutboxMessagingAdapter
  | .fetched pending => some (a.flushLoop pending)
  | .sending entry rest k =>
    (a.attempts[k]?.bind Attempt.outcome).map fun outcome =>
      match outcome with
      | .ok _ => { a with flush := some (.storing .deliver entry rest) }
      | .error _ => { a with flush := some (.storing .retry entry rest) }
  | .stored .drop entry rest =>
    some ((a.traceOutboxDrop entry).flushLoop rest)
  | .stored _ _ rest => some (a.flushLoop rest)
  | _ => none

/-! ## 6. Steps -/

inductive Input where
  | innerState (state : MessagingState)
  | send (envelope : Envelope)
  | flushOutbox
  | innerSettles (attempt : Nat) (result : Except String DeliveryReceipt)
  | timerFires (attempt : Nat)
  | sendResumes (send : Nat)
  | enqueueTakesEffect (send now : Nat)
  | enqueueRejects (send : Nat) (error : String)
  | flushStores
  | flushStoreRejects
  | flushResumes
  | restart (options : OutboxOptions)

def step : Input → Option OutboxMessagingAdapter
  | .innerState state => some { a with inner := state }
  | .send envelope => some (a.send envelope)
  | .flushOutbox => some a.flushOutbox
  | .innerSettles k result =>
    a.attempts[k]?.bind fun attempt =>
      if attempt.innerSettled then none else some (a.innerSettles k attempt result)
  | .timerFires k =>
    a.attempts[k]?.bind fun attempt =>
      if attempt.timer ∧ attempt.outcome.isNone then some (a.timerFires k attempt) else none
  | .sendResumes n => a.sends[n]?.bind (a.sendResumes n)
  | .enqueueTakesEffect n now =>
    a.sends[n]?.bind fun call =>
      match call with
      | .enqueuing envelope => some (a.enqueues n envelope now)
      | _ => none
  | .enqueueRejects n error =>
    a.sends[n]?.bind fun call =>
      match call with
      | .enqueuing _ => some { a with sends := a.sends.set n (.rejected error) }
      | _ => none
  | .flushStores => a.flush.bind a.flushStores
  | .flushStoreRejects => a.flush.bind a.flushStoreRejects
  | .flushResumes => a.flush.bind a.flushResumes
  | .restart options => some (a.restart options)

end OutboxMessagingAdapter

end WebOfTrust
