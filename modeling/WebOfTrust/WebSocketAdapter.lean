/-
  **A connection to a broker** (`WebSocketMessagingAdapter.ts`).

  The adapter has at most one current socket.  The events, timers and continuations of the
  sockets before it may still come, at any time and in any order, and each handler asks
  first whether its own socket is the current one.

  A handler runs to its next `await` in one step, and so do the control frames chained
  behind a promise that the step settles: their continuations are microtasks.  Subscribers
  only listen.  A frame that is written on a socket that is not open is lost.

  `registered` of a socket, `writtenOn` of a control frame, the source of a message and
  `answers` are history: the broker says with `about` which control frame it answers.
-/
import WebOfTrust.Machine
import WebOfTrust.Messaging

namespace WebOfTrust

open Function

/-! ## 1. Sockets and frames -/

inductive ReadyState where
  | connecting
  | opened
  | closing
  | closed
deriving DecidableEq

/-- A closed control frame, with what `controlFrameDocId` finds in it. -/
structure ClosedControlFrame where
  docId : Option DocId
  text : String
deriving DecidableEq

inductive ClientFrame where
  | register (did : Did) (deviceId : DeviceId)
  | challengeResponse (did : Did) (deviceId : DeviceId) (nonce signature : String)
  | ping
  | ack (messageId : Option String)
  | send (envelope : Envelope)
  | control (frame : ClosedControlFrame)
deriving DecidableEq

/-- A message for the callbacks of `onMessage`, by what decides on its `ack`. -/
structure IncomingMessage where
  id : Option String
  type : Option String
  didcomm : Bool
deriving DecidableEq

/-- An `error` frame, or the contents of an `error/1.0` one. -/
structure BrokerError where
  thid : Option String
  code : Option String
  message : Option String

/-- What the broker sends.  A challenge is `none` where no transcript can be built of its
    nonce. -/
inductive BrokerMessage where
  | malformed
  | challenge (nonce : Option String)
  | registered (peers : Option Nat)
  | message (envelope : IncomingMessage)
  | receipt (receipt : DeliveryReceipt)
  | pong
  | error (error : BrokerError)
  | errorBody (error : BrokerError)

/-- The changes of `readyState` that the network makes by itself. -/
def ReadyState.next : ReadyState → ReadyState → Bool
  | .connecting, .opened => true
  | .opened, .closing => true
  | _, _ => false

def IncomingMessage.acked (envelope : IncomingMessage) : Bool :=
  !envelope.didcomm && decide (envelope.type ≠ some "error")

structure Socket where
  did : Did
  readyState : ReadyState
  sent : List ClientFrame
  /-- The settlement of its `connect()` promise. -/
  settled : Option (Except String Unit)
  connectTimer : Bool
  /-- `checkAndSend` is scheduled. -/
  probing : Bool
  signing : List (Option String)
  registered : Bool

namespace Socket

def write (w : Socket) (frame : ClientFrame) : Socket :=
  if w.readyState = .opened then { w with sent := w.sent ++ [frame] } else w

def close (w : Socket) : Socket :=
  { w with readyState := if w.readyState = .closed then .closed else .closing }

def settle (w : Socket) (outcome : Except String Unit) : Socket :=
  { w with connectTimer := false, settled := w.settled.or (some outcome) }

end Socket

/-! ## 2. The state -/

inductive ControlOutcome where
  | delivered
  /-- `ControlFrameRejectedError`. -/
  | rejected (code : String)
  | failed (message : String)
deriving DecidableEq

def KNOWN_BROKER_ERROR_CODES : List String :=
  ["DOC_NOT_FOUND", "CAPABILITY_REQUIRED", "CAPABILITY_INVALID", "CAPABILITY_EXPIRED",
    "CAPABILITY_GENERATION_STALE", "SPACE_ALREADY_REGISTERED", "AUTHOR_MISMATCH",
    "PERSONAL_DOC_OWNER_MISMATCH", "DEVICE_NOT_REGISTERED", "DEVICE_REVOKED",
    "DEVICE_ID_CONFLICT", "SEQ_COLLISION_DETECTED", "KEY_GENERATION_STALE", "GENERATION_TAKEN",
    "GENERATION_GAP", "MALFORMED_MESSAGE", "AUTH_INVALID", "NONCE_REPLAY", "RATE_LIMITED",
    "INTERNAL_ERROR"]

def isKnownBrokerErrorCode (code : String) : Bool := KNOWN_BROKER_ERROR_CODES.contains code

def BrokerError.outcome (error : BrokerError) : ControlOutcome :=
  match error.code.filter isKnownBrokerErrorCode with
  | some code => .rejected code
  | none => .failed ("Control frame rejected: " ++ error.message.getD "unknown")

def BrokerMessage.answer : BrokerMessage → Option ControlOutcome
  | .receipt r => if r.status = .delivered then some .delivered else none
  | .error e => some e.outcome
  | .errorBody e => some e.outcome
  | _ => none

/-- A call of `sendControlFrame` for a frame with a docId. -/
structure ControlCall where
  frame : ClosedControlFrame
  docId : DocId
  timer : Bool
  outcome : Option ControlOutcome
  writtenOn : Option Nat

def ControlCall.settle (call : ControlCall) (outcome : ControlOutcome) : ControlCall :=
  { call with timer := false, outcome := call.outcome.or (some outcome) }

inductive ConnectCall where
  /-- It has returned: the adapter was connected. -/
  | returned
  /-- It awaits its `disconnect()`. -/
  | disconnecting (did : Did)
  | dialing (socket : Nat)
deriving DecidableEq

inductive RebindCall where
  | returned
  | disconnecting (did : Did) (newDeviceId oldDeviceId : DeviceId)
  | connecting (call : Nat) (oldDeviceId : DeviceId)
  | failed (message : String)

/-- A call of `send`. -/
structure SendRequest where
  id : String
  timer : Bool
  outcome : Option (Except String DeliveryReceipt)

def SendRequest.settle (request : SendRequest) (outcome : Except String DeliveryReceipt) :
    SendRequest :=
  { request with timer := false, outcome := request.outcome.or (some outcome) }

structure WebSocketOptions where
  deviceId : DeviceId
  /-- Whether there is a `signBrokerAuthTranscript`. -/
  signs : Bool
  sendTimeoutMs : Nat
  connectTimeoutMs : Nat

/-- `controlFrameTails` names the calls of a docId: the one in flight, and those chained. -/
structure WebSocketMessagingAdapter where
  signs : Bool
  SEND_TIMEOUT_MS : Nat
  CONNECT_TIMEOUT_MS : Nat
  deviceId : DeviceId
  ws : Option Nat
  state : MessagingState
  connectedDid : Option Did
  peerCount : Nat
  pendingConnect : Option Nat
  reconfigurePendingConnectTimeout : Option Nat
  heartbeatInterval : Option Nat
  heartbeatTimeout : Option Nat
  messageCallbacks : Nat
  earlyMessageBuffer : List (Nat × IncomingMessage)
  pendingReceipts : String → Option Nat
  pendingControlFrames : DocId → Option Nat
  controlFrameTails : DocId → List Nat
  sockets : List Socket
  connects : List ConnectCall
  rebinds : List RebindCall
  handling : List (Option (Nat × IncomingMessage))
  sends : List SendRequest
  calls : List ControlCall
  answers : List (Nat × ControlOutcome)

namespace WebSocketMessagingAdapter

def start (options : WebSocketOptions) : WebSocketMessagingAdapter where
  signs := options.signs
  SEND_TIMEOUT_MS := options.sendTimeoutMs
  CONNECT_TIMEOUT_MS := options.connectTimeoutMs
  deviceId := options.deviceId
  ws := none
  state := .disconnected
  connectedDid := none
  peerCount := 0
  pendingConnect := none
  reconfigurePendingConnectTimeout := none
  heartbeatInterval := none
  heartbeatTimeout := none
  messageCallbacks := 0
  earlyMessageBuffer := []
  pendingReceipts _ := none
  pendingControlFrames _ := none
  controlFrameTails _ := []
  sockets := []
  connects := []
  rebinds := []
  handling := []
  sends := []
  calls := []
  answers := []

section

variable (a : WebSocketMessagingAdapter)

def onSocket (s : Nat) (f : Socket → Socket) : WebSocketMessagingAdapter :=
  { a with sockets := a.sockets.modify s f }

/-- `ws.send(JSON.stringify(frame))`. -/
def write (s : Nat) (frame : ClientFrame) : WebSocketMessagingAdapter :=
  a.onSocket s (·.write frame)

def isOpen (s : Nat) : Bool :=
  a.sockets[s]?.any fun w => decide (w.readyState = .opened)

/-- `settle.resolve` and `settle.reject` of the dial on `s`. -/
def settleConnect (s : Nat) (outcome : Except String Unit) : WebSocketMessagingAdapter :=
  { a.onSocket s (·.settle outcome) with
    pendingConnect := if a.pendingConnect = some s then none else a.pendingConnect
    reconfigurePendingConnectTimeout :=
      if a.reconfigurePendingConnectTimeout = some s then none
      else a.reconfigurePendingConnectTimeout }

/-- `this.pendingConnect?.reject(new Error(message))`. -/
def rejectPendingConnect (message : String) : WebSocketMessagingAdapter :=
  match a.pendingConnect with
  | some s => a.settleConnect s (.error message)
  | none => a

/-- `ws.close(); this.ws = null`. -/
def dropSocket : WebSocketMessagingAdapter :=
  match a.ws with
  | some s => { a.onSocket s Socket.close with ws := none }
  | none => a

def stopHeartbeat : WebSocketMessagingAdapter :=
  { a with heartbeatInterval := none, heartbeatTimeout := none }

def startHeartbeat (s : Nat) : WebSocketMessagingAdapter :=
  { a.stopHeartbeat with heartbeatInterval := some s }

def killSocket (s : Nat) : WebSocketMessagingAdapter :=
  if a.ws = some s then { a.stopHeartbeat.dropSocket with state := .disconnected } else a

/-! ## 3. Connecting -/

/-- `connect`, once the adapter is not connected. -/
def dial (did : Did) : WebSocketMessagingAdapter :=
  let a := (a.rejectPendingConnect "connect() superseded by a newer connect()").dropSocket
  { a with
    state := .connecting
    ws := some a.sockets.length
    pendingConnect := some a.sockets.length
    reconfigurePendingConnectTimeout := some a.sockets.length
    sockets := a.sockets ++
      [⟨did, .connecting, [], none, decide (0 < a.CONNECT_TIMEOUT_MS), false, [], false⟩] }

def notConnected (method : String) : String :=
  s!"WebSocketMessagingAdapter: must call connect() before {method}()"

def disconnectedMessage (call : ControlCall) : String :=
  if call.writtenOn.isSome then "WebSocket disconnected before control-frame receipt"
  else notConnected "sendControlFrame"

/-- `disconnect`.  The control frames that are chained behind a rejected one find the adapter
    disconnected. -/
def disconnect : WebSocketMessagingAdapter :=
  let a := { a.stopHeartbeat with
    connectedDid := none
    earlyMessageBuffer := []
    pendingReceipts := fun _ => none
    pendingControlFrames := fun _ => none
    controlFrameTails := fun _ => []
    calls := a.calls.map fun call : ControlCall =>
      call.settle (.failed (disconnectedMessage call)) }
  { (a.rejectPendingConnect "WebSocket disconnected before registration").dropSocket with
    state := .disconnected }

def connect (did : Did) : WebSocketMessagingAdapter :=
  if a.state = .connected then
    if a.connectedDid = some did then { a with connects := a.connects ++ [.returned] }
    else
      { a.disconnect with connects := a.connects ++ [.disconnecting did] }
  else
    { a.dial did with connects := a.connects ++ [.dialing a.sockets.length] }

/-- `connect`, behind its `await this.disconnect()`. -/
def connectResumes (n : Nat) : Option WebSocketMessagingAdapter :=
  match a.connects[n]? with
  | some (.disconnecting did) =>
    some { a.dial did with connects := a.connects.set n (.dialing a.sockets.length) }
  | _ => none

def rebindDeviceId (newDeviceId : DeviceId) : WebSocketMessagingAdapter :=
  match a.connectedDid with
  | none => { a with deviceId := newDeviceId, rebinds := a.rebinds ++ [.returned] }
  | some did =>
    { a.disconnect with
      rebinds := a.rebinds ++ [.disconnecting did newDeviceId a.deviceId] }

/-- How the promise of a `connect()` has settled. -/
def connectOutcome (n : Nat) : Option (Except String Unit) :=
  match a.connects[n]? with
  | some .returned => some (.ok ())
  | some (.dialing s) => a.sockets[s]?.bind Socket.settled
  | _ => none

/-- The code of `rebindDeviceId` behind the promise it waits for. -/
def rebindResumes (k : Nat) : Option WebSocketMessagingAdapter :=
  match a.rebinds[k]? with
  | some (.disconnecting did newDeviceId oldDeviceId) =>
    some { { a with deviceId := newDeviceId }.connect did with
      rebinds := a.rebinds.set k (.connecting a.connects.length oldDeviceId) }
  | some (.connecting n oldDeviceId) =>
    (a.connectOutcome n).map fun outcome =>
      match outcome with
      | .ok _ => { a with rebinds := a.rebinds.set k .returned }
      | .error message =>
        { a with deviceId := oldDeviceId, rebinds := a.rebinds.set k (.failed message) }
  | _ => none

/-- `setConnectTimeoutMs`: it re-arms, or disarms, the timer of the dial in flight. -/
def setConnectTimeoutMs (ms : Nat) : WebSocketMessagingAdapter :=
  let a := { a with CONNECT_TIMEOUT_MS := ms }
  match a.reconfigurePendingConnectTimeout with
  | some s => a.onSocket s fun w => { w with connectTimer := decide (0 < ms) }
  | none => a

/-! ## 4. Control frames -/

/-- `this.ws`, while the adapter is connected. -/
def connectedSocket : Option Nat :=
  if a.state = .connected then a.ws else none

def failControl (n : Nat) (message : String) : WebSocketMessagingAdapter :=
  { a with calls := a.calls.modify n (·.settle (.failed message)) }

/-- The frame of the call goes out on `s`, and its docId has a waiter. -/
def sendControlOn (s : Nat) (docId : DocId) (n : Nat)
    (call : ControlCall) : WebSocketMessagingAdapter :=
  { a.write s (.control call.frame) with
    pendingControlFrames := update a.pendingControlFrames docId (some n)
    calls := a.calls.set n
      { call with timer := decide (0 < a.SEND_TIMEOUT_MS), writtenOn := some s } }

end

/-- `sendControlFrameNow` of the first call that can be sent; the promises of those before it
    reject. -/
def sendControlFrameNow (docId : DocId) :
    List Nat → WebSocketMessagingAdapter → WebSocketMessagingAdapter
  | [], a => { a with controlFrameTails := update a.controlFrameTails docId [] }
  | n :: rest, a =>
    match a.connectedSocket, a.calls[n]? with
    | some s, some call =>
      if a.isOpen s then
        { a.sendControlOn s docId n call with
          controlFrameTails := update a.controlFrameTails docId (n :: rest) }
      else
        sendControlFrameNow docId rest
          ({ a with pendingControlFrames := update a.pendingControlFrames docId none }
            |>.failControl n "WebSocket not open")
    | _, _ => sendControlFrameNow docId rest (a.failControl n (notConnected "sendControlFrame"))

variable (a : WebSocketMessagingAdapter)

/-- `sendControlFrame`.  A frame without a docId is refused at once. -/
def sendControlFrame (frame : ClosedControlFrame) : WebSocketMessagingAdapter :=
  match frame.docId with
  | none => a
  | some docId =>
    let called := { a with calls := a.calls ++ [⟨frame, docId, false, none, none⟩] }
    if docId = "" then a
    else if a.controlFrameTails docId = [] then sendControlFrameNow docId [a.calls.length] called
    else
      { called with
        controlFrameTails := update a.controlFrameTails docId
          (a.controlFrameTails docId ++ [a.calls.length]) }

def settleControl (docId : DocId) (n : Nat)
    (outcome : ControlOutcome) : WebSocketMessagingAdapter :=
  sendControlFrameNow docId (a.controlFrameTails docId).tail { a with
      pendingControlFrames := update a.pendingControlFrames docId none
      calls := a.calls.modify n (·.settle outcome) }

/-! ## 5. Messages and receipts -/

/-- `handleIncomingMessage` of a message that came on `s`, up to its first `await`. -/
def handleIncomingMessage (s : Nat) (envelope : IncomingMessage) : WebSocketMessagingAdapter :=
  if a.messageCallbacks = 0 then
    { a with earlyMessageBuffer := a.earlyMessageBuffer ++ [(s, envelope)] }
  else { a with handling := a.handling ++ [some (s, envelope)] }

/-- `handleIncomingMessage`, once the callbacks have returned; `processed` if one of them
    has succeeded. -/
def handled (k : Nat) (processed : Bool) : Option WebSocketMessagingAdapter :=
  match a.handling[k]? with
  | some (some (_, envelope)) =>
    let a := { a with handling := a.handling.set k none }
    some (match a.ws with
      | some current =>
        if processed && envelope.acked && a.isOpen current then
          a.write current (.ack envelope.id)
        else a
      | none => a)
  | _ => none

def onMessage : WebSocketMessagingAdapter :=
  { a with
    messageCallbacks := a.messageCallbacks + 1
    earlyMessageBuffer := []
    handling := a.handling ++ a.earlyMessageBuffer.map some }

/-- The pending `send` of this id gets its receipt. -/
def settleSend (receipt : DeliveryReceipt) : WebSocketMessagingAdapter :=
  match a.pendingReceipts receipt.messageId with
  | some n =>
    { a with
      pendingReceipts := update a.pendingReceipts receipt.messageId none
      sends := a.sends.modify n (·.settle (.ok receipt)) }
  | none => a

def handleReceipt (receipt : DeliveryReceipt) : WebSocketMessagingAdapter :=
  match a.pendingControlFrames receipt.messageId with
  | some n =>
    if receipt.status = .delivered then a.settleControl receipt.messageId n .delivered
    else a.settleSend receipt
  | none => a.settleSend receipt

/-- `handleControlFrameError` of a frame that came on `s`. -/
def handleControlFrameError (s : Nat) (error : BrokerError)
    (envelope : IncomingMessage) : WebSocketMessagingAdapter :=
  match error.thid.filter (· ≠ "") with
  | none => a.handleIncomingMessage s envelope
  | some docId =>
    match a.pendingControlFrames docId with
    | some n => a.settleControl docId n error.outcome
    | none =>
      (a.settleSend ⟨docId, .failed, some (error.code.getD "write-path-rejected")⟩)
        |>.handleIncomingMessage s envelope

def addSend (envelope : Envelope)
    (outcome : Option (Except String DeliveryReceipt)) : WebSocketMessagingAdapter :=
  { a with
    sends := a.sends ++ [⟨envelope.id, outcome.isNone && decide (0 < a.SEND_TIMEOUT_MS), outcome⟩] }

/-- `send`; a sync request is answered at once. -/
def send (envelope : Envelope) : WebSocketMessagingAdapter :=
  match a.connectedSocket with
  | none => a.addSend envelope (some (.error (notConnected "send")))
  | some s =>
    if envelope.type = SYNC_REQUEST_MESSAGE_TYPE then
      if a.isOpen s then
        (a.write s (.send envelope)).addSend envelope (some (.ok ⟨envelope.id, .accepted, none⟩))
      else a.addSend envelope (some (.error "WebSocket not open"))
    else if a.isOpen s then
      { (a.write s (.send envelope)).addSend envelope none with
        pendingReceipts := update a.pendingReceipts envelope.id (some a.sends.length) }
    else
      { a.addSend envelope (some (.error "WebSocket not open")) with
        pendingReceipts := update a.pendingReceipts envelope.id none }

/-! ## 6. Events of a socket -/

section

variable (s : Nat)

def sendRegister (did : Did) : WebSocketMessagingAdapter :=
  a.write s (.register did a.deviceId)

variable (w : Socket)

def onopen : WebSocketMessagingAdapter :=
  if a.ws = some s then
    if w.readyState = .opened then a.sendRegister s w.did
    else a.onSocket s fun w => { w with probing := true }
  else a

def checkAndSend : WebSocketMessagingAdapter :=
  let done := a.onSocket s fun w => { w with probing := false }
  if a.ws = some s then
    match w.readyState with
    | .opened => done.sendRegister s w.did
    | .connecting => a
    | _ => done.settleConnect s (.error "WebSocket closed before registration")
  else done

/-- A failure of the dial on `s`, after which the socket stays. -/
def failConnect (message : String) : WebSocketMessagingAdapter :=
  { a with state := .error }.settleConnect s (.error message)

/-- The `registered` case of `ws.onmessage`. -/
def onRegistered (peers : Option Nat) : WebSocketMessagingAdapter :=
  { a.onSocket s fun w => { w with registered := true } with
    connectedDid := some w.did
    peerCount := peers.getD 0
    state := .connected }.startHeartbeat s |>.settleConnect s (.ok ())

/-- `ws.onmessage`, of the current socket. -/
def onmessage : BrokerMessage → WebSocketMessagingAdapter
  | .malformed => a
  | .challenge nonce =>
    if a.signs then
      if nonce.isSome then a.onSocket s fun w => { w with signing := w.signing ++ [nonce] } else a
    else
      a.failConnect s
        ("Relay requires Sync 003 broker-auth signing but no signBrokerAuthTranscript " ++
          "function provided")
  | .registered peers => a.onRegistered s w peers
  | .message envelope => a.handleIncomingMessage s envelope
  | .receipt receipt => a.handleReceipt receipt
  | .pong => { a with heartbeatTimeout := none }
  | .error error =>
    if a.state = .connecting then
      a.failConnect s ("Relay error: " ++ error.message.getD "undefined")
    else a.handleControlFrameError s error ⟨none, some "error", false⟩
  | .errorBody error => a.handleControlFrameError s error ⟨none, none, false⟩

def signed (k : Nat) (signature : Except String String) : Option WebSocketMessagingAdapter :=
  match w.signing[k]? with
  | some (some nonce) =>
    let done := a.onSocket s fun w => { w with signing := w.signing.set k none }
    some (if a.ws = some s then
      match signature with
      | .ok signature => done.write s (.challengeResponse w.did a.deviceId nonce signature)
      | .error message =>
        done.failConnect s s!"Broker-auth transcript signing failed: {message}"
    else done)
  | _ => none

def onerror : WebSocketMessagingAdapter :=
  if a.ws = some s ∧ a.state = .connecting then
    a.failConnect s "WebSocket connection failed"
  else a

def onclose : WebSocketMessagingAdapter :=
  if a.ws = some s then { a.stopHeartbeat with state := .disconnected } else a

/-- The timer of the dial on `s`. -/
def connectTimeout : WebSocketMessagingAdapter :=
  (if a.ws = some s then { a.dropSocket with state := .disconnected } else a)
    |>.settleConnect s (.error "WebSocket connect timeout")

/-- The interval that `startHeartbeat` has started for `s`. -/
def heartbeatTick : WebSocketMessagingAdapter :=
  if a.ws ≠ some s ∨ a.state ≠ .connected then a.stopHeartbeat
  else if !a.isOpen s then a.killSocket s
  else if a.heartbeatTimeout.isSome then a
  else { a.write s .ping with heartbeatTimeout := some s }

end

/-! ## 7. Steps -/

inductive Input where
  | connect (did : Did)
  | connectResumes (n : Nat)
  | disconnect
  | rebindDeviceId (newDeviceId : DeviceId)
  | rebindResumes (k : Nat)
  | setConnectTimeoutMs (ms : Nat)
  | onMessage
  /-- A callback of `onMessage` is removed. -/
  | unsubscribe
  | handled (k : Nat) (processed : Bool)
  | send (envelope : Envelope)
  | sendTimeout (n : Nat)
  | sendControlFrame (frame : ClosedControlFrame)
  | controlTimeout (n : Nat)
  /-- The socket is open, or closing, and no event says so. -/
  | turns (s : Nat) (readyState : ReadyState)
  | opened (s : Nat)
  | probed (s : Nat)
  | message (s : Nat) (message : BrokerMessage) (about : Option Nat)
  | signed (s k : Nat) (signature : Except String String)
  | errored (s : Nat)
  | closed (s : Nat)
  | connectTimeout (s : Nat)
  | heartbeatTick (s : Nat)
  | heartbeatTimeout (s : Nat)

/-- A message arrives on `s`. -/
def receive (s : Nat) (w : Socket) (message : BrokerMessage)
    (about : Option Nat) : WebSocketMessagingAdapter :=
  let a := { a with
    answers := a.answers ++ (about.bind fun n => message.answer.map (n, ·)).toList }
  if a.ws = some s then a.onmessage s w message else a

def sendTimeout (n : Nat) (request : SendRequest) : WebSocketMessagingAdapter :=
  { a with
    pendingReceipts := update a.pendingReceipts request.id none
    sends := a.sends.modify n
      (·.settle (.error s!"Send timeout: no receipt from relay after {a.SEND_TIMEOUT_MS}ms")) }

def controlTimeout (n : Nat) (call : ControlCall) : WebSocketMessagingAdapter :=
  a.settleControl call.docId n
    (.failed s!"Control-frame timeout: no receipt from relay after {a.SEND_TIMEOUT_MS}ms")

def step : Input → Option WebSocketMessagingAdapter
  | .connect did => some (a.connect did)
  | .connectResumes n => a.connectResumes n
  | .disconnect => some a.disconnect
  | .rebindDeviceId newDeviceId => some (a.rebindDeviceId newDeviceId)
  | .rebindResumes k => a.rebindResumes k
  | .setConnectTimeoutMs ms => some (a.setConnectTimeoutMs ms)
  | .onMessage => some a.onMessage
  | .unsubscribe => some { a with messageCallbacks := a.messageCallbacks - 1 }
  | .handled k processed => a.handled k processed
  | .send envelope => some (a.send envelope)
  | .sendTimeout n =>
    (a.sends[n]?.filter SendRequest.timer).map (a.sendTimeout n)
  | .sendControlFrame frame => some (a.sendControlFrame frame)
  | .controlTimeout n =>
    (a.calls[n]?.filter ControlCall.timer).map (a.controlTimeout n)
  | .turns s readyState =>
    (a.sockets[s]?.filter fun w => w.readyState.next readyState).map fun _ =>
      a.onSocket s fun w => { w with readyState := readyState }
  | .opened s => (a.sockets[s]?.filter fun w => decide (w.readyState ≠ .closed)).map (a.onopen s)
  | .probed s => (a.sockets[s]?.filter Socket.probing).map (a.checkAndSend s)
  | .message s message about =>
    (a.sockets[s]?.filter fun w =>
      decide (w.readyState = .opened) || decide (w.readyState = .closing)).map fun w =>
        a.receive s w message about
  | .signed s k signature => a.sockets[s]?.bind fun w => a.signed s w k signature
  | .errored s =>
    (a.sockets[s]?.filter fun w => decide (w.readyState ≠ .closed)).map fun _ => a.onerror s
  | .closed s =>
    (a.sockets[s]?.filter fun w => decide (w.readyState ≠ .closed)).map fun _ =>
      (a.onSocket s fun w => { w with readyState := .closed }).onclose s
  | .connectTimeout s =>
    (a.sockets[s]?.filter Socket.connectTimer).map fun _ => a.connectTimeout s
  | .heartbeatTick s => if a.heartbeatInterval = some s then some (a.heartbeatTick s) else none
  | .heartbeatTimeout s => if a.heartbeatTimeout = some s then some (a.killSocket s) else none

end WebSocketMessagingAdapter

end WebOfTrust
