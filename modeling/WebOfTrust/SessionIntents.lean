/-
  **The gestures of a session and their records** (`session.ts`: `intent`, `execute`,
  `executeOnce`, `finishOk`, `settleAtLimit`, `expire`, `lookUp`, `confirmIntent`,
  `retryIntent`, `discardIntent`, `expireOpen`, `recover`, `replayOpen`; the acts of `acts.ts`
  that are not of the contact order).

  Everything that awaits is kept in a list: the executions, one for each actId, and the other
  tasks.  A task that goes on reads or writes the journal as it is then; what it has read before
  is a copy.  Timers and the calls of the opening may come at any time; the clock does not go
  back, so that `when()` is `now()`.

  The library commits an act under its actId, and answers from its act journal until its
  retention is over.  `commits` and `taken` are history, and the length of `taken` is the next
  actId.
-/
import WebOfTrust.Ingest
import WebOfTrust.IntentJournal
import WebOfTrust.Machine

namespace WebOfTrust

/-! ## 1. Commands -/

structure SendInput where
  contactId : ContactId
  text : String
  draftKey : String
  replyTo : Option String
deriving DecidableEq

inductive CardRole where
  | displayed
  | sent
deriving DecidableEq

/-- The commands that are neither sent messages nor of the contact order. -/
inductive PlainCommand where
  | showCard
  | confirmCard (role : CardRole)
  | counterVerify
  | setProfile
  | decide
deriving DecidableEq

inductive DedupeKey where
  | send (draftKey : String)
  | plain (key : String)
deriving DecidableEq

/-- A command with its canonical inputs; `key` and `input` are those of the port. -/
inductive SessionCommand where
  | send (input : SendInput)
  | plain (command : PlainCommand) (key input : String)
deriving DecidableEq

namespace SessionCommand

def dedupe : SessionCommand → DedupeKey
  | .send input => .send input.draftKey
  | .plain _ key _ => .plain key

def policy : SessionCommand → IntentPolicy
  | .plain .showCard _ _ => .discard
  | .plain (.confirmCard .displayed) _ _ => .confirmAgain
  | _ => .replay

end SessionCommand

abbrev SessionRecord := IntentRecord SessionCommand

/-! ## 2. Own messages -/

abbrev OwnLog := KeyedTable MessageLine.id

structure SentDocument where
  mid : String
  digest : String
deriving DecidableEq

def ownMessageLine (input : SendInput) (at_ : Nat) : MessageLine where
  id := .own input.draftKey
  contactId := input.contactId
  at_ := at_
  dir := .outgoing
  text := input.text
  mid := none
  replyTo := input.replyTo
  sentAt := at_
  receivedAt := none
  digest := none
  held := none
  status := none

def wholeSeconds (ms : Nat) : Nat := ms / 1000 * 1000

/-- `lines` of a committed act. -/
def sentLine (r : SessionRecord) (sent : SentDocument) : Option MessageLine :=
  match r.gesture with
  | .send input => some { ownMessageLine input (wholeSeconds r.createdAt) with
      mid := some sent.mid, digest := some sent.digest, status := some .submitted }
  | .plain _ _ _ => none

/-- `lines` of a refusal: a message is held, or stays as not delivered. -/
def refusedLine (r : SessionRecord) (held : Option HeldReason) : Option MessageLine :=
  match r.gesture with
  | .send input =>
    some <| match held with
      | some reason => { ownMessageLine input r.createdAt with
          held := some reason, status := some (.held reason) }
      | none => { ownMessageLine input r.createdAt with status := some (.failed (.rejected none)) }
  | .plain _ _ _ => none

def expiredLine (r : SessionRecord) : Option MessageLine :=
  match r.gesture with
  | .send input =>
    if r.hasInput then
      some { ownMessageLine input (wholeSeconds r.createdAt) with status := some .expired }
    else none
  | .plain _ _ _ => none

def OwnLog.hasDigest (log : OwnLog) (id : LineId) : Bool := (log.get? id).any (·.digest.isSome)

def unlessSent (log : OwnLog) (line : Option MessageLine) : Option MessageLine :=
  line.filter fun l => !log.hasDigest l.id

/-! ## 3. Records -/

/-- `manualLimitMs`: one day before the library may forget an act. -/
def manualLimitMs (horizonMs : Nat) : Nat := max (90 * DAY) horizonMs - DAY

def expiresAt (horizonMs : Nat) (r : SessionRecord) : Nat := r.createdAt + manualLimitMs horizonMs

def doneUntil {γ : Type} (r : IntentRecord γ) : Nat :=
  r.finishedAt.getD r.createdAt + DONE_RETENTION_MS

structure Draft where
  command : SessionCommand
  createdAt : Nat
  /-- A held message that is released. -/
  auto : Bool

def Draft.record (d : Draft) (actId : ActId) : SessionRecord where
  actId
  gesture := d.command
  policy := d.command.policy
  state := .journaled
  hasInput := true
  createdAt := d.createdAt
  seq := none
  attempts := 0
  outcome := none
  finishedAt := none

namespace SessionRecord

variable (r : SessionRecord)

def attempt : SessionRecord :=
  { r with state := .running, attempts := r.attempts + 1 }

/-- What `notStarted` writes. -/
def notStarted : SessionRecord := { r with attempts := r.attempts + 1 }

def lookedUp : SessionRecord := { r with state := .running }

/-- What `unknownOutcome` writes. -/
def unknownOutcome : SessionRecord :=
  match r.policy with
  | .confirmAgain => { r with state := .needsConfirmation }
  | .discard => { r with state := .expired, hasInput := false }
  | .replay => { r with state := .outcomeUnknown }

def finished (now : Nat) (outcome : IntentOutcome) (r : SessionRecord) : SessionRecord :=
  { r with
    state := .done
    hasInput := false
    outcome := some outcome
    finishedAt := some now }

def expired (now : Nat) (r : SessionRecord) : SessionRecord :=
  { r with state := .expired, hasInput := false, finishedAt := some now }

def needsConfirmation : SessionRecord :=
  { r with state := .needsConfirmation }

def sameInput (command : SessionCommand) : Bool :=
  r.hasInput && decide (r.gesture = command)

end SessionRecord

/-! ## 4. Executions and tasks -/

inductive ExecutionStage where
  | begin
  | notStarted
  | act
  | replay
  /-- `settleAtLimit` and `lookUp`: the library is asked. -/
  | limit
  | lookUp
  | unknownOutcome
  | finish (sent : SentDocument)
  | expire
  | expireLog (cur : SessionRecord)
  | expireWrite (cur : SessionRecord) (line : Option MessageLine)
  | refuse (held : Option HeldReason)
  | refuseLine (held : Option HeldReason)
  | refuseWrite (held : Option HeldReason) (line : Option MessageLine)
  /-- The write of a refusal is tried again by its timer. -/
  | later (held : Option HeldReason)
  | sync
deriving DecidableEq

structure Execution where
  /-- The copy that it works with. -/
  record : SessionRecord
  stage : ExecutionStage
  /-- It has left `executions`; its answer is in `knownAnswer`. -/
  known : Bool

inductive InflightKey where
  | gesture (key : DedupeKey)
  | confirm (actId : ActId)
  | retry (actId : ActId)
deriving DecidableEq

/-- The calls that begin with `findIntent`. -/
inductive Finding where
  | confirm
  | retry
  | discard
  | replayTimer

def Finding.key? (actId : ActId) : Finding → Option InflightKey
  | .confirm => some (.confirm actId)
  | .retry => some (.retry actId)
  | _ => none

inductive SessionTask where
  /-- A gesture reads the journal, the line of a message, and writes its record. -/
  | read (draft : Draft)
  | same (draft : Draft) (records : List SessionRecord)
  | readLine (draft : Draft)
  | lineRead (draft : Draft) (line : Option MessageLine)
  | journal (draft : Draft)
  /-- `execute` is called, and its end is awaited. -/
  | call (key : InflightKey) (record : SessionRecord) (fresh : Bool)
  | wait (key : InflightKey) (actId : ActId)
  | settle (record : SessionRecord)
  | find (finding : Finding) (actId : ActId)
  | found (finding : Finding) (actId : ActId) (record : Option SessionRecord)
  /-- The limit of `confirmIntent` and `retryIntent`. -/
  | limitLog (key : InflightKey) (record : SessionRecord)
  | limitWrite (key : InflightKey) (record : SessionRecord) (line : Option MessageLine)
  | discardWrite (record : SessionRecord)
  | expireOpen (purgeOnly : Bool)
  | expireFound (purgeOnly : Bool) (records : List SessionRecord)
  | due (records finished : List SessionRecord)
  | dueWait (actId : ActId) (records finished : List SessionRecord)
  | purge (records : List SessionRecord)
  | recover
  | recoverFound (records : List SessionRecord)
  | recoverWrite (gone records : List SessionRecord)
  | replayOpen
  | replayFound (records : List SessionRecord)
  | sync
  | syncWrite (lines : List MessageLine)

def SessionTask.key? : SessionTask → Option InflightKey
  | .read d | .same d _ | .readLine d | .lineRead d _ | .journal d =>
    some (.gesture d.command.dedupe)
  | .call key _ _ | .wait key _ | .limitLog key _ | .limitWrite key _ _ => some key
  | .find finding actId | .found finding actId _ => finding.key? actId
  | _ => none

def ExecutionStage.inQueue : ExecutionStage → Bool
  | .expireLog _ | .expireWrite _ _ | .refuseLine _ | .refuseWrite _ _ => true
  | _ => false

def SessionTask.inQueue : SessionTask → Bool
  | .syncWrite _ => true
  | _ => false

/-! ## 5. The session -/

structure CommittedAct where
  actId : ActId
  command : SessionCommand
  sent : SentDocument
  at_ : Nat

structure SessionIntents where
  journal : IntentStore SessionCommand
  log : OwnLog
  /-- The act journal of the library. -/
  acts : List CommittedAct
  now : Nat
  running : Bool
  /-- A resume of this opening is complete. -/
  resumed : Bool
  executions : List Execution
  tasks : List SessionTask
  commits : List CommittedAct
  taken : List SessionCommand

namespace SessionIntents

def start : SessionIntents where
  journal := .empty
  log := .empty
  acts := []
  now := 0
  running := false
  resumed := false
  executions := []
  tasks := []
  commits := []
  taken := []

variable (s : SessionIntents) (actId : ActId)

def replay : Option CommittedAct :=
  s.acts.find? fun c => decide (c.actId = actId)

variable (r : SessionRecord)

def commit (sent : SentDocument) : SessionIntents :=
  if (s.replay r.actId).isSome then s
  else
    let committed := ⟨r.actId, r.gesture, sent, s.now⟩
    { s with acts := s.acts ++ [committed], commits := s.commits ++ [committed] }

def executing : Bool :=
  s.executions.any fun e => !e.known && decide (e.record.actId = actId)

def knownAnswer : Bool :=
  s.executions.any fun e => e.known && decide (e.record.actId = actId)

def inflight (key : InflightKey) : Bool :=
  s.tasks.any fun t => decide (t.key? = some key)

def queueFree : Bool :=
  s.executions.all (fun e => !e.stage.inQueue) && s.tasks.all fun t => !t.inQueue

def replayable : Bool :=
  !s.executing r.actId && !s.knownAnswer r.actId &&
    decide (r.state = .outcomeUnknown ∨ r.state = .journaled ∨ r.state = .running)

/-- `execute` runs the record: nothing runs it yet, no answer of it is known, and the opening
    has resumed unless the record is fresh. -/
def canExecute (fresh : Bool) : Bool :=
  !s.executing r.actId && !s.knownAnswer r.actId && (fresh || s.resumed)

def write (line : Option MessageLine) : SessionIntents :=
  { s with journal := s.journal.put r, log := line.elim s.log s.log.put }

end SessionIntents

/-- What comes of an await of an execution.  `committedFail` is an act that throws after its
    commit, `locked` a call of an opening that has ended. -/
inductive ExecutionAnswer where
  | ok
  | fail
  | locked
  | committed (sent : SentDocument)
  | committedFail (sent : SentDocument)
  | refused (held : Option HeldReason)
deriving DecidableEq

/-- What comes of an await of a task; `views` are the sender statuses that a sync has read. -/
inductive TaskAnswer where
  | ok
  | fail
  | views (items : List (List DeliveryItemView))

section

variable (horizonMs : Nat)

namespace Execution

variable (e : Execution)

/-- After the write of the outcome a sync is awaited; a known answer is no longer one. -/
def written : Option Execution :=
  if e.known then none else some { e with stage := .sync }

def later (held : Option HeldReason) : Execution :=
  { e with stage := .later held, known := true }

def settled (act : Option CommittedAct) (unknown : Option Execution) : Option Execution :=
  match act with
  | some c => some { e with record := e.record.lookedUp, stage := .finish c.sent }
  | none => unknown

def attempted (now : Nat) : Execution where
  record := e.record.attempt
  stage :=
    if expiresAt horizonMs e.record < now then .limit
    else if e.record.state = .journaled ∨ e.record.policy ≠ .replay then .act
    else .replay
  known := e.known

def goOn (s : SessionIntents) (e : Execution) :
    ExecutionAnswer → Option (SessionIntents × Option Execution) := fun answer =>
  match e.stage, answer with
  | .begin, .ok => some (s.write e.record.attempt none, some (e.attempted horizonMs s.now))
  | .begin, .fail => some (s, some { e with stage := .notStarted })
  | .begin, .locked => some (s, none)
  | .notStarted, .ok => some (s.write e.record.notStarted none, none)
  | .notStarted, .fail => some (s, none)
  | .act, .committed sent =>
    let sent := ((s.replay e.record.actId).map (·.sent)).getD sent
    some (s.commit e.record sent, some { e with stage := .finish sent })
  | .act, .committedFail sent =>
    some (s.commit e.record sent, some { e with stage := .unknownOutcome })
  | .act, .refused held =>
    if (s.replay e.record.actId).isSome then none
    else some (s, some { e with stage := .refuse held })
  | .act, .fail => some (s, some { e with stage := .unknownOutcome })
  | .act, .locked => some (s, none)
  | .replay, .ok =>
    some (s, e.settled (s.replay e.record.actId) (some { e with stage := .expire }))
  | .replay, .fail => some (s, some { e with stage := .unknownOutcome })
  | .replay, .locked => some (s, none)
  | .limit, .ok =>
    some (s, e.settled (s.replay e.record.actId) (some { e with stage := .expire }))
  | .limit, .fail => some (s, none)
  | .lookUp, .ok => some (s, e.settled (s.replay e.record.actId) none)
  | .lookUp, .fail => some (s, none)
  | .unknownOutcome, .ok => some (s.write e.record.unknownOutcome none, none)
  | .unknownOutcome, .fail => some (s, none)
  | .finish sent, .ok =>
    if s.queueFree then
      some (s.write (e.record.finished s.now .ok) (sentLine e.record sent), e.written)
    else none
  | .finish _, .fail => some (s, some { e with stage := .unknownOutcome })
  -- the record as it is now: one that settled meanwhile is not expired over
  | .expire, .ok =>
    if s.queueFree then
      match s.journal.get? e.record.actId with
      | some cur =>
        some (s, if cur.isOpen then some { e with stage := .expireLog cur } else e.written)
      | none => some (s, some { e with stage := .expireLog e.record })
    else none
  | .expire, .fail => some (s, none)
  | .expireLog cur, .ok =>
    some (s, some { e with stage := .expireWrite cur (unlessSent s.log (expiredLine cur)) })
  | .expireLog _, .fail => some (s, none)
  | .expireWrite cur line, .ok => some (s.write (cur.expired s.now) line, e.written)
  | .expireWrite _ _, .fail => some (s, none)
  -- only while the record is still this attempt, never over a newer state
  | .refuse held, .ok =>
    if s.queueFree then
      match s.journal.get? e.record.actId with
      | some cur =>
        some (s, if cur.state ≠ .running ∨ cur.attempts ≠ e.record.attempts then e.written
          else some { e with stage := .refuseLine held })
      | none => some (s, some { e with stage := .refuseLine held })
    else none
  | .refuse held, .fail => some (s, some (e.later held))
  | .refuseLine held, .ok =>
    some (s, some { e with
      stage := .refuseWrite held (unlessSent s.log (refusedLine e.record held)) })
  | .refuseLine held, .fail => some (s, some (e.later held))
  | .refuseWrite _ line, .ok =>
    some (s.write (e.record.finished s.now .refused) line, e.written)
  | .refuseWrite held _, .fail => some (s, some (e.later held))
  | .later held, .ok =>
    some (s, if s.running then some { e with stage := .refuse held } else none)
  | .sync, .ok => some (s, none)
  | _, _ => none

end Execution

/-! ## 6. Tasks -/

/-- What a task leaves: the session, the tasks in its place, and an execution that it starts. -/
structure TaskStep where
  session : SessionIntents
  tasks : List SessionTask
  execution : Option Execution

namespace SessionTask

variable (s : SessionIntents)

def leave : Option TaskStep := some ⟨s, [], none⟩

def next (task : SessionTask) : Option TaskStep := some ⟨s, [task], none⟩

/-- `execute`: a second caller joins the execution. -/
def execute (key : InflightKey) (r : SessionRecord) (fresh : Bool) : Option TaskStep :=
  if s.canExecute r fresh then some ⟨s, [.wait key r.actId], some ⟨r, .begin, false⟩⟩
  else if s.executing r.actId then next s (.wait key r.actId)
  else leave s

def settleKey (r : SessionRecord) : InflightKey := .gesture r.gesture.dedupe

def canSettle (r : SessionRecord) : Bool :=
  s.resumed && !s.inflight (settleKey r)

def afterSame (d : Draft) (records : List SessionRecord) : Option TaskStep :=
  match d.command with
  | .send _ =>
    if records.any (fun r => decide (r.state = .expired)) then leave s
    else match records.find? (·.isOpen) with
      | some r => again s d r
      | none => next s (.readLine d)
  | .plain _ _ _ =>
    match records.find? (·.isOpen) with
    | some r => again s d r
    | none => next s (.journal d)
where
  /-- The same gesture is held by its open record. -/
  again (s : SessionIntents) (d : Draft) (r : SessionRecord) : Option TaskStep :=
    if r.sameInput d.command = false then leave s
    else if d.auto ∨ r.policy ≠ .replay then
      if r.policy = .replay then next s (.settle r) else leave s
    else if expiresAt horizonMs r < s.now then leave s
    else next s (.call (.gesture d.command.dedupe) r false)

def afterLine (d : Draft) (line : Option MessageLine) : Option TaskStep :=
  if line.any fun l => l.digest.isSome || decide (l.status = some .expired) then leave s
  else next s (.journal d)

/-- What `confirmIntent`, `retryIntent`, `discardIntent` and a replay timer do with the record. -/
def afterFind (actId : ActId) (r : SessionRecord) : Finding → Option TaskStep
  | .confirm =>
    if r.state ≠ .needsConfirmation then leave s
    else if expiresAt horizonMs r < s.now then next s (.limitLog (.confirm actId) r)
    else next s (.call (.confirm actId) r false)
  | .retry =>
    if s.inflight (settleKey r) then leave s
    else if r.policy ≠ .replay ∨ (r.state ≠ .outcomeUnknown ∧ r.state ≠ .partly) then leave s
    else if expiresAt horizonMs r < s.now then next s (.limitLog (.retry actId) r)
    else next s (.call (.retry actId) r false)
  | .discard => if r.isOpen then next s (.discardWrite r) else leave s
  | .replayTimer =>
    if s.replayable r ∧ s.now ≤ expiresAt horizonMs r then next s (.settle r) else leave s

def dueRecords (records : List SessionRecord) : List SessionRecord :=
  records.filter fun r =>
    r.isOpen && !s.executing r.actId && !s.knownAnswer r.actId &&
      decide (expiresAt horizonMs r < s.now)

/-- What `settleAtLimit` begins with. -/
def atLimit (r : SessionRecord) : Execution :=
  ⟨r, if r.state = .journaled then .expire else .limit, false⟩

def recovered (r : SessionRecord) : Option SessionRecord :=
  if r.isOpen = false ∨ s.executing r.actId = true ∨ expiresAt horizonMs r < s.now then none
  else match r.policy with
    | .discard => some (r.expired s.now)
    | .confirmAgain =>
      if r.state = .needsConfirmation then none else some r.needsConfirmation
    | .replay => none

def looksUp (r : SessionRecord) : Bool :=
  decide (s.now ≤ expiresAt horizonMs r) && decide (r.policy = .confirmAgain) &&
    decide (r.state = .needsConfirmation ∨ r.state = .running ∨ r.state = .outcomeUnknown) &&
    !s.executing r.actId

def pendingOut (log : OwnLog) : List MessageLine :=
  log.rows.filter fun l => decide (l.dir = .outgoing) && l.digest.isSome && !statusFinal l.status

def statusLines (lines : List MessageLine) (items : List (List DeliveryItemView)) :
    List MessageLine :=
  lines.zipIdx.filterMap fun (line, k) => statusLine ⟨line, items.getD k []⟩

def goOn (task : SessionTask) : TaskAnswer → Option TaskStep := fun answer =>
  match task, answer with
  | .read d, .ok =>
    next s (.same d (s.journal.rows.filter fun r =>
      decide (r.gesture.dedupe = d.command.dedupe)))
  | .read _, .fail => leave s
  | .same d records, .ok => afterSame horizonMs s d records
  | .readLine d, .ok =>
    match d.command with
    | .send input => next s (.lineRead d (s.log.get? (.own input.draftKey)))
    | .plain _ _ _ => none
  | .readLine _, .fail => leave s
  | .lineRead d line, .ok => afterLine s d line
  -- the journal before the first effect
  | .journal d, .ok =>
    let r := d.record s.taken.length
    next { s.write r none with taken := s.taken ++ [d.command] }
      (.call (.gesture d.command.dedupe) r true)
  | .journal _, .fail => leave s
  | .call key r fresh, .ok => execute s key r fresh
  | .wait _ actId, .ok => if s.executing actId then none else leave s
  | .settle r, .ok => if canSettle s r then execute s (settleKey r) r false else leave s
  | .find finding actId, .ok => next s (.found finding actId (s.journal.get? actId))
  | .find _ _, .fail => leave s
  | .found _ _ none, .ok => leave s
  | .found finding actId (some r), .ok => afterFind horizonMs s actId r finding
  | .limitLog key r, .ok => next s (.limitWrite key r (unlessSent s.log (expiredLine r)))
  | .limitLog _ _, .fail => leave s
  | .limitWrite _ r line, .ok => leave (s.write (r.expired s.now) line)
  | .limitWrite _ _ _, .fail => leave s
  | .discardWrite r, .ok => if s.queueFree then leave (s.write (r.expired s.now) none) else none
  | .discardWrite _, .fail => leave s
  | .expireOpen purgeOnly, .ok => next s (.expireFound purgeOnly s.journal.rows)
  | .expireOpen _, .fail => leave s
  | .expireFound purgeOnly records, .ok =>
    next s (.due (if purgeOnly then [] else dueRecords horizonMs s records)
      (records.filter fun r => !r.isOpen))
  | .due [] finished, .ok =>
    next s (.purge (finished.filter fun r => decide (doneUntil r < s.now)))
  -- claimed before it starts
  | .due (r :: rest) finished, .ok =>
    if s.executing r.actId then next s (.due rest finished)
    else some ⟨s, [.dueWait r.actId rest finished], some (atLimit r)⟩
  | .dueWait actId rest finished, .ok =>
    if s.executing actId then none else next s (.due rest finished)
  | .purge [], .ok => leave s
  | .purge (r :: rest), .ok =>
    if s.queueFree then
      leave { s with
        journal := (r :: rest).foldl (fun journal r => journal.erase r.actId) s.journal }
    else none
  | .purge _, .fail => leave s
  | .recover, .ok => next s (.recoverFound s.journal.rows)
  | .recover, .fail => leave s
  | .recoverFound records, .ok =>
    next s (.recoverWrite (records.filter fun r => !r.isOpen && decide (doneUntil r < s.now))
      (records.filterMap (recovered horizonMs s)))
  | .recoverWrite gone records, .ok =>
    leave { s with
      journal := records.foldl KeyedTable.put
        (gone.foldl (fun journal r => journal.erase r.actId) s.journal) }
  | .recoverWrite _ _, .fail => leave s
  | .replayOpen, .ok => next s (.replayFound s.journal.rows)
  | .replayOpen, .fail => leave s
  | .replayFound [], .ok => leave s
  | .replayFound (r :: rest), .ok =>
    if looksUp horizonMs s r then some ⟨s, [.replayFound rest], some ⟨r, .lookUp, false⟩⟩
    else if s.now ≤ expiresAt horizonMs r ∧ r.policy = .replay ∧ s.replayable r = true then
      some ⟨s, [.replayFound rest, .settle r], none⟩
    else next s (.replayFound rest)
  | .sync, .ok => if s.queueFree then next s (.syncWrite (pendingOut s.log)) else none
  | .sync, .fail => leave s
  | .syncWrite lines, .views items =>
    leave { s with log := (statusLines lines items).foldl KeyedTable.put s.log }
  | .syncWrite _, .fail => leave s
  | _, _ => none

end SessionTask

/-! ## 7. Steps -/

inductive IntentInput where
  | gesture (command : SessionCommand) (auto : Bool)
  | find (finding : Finding) (actId : ActId)
  | expireOpen (purgeOnly : Bool)
  | recover
  | replayOpen
  | sync
  | goOn (k : Nat) (answer : TaskAnswer)
  | run (k : Nat) (answer : ExecutionAnswer)
  | resume
  /-- The retention of an act is over. -/
  | forget (actId : ActId)
  | tick (ms : Nat)
  /-- The end of the opening, which its tasks may outlive. -/
  | stop
  | crash
  | reopen

def retentionMs : Nat := max (90 * DAY) horizonMs

def SessionIntents.spawn (s : SessionIntents) (task : SessionTask) : Option SessionIntents :=
  if s.running = false ∨ task.key?.any s.inflight = true then some s
  else some { s with tasks := s.tasks ++ [task] }

def intentStep (s : SessionIntents) : IntentInput → Option SessionIntents
  | .gesture command auto => s.spawn (.read ⟨command, s.now, auto⟩)
  | .find finding actId => s.spawn (.find finding actId)
  | .expireOpen purgeOnly => s.spawn (.expireOpen purgeOnly)
  | .recover => s.spawn .recover
  | .replayOpen => if s.resumed then s.spawn .replayOpen else some s
  | .sync => s.spawn .sync
  | .goOn k answer =>
    match s.tasks[k]? with
    | none => none
    | some task =>
      (task.goOn horizonMs s answer).map fun did =>
        { did.session with
          tasks := s.tasks.eraseIdx k ++ did.tasks
          executions := s.executions ++ did.execution.toList }
  | .run k answer =>
    match s.executions[k]? with
    | none => none
    | some e =>
      (e.goOn horizonMs s answer).map fun did =>
        { did.1 with executions := s.executions.eraseIdx k ++ did.2.toList }
  | .resume => some { s with resumed := s.resumed || s.running }
  | .forget actId =>
    some { s with
      acts := s.acts.filter fun c =>
        decide (c.actId ≠ actId ∨ s.now ≤ c.at_ + retentionMs horizonMs) }
  | .tick ms => some { s with now := s.now + ms }
  | .stop => some { s with running := false }
  | .crash =>
    some { s with running := false, resumed := false, executions := [], tasks := [] }
  | .reopen =>
    if s.running = true ∨ s.executions ≠ [] ∨ s.tasks ≠ [] then none
    else some { s with running := true, resumed := false }

end

end WebOfTrust
