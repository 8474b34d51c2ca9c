/-
  **In-person verification** (`verification-workflow.ts`, `qr-challenge.ts`,
  `InMemoryVerificationStateStore.ts`).

  Several instances of the workflow, one for each tab and each reload, share one store.
  After a reload the calls of the old instance take no more steps.

  A call runs to its next `await` in one step.  The effect of a store operation and the
  return to its caller are two steps, and it may fail before or after its effect.  Times are
  milliseconds; a time kept as text is the instant that the text denotes.

  `created` is history: `crypto.randomUUID` never gives a nonce twice.
-/
import WebOfTrust.KeyedTable
import WebOfTrust.Machine
import WebOfTrust.Messaging

namespace WebOfTrust

open List

/-! ## 1. QR challenges -/

/-- `toLowerCase`, on the ASCII texts that reach it. -/
def toLowerCase (text : String) : String := String.ofList (text.toList.map Char.toLower)

def lowerHexDigit (c : Char) : Bool := c.isDigit || ('a' ≤ c && c ≤ 'f')

def hexDigit (c : Char) : Bool := lowerHexDigit c || ('A' ≤ c && c ≤ 'F')

def matchesClasses (classes : List (Char → Bool)) (text : List Char) : Bool :=
  decide (classes.length = text.length) && (zipWith (· ·) classes text).all id

def QR_CHALLENGE_NONCE_PATTERN : List (Char → Bool) :=
  replicate 8 lowerHexDigit ++ [(· == '-')] ++ replicate 4 lowerHexDigit ++
    [(· == '-')] ++ [(· == '4')] ++ replicate 3 lowerHexDigit ++ [(· == '-')] ++
      ["89ab".toList.contains] ++
    replicate 3 lowerHexDigit ++ [(· == '-')] ++ replicate 12 lowerHexDigit

/-- What `VERIFICATION_JTI_PATTERN` asks for after `urn:uuid:`. -/
def VERIFICATION_JTI_PATTERN : List (Char → Bool) :=
  replicate 8 hexDigit ++ [(· == '-')] ++ replicate 4 hexDigit ++ [(· == '-')] ++
    replicate 4 hexDigit ++ [(· == '-')] ++ replicate 4 hexDigit ++ [(· == '-')] ++
    replicate 12 hexDigit

def parseVerificationJtiNonce (jti : String) : Option String :=
  if "urn:uuid:".toList.isPrefixOf jti.toList &&
      matchesClasses VERIFICATION_JTI_PATTERN (jti.toList.drop 9) then
    some (toLowerCase (String.ofList (jti.toList.drop 9)))
  else none

structure QrChallenge where
  did : Did
  name : String
  enc : String
  nonce : String
  ts : Nat
  broker : Option String

/-- `DID_PATTERN`: a method of small letters and digits, and at least one character on the
    line after it. -/
def didPattern (did : Did) : Bool :=
  "did:".toList.isPrefixOf did.toList &&
    let rest := did.toList.drop 4
    let method := rest.takeWhile fun c => c.isDigit || c.isLower
    !method.isEmpty && match rest.drop method.length with
      | ':' :: c :: _ => !(['\n', '\r', '\u2028', '\u2029'].contains c)
      | _ => false

/-- `BASE64URL_PATTERN`, of 43 characters: those decode to 32 bytes. -/
def encodesKey (enc : String) : Bool :=
  enc.toList.all (fun c => c.isAlphanum || c == '_' || c == '-') && enc.length == 43

/-- What the instances run in: which of them were made with the store, which of the optional
    operations the store offers, and `assertValidBroker`, which rests on the URL parser. -/
structure VerificationEnvironment where
  stateStore : Nat → Bool
  recordsActiveQrChallenge : Bool
  getsActiveQrChallenge : Bool
  clearsActiveQrChallenge : Bool
  validBroker : String → Bool

/-- `parseQrChallenge`, of a challenge that was written with `JSON.stringify`. -/
def parseQrChallenge (env : VerificationEnvironment) (challenge : QrChallenge) :
    Option QrChallenge :=
  if didPattern challenge.did && !challenge.name.isEmpty && encodesKey challenge.enc &&
      matchesClasses QR_CHALLENGE_NONCE_PATTERN challenge.nonce.toList &&
      challenge.broker.all env.validBroker then
    some challenge
  else none

/-! ## 2. Acceptance of a verification -/

def ACTIVE_CHALLENGE_MAX_AGE_MS : Nat := 5 * 60 * 1000

def isActiveQrChallengeValid (challenge : QrChallenge) (now : Nat) : Bool :=
  decide (challenge.ts ≤ now) && decide (now - challenge.ts ≤ ACTIVE_CHALLENGE_MAX_AGE_MS)

structure AttestationVcPayload where
  type : List String
  iss : Did
  sub : Did
  credentialSubject : Option Did
  jti : Option String
deriving DecidableEq

def isVerificationAttestation (payload : AttestationVcPayload) : Bool :=
  payload.type.contains "WotVerification"

inductive AcceptanceReason where
  | missingJtiNonce
  | noActiveMatchingNonce
  | wrongSubject
  | notVerificationAttestation
  | nonceConsumed
  | challengeExpired
deriving DecidableEq

inductive AcceptanceDecision where
  | acceptInPerson (nonce : String)
  | remoteUnbound (reason : AcceptanceReason)
  | reject (reason : AcceptanceReason)
deriving DecidableEq

/-- The nonce of a payload, as `findConsumedNonce` reads it: none of an empty `jti`. -/
def AttestationVcPayload.jtiNonce (payload : AttestationVcPayload) : Option String :=
  (payload.jti.filter fun jti => !jti.isEmpty).bind parseVerificationJtiNonce

def decideVerificationAttestationAcceptance (payload : AttestationVcPayload) (localDid : Did)
    (activeChallenge : Option QrChallenge) (now : Nat) (consumedNonces : List String) :
    AcceptanceDecision :=
  if payload.sub ≠ localDid ∨ payload.credentialSubject ≠ some localDid then
    .reject .wrongSubject
  else if isVerificationAttestation payload = false then .reject .notVerificationAttestation
  else
    match payload.jti.filter fun jti => !jti.isEmpty with
    | none => .remoteUnbound .missingJtiNonce
    | some jti =>
      match parseVerificationJtiNonce jti with
      | none => .remoteUnbound .noActiveMatchingNonce
      | some jtiNonce =>
        if (consumedNonces.map toLowerCase).contains jtiNonce then .reject .nonceConsumed
        else
          match activeChallenge with
          | none => .remoteUnbound .noActiveMatchingNonce
          | some challenge =>
            if toLowerCase challenge.nonce ≠ jtiNonce then .remoteUnbound .noActiveMatchingNonce
            else if isActiveQrChallengeValid challenge now = false then .reject .challengeExpired
            else .acceptInPerson (toLowerCase challenge.nonce)

/-! ## 3. The store -/

def CONSUMED_NONCE_RETENTION_MS : Nat := 24 * 60 * 60 * 1000

def PENDING_COUNTER_VERIFICATION_MAX_AGE_MS : Nat := 24 * 60 * 60 * 1000

/-- The instant that `wholeSecondRfc3339` writes. -/
def wholeSecond (time : Nat) : Nat := time / 1000 * 1000

structure RetainedNonce where
  nonce : String
  consumedAt : Nat

abbrev RetainedNonces := KeyedTable RetainedNonce.nonce

structure PendingCounterVerification where
  counterpartyDid : Did
  originalVerificationId : String
  createdAt : Nat
  expiresAt : Nat
deriving DecidableEq

abbrev PendingCounterVerifications := KeyedTable PendingCounterVerification.originalVerificationId

structure VerificationStateStore where
  consumedNonces : RetainedNonces
  pendingCounterVerifications : PendingCounterVerifications
  activeQrChallenge : Option QrChallenge

namespace VerificationStateStore

variable (store : VerificationStateStore)

def recordActiveQrChallenge (challenge : QrChallenge) : VerificationStateStore :=
  { store with activeQrChallenge := some challenge }

/-- `clearActiveQrChallenge`, bound to a nonce as the workflow always calls it. -/
def clearActiveQrChallenge (expectedNonce : String) : VerificationStateStore :=
  if store.activeQrChallenge.map QrChallenge.nonce ≠ some expectedNonce then store
  else { store with activeQrChallenge := none }

def tryConsumeNonce (nonce : String) (consumedAt : Nat) : Bool × VerificationStateStore :=
  if store.consumedNonces.has (toLowerCase nonce) then (false, store)
  else (true, { store with
    consumedNonces := store.consumedNonces.put ⟨toLowerCase nonce, consumedAt⟩ })

def hasConsumedNonce (nonce : String) : Bool :=
  store.consumedNonces.has (toLowerCase nonce)

def pruneConsumedNonces (olderThan : Nat) : VerificationStateStore :=
  { store with
    consumedNonces := store.consumedNonces.filter fun row => !decide (row.consumedAt < olderThan) }

def recordPendingCounterVerification
    (pending : PendingCounterVerification) : VerificationStateStore :=
  { store with pendingCounterVerifications := store.pendingCounterVerifications.put pending }

end VerificationStateStore

/-! ## 4. Instances and calls -/

inductive ChallengeStoreOp where
  | record (challenge : QrChallenge)
  | clear (nonce : String)

/-- An operation in `challengeStoreQueue`, with its outcome once it has settled. -/
structure QueuedOp where
  op : ChallengeStoreOp
  applied : Bool
  result : Option Bool

/-- An instance of the workflow.  The two maps are used without a store only. -/
structure VerificationWorkflow where
  activeQrChallenge : Option QrChallenge
  challengeEpoch : Nat
  challengeStoreQueue : List QueuedOp
  consumedNonces : RetainedNonces
  pendingCounterVerifications : PendingCounterVerifications

namespace VerificationWorkflow

def fresh : VerificationWorkflow where
  activeQrChallenge := none
  challengeEpoch := 0
  challengeStoreQueue := []
  consumedNonces := .empty
  pendingCounterVerifications := .empty

variable (w : VerificationWorkflow)

def enqueueChallengeStoreOp (op : ChallengeStoreOp) : VerificationWorkflow :=
  { w with challengeStoreQueue := w.challengeStoreQueue ++ [⟨op, false, none⟩] }

def commitChallengeState (epoch : Nat) (next : Option QrChallenge) : VerificationWorkflow :=
  if epoch ≠ w.challengeEpoch then w else { w with activeQrChallenge := next }

def commitAndAdvanceChallengeState (epoch : Nat)
    (next : Option QrChallenge) : VerificationWorkflow :=
  if epoch ≠ w.challengeEpoch then w
  else { w with activeQrChallenge := next, challengeEpoch := w.challengeEpoch + 1 }

def resetActiveQrChallenge : VerificationWorkflow :=
  let cleared := { w with challengeEpoch := w.challengeEpoch + 1, activeQrChallenge := none }
  match w.activeQrChallenge with
  | none => cleared
  | some challenge => cleared.enqueueChallengeStoreOp (.clear challenge.nonce)

def pruneConsumedNonces (now : Nat) : VerificationWorkflow :=
  { w with
    consumedNonces := w.consumedNonces.filter fun row =>
      !decide (now - row.consumedAt > CONSUMED_NONCE_RETENTION_MS) }

def settledUpTo (count : Nat) : Bool :=
  (w.challengeStoreQueue.take count).all fun queued => queued.result.isSome

def currentOp : Option (Nat × QueuedOp) :=
  (w.challengeStoreQueue.findIdx? fun queued => queued.result.isNone).bind fun j =>
    w.challengeStoreQueue[j]?.map fun queued => (j, queued)

def setOp (j : Nat) (queued : QueuedOp) : VerificationWorkflow :=
  { w with challengeStoreQueue := w.challengeStoreQueue.set j queued }

end VerificationWorkflow

inductive CreateStage where
  /-- At the encryption key of the identity. -/
  | keying (did : Did) (name : String) (broker : Option String)
  | persisting (epoch : Nat) (previousChallenge : Option QrChallenge) (challenge : QrChallenge)
      (op : Nat)
  | returned (challenge : QrChallenge)
  | failed

structure CreateCall where
  workflow : Nat
  stage : CreateStage

inductive RestoreStage where
  /-- At the operations that were in the queue. -/
  | draining (epoch count : Nat)
  | reading (epoch : Nat)
  | answered (epoch : Nat) (stored : Option QrChallenge)
  | returned (challenge : Option QrChallenge)

structure RestoreCall where
  workflow : Nat
  stage : RestoreStage

/-- Where `acceptVerifiedVerificationAttestation` stands.  The participles are a store
    operation that has had its effect and not returned yet. -/
inductive AcceptStage where
  | pruning
  | pruned
  | restoring (restore : Nat)
  | finding (epoch : Nat) (decision : AcceptanceDecision)
  | found (epoch : Nat) (decision : AcceptanceDecision) (consumedNonce : Bool)
  | consuming (epoch : Nat) (nonce : String)
  | consumed (epoch : Nat) (nonce : String) (consumed : Bool)
  | recording (nonce : String) (pending : PendingCounterVerification)
  | recorded (nonce : String)
  | clearing (nonce : String) (op : Nat)
  | returned (decision : AcceptanceDecision)
  | failed
deriving DecidableEq

structure AcceptCall where
  workflow : Nat
  localDid : Did
  payload : AttestationVcPayload
  now : Nat
  stage : AcceptStage

structure VerificationSystem where
  clock : Nat
  store : VerificationStateStore
  workflows : Nat → VerificationWorkflow
  creates : List CreateCall
  restores : List RestoreCall
  accepts : List AcceptCall
  created : List (Option Nat × QrChallenge)

namespace VerificationEnvironment

/-- Where the nonces of an instance are consumed: in the store, or in the instance itself. -/
def origin (env : VerificationEnvironment) (i : Nat) : Option Nat :=
  if env.stateStore i then none else some i

def offers (env : VerificationEnvironment) (i : Nat) : ChallengeStoreOp → Bool
  | .record _ => env.stateStore i && env.recordsActiveQrChallenge
  | .clear _ => env.stateStore i && env.clearsActiveQrChallenge

end VerificationEnvironment

namespace VerificationSystem

def start (clock : Nat) : VerificationSystem where
  clock := clock
  store := ⟨.empty, .empty, none⟩
  workflows _ := .fresh
  creates := []
  restores := []
  accepts := []
  created := []

def onWorkflow (s : VerificationSystem) (i : Nat)
    (f : VerificationWorkflow → VerificationWorkflow) : VerificationSystem :=
  { s with workflows := Function.update s.workflows i (f (s.workflows i)) }

def setCreate (s : VerificationSystem) (k : Nat) (call : CreateCall) (stage : CreateStage) :
    VerificationSystem :=
  { s with creates := s.creates.set k { call with stage := stage } }

def setRestore (s : VerificationSystem) (k : Nat) (call : RestoreCall) (stage : RestoreStage) :
    VerificationSystem :=
  { s with restores := s.restores.set k { call with stage := stage } }

def setAccept (s : VerificationSystem) (k : Nat) (call : AcceptCall) (stage : AcceptStage) :
    VerificationSystem :=
  { s with accepts := s.accepts.set k { call with stage := stage } }

/-! ## 5. Creating a challenge -/

/-- `createOnlineQrChallenge`, from the encryption key to the store. -/
def createKeyed (env : VerificationEnvironment) (s : VerificationSystem) (k : Nat)
    (call : CreateCall) (did : Did) (name : String) (broker : Option String)
    (enc nonce : String) : VerificationSystem :=
  match parseQrChallenge env ⟨did, name, enc, nonce, s.clock, broker⟩ with
  | none => s.setCreate k call .failed
  | some parsed =>
    let w := s.workflows call.workflow
    { s.onWorkflow call.workflow fun w =>
        { w with
          challengeEpoch := w.challengeEpoch + 1
          activeQrChallenge := some parsed }.enqueueChallengeStoreOp (.record parsed) with
      created := s.created ++ [(env.origin call.workflow, parsed)]
    }.setCreate k call (.persisting (w.challengeEpoch + 1) w.activeQrChallenge parsed
      w.challengeStoreQueue.length)

/-- `createOnlineQrChallenge`, after the store: a failure takes the challenge back. -/
def createResumes (s : VerificationSystem) (k : Nat) (call : CreateCall) :
    CreateStage → Option VerificationSystem
  | .persisting epoch previousChallenge challenge op =>
    ((s.workflows call.workflow).challengeStoreQueue[op]?.bind QueuedOp.result).map fun
      | true => s.setCreate k call (.returned challenge)
      | false =>
        (s.onWorkflow call.workflow fun w =>
          w.commitChallengeState epoch previousChallenge).setCreate k call .failed
  | _ => none

def applyOp (env : VerificationEnvironment) (i : Nat) (store : VerificationStateStore)
    (op : ChallengeStoreOp) : VerificationStateStore :=
  if env.offers i op then
    match op with
    | .record challenge => store.recordActiveQrChallenge challenge
    | .clear nonce => store.clearActiveQrChallenge nonce
  else store

def opApplies (env : VerificationEnvironment) (s : VerificationSystem) (i : Nat) :
    Option VerificationSystem :=
  (s.workflows i).currentOp.bind fun (j, queued) =>
    if queued.applied then none
    else
      some { s.onWorkflow i fun w => w.setOp j { queued with applied := true } with
        store := applyOp env i s.store queued.op }

def opSettles (env : VerificationEnvironment) (s : VerificationSystem) (i : Nat) (ok : Bool) :
    Option VerificationSystem :=
  (s.workflows i).currentOp.bind fun (j, queued) =>
    if (if ok then queued.applied else env.offers i queued.op) then
      some (s.onWorkflow i fun w => w.setOp j { queued with result := some ok })
    else none

/-! ## 6. Restoring a challenge -/

/-- `restoreActiveQrChallenge`, up to the operations in the queue. -/
def restoreActiveQrChallenge (s : VerificationSystem) (i : Nat) : VerificationSystem :=
  let w := s.workflows i
  { s with
    restores := s.restores ++ [⟨i, match w.activeQrChallenge with
        | some challenge => .returned (some challenge)
        | none => .draining w.challengeEpoch w.challengeStoreQueue.length⟩] }

/-- `restoreActiveQrChallenge`, after the queue and after the store. -/
def restoreResumes (env : VerificationEnvironment) (s : VerificationSystem) (k : Nat)
    (call : RestoreCall) : RestoreStage → Option VerificationSystem
  | .draining epoch count =>
    if (s.workflows call.workflow).settledUpTo count then
      some (s.setRestore k call (.reading epoch))
    else none
  | .answered epoch stored =>
    match stored.bind (parseQrChallenge env) with
    | none => some (s.setRestore k call (.returned none))
    | some parsed =>
      let w := s.workflows call.workflow
      if epoch ≠ w.challengeEpoch then
        some (s.setRestore k call (.returned w.activeQrChallenge))
      else
        some ((s.onWorkflow call.workflow fun w =>
          w.commitChallengeState epoch (some parsed)).setRestore k call (.returned (some parsed)))
  | _ => none

def readsStore (env : VerificationEnvironment) (i : Nat) : Bool :=
  env.stateStore i && env.getsActiveQrChallenge

def restoreStores (env : VerificationEnvironment) (s : VerificationSystem) (k : Nat)
    (call : RestoreCall) : RestoreStage → Option VerificationSystem
  | .reading epoch =>
    some (s.setRestore k call (.answered epoch
      (if readsStore env call.workflow then s.store.activeQrChallenge else none)))
  | _ => none

def restoreStoreFails (env : VerificationEnvironment) (s : VerificationSystem) (k : Nat)
    (call : RestoreCall) : RestoreStage → Option VerificationSystem
  | .reading _ | .answered _ _ =>
    if readsStore env call.workflow then some (s.setRestore k call (.returned none)) else none
  | _ => none

/-! ## 7. Accepting a verification -/

/-- The record of `recordPendingCounterVerification` for an accepted verification. -/
def pendingCounterVerification (payload : AttestationVcPayload) (now : Nat) :
    PendingCounterVerification where
  counterpartyDid := payload.iss
  originalVerificationId := payload.jti.getD ""
  createdAt := wholeSecond now
  expiresAt := wholeSecond (now + PENDING_COUNTER_VERIFICATION_MAX_AGE_MS)

def classifyReplay (decision : AcceptanceDecision) (consumedNonce : Bool) : AcceptanceDecision :=
  match decision with
  | .remoteUnbound _ => if consumedNonce then .reject .nonceConsumed else decision
  | _ => decision

/-- What `acceptVerifiedVerificationAttestation` does to an instance without a store. -/
def acceptInMemory (w : VerificationWorkflow) (localDid : Did) (payload : AttestationVcPayload)
    (now : Nat) : AcceptanceDecision × VerificationWorkflow :=
  let pruned := w.pruneConsumedNonces now
  let decision := decideVerificationAttestationAcceptance payload localDid
    pruned.activeQrChallenge now (pruned.consumedNonces.rows.map RetainedNonce.nonce)
  (classifyReplay decision (payload.jtiNonce.any pruned.consumedNonces.has), match decision with
    | .acceptInPerson nonce =>
      { pruned with
        consumedNonces := pruned.consumedNonces.put ⟨toLowerCase nonce, now⟩
        activeQrChallenge := none
        pendingCounterVerifications :=
          pruned.pendingCounterVerifications.put (pendingCounterVerification payload now) }
    | _ => pruned)

/-- `acceptVerifiedVerificationAttestation`, up to the first store operation. -/
def acceptVerifiedVerificationAttestation (env : VerificationEnvironment) (s : VerificationSystem)
    (i : Nat) (localDid : Did) (payload : AttestationVcPayload) : VerificationSystem :=
  if env.stateStore i then
    { s with accepts := s.accepts ++ [⟨i, localDid, payload, s.clock, .pruning⟩] }
  else
    let accepted := acceptInMemory (s.workflows i) localDid payload s.clock
    { s.onWorkflow i fun _ => accepted.2 with
      accepts := s.accepts ++ [⟨i, localDid, payload, s.clock, .returned accepted.1⟩] }

/-- The decision of `acceptVerifiedVerificationAttestationWithStore`, by the time at which the
    call was made. -/
def decideAcceptance (s : VerificationSystem) (k : Nat) (call : AcceptCall) : VerificationSystem :=
  let w := s.workflows call.workflow
  s.setAccept k call (.finding w.challengeEpoch
    (decideVerificationAttestationAcceptance call.payload call.localDid w.activeQrChallenge
      call.now []))

def acceptStores (s : VerificationSystem) (k : Nat) (call : AcceptCall) :
    AcceptStage → Option VerificationSystem
  | .pruning =>
    some { s.setAccept k call .pruned with
      store := s.store.pruneConsumedNonces (wholeSecond (call.now - CONSUMED_NONCE_RETENTION_MS)) }
  | .finding epoch decision =>
    some (s.setAccept k call
      (.found epoch decision (call.payload.jtiNonce.any s.store.hasConsumedNonce)))
  | .consuming epoch nonce =>
    let consumption := s.store.tryConsumeNonce (toLowerCase nonce) (wholeSecond call.now)
    some { s.setAccept k call (.consumed epoch nonce consumption.1) with store := consumption.2 }
  | .recording nonce pending =>
    some { s.setAccept k call (.recorded nonce) with
      store := s.store.recordPendingCounterVerification pending }
  | _ => none

/-- `acceptVerifiedVerificationAttestationWithStore`, from one `await` to the next. -/
def acceptResumes (s : VerificationSystem) (k : Nat) (call : AcceptCall) :
    AcceptStage → Option VerificationSystem
  | .pruned =>
    if (s.workflows call.workflow).activeQrChallenge.isNone then
      some ((s.restoreActiveQrChallenge call.workflow).setAccept k call
        (.restoring s.restores.length))
    else some (s.decideAcceptance k call)
  | .restoring restore =>
    match s.restores[restore]?.map RestoreCall.stage with
    | some (.returned _) => some (s.decideAcceptance k call)
    | _ => none
  | .found epoch decision consumedNonce =>
    match decision with
    | .acceptInPerson nonce => some (s.setAccept k call (.consuming epoch nonce))
    | _ => some (s.setAccept k call (.returned (classifyReplay decision consumedNonce)))
  | .consumed epoch nonce consumed =>
    if consumed then
      some ((s.onWorkflow call.workflow fun w =>
        w.commitAndAdvanceChallengeState epoch none).setAccept k call
          (.recording nonce (pendingCounterVerification call.payload s.clock)))
    else some (s.setAccept k call (.returned (.reject .nonceConsumed)))
  | .recorded nonce =>
    some ((s.onWorkflow call.workflow fun w => w.enqueueChallengeStoreOp (.clear nonce)).setAccept
      k call (.clearing nonce (s.workflows call.workflow).challengeStoreQueue.length))
  | .clearing nonce op =>
    if ((s.workflows call.workflow).challengeStoreQueue[op]?.bind QueuedOp.result).isSome then
      some (s.setAccept k call (.returned (.acceptInPerson nonce)))
    else none
  | _ => none

def acceptStoreFails (s : VerificationSystem) (k : Nat) (call : AcceptCall) :
    AcceptStage → Option VerificationSystem
  | .pruning | .pruned | .consuming _ _ | .consumed _ _ _ | .recording _ _ | .recorded _ =>
    some (s.setAccept k call .failed)
  | .finding _ _ | .found _ _ _ =>
    if call.payload.jtiNonce.isSome then some (s.setAccept k call .failed) else none
  | _ => none

/-! ## 8. Steps -/

inductive Input where
  | tick (elapsed : Nat)
  | create (i : Nat) (did : Did) (name : String) (broker : Option String)
  | createKeyed (k : Nat) (enc nonce : String)
  | createKeyFails (k : Nat)
  | createResumes (k : Nat)
  | opApplies (i : Nat)
  | opSettles (i : Nat) (ok : Bool)
  | restore (i : Nat)
  | restoreResumes (k : Nat)
  | restoreStores (k : Nat)
  | restoreStoreFails (k : Nat)
  | accept (i : Nat) (localDid : Did) (payload : AttestationVcPayload)
  | acceptResumes (k : Nat)
  | acceptStores (k : Nat)
  | acceptStoreFails (k : Nat)
  | reset (i : Nat)
deriving DecidableEq

def step (env : VerificationEnvironment) (s : VerificationSystem) :
    Input → Option VerificationSystem
  | .tick elapsed => some { s with clock := s.clock + elapsed }
  | .create i did name broker =>
    some { s with creates := s.creates ++ [⟨i, .keying did name broker⟩] }
  | .createKeyed k enc nonce =>
    s.creates[k]?.bind fun call =>
      match call.stage with
      | .keying did name broker => some (createKeyed env s k call did name broker enc nonce)
      | _ => none
  | .createKeyFails k =>
    s.creates[k]?.bind fun call =>
      match call.stage with
      | .keying _ _ _ => some (s.setCreate k call .failed)
      | _ => none
  | .createResumes k => s.creates[k]?.bind fun call => createResumes s k call call.stage
  | .opApplies i => opApplies env s i
  | .opSettles i ok => opSettles env s i ok
  | .restore i => some (s.restoreActiveQrChallenge i)
  | .restoreResumes k => s.restores[k]?.bind fun call => restoreResumes env s k call call.stage
  | .restoreStores k => s.restores[k]?.bind fun call => restoreStores env s k call call.stage
  | .restoreStoreFails k =>
    s.restores[k]?.bind fun call => restoreStoreFails env s k call call.stage
  | .accept i localDid payload =>
    some (acceptVerifiedVerificationAttestation env s i localDid payload)
  | .acceptResumes k => s.accepts[k]?.bind fun call => acceptResumes s k call call.stage
  | .acceptStores k => s.accepts[k]?.bind fun call => acceptStores s k call call.stage
  | .acceptStoreFails k => s.accepts[k]?.bind fun call => acceptStoreFails s k call call.stage
  | .reset i => some (s.onWorkflow i VerificationWorkflow.resetActiveQrChallenge)

end VerificationSystem

end WebOfTrust
