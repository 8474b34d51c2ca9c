/-
  **Secure removal of a member** (`application/sync/secure-removal-workflow.ts`
  and the commit of `group-key-workflow.ts`): stage the key material of the next
  generation, make every home broker rotate to it, commit, and clean up.

  Any number of drivers work over one durable store.  At every `await` that reads
  or writes something shared, or talks to somebody, a driver can be interrupted or
  lost.  What brokers, peers and the random source contribute is the `RemovalEnv`.
-/
import WebOfTrust.AsyncPool
import WebOfTrust.BrokerErrors
import WebOfTrust.PendingRemovalStore

namespace WebOfTrust

open Async

/-! ## 1. Keys and brokers -/

structure OwnCapability where
  audience : Did
  issuedAt : Nat
  validUntil : Nat

/-- The keys of one space in the key store; the generation is `-1` for an
    unknown space. -/
structure SpaceKeys where
  generation : Int
  contentKey : Nat → Option Bytes
  capVerificationKey : Nat → Option Bytes
  ownCapability : Nat → Option OwnCapability

namespace SpaceKeys

def none : SpaceKeys where
  generation := -1
  contentKey _ := .none
  capVerificationKey _ := .none
  ownCapability _ := .none

variable (k : SpaceKeys) (generation : Nat)

def saveKey (key : Bytes) : SpaceKeys :=
  { k with
    generation := max k.generation generation
    contentKey := Function.update k.contentKey generation (some key) }

def saveCapabilityKeyPair (verificationKey : Bytes) : SpaceKeys :=
  { k with
    capVerificationKey := Function.update k.capVerificationKey generation (some verificationKey) }

def saveOwnCapability (capability : OwnCapability) : SpaceKeys :=
  { k with ownCapability := Function.update k.ownCapability generation (some capability) }

end SpaceKeys

/-- A `space-rotate` frame. -/
structure RotateFrame where
  spaceId : DocId
  newGeneration : Nat
  newCapVerificationKey : Bytes
deriving DecidableEq

def PendingRemoval.rotateFrame (r : PendingRemoval) : RotateFrame where
  spaceId := r.spaceId
  newGeneration := r.newGeneration
  newCapVerificationKey := r.stagedKeyMaterial.capVerificationKey

/-- What a sender learns about a frame.  `lost` is a transport failure: the broker
    may have accepted the frame all the same. -/
inductive BrokerReply where
  | receipt
  | lost (accepted : Bool)
  | rejected (code : BrokerErrorCode) (currentGeneration : Option Nat)
deriving DecidableEq

def BrokerReply.accepted : BrokerReply → Bool
  | .receipt => true
  | .lost accepted => accepted
  | .rejected _ _ => false

structure BrokerSpace where
  generation : Nat
  capVerificationKey : Bytes

def BrokerSpace.install (frame : RotateFrame) : BrokerSpace where
  generation := frame.newGeneration
  capVerificationKey := frame.newCapVerificationKey

def BrokerSpace.reply (b : BrokerSpace) (frame : RotateFrame) : BrokerReply :=
  if frame.newGeneration = b.generation then
    if frame.newCapVerificationKey = b.capVerificationKey then .receipt
    else .rejected .generationTaken none
  else if frame.newGeneration < b.generation then .rejected .generationTaken none
  else if b.generation + 1 < frame.newGeneration then
    .rejected .generationGap (some b.generation)
  else .receipt

/-! ## 2. World and inputs -/

structure RemovalCommit where
  spaceId : DocId
  removedDid : Did
  newGeneration : Nat
  activityEntry : Option String

/-- The durable store, the local keys, the brokers, and what has happened outside.
    `minted` holds every record as it was first given a staging identity;
    `inherited` says that a version without identities left records behind. -/
structure RemovalWorld where
  removals : PendingRemovals
  keys : DocId → SpaceKeys
  brokers : String → DocId → BrokerSpace
  accepted : List (String × RotateFrame)
  adminRemoved : List (String × DocId × Did)
  commits : List RemovalCommit
  finalized : List (DocId × Did × Nat)
  minted : List PendingRemoval
  inherited : Bool

def RemovalWorld.install (w : RemovalWorld) (brokerUrl : String) (frame : RotateFrame) :
    RemovalWorld :=
  { w with
    brokers := Function.update w.brokers brokerUrl
      (Function.update (w.brokers brokerUrl) frame.spaceId (.install frame))
    accepted := w.accepted ++ [(brokerUrl, frame)] }

def RemovalWorld.setKeys (w : RemovalWorld) (spaceId : DocId) (keys : SpaceKeys) : RemovalWorld :=
  { w with keys := Function.update w.keys spaceId keys }

structure RemovalEnv where
  failure : Option String
  now : Nat
  randomId : String
  randomMaterial : StagedRemovalKeyMaterial
  reply : BrokerReply
  caughtUp : Bool
  importedKeys : List (Nat × Bytes)

inductive RemovalPendingStage where
  | spaceRotate
  | adminRemove

inductive RemovalError where
  | message (text : String)
  | pendingNotEnforced (spaceId : DocId) (removedDid : Did) (targetGeneration : Nat)
      (stage : RemovalPendingStage)
  | stagingConflict (spaceId : DocId) (removedDid : Did) (existing : Option PendingRemoval)
  | generationGapSplitBrain (spaceId : DocId) (localGeneration : Int) (brokerGeneration : Nat)
  | controlFrameRejected (code : BrokerErrorCode) (currentGeneration : Option Nat)

/-- `SecureRemovalDeps` without its store and callbacks. -/
structure SecureRemovalDeps where
  ownerDid : Did
  homeBrokerSet : List String
  validityMs : Nat
  /-- `adminRemove` is not null. -/
  adminRemove : Bool

/-- What `resolveDeps` can offer for a removal. -/
inductive ResolvedDeps where
  | full (deps : SecureRemovalDeps)
  | finalization
  | cleanup

/-! ## 3. Points -/

/-- The awaits of `commitStagedRotation` and `commitRemoval`. -/
inductive CommitStep where
  | currentGeneration
  | saveKey
  | readKey
  | readCapVerificationKey
  | readOwnCapability
  | saveCapabilityKeyPair
  | saveOwnCapability
  | commitRemoval

inductive RemovalPoint where
  | getPendingRemoval (spaceId : DocId) (removedDid : Did)
  | listPendingRemovals
  | currentGeneration (spaceId : DocId)
  | mint (removal : PendingRemoval)
  | put (removal : PendingRemoval) (expect : WriteExpectation)
  | checkBinding (removal : PendingRemoval)
  | createRotateFrame (removal : PendingRemoval)
  | sendSpaceRotate (brokerUrl : String) (frame : RotateFrame)
  | markBrokerConfirmed (removal : PendingRemoval) (brokerUrl : String)
  | catchUp (spaceId : DocId)
  | persistPhase (copy removal : PendingRemoval)
  | gate (removal : PendingRemoval)
  | commit (removal : PendingRemoval) (step : CommitStep)
  | createAdminRemoveFrame (removal : PendingRemoval)
  | sendAdminRemove (removal : PendingRemoval) (brokerUrl : String)
  | finalizeSelfLeave (removal : PendingRemoval)
  | delete (removal : PendingRemoval)
  | otherRotation (brokerUrl : String) (frame : RotateFrame)
  | keyRotation (spaceId : DocId) (generation : Nat) (key : Bytes)

abbrev RemovalProgram := Async RemovalPoint RemovalEnv RemovalWorld RemovalError

/-- A step that may reject with a message and otherwise does `f`. -/
def attempt {α : Type} (t : RemovalPoint) (f : RemovalEnv → RemovalWorld → α × RemovalWorld) :
    RemovalProgram α :=
  atomic t fun env w =>
    match env.failure with
    | some text => (.error (.message text), w)
    | none => (.ok (f env w).1, (f env w).2)

/-! ## 4. Staging -/

section

-- `computeStagedMaterialFingerprint`: a hash of the generation and the material.
variable (fingerprint : Nat → StagedRemovalKeyMaterial → String)

def pendingRemovalWriteExpectation : Option PendingRemoval → WriteExpectation
  | none => .absent
  | some read =>
    match read.stagingId with
    | some id => .staging id
    | none => legacyWriteExpectation read

def getPendingRemoval (spaceId : DocId) (removedDid : Did) :
    RemovalProgram (Option PendingRemoval) :=
  attempt (.getPendingRemoval spaceId removedDid) fun _ w =>
    (w.removals.getPendingRemoval spaceId removedDid, w)

/-- `putPendingRemoval` at a point of the caller's. -/
def putPendingRemoval (t : RemovalPoint) (removal : PendingRemoval) (expect : WriteExpectation) :
    RemovalProgram Unit :=
  atomic t fun env w =>
    match env.failure with
    | some text => (.error (.message text), w)
    | none =>
      match w.removals.putPendingRemoval removal (some expect) with
      | .ok removals => (.ok (), { w with removals := removals })
      | .error existing =>
        (.error (.stagingConflict removal.spaceId removal.removedDid existing), w)

def PendingRemoval.bound (r : PendingRemoval) (id : String) : PendingRemoval :=
  { r with
    stagingId := some id
    materialFingerprint := some (fingerprint r.newGeneration r.stagedKeyMaterial) }

/-- `mintStagingId` for a record. -/
def mintStaging (removal : RemovalEnv → PendingRemoval) (template : PendingRemoval) :
    RemovalProgram PendingRemoval :=
  attempt (.mint template) fun env w =>
    let bound := (removal env).bound fingerprint env.randomId
    (bound, { w with minted := w.minted ++ [bound] })

section

variable (deps : SecureRemovalDeps)

def stagingTemplate (spaceId : DocId) (removedDid : Did)
    (activityEntry : Option String) (canonical : Bool) (newGeneration : Nat) :
    PendingRemoval where
  phase := .staged
  spaceId := spaceId
  removedDid := removedDid
  homeBrokerSet := deps.homeBrokerSet
  confirmedBrokerUrls := []
  newGeneration := newGeneration
  stagedKeyMaterial := ⟨[], [], []⟩
  stagingId := none
  materialFingerprint := none
  createdAt := 0
  activityEntry := activityEntry
  canonicalSelfRemovalRotation := canonical
  committed := none
  adminRemoveConfirmedBrokerUrls := none

/-- `stageRotateSpaceKey` and `stageRemovalCandidate`: nothing is persisted. -/
def stageRemovalCandidate (spaceId : DocId) (removedDid : Did)
    (activityEntry : Option String) (canonical : Bool) : RemovalProgram PendingRemoval := do
  let current ← attempt (.currentGeneration spaceId) fun _ w => ((w.keys spaceId).generation, w)
  if current < 0 then
    throw (.message s!"No key exists for space: {spaceId}")
  else
    let template :=
      stagingTemplate deps spaceId removedDid activityEntry canonical (current + 1).toNat
    mintStaging fingerprint
      (fun env => { template with stagedKeyMaterial := env.randomMaterial, createdAt := env.now })
      template

def canonicalBehindMessage (targetGeneration localGeneration : Nat) : String :=
  s!"cannot enforce canonical self-removal at generation {targetGeneration} " ++
    s!"while local generation is behind ({localGeneration})"

def kindName (canonical : Bool) : String :=
  if canonical then "canonical-self-removal-rotation" else "regular removal"

/-- `stageRemoval`.  `replaces` is a staging of this driver's own that is given
    up; without it a concurrent staging of the same removal is adopted. -/
def stageRemoval (spaceId : DocId) (removedDid : Did)
    (activityEntry : Option String) (canonical : Bool) (targetGeneration : Option Nat)
    (replaces : Option PendingRemoval) : RemovalProgram PendingRemoval := do
  let removal ← stageRemovalCandidate fingerprint deps spaceId removedDid activityEntry canonical
  match targetGeneration.filter (removal.newGeneration < ·) with
  | some target => throw (.message (canonicalBehindMessage target (removal.newGeneration - 1)))
  | none =>
    tryCatch (do
        let expect := pendingRemovalWriteExpectation replaces
        putPendingRemoval (.put removal expect) removal expect
        pure removal)
      fun err =>
        match err, replaces with
        | .stagingConflict _ _ (some winner), none =>
          if winner.canonicalSelfRemovalRotation ≠ canonical then
            throw (.message
              (s!"pending removal of {removedDid} in space {spaceId} is already staged as " ++
                kindName winner.canonicalSelfRemovalRotation ++ "; cannot restage it as " ++
                kindName canonical))
          else
            match targetGeneration.filter (winner.newGeneration < ·) with
            | some target =>
              throw (.message (canonicalBehindMessage target (winner.newGeneration - 1)))
            | none => pure winner
        | err, _ => throw err

/-! ## 5. Phase writes and binding -/

section

variable (removal : PendingRemoval)

def RemovalError.pending : RemovalError :=
  .pendingNotEnforced removal.spaceId removal.removedDid removal.newGeneration .spaceRotate

/-- `persistPhase`: write `removal`, the successor of the driver's `copy`. -/
def persistPhase (copy removal : PendingRemoval) : RemovalProgram Unit :=
  tryCatch (putPendingRemoval (.persistPhase copy removal) removal
      (pendingRemovalWriteExpectation (some removal)))
    fun err =>
      match err with
      | .stagingConflict _ _ _ => throw (.pending removal)
      | err => throw err

def deleteOwnStaging : RemovalProgram Bool :=
  attempt (.delete removal) fun _ w =>
    let result := w.removals.deletePendingRemoval removal.spaceId removal.removedDid
      (some (pendingRemovalWriteExpectation (some removal)))
    (decide (result.1 ≠ .mismatch), { w with removals := result.2 })

def RemovalPhase.preCommit : RemovalPhase → Bool
  | .staged => true
  | .brokerConfirmed => true
  | _ => false

def PendingRemoval.isBound (r : PendingRemoval) : Bool :=
  r.stagingId.isSome &&
    decide (r.materialFingerprint = some (fingerprint r.newGeneration r.stagedKeyMaterial))

/-- A record that is given a new identity: before the commit it counts as
    unconfirmed. -/
def PendingRemoval.rebased (r : PendingRemoval) : PendingRemoval :=
  if r.phase.preCommit then { r with confirmedBrokerUrls := [], phase := .staged } else r

def bindStagingMaterial : RemovalProgram PendingRemoval :=
  if removal.isBound fingerprint then do
    let stored ← attempt (.checkBinding removal) fun _ w =>
      (w.removals.getPendingRemoval removal.spaceId removal.removedDid, w)
    if stored.any fun s => s.stagingId.isSome && decide (s.stagingId ≠ removal.stagingId) then
      throw (.pending removal)
    else pure removal
  else do
    let adopted ← mintStaging fingerprint (fun _ => removal.rebased) removal.rebased
    tryCatch (do
        let expect := pendingRemovalWriteExpectation (some removal)
        putPendingRemoval (.put adopted expect) adopted expect
        pure adopted)
      fun err =>
        match err with
        | .stagingConflict _ _ (some winner) =>
          if winner.isBound fingerprint then pure winner else throw (.pending removal)
        | .stagingConflict _ _ none => throw (.pending removal)
        | err => throw err

/-! ## 6. Broker confirmations -/

/-- `ControlFrameRejectedError` or a transport error. -/
def BrokerReply.outcome : BrokerReply → Except RemovalError Unit
  | .receipt => .ok ()
  | .lost _ => .error (.message "transport failure")
  | .rejected code currentGeneration => .error (.controlFrameRejected code currentGeneration)

def sendSpaceRotate (brokerUrl : String) (frame : RotateFrame) : RemovalProgram Unit :=
  atomic (.sendSpaceRotate brokerUrl frame) fun env w =>
    (env.reply.outcome, if env.reply.accepted then w.install brokerUrl frame else w)

def PendingRemoval.binding (r : PendingRemoval) : BrokerConfirmationBinding where
  stagingId := r.stagingId.getD ""
  newGeneration := r.newGeneration
  materialFingerprint := r.materialFingerprint.getD ""

def markBrokerConfirmed (brokerUrl : String) : RemovalProgram ConfirmationOutcome :=
  attempt (.markBrokerConfirmed removal brokerUrl) fun _ w =>
    let result := w.removals.markBrokerConfirmed removal.spaceId removal.removedDid brokerUrl
      (some removal.binding)
    (result.1, { w with removals := result.2 })

def handleGenerationGap
    (currentGeneration : Option Nat) : RemovalProgram (Option PendingRemoval) := do
  match currentGeneration.filter (· ≤ maxSafeInteger) with
  | none => pure none
  | some brokerGeneration =>
    let localGeneration ← attempt (.currentGeneration removal.spaceId) fun _ w =>
      ((w.keys removal.spaceId).generation, w)
    if localGeneration > brokerGeneration then
      throw (.generationGapSplitBrain removal.spaceId localGeneration brokerGeneration)
    else
      let complete ← attempt (.catchUp removal.spaceId) fun env w =>
        (env.caughtUp, w.setKeys removal.spaceId
          (env.importedKeys.foldl (fun k g => k.saveKey g.1 g.2) (w.keys removal.spaceId)))
      if !complete then pure none
      else
        let restaged ← stageRemovalCandidate fingerprint deps removal.spaceId removal.removedDid
          removal.activityEntry removal.canonicalSelfRemovalRotation
        if restaged.newGeneration ≠ brokerGeneration + 1 then
          throw (.message
            s!"GENERATION_GAP catch-up did not converge to broker generation {brokerGeneration}")
        else
          let expect := pendingRemovalWriteExpectation (some removal)
          putPendingRemoval (.put restaged expect) restaged expect
          pure (some restaged)

def handleGenerationTaken : RemovalProgram Bool := do
  let current ← attempt (.currentGeneration removal.spaceId) fun _ w =>
    ((w.keys removal.spaceId).generation, w)
  if removal.canonicalSelfRemovalRotation ∧ current ≥ removal.newGeneration then
    let _ ← deleteOwnStaging removal
    pure true
  else if ¬ removal.canonicalSelfRemovalRotation ∧ current ≥ removal.newGeneration then
    let _ ← stageRemoval fingerprint deps removal.spaceId removal.removedDid
      removal.activityEntry removal.canonicalSelfRemovalRotation none (some removal)
    pure false
  else pure false

end

inductive Enforcement where
  | confirmed (brokerUrls : List String)
  | restaged (removal : PendingRemoval)
  | superseded

section

variable (removal : PendingRemoval)

def handleRotateError (err : RemovalError) : RemovalProgram Enforcement :=
  match err with
  | .pendingNotEnforced _ _ _ _ => throw err
  | .controlFrameRejected .generationGap currentGeneration => do
    let restaged ← handleGenerationGap fingerprint deps removal currentGeneration
    match restaged with
    | some restaged => pure (.restaged restaged)
    | none => throw (.pending removal)
  | .controlFrameRejected .generationTaken _ => do
    let fulfilled ← handleGenerationTaken fingerprint deps removal
    if fulfilled then pure .superseded else throw (.pending removal)
  | .controlFrameRejected code _ =>
    if classifyRejectDisposition code = .hardStop then throw err else throw (.pending removal)
  | _ => throw (.pending removal)

def confirmBrokers (deps : SecureRemovalDeps) (removal : PendingRemoval) (frame : RotateFrame) :
    List String → List String → RemovalProgram Enforcement
  | [], confirmed => pure (.confirmed confirmed)
  | brokerUrl :: rest, confirmed =>
    if confirmed.contains brokerUrl then confirmBrokers deps removal frame rest confirmed
    else do
      let failed ← tryCatch (do
          sendSpaceRotate brokerUrl frame
          let outcome ← markBrokerConfirmed removal brokerUrl
          if outcome = .recorded ∨ outcome = .alreadyConfirmed then pure none
          else throw (.pending removal))
        fun err => do
          let ended ← handleRotateError fingerprint deps removal err
          pure (some ended)
      match failed with
      | some ended => pure ended
      | none => confirmBrokers deps removal frame rest (confirmed ++ [brokerUrl])

/-! ## 7. The commit -/

def assertMaterialConfirmed : RemovalProgram Unit := do
  let stored ← attempt (.gate removal) fun _ w =>
    (w.removals.getPendingRemoval removal.spaceId removal.removedDid, w)
  if stored.any fun s =>
      decide (s.stagingId = removal.stagingId) &&
      decide (s.materialFingerprint = removal.materialFingerprint) &&
      decide (s.newGeneration = removal.newGeneration) &&
      removal.homeBrokerSet.all s.confirmedBrokerUrls.contains then
    pure ()
  else throw (.pending removal)

def saveKeys (step : CommitStep) (f : RemovalEnv → SpaceKeys → SpaceKeys) : RemovalProgram Unit :=
  attempt (.commit removal step) fun env w =>
    ((), w.setKeys removal.spaceId (f env (w.keys removal.spaceId)))

def readKeys {α : Type} (removal : PendingRemoval) (step : CommitStep) (f : SpaceKeys → α) :
    RemovalProgram α :=
  attempt (.commit removal step) fun _ w => (f (w.keys removal.spaceId), w)

def provisionCapabilityForGeneration : RemovalProgram Unit := do
  saveKeys removal .saveCapabilityKeyPair fun _ k =>
    k.saveCapabilityKeyPair removal.newGeneration removal.stagedKeyMaterial.capVerificationKey
  saveKeys removal .saveOwnCapability fun env k =>
    k.saveOwnCapability removal.newGeneration
      { audience := deps.ownerDid, issuedAt := env.now, validUntil := env.now + deps.validityMs }

def commitStagedRotation : RemovalProgram Unit := do
  let current ← readKeys removal .currentGeneration (·.generation)
  if current = (removal.newGeneration : Int) - 1 then
    saveKeys removal .saveKey fun _ k =>
      k.saveKey removal.newGeneration removal.stagedKeyMaterial.contentKey
    provisionCapabilityForGeneration deps removal
  else if current = removal.newGeneration then
    let storedKey ← readKeys removal .readKey (·.contentKey removal.newGeneration)
    if storedKey ≠ some removal.stagedKeyMaterial.contentKey then
      throw (.message
        (s!"stale staged generation drift: generation {removal.newGeneration} is active with a " ++
          "DIVERGENT content key; a divergent stage must NOT overwrite current key material."))
    else
      let storedCapVk ←
        readKeys removal .readCapVerificationKey (·.capVerificationKey removal.newGeneration)
      if storedCapVk.any fun key =>
          decide (key ≠ removal.stagedKeyMaterial.capVerificationKey) then
        throw (.message
          (s!"stale staged generation drift: generation {removal.newGeneration} is active with " ++
            "DIVERGENT capability material; refusing to overwrite it."))
      else
        let ownCapability ←
          readKeys removal .readOwnCapability (·.ownCapability removal.newGeneration)
        if storedCapVk.isSome ∧ ownCapability.isSome then pure ()
        else provisionCapabilityForGeneration deps removal
  else
    let expected : Int := (removal.newGeneration : Int) - 1
    throw (.message (s!"stale staged generation drift: cannot activate staged generation " ++
        s!"{removal.newGeneration} while the live generation is {current} " ++
        s!"(expected {expected}). " ++
        "A divergent stage must NOT overwrite current key material."))

/-- What `commitRemoval` tells the members. -/
def PendingRemoval.commit (r : PendingRemoval) : RemovalCommit where
  spaceId := r.spaceId
  removedDid := r.removedDid
  newGeneration := r.newGeneration
  activityEntry := r.activityEntry

/-- The `commitRemoval` callback: the membership event and its distribution. -/
def commitRemoval : RemovalProgram Unit :=
  attempt (.commit removal .commitRemoval) fun _ w =>
    ((), { w with commits := w.commits ++ [removal.commit] })

def commitEnforced (confirmed : List String) : RemovalProgram PendingRemoval :=
  if !removal.phase.preCommit then pure removal
  else do
    let enforced :=
      { removal with confirmedBrokerUrls := confirmed, phase := .brokerConfirmed }
    persistPhase removal enforced
    assertMaterialConfirmed enforced
    commitStagedRotation deps enforced
    commitRemoval enforced
    let committed :=
      { enforced with
        committed := some true
        phase := if removal.removedDid = deps.ownerDid then .committed else .localCleanup }
    persistPhase enforced committed
    pure committed

/-! ## 8. After the commit -/

def RemovalPhase.name : RemovalPhase → String
  | .staged => "staged"
  | .brokerConfirmed => "broker-confirmed"
  | .committed => "committed"
  | .adminRemoved => "admin-removed"
  | .localCleanup => "local-cleanup"
  | .complete => "complete"

def missingDepsMessage (phase : RemovalPhase) (what : String) : String :=
  s!"secure removal phase {phase.name} requires {what} dependencies before any effect"

def requireAdminRemoveDeps : RemovalProgram Unit :=
  if deps.adminRemove then pure ()
  else throw (.message (missingDepsMessage removal.phase "durable admin-remove"))

def sendAdminRemove (brokerUrl : String) : RemovalProgram Unit :=
  atomic (.sendAdminRemove removal brokerUrl) fun env w =>
    (env.reply.outcome, if env.reply.accepted then
        { w with
          adminRemoved := w.adminRemoved ++ [(brokerUrl, removal.spaceId, removal.removedDid)] }
      else w)

def isHardAdminChangeReject (code : BrokerErrorCode) : Bool :=
  decide (code = .malformedMessage) || decide (classifyRejectDisposition code = .hardStop)

def handBackAdmin (removal : PendingRemoval) : List String → RemovalProgram PendingRemoval
  | [] => pure removal
  | brokerUrl :: rest =>
    let adminConfirmed := removal.adminRemoveConfirmedBrokerUrls.getD []
    if adminConfirmed.contains brokerUrl then handBackAdmin removal rest
    else do
      tryCatch (sendAdminRemove removal brokerUrl) fun err =>
        match err with
        | .controlFrameRejected code _ =>
          if isHardAdminChangeReject code then throw err
          else throw (.pendingNotEnforced removal.spaceId removal.removedDid
            removal.newGeneration .adminRemove)
        | _ => throw (.pendingNotEnforced removal.spaceId removal.removedDid
            removal.newGeneration .adminRemove)
      let confirmed :=
        { removal with adminRemoveConfirmedBrokerUrls := some (adminConfirmed ++ [brokerUrl]) }
      persistPhase removal confirmed
      handBackAdmin confirmed rest

def advancePhase (phase : RemovalPhase) : RemovalProgram PendingRemoval := do
  let advanced := { removal with phase := phase }
  persistPhase removal advanced
  pure advanced

def finalizeSelfLeave : RemovalProgram PendingRemoval := do
  attempt (.finalizeSelfLeave removal) fun _ w =>
    ((), { w with
      finalized := w.finalized ++ [(removal.spaceId, removal.removedDid, removal.newGeneration)] })
  advancePhase removal .localCleanup

/-- The self-leave of an admin, from `committed` to `admin-removed`. -/
def removeOwnAdmin : RemovalProgram PendingRemoval :=
  if removal.removedDid = deps.ownerDid ∧ removal.phase = .committed then do
    requireAdminRemoveDeps deps removal
    attempt (.createAdminRemoveFrame removal) fun _ w => ((), w)
    let removal ← handBackAdmin removal removal.homeBrokerSet
    advancePhase removal .adminRemoved
  else pure removal

/-- The self-leave of an admin, from `admin-removed` to `local-cleanup`. -/
def finalizeOwnLeave : RemovalProgram PendingRemoval :=
  if removal.removedDid = deps.ownerDid ∧ removal.phase = .adminRemoved then do
    requireAdminRemoveDeps deps removal
    finalizeSelfLeave removal
  else pure removal

def completeCleanup : RemovalProgram PendingRemoval :=
  if removal.phase = .localCleanup then advancePhase removal .complete else pure removal

def completeRemoval : RemovalProgram Bool := do
  let removal ← completeCleanup removal
  let _ ← deleteOwnStaging removal
  pure true

/-! ## 9. Drivers -/

def requireTerminalFinalizer (deps : ResolvedDeps) (removal : PendingRemoval) :
    RemovalProgram Unit :=
  match deps with
  | .full deps => requireAdminRemoveDeps deps removal
  | .finalization => pure ()
  | .cleanup => throw (.message (missingDepsMessage removal.phase "terminal finalization"))

def finalizeTerminal (deps : ResolvedDeps) (removal : PendingRemoval) :
    RemovalProgram PendingRemoval :=
  if removal.phase = .adminRemoved then do
    requireTerminalFinalizer deps removal
    finalizeSelfLeave removal
  else pure removal

def finishTerminal (deps : ResolvedDeps) (removal : PendingRemoval) :
    RemovalProgram (Except Bool PendingRemoval) := do
  let removal ← finalizeTerminal deps removal
  if removal.phase = .complete then
    let _ ← deleteOwnStaging removal
    pure (.error true)
  else if removal.phase = .localCleanup then
    let done ← completeRemoval removal
    pure (.error done)
  else pure (.ok removal)

def enforceRemoval : RemovalProgram (PendingRemoval × Enforcement) := do
  let removal ← bindStagingMaterial fingerprint removal
  attempt (.createRotateFrame removal) fun _ w => ((), w)
  let enforcement ← confirmBrokers fingerprint deps removal removal.rotateFrame
    removal.homeBrokerSet removal.confirmedBrokerUrls
  pure (removal, enforcement)

def finishEnforced (confirmed : List String) : RemovalProgram Bool :=
  if !removal.homeBrokerSet.all confirmed.contains then throw (.pending removal)
  else do
    let removal ← commitEnforced deps removal confirmed
    let removal ← removeOwnAdmin deps removal
    let removal ← finalizeOwnLeave deps removal
    completeRemoval removal

end

/-- `driveRemovalToCompletion`; `again` follows a convergence with a broker that was
    ahead. -/
def driveOnce (deps : ResolvedDeps) (again : PendingRemoval → RemovalProgram Bool)
    (removal : PendingRemoval) : RemovalProgram Bool := do
  match ← finishTerminal deps removal with
  | .error done => pure done
  | .ok removal =>
    match deps with
    | .full deps =>
      match ← enforceRemoval fingerprint deps removal with
      | (_, .superseded) => pure false
      | (_, .restaged restaged) => again restaged
      | (removal, .confirmed confirmed) => finishEnforced deps removal confirmed
    | _ => throw (.message (missingDepsMessage removal.phase "rotation"))

/-- `driveRemovalToCompletion`, following at most `restages` convergences. -/
def driveRemovalToCompletion (deps : ResolvedDeps) : Nat → PendingRemoval → RemovalProgram Bool
  | 0 => driveOnce fingerprint deps fun restaged => throw (.pending restaged)
  | restages + 1 => driveOnce fingerprint deps (driveRemovalToCompletion deps restages)

def drive (deps : ResolvedDeps) (restages : Nat) (removal : PendingRemoval) :
    RemovalProgram Unit := do
  let _ ← driveRemovalToCompletion fingerprint deps restages removal
  pure ()

def runTwoPhaseRemoval (spaceId : DocId) (removedDid : Did)
    (activityEntry : Option String) (canonical : Bool) (targetGeneration : Option Nat)
    (restages : Nat) : RemovalProgram Unit :=
  if deps.homeBrokerSet.length > 1 then
    throw (.message "multi-broker removal not yet supported")
  else if deps.homeBrokerSet.length = 0 then
    throw (.message "removeMember requires a non-empty homeBrokerSet")
  else if removedDid = deps.ownerDid ∧ !deps.adminRemove then
    throw (.message "admin self-leave requires durable admin-remove dependencies")
  else do
    match ← getPendingRemoval spaceId removedDid with
    | some existing => drive fingerprint (.full deps) restages existing
    | none =>
      let removal ← stageRemoval fingerprint deps spaceId removedDid activityEntry canonical
        targetGeneration none
      drive fingerprint (.full deps) restages removal

end

section

variable (resolveDeps : PendingRemoval → Option ResolvedDeps)

/-- One record of `recoverPendingRemovals`: an error leaves it to the next pass. -/
def recoverRemoval (restages : Nat) (removal : PendingRemoval) : RemovalProgram Unit :=
  if removal.phase = .complete then
    tryCatch (do let _ ← deleteOwnStaging removal; pure ()) fun _ => pure ()
  else
    match resolveDeps removal with
    | none => pure ()
    | some deps =>
      tryCatch (drive fingerprint deps restages removal) fun _ => pure ()

def recoverPendingRemovals (restages : Nat) : RemovalProgram Unit := do
  let pending ← attempt .listPendingRemovals fun _ w => (w.removals.listPendingRemovals, w)
  forEach pending (recoverRemoval fingerprint resolveDeps restages)

end

def otherRotation (brokerUrl : String) (frame : RotateFrame) : RemovalProgram Unit :=
  attempt (.otherRotation brokerUrl frame) fun _ w =>
    ((), if (w.brokers brokerUrl frame.spaceId).reply frame = .receipt then
      w.install brokerUrl frame else w)

def keyRotation (spaceId : DocId) (generation : Nat) (key : Bytes) : RemovalProgram Unit :=
  attempt (.keyRotation spaceId generation key) fun _ w =>
    ((), w.setKeys spaceId ((w.keys spaceId).saveKey generation key))

inductive RemovalCall where
  | run (deps : SecureRemovalDeps) (spaceId : DocId) (removedDid : Did)
      (activityEntry : Option String) (canonical : Bool) (targetGeneration : Option Nat)
      (restages : Nat)
  | recover (resolveDeps : PendingRemoval → Option ResolvedDeps) (restages : Nat)
  | otherRotation (brokerUrl : String) (frame : RotateFrame)
  | keyRotation (spaceId : DocId) (generation : Nat) (key : Bytes)

def RemovalCall.program : RemovalCall → RemovalProgram Unit
  | .run deps spaceId removedDid activityEntry canonical targetGeneration restages =>
      runTwoPhaseRemoval fingerprint deps spaceId removedDid activityEntry canonical
        targetGeneration restages
  | .recover resolveDeps restages => recoverPendingRemovals fingerprint resolveDeps restages
  | .otherRotation brokerUrl frame => WebOfTrust.otherRotation brokerUrl frame
  | .keyRotation spaceId generation key => WebOfTrust.keyRotation spaceId generation key

def removalSystem : System RemovalPoint RemovalEnv RemovalWorld RemovalError Unit RemovalCall where
  call := RemovalCall.program fingerprint
  restart w := w

end

abbrev RemovalConfig := Config RemovalPoint RemovalEnv RemovalWorld RemovalError Unit

end WebOfTrust
