/-
  **The group keys of a space** (`application/sync/group-key-workflow.ts`,
  `application/sync/key-rotation-workflow.ts`, `application/spaces/invite-workflow.ts`)
  over the durable key store (`IndexedDBKeyManagementAdapter.ts`).

  A content key belongs to a slot: a space and a generation.  Whoever creates a space,
  commits a staged rotation or applies a received one reads the current generation first
  and saves the key one or more awaits later.  An import and an invite save without
  looking.
-/
import WebOfTrust.AsyncPool
import WebOfTrust.KeyedTable
import WebOfTrust.LogEntry

namespace WebOfTrust

open Async

/-! ## 1. The key store -/

abbrev KeySlot := DocId × Nat

structure StoredContentKey where
  slot : KeySlot
  key : Bytes
deriving DecidableEq

structure StoredCapKeyPair where
  slot : KeySlot
  signingSeed : Bytes
  verificationKey : Bytes
deriving DecidableEq

structure StoredOwnCapability where
  slot : KeySlot
  capabilityJws : String
deriving DecidableEq

/-- `IndexedDBKeyManagementAdapter`, as it is stored.  Its cache is a component of its own. -/
structure KeyStore where
  contentKeys : KeyedTable StoredContentKey.slot
  capKeyPairs : KeyedTable StoredCapKeyPair.slot
  ownCapabilities : KeyedTable StoredOwnCapability.slot

namespace KeyStore

def empty : KeyStore where
  contentKeys := .empty
  capKeyPairs := .empty
  ownCapabilities := .empty

/-- `assertValidGeneration`, in front of what it guards. -/
def withValidGeneration {α : Type} (generation : Nat) (r : Except String α) : Except String α :=
  if maxSafeInteger < generation then
    .error "Key generation must be a non-negative safe integer"
  else r

section

variable (s : KeyStore) (slot : KeySlot)

def contentKey : Option Bytes :=
  (s.contentKeys.get? slot).map (·.key)

def saveKey (key : Bytes) : Except String KeyStore :=
  withValidGeneration slot.2 (if key.length ≠ 32 then .error "Space content key must be 32 bytes"
    else .ok { s with contentKeys := s.contentKeys.put ⟨slot, key⟩ })

/-- The highest generation with a key, or `-1`. -/
def getCurrentGeneration (spaceId : DocId) : Int :=
  (s.contentKeys.rows.filter fun r => decide (r.slot.1 = spaceId)).foldr
    (fun r generation => max (r.slot.2 : Int) generation) (-1)

def getKeyByGeneration : Except String (Option Bytes) :=
  withValidGeneration slot.2 (.ok (s.contentKey slot))

def saveCapabilityKeyPair (signingSeed verificationKey : Bytes) : Except String KeyStore :=
  withValidGeneration slot.2
    (if signingSeed.length ≠ 32 then .error "Capability signing seed must be 32 bytes"
    else if verificationKey.length ≠ 32 then
      .error "Capability verification key must be 32 bytes"
    else .ok { s with capKeyPairs := s.capKeyPairs.put ⟨slot, signingSeed, verificationKey⟩ })

def getCapabilitySigningSeed : Except String (Option Bytes) :=
  withValidGeneration slot.2 (.ok ((s.capKeyPairs.get? slot).map (·.signingSeed)))

def getCapabilityVerificationKey : Except String (Option Bytes) :=
  withValidGeneration slot.2 (.ok ((s.capKeyPairs.get? slot).map (·.verificationKey)))

def saveOwnCapability (capabilityJws : String) : Except String KeyStore :=
  withValidGeneration slot.2
    (.ok { s with ownCapabilities := s.ownCapabilities.put ⟨slot, capabilityJws⟩ })

def getOwnCapability : Except String (Option String) :=
  .ok ((s.ownCapabilities.get? slot).map (·.capabilityJws))

end

/-! What the writes do to the content keys. -/

theorem withValidGeneration_ok {α : Type} {generation : Nat} {r : Except String α} {a : α}
    (h : withValidGeneration generation r = .ok a) : r = .ok a := by
  unfold withValidGeneration at h
  split at h
  · cases h
  · exact h

variable {s s' : KeyStore} {slot : KeySlot}

theorem contentKey_saveKey {key : Bytes} (h : s.saveKey slot key = .ok s') (other : KeySlot) :
    s'.contentKey other = if slot = other then some key else s.contentKey other := by
  have h := withValidGeneration_ok h
  split at h
  · cases h
  cases h
  unfold contentKey
  rw [KeyedTable.get?_put]
  by_cases hslot : slot = other
  · simp [hslot]
  · simp [hslot]

theorem contentKeys_saveCapabilityKeyPair {seed key : Bytes}
    (h : s.saveCapabilityKeyPair slot seed key = .ok s') : s'.contentKeys = s.contentKeys := by
  have h := withValidGeneration_ok h
  split at h
  · cases h
  split at h
  · cases h
  · cases h
    rfl

theorem contentKeys_saveOwnCapability {jws : String} (h : s.saveOwnCapability slot jws = .ok s') :
    s'.contentKeys = s.contentKeys := by
  cases withValidGeneration_ok h
  rfl

theorem contentKey_of_getCurrentGeneration (h : s.getCurrentGeneration slot.1 < (slot.2 : Int)) :
    s.contentKey slot = none := by
  unfold contentKey
  rcases hrow : s.contentKeys.get? slot with _ | row
  · rfl
  have hslot : row.slot = slot := KeyedTable.key_of_get? hrow
  have hmem : row ∈ s.contentKeys.rows.filter fun r => decide (r.slot.1 = slot.1) := by
    rw [List.mem_filter]
    constructor
    · exact KeyedTable.mem_of_get? hrow
    · simp [hslot]
  have hle : ∀ rows : List StoredContentKey, row ∈ rows → (row.slot.2 : Int) ≤
      rows.foldr (fun r generation => max (r.slot.2 : Int) generation) (-1) := by
    intro rows
    induction rows with
    | nil => intro hin; cases hin
    | cons r rest ih =>
      intro hin
      rcases List.mem_cons.mp hin with rfl | hin
      · simp only [List.foldr_cons]
        omega
      have hrest := ih hin
      simp only [List.foldr_cons]
      omega
  have hgen := hle _ hmem
  rw [hslot] at hgen
  unfold getCurrentGeneration at h
  omega

end KeyStore

/-! ## 2. Capabilities and bodies -/

/-- The payload of a space capability; the times are in milliseconds. -/
structure SpaceCapabilityPayload where
  spaceId : DocId
  audience : Did
  permissions : List String
  generation : Nat
  issuedAt : Nat
  validUntil : Nat

/-- The crypto adapter, and the capability tokens that are made with it. -/
structure KeyCrypto where
  ed25519PublicKeyFromSeed : Bytes → Bytes
  createSpaceCapabilityJws : SpaceCapabilityPayload → Bytes → Except String String
  verifySpaceCapabilityJws : String → Bytes → DocId → Did → Nat → Bool

def SIX_MONTHS_MS : Nat := 6 * 30 * 24 * 60 * 60 * 1000

def resolveCapabilityValidityMs : Option Int → Except String Nat
  | none => .ok SIX_MONTHS_MS
  | some validityDurationMs =>
    if validityDurationMs ≤ 0 then
      .error "validityDurationMs must be a positive finite number of milliseconds"
    else .ok validityDurationMs.toNat

structure CreateSpaceKeyOptions where
  spaceId : DocId
  ownerDid : Did
  validityDurationMs : Option Int

structure CreateSpaceKeyResult where
  contentKey : Bytes
  capabilitySigningSeed : Bytes
  capabilityVerificationKey : Bytes
  ownCapabilityJws : String

structure StagedRotationMaterial where
  newGeneration : Nat
  contentKey : Bytes
  capabilitySigningSeed : Bytes
  capabilityVerificationKey : Bytes

/-- A `key-rotation` body that has passed `assertKeyRotationBody`, its keys decoded. -/
structure KeyRotationBody where
  spaceId : DocId
  generation : Nat
  spaceContentKey : Bytes
  spaceCapabilitySigningKey : Bytes
  capability : String

structure SpaceContentKeyMaterial where
  generation : Nat
  key : Bytes

/-- A `space-invite` body that has passed `assertSpaceInviteBody`, its keys decoded. -/
structure SpaceInviteBody where
  spaceId : DocId
  currentKeyGeneration : Nat
  spaceContentKeys : List SpaceContentKeyMaterial
  spaceCapabilitySigningKey : Bytes
  capability : String
  /-- The current generation is among the keys, and the highest one. -/
  current_mem : currentKeyGeneration ∈ spaceContentKeys.map (·.generation)
  le_current : ∀ m ∈ spaceContentKeys, m.generation ≤ currentKeyGeneration

inductive KeyRotationDisposition where
  | apply
  | ignoreStaleOrDuplicate
  | futureBuffer
deriving DecidableEq

/-- `evaluateKeyRotationDisposition`, for two non-negative integers. -/
def evaluateKeyRotationDisposition (localGeneration incomingGeneration : Nat) :
    Except String KeyRotationDisposition :=
  if maxSafeInteger < localGeneration ∨ maxSafeInteger < incomingGeneration then
    .error "Invalid key-rotation generation"
  else if incomingGeneration ≤ localGeneration then .ok .ignoreStaleOrDuplicate
  else if incomingGeneration = localGeneration + 1 then .ok .apply
  else .ok .futureBuffer

inductive CapabilityImportOutcome where
  | imported
  | alreadyPresent
  | conflict
  | notApplicable

inductive ApplyKeyRotationBodyResult where
  | apply
  | futureBuffer
  | ignoreStaleOrDuplicate (capabilityImport : CapabilityImportOutcome)
  | reject (reason : String)

inductive ApplySpaceInviteBodyResult where
  | apply
  | reject (reason : String)

/-! ## 3. Points -/

inductive KeyWriter where
  | createSpaceKey
  | createDeterministicSpaceKey
  | commitStagedRotation
  | applyKeyRotation
  | importKey
  | applySpaceInviteBody

def KeyWriter.checks : KeyWriter → Bool
  | .importKey => false
  | .applySpaceInviteBody => false
  | _ => true

inductive KeyPoint where
  | getCurrentGeneration (spaceId : DocId)
  | randomContentKey (spaceId : DocId)
  | saveKey (writer : KeyWriter) (slot : KeySlot) (key : Bytes)
  | getKeyByGeneration (slot : KeySlot)
  | getCapabilitySigningSeed (slot : KeySlot)
  | getCapabilityVerificationKey (slot : KeySlot)
  | getOwnCapability (slot : KeySlot)
  | saveCapabilityKeyPair (slot : KeySlot)
  | saveOwnCapability (slot : KeySlot)
  | crypto

structure KeyEnv where
  randomBytes : Bytes
  now : Nat

abbrev KeyProgram := Async KeyPoint KeyEnv KeyStore String

def readKeyStore {α : Type} (t : KeyPoint) (f : KeyStore → Except String α) : KeyProgram α :=
  atomic t fun _ s => (f s, s)

def writeKeyStore (t : KeyPoint) (f : KeyStore → Except String KeyStore) : KeyProgram Unit :=
  atomic t fun _ s =>
    match f s with
    | .ok s' => (.ok (), s')
    | .error e => (.error e, s)

def callCrypto {α : Type} (t : KeyPoint) (f : KeyEnv → Except String α) : KeyProgram α :=
  atomic t fun env s => (f env, s)

def getCurrentGeneration (spaceId : DocId) : KeyProgram Int :=
  readKeyStore (.getCurrentGeneration spaceId) fun s => .ok (s.getCurrentGeneration spaceId)

/-- `keyPort.saveKey`, called by `writer`. -/
def saveContentKey (writer : KeyWriter) (slot : KeySlot) (key : Bytes) : KeyProgram Unit :=
  writeKeyStore (.saveKey writer slot key) (·.saveKey slot key)

/-! ## 4. The workflows -/

namespace GroupKeys

section

variable (crypto : KeyCrypto)

def ed25519PublicKeyFromSeed (seed : Bytes) : KeyProgram Bytes :=
  callCrypto .crypto fun _ => .ok (crypto.ed25519PublicKeyFromSeed seed)

def provisionCapabilityForGeneration (spaceId : DocId) (ownerDid : Did)
    (material : StagedRotationMaterial) (validityMs : Nat) : KeyProgram CreateSpaceKeyResult := do
  let slot : KeySlot := (spaceId, material.newGeneration)
  writeKeyStore (.saveCapabilityKeyPair slot)
    (·.saveCapabilityKeyPair slot material.capabilitySigningSeed
      material.capabilityVerificationKey)
  let ownCapabilityJws ← callCrypto .crypto fun env =>
    crypto.createSpaceCapabilityJws
      { spaceId := spaceId
        audience := ownerDid
        permissions := ["read", "write"]
        generation := material.newGeneration
        issuedAt := env.now
        validUntil := env.now + validityMs }
      material.capabilitySigningSeed
  writeKeyStore (.saveOwnCapability slot) (·.saveOwnCapability slot ownCapabilityJws)
  pure
    { contentKey := material.contentKey
      capabilitySigningSeed := material.capabilitySigningSeed
      capabilityVerificationKey := material.capabilityVerificationKey
      ownCapabilityJws := ownCapabilityJws }

section

variable (options : CreateSpaceKeyOptions)

def createSpaceKey : KeyProgram CreateSpaceKeyResult := do
  let validityMs ← Async.ofExcept (resolveCapabilityValidityMs options.validityDurationMs)
  let existingGeneration ← getCurrentGeneration options.spaceId
  if 0 ≤ existingGeneration then
    throw ("Space key already exists for space: " ++ options.spaceId)
  else
    let contentKey ← callCrypto (.randomContentKey options.spaceId) fun env => .ok env.randomBytes
    saveContentKey .createSpaceKey (options.spaceId, 0) contentKey
    let capabilitySigningSeed ← callCrypto .crypto fun env => .ok env.randomBytes
    let capabilityVerificationKey ← ed25519PublicKeyFromSeed crypto capabilitySigningSeed
    provisionCapabilityForGeneration crypto options.spaceId options.ownerDid
      ⟨0, contentKey, capabilitySigningSeed, capabilityVerificationKey⟩ validityMs

/-- The end of `commitStagedRotation` and of `createDeterministicSpaceKey`, where the
    generation is there already: nothing to do, a conflict, or a chain to complete. -/
def completeCapabilityChain (spaceId : DocId) (ownerDid : Did)
    (material : StagedRotationMaterial) (validityMs : Nat)
    (divergentKey divergentCapability : String) : KeyProgram CreateSpaceKeyResult := do
  let slot : KeySlot := (spaceId, material.newGeneration)
  let storedKey ← readKeyStore (.getKeyByGeneration slot) (·.getKeyByGeneration slot)
  if storedKey ≠ some material.contentKey then throw divergentKey
  else
    let storedCapVk ← readKeyStore (.getCapabilityVerificationKey slot)
      (·.getCapabilityVerificationKey slot)
    if storedCapVk.any fun key => decide (key ≠ material.capabilityVerificationKey) then
      throw divergentCapability
    else
      let ownCapability ← readKeyStore (.getOwnCapability slot) (·.getOwnCapability slot)
      match storedCapVk, ownCapability with
      | some _, some ownCapabilityJws =>
        pure
          { contentKey := material.contentKey
            capabilitySigningSeed := material.capabilitySigningSeed
            capabilityVerificationKey := material.capabilityVerificationKey
            ownCapabilityJws := ownCapabilityJws }
      | _, _ => provisionCapabilityForGeneration crypto spaceId ownerDid material validityMs

/-- `createDeterministicSpaceKey`, with the content key and the signing seed of its
    `genesisMaterial`. -/
def createDeterministicSpaceKey
    (contentKey capabilitySigningSeed : Bytes) : KeyProgram CreateSpaceKeyResult := do
  let validityMs ← Async.ofExcept (resolveCapabilityValidityMs options.validityDurationMs)
  let capabilityVerificationKey ← ed25519PublicKeyFromSeed crypto capabilitySigningSeed
  let material : StagedRotationMaterial :=
    ⟨0, contentKey, capabilitySigningSeed, capabilityVerificationKey⟩
  let current ← getCurrentGeneration options.spaceId
  if current < 0 then
    saveContentKey .createDeterministicSpaceKey (options.spaceId, 0) contentKey
    provisionCapabilityForGeneration crypto options.spaceId options.ownerDid material validityMs
  else if current = 0 then
    completeCapabilityChain crypto options.spaceId options.ownerDid material validityMs
      ("deterministic genesis conflict: space " ++ options.spaceId ++ " generation 0 is " ++
        "present with a DIVERGENT content key; refusing to overwrite genesis material.")
      ("deterministic genesis conflict: space " ++ options.spaceId ++ " generation 0 is " ++
        "present with DIVERGENT capability material; refusing to overwrite genesis material.")
  else
    throw ("deterministic genesis refused: space " ++ options.spaceId ++
      s!" has already rotated to generation {current}; genesis (generation 0) must never be " ++
      "reactivated — current keys arrive via PersonalDoc/catch-up.")

def commitStagedRotation (staged : StagedRotationMaterial) :
    KeyProgram CreateSpaceKeyResult := do
  let validityMs ← Async.ofExcept (resolveCapabilityValidityMs options.validityDurationMs)
  let newGeneration := staged.newGeneration
  let expected : Int := (newGeneration : Int) - 1
  let current ← getCurrentGeneration options.spaceId
  if current = expected then
    saveContentKey .commitStagedRotation (options.spaceId, newGeneration) staged.contentKey
    provisionCapabilityForGeneration crypto options.spaceId options.ownerDid staged validityMs
  else if current = newGeneration then
    completeCapabilityChain crypto options.spaceId options.ownerDid staged validityMs
      (s!"stale staged generation drift: generation {newGeneration} is active with a " ++
        "DIVERGENT content key; a divergent stage must NOT overwrite current key material.")
      (s!"stale staged generation drift: generation {newGeneration} is active with " ++
        "DIVERGENT capability material; refusing to overwrite it.")
  else
    throw (s!"stale staged generation drift: cannot activate staged generation {newGeneration} " ++
      s!"while the live generation is {current} (expected {expected}). " ++
      "A divergent stage must NOT overwrite current key material.")

def stageRotateSpaceKey : KeyProgram StagedRotationMaterial := do
  let _ ← Async.ofExcept (resolveCapabilityValidityMs options.validityDurationMs)
  let currentGeneration ← getCurrentGeneration options.spaceId
  if currentGeneration < 0 then throw ("No key exists for space: " ++ options.spaceId)
  else
    let contentKey ← callCrypto .crypto fun env => .ok env.randomBytes
    let capabilitySigningSeed ← callCrypto .crypto fun env => .ok env.randomBytes
    let capabilityVerificationKey ← ed25519PublicKeyFromSeed crypto capabilitySigningSeed
    pure ⟨(currentGeneration + 1).toNat, contentKey, capabilitySigningSeed,
      capabilityVerificationKey⟩

def rotateSpaceKey : KeyProgram CreateSpaceKeyResult := do
  let staged ← stageRotateSpaceKey crypto options
  commitStagedRotation crypto options staged

end

def applyKeyRotation (slot : KeySlot) (incomingKey : Bytes) :
    KeyProgram KeyRotationDisposition :=
  if maxSafeInteger < slot.2 then throw "Invalid key-rotation generation"
  else do
    let localGeneration ← getCurrentGeneration slot.1
    if localGeneration < 0 then pure .futureBuffer
    else
      let disposition ← Async.ofExcept (evaluateKeyRotationDisposition localGeneration.toNat slot.2)
      if disposition = .apply then
        saveContentKey .applyKeyRotation slot incomingKey
      pure disposition

def importDuplicateCapabilityMaterial (body : KeyRotationBody) (newVerificationKey : Bytes) :
    KeyProgram CapabilityImportOutcome := do
  let slot : KeySlot := (body.spaceId, body.generation)
  let currentGeneration ← getCurrentGeneration body.spaceId
  if currentGeneration ≠ body.generation then pure .notApplicable
  else
    let storedContentKey ← readKeyStore (.getKeyByGeneration slot) (·.getKeyByGeneration slot)
    match storedContentKey with
    | none => pure .notApplicable
    | some stored =>
      if stored ≠ body.spaceContentKey then pure .conflict
      else
        let existingSeed ← readKeyStore (.getCapabilitySigningSeed slot)
          (·.getCapabilitySigningSeed slot)
        match existingSeed with
        | some seed =>
          if seed = body.spaceCapabilitySigningKey then pure .alreadyPresent
          else pure .conflict
        | none =>
          writeKeyStore (.saveCapabilityKeyPair slot)
            (·.saveCapabilityKeyPair slot body.spaceCapabilitySigningKey newVerificationKey)
          writeKeyStore (.saveOwnCapability slot) (·.saveOwnCapability slot body.capability)
          pure .imported

def applyKeyRotationBody (body : KeyRotationBody) (recipientDid senderDid : Did)
    (knownAdminDids : List Did) : KeyProgram ApplyKeyRotationBodyResult :=
  if senderDid ∉ knownAdminDids then pure (.reject "unauthorized-sender")
  else do
    let slot : KeySlot := (body.spaceId, body.generation)
    let newVerificationKey ← ed25519PublicKeyFromSeed crypto body.spaceCapabilitySigningKey
    let verified ← callCrypto .crypto fun _ =>
      .ok (crypto.verifySpaceCapabilityJws body.capability newVerificationKey body.spaceId
        recipientDid body.generation)
    if !verified then pure (.reject "invalid-capability")
    else
      let disposition ← applyKeyRotation slot body.spaceContentKey
      match disposition with
      | .apply =>
        writeKeyStore (.saveCapabilityKeyPair slot)
          (·.saveCapabilityKeyPair slot body.spaceCapabilitySigningKey newVerificationKey)
        writeKeyStore (.saveOwnCapability slot) (·.saveOwnCapability slot body.capability)
        pure .apply
      | .ignoreStaleOrDuplicate =>
        let outcome ← importDuplicateCapabilityMaterial body newVerificationKey
        pure (.ignoreStaleOrDuplicate outcome)
      | .futureBuffer => pure .futureBuffer

def importKey (slot : KeySlot) (key : Bytes) : KeyProgram Unit :=
  saveContentKey .importKey slot key

def applySpaceInviteBody (body : SpaceInviteBody) (recipientDid : Did) :
    KeyProgram ApplySpaceInviteBodyResult := do
  let verificationKey ← ed25519PublicKeyFromSeed crypto body.spaceCapabilitySigningKey
  let verified ← callCrypto .crypto fun _ =>
    .ok (crypto.verifySpaceCapabilityJws body.capability verificationKey body.spaceId
      recipientDid body.currentKeyGeneration)
  if !verified then pure (.reject "invalid-capability")
  else
    Async.forEach body.spaceContentKeys fun m =>
      saveContentKey .applySpaceInviteBody (body.spaceId, m.generation) m.key
    let slot : KeySlot := (body.spaceId, body.currentKeyGeneration)
    writeKeyStore (.saveCapabilityKeyPair slot)
      (·.saveCapabilityKeyPair slot body.spaceCapabilitySigningKey verificationKey)
    writeKeyStore (.saveOwnCapability slot) (·.saveOwnCapability slot body.capability)
    pure .apply

/-! ## 5. The pool -/

inductive KeyCall where
  | createSpaceKey (options : CreateSpaceKeyOptions)
  | createDeterministicSpaceKey (options : CreateSpaceKeyOptions)
      (contentKey capabilitySigningSeed : Bytes)
  | commitStagedRotation (options : CreateSpaceKeyOptions) (staged : StagedRotationMaterial)
  | rotateSpaceKey (options : CreateSpaceKeyOptions)
  | applyKeyRotationBody (body : KeyRotationBody) (recipientDid senderDid : Did)
      (knownAdminDids : List Did)
  | importKey (slot : KeySlot) (key : Bytes)
  | applySpaceInviteBody (body : SpaceInviteBody) (recipientDid : Did)

inductive KeyResult where
  | created (result : CreateSpaceKeyResult)
  | rotation (result : ApplyKeyRotationBodyResult)
  | invite (result : ApplySpaceInviteBodyResult)
  | imported

def KeyCall.program : KeyCall → KeyProgram KeyResult
  | .createSpaceKey options => .created <$> GroupKeys.createSpaceKey crypto options
  | .createDeterministicSpaceKey options contentKey seed =>
    .created <$> GroupKeys.createDeterministicSpaceKey crypto options contentKey seed
  | .commitStagedRotation options staged =>
    .created <$> GroupKeys.commitStagedRotation crypto options staged
  | .rotateSpaceKey options => .created <$> GroupKeys.rotateSpaceKey crypto options
  | .applyKeyRotationBody body recipientDid senderDid knownAdminDids =>
    .rotation <$> GroupKeys.applyKeyRotationBody crypto body recipientDid senderDid knownAdminDids
  | .importKey slot key => (fun _ => .imported) <$> GroupKeys.importKey slot key
  | .applySpaceInviteBody body recipientDid =>
    .invite <$> GroupKeys.applySpaceInviteBody crypto body recipientDid

def keySystem : System KeyPoint KeyEnv KeyStore String KeyResult KeyCall where
  call := KeyCall.program crypto
  restart s := s

end

end GroupKeys

end WebOfTrust
