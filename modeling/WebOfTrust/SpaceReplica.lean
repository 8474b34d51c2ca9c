/-
  **Who gets the key of a space** (`YjsReplicationAdapter.ts`): the members of one space on
  one device, and how a new key generation is handed to them.

  Rotations do not go to the members of the document but to a map of encryption keys that
  `createSpace`, `addMember`, the observer of the document, removals, lookups in DID
  documents and the saved metadata all write.  A call is the list of its pieces that are
  left, each from one `await` to the next.  Of the two-phase removal (`SecureRemoval.lean`)
  only the end is here.
-/
import WebOfTrust.LiveMap
import WebOfTrust.Machine
import WebOfTrust.MembershipEvents

namespace WebOfTrust

/-! ## 1. State -/

abbrev EncryptionKey := Bytes

structure ReplicaConfig where
  did : Did
  encryptionKey : EncryptionKey
  logSyncEnabled : Bool
  brokerUrls : List String

/-- Calls in one lane take turns: `serializeMembershipTransition` of a DID, and the
    `membershipResolutionChain`. -/
inductive Lane where
  | transition (did : Did)
  | resolutionChain
deriving DecidableEq

inductive AfterRotation where
  | reinvite (memberDid : Did) (key : EncryptionKey) (removalGenerations : List Nat)
  | removal (memberDid : Did) (removedKey : Option EncryptionKey)
  | commitRemoval (removedDid : Did) (removedKey : Option EncryptionKey) (canonical : Bool)

def AfterRotation.excluded : AfterRotation → Option Did
  | .reinvite _ _ _ => none
  | .removal memberDid _ => some memberDid
  | .commitRemoval removedDid _ _ => some removedDid

/-- Where a distribution waits: for the next recipient, for the body of a message, and for
    its encryption. -/
inductive DistributionStage where
  | next
  | build (did : Did) (key : EncryptionKey)
  | send (did : Did) (key : EncryptionKey)
deriving DecidableEq

/-- A run of `distributeKeyRotation`.  Entries of the map before `position` are done. -/
structure Distribution where
  newGeneration : Nat
  excludeDid : Option Did
  position : Nat
  stage : DistributionStage
  after : AfterRotation

/-- What `getCurrentGeneration` is awaited for. -/
inductive GenerationUse where
  | addMember (memberDid : Did) (key : EncryptionKey)
  | addMemberAgain (memberDid : Did) (key : EncryptionKey) (removalGenerations : List Nat)
  | removeMember (memberDid : Did)
  | removedEvent (memberDid : Did) (removedKey : Option EncryptionKey)
  | rotated (after : AfterRotation)
  | commitEvent (removedDid : Did) (newGeneration : Nat)
  | selfRemoval
  | enforce (events : List MembershipEvent)
  | enforceTransition (event : MembershipEvent)
  | leaveSpace
  | lastMember

/-- A piece of a call, from one `await` to the next. -/
inductive ReplicaOp where
  /-- Something outside this model; a rejection ends the call. -/
  | await
  /-- A send whose rejection is caught. -/
  | settle
  | awaitTurn (lane : Lane)
  | release (lane : Lane)
  | saveSpaceMetadata
  | getCurrentGeneration (use : GenerationUse)
  | withGeneration (generation : Int) (use : GenerationUse)
  | addMember (memberDid : Did) (key : EncryptionKey) (withActivity : Bool)
  | removeMember (memberDid : Did) (withActivity : Bool)
  | stageRotation (after : AfterRotation)
  | commitRotation (newGeneration : Nat) (after : AfterRotation)
  | distribute (d : Distribution)
  | completed (newGeneration : Nat) (excluded : Option Did)
  | notifyRemoved (memberDid : Did) (removedKey : Option EncryptionKey)
  | notify (dids : List Did) (memberDid : Did) (removedKey : Option EncryptionKey)
  | learn (did : Did)
  | removeMemberSecure (memberDid : Did) (canonical : Bool)
  | runTwoPhaseRemoval (removedDid : Did) (removedKey : Option EncryptionKey) (canonical : Bool)
  | commitRemoval (removedDid : Did) (newGeneration : Nat) (removedKey : Option EncryptionKey)
      (canonical : Bool)
  | resolvePendingMemberUpdates
  | enforce (events : List MembershipEvent)
  | enforceCandidates (candidates : List MembershipEvent)
  | leaveSpace
  | leaveConfirmed
  | cleanup

/-- A `key-rotation` that was handed to `messaging.send`, and what the document said about
    its recipient then. -/
structure SentRotation where
  recipient : Did
  newGeneration : Nat
  status : Option MembershipStatus

/-- A rotation that was carried out to its end, with the members of that moment. -/
structure RotationReport where
  newGeneration : Nat
  /-- The member it has removed. -/
  excluded : Option Did
  activeMembers : List Did
  sentTo : List Did
deriving DecidableEq

/-- One space on one device.  `metadata` are the encryption keys in the stored metadata;
    `sent` and `reports` only record. -/
structure SpaceReplica where
  members : MembersMap
  adminEntries : List Did
  infoMembers : List Did
  createdBy : Option Did
  memberEncryptionKeys : LiveMap Did EncryptionKey
  generation : Int
  metadata : List (Did × EncryptionKey)
  /-- The space is in `spaces`, and its document is observed. -/
  loaded : Bool
  lanes : List (Lane × Nat)
  calls : List (List ReplicaOp)
  sent : List SentRotation
  reports : List RotationReport

inductive RemovalOutcome where
  | pending
  | settled
  | enforced (newGeneration : Nat)

structure ReplicaEnv where
  rejects : Bool
  /-- The key in the DID document, if it can be resolved and has one. -/
  resolved : Option EncryptionKey
  /-- How the two-phase removal ends. -/
  removal : RemovalOutcome
  /-- A pending removal of the own DID has to be taken up again. -/
  selfPending : Bool
  /-- The resolution of pending updates confirms the own removal. -/
  ownRemovalConfirmed : Bool

inductive ReplicaInput where
  | addMember (memberDid : Did) (key : EncryptionKey) (withActivity : Bool)
  | removeMember (memberDid : Did) (withActivity : Bool)
  | leaveSpace
  /-- `recoverPendingRemovalsOnce`, for one record. -/
  | recoverPendingRemoval (removedDid : Did) (canonical : Bool)
  | promoteToAdmin (memberDid : Did)
  | remoteUpdate (entries : List MembersEntry)
  | remoteAdmins (adminEntries : List Did)
  /-- A key of a newer generation is imported. -/
  | importGeneration (generation : Nat)
  /-- The metadata, as another device of the same identity has saved it. -/
  | metadataSynced (metadata : List (Did × EncryptionKey))
  /-- The process starts again and restores the space from its metadata and its saved document. -/
  | restart (members : MembersMap) (adminEntries : List Did)
  | run (k : Nat) (env : ReplicaEnv)

namespace SpaceReplica

variable (s : SpaceReplica)

def events : List MembershipEvent := readMembershipEvents s.members

def status (did : Did) : Option MembershipStatus :=
  membershipStatus s.events did

def activeMembers : List Did := resolveActiveMembers s.events

def knownMembers : List Did :=
  if s.activeMembers ≠ [] then s.activeMembers else s.infoMembers

def spaceAdminDids : List Did :=
  let active := resolveActiveAdmins s.adminEntries s.activeMembers
  if active ≠ [] then active
  else
    match (s.createdBy.or s.infoMembers.head?).filter fun did => decide (did ∈ s.knownMembers) with
    | some candidate => [candidate]
    | none => (sortDids s.knownMembers).take 1

/-! ## 2. The document and its observer -/

def spawn (ops : List ReplicaOp) : SpaceReplica :=
  { s with calls := s.calls ++ [ops] }

def spawnIn (lane : Lane) (ops : List ReplicaOp) : SpaceReplica :=
  { s with
    calls := s.calls ++ [.awaitTurn lane :: (ops ++ [.release lane])]
    lanes := s.lanes ++ [(lane, s.calls.length)] }

def pruneRemovedMemberEncryptionKeys : LiveMap Did EncryptionKey :=
  s.memberEncryptionKeys.keep fun did => decide (s.status did ≠ some .removed)

def resolutionChain (events : List MembershipEvent) : List ReplicaOp :=
  [.saveSpaceMetadata, .resolvePendingMemberUpdates, .enforce events]

/-- `membersHandler`, the observer of `_members`. -/
def membersHandler : SpaceReplica :=
  if s.loaded = false ∨ s.events = [] then s
  else
    { s with
      memberEncryptionKeys := s.pruneRemovedMemberEncryptionKeys
      infoMembers := s.activeMembers }.spawnIn .resolutionChain (resolutionChain s.events)

/-- `_members` changes. -/
def setMembers (members : MembersMap) : SpaceReplica :=
  { s with members := members }.membersHandler

/-- `writeMembershipEvent`, and whether it has changed anything. -/
def writeMembershipEvent (event : MembershipEvent) : SpaceReplica × Bool :=
  if s.members.has event.key = true then (s, false)
  else (s.setMembers (s.members.put event.entry), true)

/-- `_admins` grows; its observer has the metadata saved. -/
def addAdmins (adminEntries : List Did) : SpaceReplica :=
  { s with adminEntries := s.adminEntries ++ adminEntries }.spawnIn .resolutionChain
    [.saveSpaceMetadata]

def remoteUpdate (entries : List MembersEntry) : SpaceReplica :=
  let members := entries.foldl KeyedTable.put s.members
  if members.rows = s.members.rows then s else s.setMembers members

/-! ## 3. The pieces of the calls -/

/-- The state after a piece and the pieces that it puts in front of the rest of its call;
    `none` where it throws. -/
abbrev Outcome := SpaceReplica × Option (List ReplicaOp)

section

variable (cfg : ReplicaConfig)

def removalGenerations (did : Did) : List Nat :=
  (s.events.filter fun e => decide (e.did = did ∧ e.status = .removed)).map (·.sinceGeneration)

section

variable (s : SpaceReplica)

/-- What `addMemberInternal` does once the loop of the re-invite guard is left. -/
def admitMember (memberDid : Did) (key : EncryptionKey) (generation : Int) : Outcome :=
  let s := { s with memberEncryptionKeys := s.memberEncryptionKeys.set memberDid key }
  if generation < 0 then (s, none)
  else
    let written := s.writeMembershipEvent ⟨memberDid, .active, generation.toNat, some cfg.did⟩
    if written.2 = true then
      -- the invite, the member updates, and the metadata
      (written.1, some [.await, .settle, .saveSpaceMetadata])
    else (written.1, some [])

def reinviteGuard (memberDid : Did) (key : EncryptionKey)
    (removalGenerations : List Nat) (generation : Int) : Outcome :=
  if removalGenerations.any fun removed => decide (generation ≤ (removed : Int)) then
    (s, some [.stageRotation (.reinvite memberDid key removalGenerations)])
  else s.admitMember cfg memberDid key generation

/-- `removeMemberInternal` behind its check of the generation. -/
def removeMemberInternal (memberDid : Did) : Outcome :=
  let isAdmin := decide (cfg.did ∈ s.spaceAdminDids)
  if memberDid ≠ cfg.did ∧ isAdmin = false then (s, none)
  else if cfg.logSyncEnabled = true then
    if memberDid = cfg.did ∧ isAdmin = false then (s, some [.getCurrentGeneration .selfRemoval])
    else (s, some [.removeMemberSecure memberDid false])
  else
    ({ s with memberEncryptionKeys := s.memberEncryptionKeys.delete memberDid },
      some [.getCurrentGeneration
        (.removedEvent memberDid (s.memberEncryptionKeys.get? memberDid))])

/-- The event and the log entry of `commitMembershipEventDurable`. -/
def commitMembershipEvent (event : MembershipEvent) : Outcome :=
  ((s.writeMembershipEvent event).1, some (if cfg.logSyncEnabled = true then [.await] else []))

def removedEvent (did : Did) (generation : Nat) : MembershipEvent :=
  ⟨did, .removed, generation, none⟩

/-- `leaveSpace` behind its check of the generation. -/
def leaveSpaceInternal (selfPending : Bool) (generation : Int) : Outcome :=
  let isAdmin := decide (cfg.did ∈ s.spaceAdminDids)
  if generation < 0 then (s, some [.await, .cleanup])
  else if selfPending = true then
    (s, some [.runTwoPhaseRemoval cfg.did (some cfg.encryptionKey) false, .leaveConfirmed])
  else
    match (resolveMembershipWinner s.events cfg.did).filter
        fun e => decide (e.status = .removed) with
    | some existing =>
      if s.knownMembers ≠ [] ∧ isAdmin = false then
        (s, some [.getCurrentGeneration (.commitEvent cfg.did existing.sinceGeneration),
          .notifyRemoved cfg.did (some cfg.encryptionKey), .saveSpaceMetadata, .await, .cleanup])
      else (s, some [.await, .cleanup])
    | none =>
      if s.knownMembers = [cfg.did] then (s, some [.getCurrentGeneration .lastMember])
      else if isAdmin = false then
        (s, some [.getCurrentGeneration .selfRemoval, .leaveConfirmed])
      else (s, some [.removeMember cfg.did false, .leaveConfirmed])

/-- What follows `getCurrentGeneration`. -/
def withGeneration (selfPending : Bool) (generation : Int) : GenerationUse → Outcome
  | .addMember memberDid key =>
    s.reinviteGuard cfg memberDid key (s.removalGenerations memberDid) generation
  | .addMemberAgain memberDid key removalGenerations =>
    s.reinviteGuard cfg memberDid key removalGenerations generation
  | .removeMember memberDid =>
    if generation < 0 then (s, none) else s.removeMemberInternal cfg memberDid
  | .removedEvent memberDid removedKey =>
    let written := s.writeMembershipEvent (removedEvent memberDid (generation + 1).toNat)
    (written.1,
      some (if written.2 = true then [.stageRotation (.removal memberDid removedKey)] else []))
  | .rotated after =>
    -- `persistRotatedKeyToPersonalDoc` is what the distribution waits for first
    (s, some [.distribute ⟨generation.toNat, none, 0, .next, after⟩])
  | .commitEvent removedDid newGeneration =>
    if generation < 0 then (s, none)
    else s.commitMembershipEvent cfg (removedEvent removedDid newGeneration)
  | .selfRemoval =>
    (s, some [.await, .getCurrentGeneration (.commitEvent cfg.did (generation + 1).toNat),
      .notifyRemoved cfg.did (some cfg.encryptionKey), .saveSpaceMetadata])
  | .enforce events =>
    (s, some [.enforceCandidates (events.filter fun event =>
      decide (event.status = .removed ∧ membershipStatus events event.did = some .removed ∧
        event.did ≠ cfg.did ∧ generation < (event.sinceGeneration : Int)))])
  | .enforceTransition event =>
    if (event.sinceGeneration : Int) ≤ generation ∨ s.status event.did ≠ some .removed then
      (s, some [])
    else (s, some [.runTwoPhaseRemoval event.did none true])
  | .leaveSpace => s.leaveSpaceInternal cfg selfPending generation
  | .lastMember =>
    let event := removedEvent cfg.did (generation + 1).toNat
    (s.setMembers (s.members.put event.entry), some [.await, .cleanup])

def afterDistribution (newGeneration : Nat) : AfterRotation → List ReplicaOp
  | .reinvite memberDid key removalGenerations =>
    [.completed newGeneration none,
      .withGeneration newGeneration (.addMemberAgain memberDid key removalGenerations)]
  | .removal memberDid removedKey =>
    [.notifyRemoved memberDid removedKey, .saveSpaceMetadata,
      .completed newGeneration (some memberDid)]
  | .commitRemoval removedDid removedKey canonical =>
    (if canonical = true then [] else [.notifyRemoved removedDid removedKey]) ++
      [.saveSpaceMetadata, .await] ++ (if removedDid = cfg.did then [.cleanup] else []) ++
      [.completed newGeneration (some removedDid)]

/-- `distributeKeyRotation`, one step of its loop. -/
def distribute (rejects : Bool) (d : Distribution) : Outcome :=
  if rejects = true then (s, none)
  else
    match d.stage with
    | .next =>
      match s.memberEncryptionKeys.next d.position fun did => decide (d.excludeDid ≠ some did) with
      | none => (s, some (afterDistribution cfg d.newGeneration d.after))
      | some e =>
        (s, some [.distribute { d with position := e.position + 1, stage := .build e.key e.value }])
    | .build did key => (s, some [.distribute { d with stage := .send did key }])
    | .send did _ =>
      ({ s with sent := s.sent ++ [⟨did, d.newGeneration, s.status did⟩] },
        some [.distribute { d with stage := .next }])

/-- `distributeMemberRemovedUpdate`: the next of its recipients. -/
def notify (dids : List Did) (memberDid : Did) (removedKey : Option EncryptionKey) : Outcome :=
  match dids with
  | [] => (s, some [])
  | did :: rest =>
    if (did = memberDid ∧ removedKey.isSome = true) ∨ did = cfg.did ∨
        s.memberEncryptionKeys.has did = true then
      (s, some [.await, .settle, .notify rest memberDid removedKey])
    else (s, some [.learn did, .notify rest memberDid removedKey])

end

/-- The answer of the DID resolver in `resolveMemberEncryptionKey`. -/
def learn (resolved : Option EncryptionKey) (did : Did) : Outcome :=
  match resolved with
  | none => (s, some [])
  | some key =>
    ({ s with memberEncryptionKeys := s.memberEncryptionKeys.set did key }, some [.await, .settle])

/-- How the two-phase removal goes on.  A removal that others have settled, or that an
    earlier call has committed, has nothing left to distribute. -/
def runTwoPhaseRemoval (removal : RemovalOutcome) (removedDid : Did)
    (removedKey : Option EncryptionKey) (canonical : Bool) : Outcome :=
  match removal with
  | .pending => (s, none)
  | .settled => (s, some [])
  | .enforced newGeneration =>
    ({ s with generation := max s.generation newGeneration },
      some [.commitRemoval removedDid newGeneration removedKey canonical])

def commitRemoval (s : SpaceReplica) (removedDid : Did) (newGeneration : Nat)
    (removedKey : Option EncryptionKey) (canonical : Bool) : Outcome :=
  ({ s with memberEncryptionKeys := s.memberEncryptionKeys.delete removedDid },
    some ((if canonical = true then []
        else [.getCurrentGeneration (.commitEvent removedDid newGeneration)]) ++
      [.distribute ⟨newGeneration, if removedDid = cfg.did then some cfg.did else none, 0, .next,
        .commitRemoval removedDid removedKey canonical⟩]))

/-- The next candidate of `enforceCanonicalSelfRemovalRotation`; call `k` queues up for it. -/
def enforceCandidates (k : Nat) : List MembershipEvent → Outcome
  | [] => (s, some [])
  | event :: rest =>
    ({ s with lanes := s.lanes ++ [(.transition event.did, k)] },
      some [.awaitTurn (.transition event.did), .getCurrentGeneration (.enforceTransition event),
        .release (.transition event.did), .enforceCandidates rest])

/-- `env.rejects` before a piece that only waits. -/
def unlessRejected (rejects : Bool) (s : SpaceReplica) (ops : List ReplicaOp) : Outcome :=
  if rejects = true then (s, none) else (s, some ops)

def report (newGeneration : Nat) (excluded : Option Did) : RotationReport where
  newGeneration := newGeneration
  excluded := excluded
  activeMembers := s.activeMembers
  sentTo := (s.sent.filter fun m => decide (m.newGeneration = newGeneration)).map (·.recipient)

/-- One piece of call `k`. -/
def runOp (env : ReplicaEnv) (k : Nat) (s : SpaceReplica) : ReplicaOp → Outcome
  | .await => unlessRejected env.rejects s []
  | .settle => (s, some [])
  | .awaitTurn _ => (s, some [])
  | .release lane =>
    ({ s with lanes := s.lanes.filter fun turn => decide (turn ≠ (lane, k)) }, some [])
  | .saveSpaceMetadata =>
    if s.loaded = false then (s, some [])
    else
      unlessRejected env.rejects
        { s with metadata := s.memberEncryptionKeys.entries.map fun e => (e.key, e.value) } []
  | .getCurrentGeneration use =>
    unlessRejected env.rejects s [.withGeneration s.generation use]
  | .withGeneration generation use => s.withGeneration cfg env.selfPending generation use
  | .addMember memberDid key withActivity =>
    if s.loaded = false ∨ cfg.brokerUrls = [] then (s, none)
    else if withActivity = true ∧ s.status memberDid = some .active then (s, some [])
    else (s, some [.getCurrentGeneration (.addMember memberDid key)])
  | .removeMember memberDid withActivity =>
    if s.loaded = false then (s, some [])
    else if withActivity = true ∧ s.status memberDid ≠ some .active then (s, some [])
    else (s, some [.getCurrentGeneration (.removeMember memberDid)])
  | .stageRotation after =>
    -- `stageRotateSpaceKey` throws where the space has no key
    if env.rejects = true ∨ s.generation < 0 then (s, none)
    else (s, some [.commitRotation (s.generation + 1).toNat after])
  | .commitRotation newGeneration after =>
    if env.rejects = true then (s, none)
    else
      ({ s with generation := max s.generation newGeneration },
        some [.getCurrentGeneration (.rotated after)])
  | .distribute d => s.distribute cfg env.rejects d
  | .completed newGeneration excluded =>
    ({ s with reports := s.reports ++ [s.report newGeneration excluded] }, some [])
  | .notifyRemoved memberDid removedKey =>
    (s, some [.notify ((s.infoMembers ++ [memberDid]).filter fun did =>
      decide (¬(did = cfg.did ∧ memberDid ≠ cfg.did))) memberDid removedKey])
  | .notify dids memberDid removedKey => s.notify cfg dids memberDid removedKey
  | .learn did => s.learn env.resolved did
  | .removeMemberSecure memberDid canonical =>
    unlessRejected env.rejects s
      [.runTwoPhaseRemoval memberDid (s.memberEncryptionKeys.get? memberDid) canonical]
  | .runTwoPhaseRemoval removedDid removedKey canonical =>
    s.runTwoPhaseRemoval env.removal removedDid removedKey canonical
  | .commitRemoval removedDid newGeneration removedKey canonical =>
    s.commitRemoval cfg removedDid newGeneration removedKey canonical
  | .resolvePendingMemberUpdates =>
    if env.rejects = true then (s, none)
    else if env.ownRemovalConfirmed = true then (s, some [.cleanup])
    else (s, some [])
  | .enforce events =>
    if cfg.logSyncEnabled = true ∧ cfg.did ∈ resolveActiveMembers events ∧
        cfg.did ∈ s.spaceAdminDids then
      (s, some [.getCurrentGeneration (.enforce events)])
    else (s, some [])
  | .enforceCandidates candidates => s.enforceCandidates k candidates
  | .leaveSpace =>
    if s.loaded = false then (s, some []) else (s, some [.getCurrentGeneration .leaveSpace])
  | .leaveConfirmed =>
    (s, some (if s.status cfg.did = some .removed then [.await, .cleanup] else []))
  | .cleanup => ({ s with loaded := false }, some [.await])

/-! ## 4. Steps -/

/-- Whether call `k` can go on with a piece. -/
def enabled (k : Nat) : ReplicaOp → Bool
  | .awaitTurn lane => decide (s.lanes.find? (fun turn => decide (turn.1 = lane)) = some (lane, k))
  | _ => true

/-- Call `k` goes on with other pieces. -/
def setCall (k : Nat) (ops : List ReplicaOp) : SpaceReplica :=
  { s with calls := s.calls.set k ops }

/-- Call `k` has thrown: its `finally` blocks give its turns away. -/
def abort (k : Nat) : SpaceReplica :=
  { s with
    lanes := s.lanes.filter fun turn => decide (turn.2 ≠ k)
    calls := s.calls.set k [] }

/-- Call `k` goes on. -/
def run (env : ReplicaEnv) (k : Nat) (s : SpaceReplica) : Option SpaceReplica :=
  match s.calls[k]? with
  | some (op :: rest) =>
    if s.enabled k op = true then
      match s.runOp cfg env k op with
      | (s', some ops) => some (s'.setCall k (ops ++ rest))
      | (s', none) => some (s'.abort k)
    else none
  | _ => none

/-- `restoreSpacesFromMetadata`. -/
def restore (members : MembersMap) (adminEntries : List Did) : SpaceReplica :=
  let s :=
    { s with
      members := members
      adminEntries := adminEntries
      memberEncryptionKeys := .ofList s.metadata
      loaded := true
      lanes := []
      calls := [] }
  { s with
    memberEncryptionKeys := s.pruneRemovedMemberEncryptionKeys
    infoMembers := if s.events ≠ [] then s.activeMembers else s.infoMembers }.spawnIn
      .resolutionChain [.enforce s.events]

def step (s : SpaceReplica) : ReplicaInput → Option SpaceReplica
  | .addMember memberDid key withActivity =>
    some (s.spawnIn (.transition memberDid) [.addMember memberDid key withActivity])
  | .removeMember memberDid withActivity =>
    some (s.spawnIn (.transition memberDid) [.removeMember memberDid withActivity])
  | .leaveSpace => some (s.spawn [.leaveSpace])
  | .recoverPendingRemoval removedDid canonical =>
    if cfg.logSyncEnabled = true then some (s.spawn [.removeMemberSecure removedDid canonical])
    else none
  | .promoteToAdmin memberDid =>
    if cfg.did ∈ s.spaceAdminDids ∧ memberDid ∈ s.knownMembers then
      some ((s.addAdmins [memberDid]).spawn [.saveSpaceMetadata])
    else none
  | .remoteUpdate entries => some (s.remoteUpdate entries)
  | .remoteAdmins adminEntries => some (s.addAdmins adminEntries)
  | .importGeneration generation => some { s with generation := max s.generation generation }
  | .metadataSynced metadata => some { s with metadata := metadata }
  | .restart members adminEntries => some (s.restore members adminEntries)
  | .run k env => s.run cfg env k

/-- `createSpaceWithId`, where the space is provisioned: the metadata has no key yet. -/
def created : SpaceReplica where
  members := KeyedTable.empty.put (MembershipEvent.entry ⟨cfg.did, .active, 0, none⟩)
  adminEntries := [cfg.did]
  infoMembers := [cfg.did]
  createdBy := some cfg.did
  memberEncryptionKeys := .ofList [(cfg.did, cfg.encryptionKey)]
  generation := 0
  metadata := []
  loaded := true
  lanes := []
  calls := []
  sent := []
  reports := []

/-- `handleSpaceInvite` of a new space, with the document of the invite's snapshot. -/
def joined (members : MembersMap) (adminEntries : List Did) (createdBy : Option Did)
    (senderDid : Did) (generation : Nat) : SpaceReplica where
  members := members
  adminEntries := adminEntries
  infoMembers :=
    if readMembershipEvents members ≠ [] then resolveActiveMembers (readMembershipEvents members)
    else [senderDid, cfg.did].dedup
  createdBy := createdBy
  memberEncryptionKeys := .empty
  generation := generation
  metadata := []
  loaded := true
  lanes := []
  calls := []
  sent := []
  reports := []

/-- A replica as it begins: the space is created, or joined with whatever document. -/
inductive Starts : SpaceReplica → Prop where
  | created : Starts (created cfg)
  | joined (members : MembersMap) (adminEntries : List Did) (createdBy : Option Did)
      (senderDid : Did) (generation : Nat) :
      Starts (joined cfg members adminEntries createdBy senderDid generation)

end

end SpaceReplica

end WebOfTrust
