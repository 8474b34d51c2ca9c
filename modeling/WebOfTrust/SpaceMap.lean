/-
  **The loaded spaces of one adapter** (`YjsReplicationAdapter.ts`:
  `restoreSpacesFromMetadata`, `handleSpaceInvite`, `createSpaceWithId`,
  `openOrCreateDeterministicPrivateSpace`, `cleanupSpaceLocally`, `stop`).

  A restore pass and a create look for a loaded state, await keys and storage, and then put
  their document into the map without a second look; an invite looks again.  A space that
  was loaded in between is replaced, with its handles and its observer left behind
  (`restore_replaces`).  Where nothing is loaded at these installs, every state stays until
  it is cleaned up or stopped (`loaded_stays`).

  `loaded` and `ended` are history.
-/
import WebOfTrust.KeyedTable
import WebOfTrust.LogEntry
import WebOfTrust.Machine

namespace WebOfTrust

open KeyedTable List

/-! ## 1. States and flights -/

structure LoadedSpace where
  spaceId : DocId
  doc : Nat
deriving DecidableEq

/-- What a flight awaits.  A create carries the epoch of its lease, and the state that it
    resumes. -/
inductive SpaceFlight where
  | restoreMetadata
  | restoreLoaded (spaceId : DocId) (rest : List DocId)
  | restoreKeys (spaceId : DocId) (rest : List DocId)
  | restoreDocument (spaceId : DocId) (rest : List DocId)
  | restoreApply (spaceId : DocId) (doc : Nat) (rest : List DocId)
  | restoreResolve (spaceId : DocId) (rest : List DocId)
  | restoreNext (rest : List DocId)
  | inviteBody (spaceId : DocId)
  | inviteKey (spaceId : DocId)
  | inviteSnapshot (spaceId : DocId)
  | inviteSave
  | genesis (epoch : Nat) (spaceId : DocId)
  | createKey (epoch : Nat) (spaceId : DocId) (resumed : Option LoadedSpace) (doc : Nat)
  | createEncryptionKey (epoch : Nat) (spaceId : DocId) (doc : Nat)
  | createPublish (epoch : Nat) (spaceId : DocId)
  | ended
deriving DecidableEq

structure SpaceMap where
  spaces : KeyedTable LoadedSpace.spaceId
  nextDoc : Nat
  lifecycleEpoch : Nat
  fullyProvisioned : List DocId
  /-- `deterministicPrivateSpaceFlight`. -/
  privateFlight : Option Nat
  /-- The states whose `unsubUpdate` is set. -/
  unsubUpdate : List LoadedSpace
  /-- The states whose update observer is attached. -/
  observers : List LoadedSpace
  /-- The state of each open handle. -/
  handles : List LoadedSpace
  flights : List SpaceFlight
  loaded : List LoadedSpace
  ended : List LoadedSpace

namespace SpaceMap

def start : SpaceMap where
  spaces := .empty
  nextDoc := 0
  lifecycleEpoch := 0
  fullyProvisioned := []
  privateFlight := none
  unsubUpdate := []
  observers := []
  handles := []
  flights := []
  loaded := []
  ended := []

variable (s : SpaceMap)

def setupSpaceSync (state : LoadedSpace) : SpaceMap :=
  { s with observers := s.observers ++ [state], unsubUpdate := s.unsubUpdate ++ [state] }

/-- `spaces.set` and the observer of the new state. -/
def install (state : LoadedSpace) : SpaceMap :=
  { s with
    spaces := s.spaces.put state
    loaded := s.loaded ++ [state] }.setupSpaceSync state

/-- The first part of `cleanupSpaceLocally`; what follows deletes from the stores. -/
def cleanupSpaceLocally (spaceId : DocId) : SpaceMap :=
  match s.spaces.get? spaceId with
  | none => s
  | some state =>
    { s with
      spaces := s.spaces.erase spaceId
      observers := s.observers.filter fun o => decide (o ≠ state)
      handles := s.handles.filter fun h => decide (h ≠ state)
      ended := s.ended ++ [state] }

def stop : SpaceMap :=
  { s with
    spaces := .empty
    lifecycleEpoch := s.lifecycleEpoch + 1
    fullyProvisioned := []
    privateFlight := none
    observers := s.observers.filter fun o => !s.spaces.rows.contains o
    handles := s.handles.filter fun h => !s.spaces.rows.contains h
    ended := s.ended ++ s.spaces.rows }

end SpaceMap

/-! ## 2. Steps of a flight -/

/-- How an await ends; `removes` is the removal of a ghost, or of a space whose pending
    removal is confirmed. -/
inductive SpaceOutcome where
  | ok
  | fails
  | removes
  | metadata (spaceIds : List DocId)
deriving DecidableEq

section

variable (spaceFilter : DocId → Bool) (s : SpaceMap)

def SpaceMap.restoreLoop (s : SpaceMap) : List DocId → SpaceFlight
  | [] => .ended
  | spaceId :: rest =>
    if s.spaces.has spaceId then .restoreLoaded spaceId rest
    else if spaceFilter spaceId then .restoreKeys spaceId rest
    else s.restoreLoop rest

/-- The beginning of `createSpaceWithId`, up to its first await. -/
def SpaceMap.create (epoch : Nat) (spaceId : DocId) : SpaceFlight × SpaceMap :=
  match s.spaces.get? spaceId with
  | some resumed => (.createKey epoch spaceId (some resumed) resumed.doc, s)
  | none => (.createKey epoch spaceId none s.nextDoc, { s with nextDoc := s.nextDoc + 1 })

/-- From the state on: the space is provisioned once all that follows has gone through. -/
def SpaceMap.provision (epoch : Nat) (state : LoadedSpace) : SpaceFlight × SpaceMap :=
  let s := { s with fullyProvisioned := s.fullyProvisioned.filter (decide <| · ≠ state.spaceId) }
  (.createPublish epoch state.spaceId,
    if s.unsubUpdate.contains state then s else s.setupSpaceSync state)

def SpaceMap.resume (outcome : SpaceOutcome) : SpaceFlight → Option (SpaceFlight × SpaceMap)
  | .restoreMetadata =>
    match outcome with
    | .metadata spaceIds => some (s.restoreLoop spaceFilter spaceIds, s)
    | _ => some (.ended, s)
  | .restoreLoaded spaceId rest =>
    match outcome with
    | .removes => some (.restoreNext rest, s.cleanupSpaceLocally spaceId)
    | _ => some (s.restoreLoop spaceFilter rest, s)
  | .restoreKeys spaceId rest =>
    match outcome with
    | .ok => some (.restoreDocument spaceId rest, s)
    | _ => some (s.restoreLoop spaceFilter rest, s)
  | .restoreDocument spaceId rest =>
    match outcome with
    | .ok => some (.restoreApply spaceId s.nextDoc rest, { s with nextDoc := s.nextDoc + 1 })
    | .removes => some (.restoreNext rest, s)
    | _ => some (s.restoreLoop spaceFilter rest, s)
  | .restoreApply spaceId doc rest =>
    match outcome with
    | .ok => some (.restoreResolve spaceId rest, s.install ⟨spaceId, doc⟩)
    | _ => some (s.restoreLoop spaceFilter rest, s)
  | .restoreResolve spaceId rest =>
    match outcome with
    | .removes => some (.restoreNext rest, s.cleanupSpaceLocally spaceId)
    | _ => some (s.restoreLoop spaceFilter rest, s)
  | .restoreNext rest => some (s.restoreLoop spaceFilter rest, s)
  | .inviteBody spaceId =>
    match outcome with
    | .ok => some (.inviteKey spaceId, s)
    | _ => some (.ended, s)
  | .inviteKey spaceId =>
    match outcome with
    | .ok => some (.inviteSnapshot spaceId, s)
    | _ => some (.ended, s)
  | .inviteSnapshot spaceId =>
    match outcome with
    | .ok =>
      -- The snapshot goes into the document that is there.
      if s.spaces.has spaceId then some (.inviteSave, s)
      else
        some (.inviteSave, { s with nextDoc := s.nextDoc + 1 }.install ⟨spaceId, s.nextDoc⟩)
    | _ => some (.ended, s)
  | .inviteSave => some (.ended, s)
  | .genesis epoch spaceId =>
    if outcome ≠ .ok ∨ epoch ≠ s.lifecycleEpoch then some (.ended, s)
    else if s.spaces.has spaceId && s.fullyProvisioned.contains spaceId then some (.ended, s)
    else some (s.create epoch spaceId)
  | .createKey epoch spaceId resumed doc =>
    if outcome ≠ .ok ∨ epoch ≠ s.lifecycleEpoch then some (.ended, s)
    else
      match resumed with
      | some state => some (s.provision epoch state)
      | none => some (.createEncryptionKey epoch spaceId doc, s)
  | .createEncryptionKey epoch spaceId doc =>
    if outcome ≠ .ok ∨ epoch ≠ s.lifecycleEpoch then some (.ended, s)
    else some ((s.install ⟨spaceId, doc⟩).provision epoch ⟨spaceId, doc⟩)
  | .createPublish epoch spaceId =>
    if outcome ≠ .ok ∨ epoch ≠ s.lifecycleEpoch then some (.ended, s)
    else some (.ended, { s with fullyProvisioned := s.fullyProvisioned ++ [spaceId] })
  | .ended => none

/-! ## 3. Steps -/

inductive SpaceMapInput where
  | restore
  | invite (spaceId : DocId)
  | createSpace (spaceId : DocId)
  /-- The id is derived from the identity: every call has the same. -/
  | openPrivate (spaceId : DocId)
  | run (k : Nat) (outcome : SpaceOutcome)
  | openSpace (spaceId : DocId)
  | closeHandle (n : Nat)
  | cleanup (spaceId : DocId)
  | stop

def SpaceMap.settle (k : Nat) (flight : SpaceFlight) : SpaceMap :=
  { s with
    flights := s.flights.set k flight
    privateFlight :=
      if flight = .ended ∧ s.privateFlight = some k then none else s.privateFlight }

def spaceMapStep : SpaceMapInput → Option SpaceMap
  | .restore => some { s with flights := s.flights ++ [.restoreMetadata] }
  | .invite spaceId => some { s with flights := s.flights ++ [.inviteBody spaceId] }
  | .createSpace spaceId =>
    let (flight, s) := s.create s.lifecycleEpoch spaceId
    some { s with flights := s.flights ++ [flight] }
  | .openPrivate spaceId =>
    if s.privateFlight.isSome then some s
    else some { s with
      flights := s.flights ++ [.genesis s.lifecycleEpoch spaceId]
      privateFlight := some s.flights.length }
  | .run k outcome =>
    match s.flights[k]? with
    | none => none
    | some flight =>
      match s.resume spaceFilter outcome flight with
      | none => none
      | some (next, s') => some (s'.settle k next)
  | .openSpace spaceId =>
    match s.spaces.get? spaceId with
    | none => none
    | some state => some { s with handles := s.handles ++ [state] }
  | .closeHandle n => some { s with handles := s.handles.eraseIdx n }
  | .cleanup spaceId => some (s.cleanupSpaceLocally spaceId)
  | .stop => some s.stop

def SpaceFlight.unloaded (outcome : SpaceOutcome) : SpaceFlight → Bool
  | .restoreApply spaceId _ _ => decide (outcome ≠ .ok) || !s.spaces.has spaceId
  | .createEncryptionKey epoch spaceId _ =>
    decide (outcome ≠ .ok) || decide (epoch ≠ s.lifecycleEpoch) || !s.spaces.has spaceId
  | _ => true

def installsUnloaded : SpaceMapInput → Prop
  | .run k outcome => ∀ flight ∈ s.flights[k]?, flight.unloaded s outcome = true
  | _ => True

instance (s : SpaceMap) (i : SpaceMapInput) : Decidable (installsUnloaded s i) := by
  unfold installsUnloaded
  split <;> infer_instance

end

/-! ## 4. What is in the map -/

/-- What was loaded is in the map until it ends, and handles and observers are of what is in
    the map. -/
structure SpaceMapInv (s : SpaceMap) : Prop where
  kept : ∀ l ∈ s.loaded, l ∈ s.spaces.rows ∨ l ∈ s.ended
  rows : ∀ l ∈ s.spaces.rows, l ∈ s.loaded
  synced : ∀ l ∈ s.loaded, l ∈ s.unsubUpdate
  observers : ∀ o ∈ s.observers, o ∈ s.spaces.rows
  handles : ∀ h ∈ s.handles, h ∈ s.spaces.rows
  resumed : ∀ epoch spaceId state doc, .createKey epoch spaceId (some state) doc ∈ s.flights →
    state ∈ s.loaded

variable {spaceFilter : DocId → Bool} {s s' : SpaceMap} {flight next : SpaceFlight}
  {outcome : SpaceOutcome} {state : LoadedSpace} {spaceId : DocId}

theorem rows_put_of_free {l : LoadedSpace} (h : s.spaces.has l.spaceId = false) :
    (s.spaces.put l).rows = s.spaces.rows ++ [l] := by
  rw [put, h]
  exact rows_add_of_free h

theorem SpaceMapInv.install (h : SpaceMapInv s) (hfree : s.spaces.has state.spaceId = false) :
    SpaceMapInv (s.install state) := by
  have hrows : (s.install state).spaces.rows = s.spaces.rows ++ [state] := rows_put_of_free hfree
  have old : ∀ l ∈ s.spaces.rows, l ∈ (s.install state).spaces.rows := by
    intro l hl
    rw [hrows]
    exact mem_append_left _ hl
  have new : state ∈ (s.install state).spaces.rows := by
    rw [hrows]
    exact mem_append_right _ (mem_singleton.mpr rfl)
  constructor
  case kept =>
    intro l hl
    rcases mem_append.mp hl with hold | hnew
    · exact (h.kept l hold).imp_left (old l)
    · cases mem_singleton.mp hnew
      exact .inl new
  case rows =>
    intro l hl
    rw [hrows] at hl
    rcases mem_append.mp hl with hold | hnew
    · exact mem_append_left _ (h.rows l hold)
    · exact mem_append_right _ hnew
  case synced =>
    intro l hl
    rcases mem_append.mp hl with hold | hnew
    · exact mem_append_left _ (h.synced l hold)
    · exact mem_append_right _ hnew
  case observers =>
    intro o ho
    rcases mem_append.mp ho with hold | hnew
    · exact old o (h.observers o hold)
    · cases mem_singleton.mp hnew
      exact new
  case handles => exact fun o ho => old o (h.handles o ho)
  case resumed =>
    intro epoch spaceId l doc hl
    exact mem_append_left _ (h.resumed epoch spaceId l doc hl)

theorem mem_rows_erase {l : LoadedSpace} (hget : s.spaces.get? spaceId = some state)
    (hl : l ∈ s.spaces.rows) (hne : l ≠ state) : l ∈ (s.spaces.erase spaceId).rows := by
  rw [erase, mem_rows_filter]
  refine ⟨hl, decide_eq_true fun hid => hne ?_⟩
  have hkey := key_of_get? hget
  exact eq_of_key_eq hl (mem_of_get? hget) (hid.trans hkey.symm)

open SpaceMap

theorem SpaceMapInv.cleanup (h : SpaceMapInv s) (spaceId : DocId) :
    SpaceMapInv (s.cleanupSpaceLocally spaceId) := by
  unfold cleanupSpaceLocally
  split
  · exact h
  next state hget =>
  refine ⟨?_, ?_, h.synced, ?_, ?_, h.resumed⟩
  · intro l hl
    by_cases heq : l = state
    · exact .inr (mem_append_right _ (mem_singleton.mpr heq))
    rcases h.kept l hl with hrow | hended
    · exact .inl (mem_rows_erase hget hrow heq)
    · exact .inr (mem_append_left _ hended)
  · intro l hl
    exact h.rows l (mem_rows_filter.mp hl).1
  · intro o ho
    obtain ⟨ho, hne⟩ := mem_filter.mp ho
    exact mem_rows_erase hget (h.observers o ho) (of_decide_eq_true hne)
  · intro o ho
    obtain ⟨ho, hne⟩ := mem_filter.mp ho
    exact mem_rows_erase hget (h.handles o ho) (of_decide_eq_true hne)

theorem SpaceMapInv.stop (h : SpaceMapInv s) : SpaceMapInv s.stop := by
  refine ⟨?_, by rintro l ⟨⟩, h.synced, ?_, ?_, h.resumed⟩
  · intro l hl
    exact .inr (mem_append.mpr ((h.kept l hl).symm))
  · intro o ho
    obtain ⟨ho, hgone⟩ := mem_filter.mp ho
    simp [h.observers o ho] at hgone
  · intro o ho
    obtain ⟨ho, hgone⟩ := mem_filter.mp ho
    simp [h.handles o ho] at hgone

theorem SpaceMapInv.same (h : SpaceMapInv s) (hspaces : s'.spaces = s.spaces)
    (hsync : s'.unsubUpdate = s.unsubUpdate) (hobservers : s'.observers = s.observers)
    (hhandles : s'.handles = s.handles) (hloaded : s'.loaded = s.loaded)
    (hended : s'.ended = s.ended)
    (hresumed : ∀ epoch spaceId state doc,
      .createKey epoch spaceId (some state) doc ∈ s'.flights → state ∈ s.loaded) :
    SpaceMapInv s' := by
  obtain ⟨hkept, hrows, hsynced, hobs, hhand, -⟩ := h
  constructor
  all_goals simp only [hspaces, hsync, hobservers, hhandles, hloaded, hended]
  all_goals assumption

/-! ## 5. Flights -/

def ResumesLoaded (s : SpaceMap) (flight : SpaceFlight) : Prop :=
  ∀ epoch spaceId state doc, flight = .createKey epoch spaceId (some state) doc → state ∈ s.loaded

def SpaceFlight.createsKey : SpaceFlight → Bool
  | .createKey _ _ _ _ => true
  | _ => false

theorem createsKey_restoreLoop (rest : List DocId) :
    (s.restoreLoop spaceFilter rest).createsKey = false := by
  induction rest with
  | nil => rfl
  | cons id rest ih =>
    unfold restoreLoop
    split
    · rfl
    split
    · rfl
    · exact ih

theorem resumesLoaded_of_ne (h : flight.createsKey = false) : ResumesLoaded s flight := by
  rintro epoch spaceId state doc rfl
  cases h

structure FlightSound (s : SpaceMap) (next : SpaceFlight) (s' : SpaceMap) : Prop where
  inv : SpaceMapInv s'
  flights : s'.flights = s.flights
  next : ResumesLoaded s' next

section

variable (h : SpaceMapInv s)
include h

theorem flightSound_loop (rest : List DocId) : FlightSound s (s.restoreLoop spaceFilter rest) s :=
  ⟨h, rfl, resumesLoaded_of_ne (createsKey_restoreLoop rest)⟩

theorem flightSound_stay (hnext : next.createsKey = false) : FlightSound s next s :=
  ⟨h, rfl, resumesLoaded_of_ne hnext⟩

theorem flightSound_cleanup (spaceId : DocId) (rest : List DocId) :
    FlightSound s (.restoreNext rest) (s.cleanupSpaceLocally spaceId) := by
  refine ⟨h.cleanup spaceId, ?_, resumesLoaded_of_ne rfl⟩
  unfold cleanupSpaceLocally
  split <;> rfl

theorem flightSound_create (epoch : Nat) (spaceId : DocId) :
    FlightSound s (s.create epoch spaceId).1 (s.create epoch spaceId).2 := by
  unfold create
  split
  · next resumed hget =>
    refine ⟨h, rfl, ?_⟩
    rintro epoch spaceId state doc ⟨⟩
    exact h.rows _ (mem_of_get? hget)
  · refine ⟨h.same rfl rfl rfl rfl rfl rfl h.resumed, rfl, ?_⟩
    rintro epoch spaceId state doc ⟨⟩

theorem flightSound_provision (hstate : state ∈ s.loaded) (epoch : Nat) :
    FlightSound s (s.provision epoch state).1 (s.provision epoch state).2 := by
  have hsynced : s.unsubUpdate.contains state = true := by simpa using h.synced state hstate
  unfold provision
  simp only [hsynced, if_true]
  exact ⟨h.same rfl rfl rfl rfl rfl rfl h.resumed, rfl,
    resumesLoaded_of_ne rfl⟩

theorem resume_sound_flight (hflight : ResumesLoaded s flight)
    (hunloaded : flight.unloaded s outcome = true)
    (hresume : s.resume spaceFilter outcome flight = some (next, s')) : FlightSound s next s' := by
  cases flight with
  | restoreMetadata =>
    cases outcome with
    | metadata spaceIds =>
      cases hresume
      exact flightSound_loop h _
    | _ =>
      cases hresume
      exact flightSound_stay h rfl
  | restoreLoaded spaceId rest | restoreResolve spaceId rest =>
    cases outcome with
    | removes =>
      cases hresume
      exact flightSound_cleanup h _ _
    | _ =>
      cases hresume
      exact flightSound_loop h _
  | restoreKeys spaceId rest =>
    cases outcome with
    | ok =>
      cases hresume
      exact flightSound_stay h rfl
    | _ =>
      cases hresume
      exact flightSound_loop h _
  | restoreDocument spaceId rest =>
    cases outcome with
    | ok =>
      cases hresume
      exact ⟨h.same rfl rfl rfl rfl rfl rfl h.resumed, rfl,
        resumesLoaded_of_ne rfl⟩
    | removes =>
      cases hresume
      exact flightSound_stay h rfl
    | _ =>
      cases hresume
      exact flightSound_loop h _
  | restoreApply spaceId doc rest =>
    cases outcome with
    | ok =>
      cases hresume
      have hfree : s.spaces.has spaceId = false := by simpa [SpaceFlight.unloaded] using hunloaded
      exact ⟨h.install hfree, rfl, resumesLoaded_of_ne rfl⟩
    | _ =>
      cases hresume
      exact flightSound_loop h _
  | restoreNext rest =>
    cases hresume
    exact flightSound_loop h _
  | inviteBody spaceId | inviteKey spaceId =>
    cases outcome with
    | _ =>
      cases hresume
      exact flightSound_stay h rfl
  | inviteSnapshot spaceId =>
    cases outcome
    case ok =>
      simp only [resume] at hresume
      split at hresume
      · cases hresume
        exact flightSound_stay h rfl
      next hfree =>
      cases hresume
      have hsame : SpaceMapInv { s with nextDoc := s.nextDoc + 1 } :=
        h.same rfl rfl rfl rfl rfl rfl h.resumed
      exact ⟨hsame.install (Bool.eq_false_iff.mpr hfree), rfl, resumesLoaded_of_ne rfl⟩
    all_goals
      cases hresume
      exact flightSound_stay h rfl
  | inviteSave =>
    cases hresume
    exact flightSound_stay h rfl
  | genesis epoch spaceId =>
    simp only [resume] at hresume
    split at hresume
    · cases hresume
      exact flightSound_stay h rfl
    split at hresume
    · cases hresume
      exact flightSound_stay h rfl
    have hcreate := flightSound_create h epoch spaceId
    rw [Option.some.inj hresume] at hcreate
    exact hcreate
  | createKey epoch spaceId resumed doc =>
    simp only [resume] at hresume
    split at hresume
    · cases hresume
      exact flightSound_stay h rfl
    split at hresume
    · next state =>
      have hprovision := flightSound_provision h (hflight epoch spaceId state doc rfl) epoch
      rw [Option.some.inj hresume] at hprovision
      exact hprovision
    · cases hresume
      exact flightSound_stay h rfl
  | createEncryptionKey epoch spaceId doc =>
    simp only [resume] at hresume
    split at hresume
    · cases hresume
      exact flightSound_stay h rfl
    next hlease =>
    have hfree : s.spaces.has spaceId = false := by
      simpa [SpaceFlight.unloaded, not_or.mp hlease |>.1 |> not_not.mp,
        not_or.mp hlease |>.2 |> not_not.mp] using hunloaded
    have hinstall := @SpaceMapInv.install s ⟨spaceId, doc⟩ h hfree
    have hloaded : (⟨spaceId, doc⟩ : LoadedSpace) ∈ (s.install ⟨spaceId, doc⟩).loaded :=
      mem_append_right _ (mem_singleton.mpr rfl)
    have hprovision := flightSound_provision hinstall hloaded epoch
    rw [Option.some.inj hresume] at hprovision
    exact ⟨hprovision.inv, hprovision.flights, hprovision.next⟩
  | createPublish epoch spaceId =>
    simp only [resume] at hresume
    split at hresume
    · cases hresume
      exact flightSound_stay h rfl
    cases hresume
    exact ⟨h.same rfl rfl rfl rfl rfl rfl h.resumed, rfl,
      resumesLoaded_of_ne rfl⟩
  | ended => cases hresume

/-! ## 6. Every run -/

theorem SpaceMapInv.addFlight (hflight : ResumesLoaded s flight) (privateFlight : Option Nat) :
    SpaceMapInv { s with flights := s.flights ++ [flight], privateFlight } := by
  refine h.same rfl rfl rfl rfl rfl rfl fun epoch spaceId state doc hmem => ?_
  rcases mem_append.mp hmem with hold | hnew
  · exact h.resumed epoch spaceId state doc hold
  · exact hflight epoch spaceId state doc (mem_singleton.mp hnew).symm

theorem SpaceMapInv.settle (hnext : ResumesLoaded s next) (k : Nat) :
    SpaceMapInv (s.settle k next) := by
  refine h.same rfl rfl rfl rfl rfl rfl fun epoch spaceId state doc hmem => ?_
  rcases mem_or_eq_of_mem_set hmem with hold | hnew
  · exact h.resumed epoch spaceId state doc hold
  · exact hnext epoch spaceId state doc hnew.symm

end

theorem spaceMapStep_inv {i : SpaceMapInput} (hinv : SpaceMapInv s) (hadm : installsUnloaded s i)
    (h : spaceMapStep spaceFilter s i = some s') : SpaceMapInv s' := by
  cases i with
  | restore | invite spaceId =>
    cases h
    exact hinv.addFlight (resumesLoaded_of_ne rfl) _
  | createSpace spaceId =>
    cases h
    have hcreate := flightSound_create hinv s.lifecycleEpoch spaceId
    exact hcreate.inv.addFlight hcreate.next _
  | openPrivate spaceId =>
    simp only [spaceMapStep] at h
    split at h
    · cases h
      exact hinv
    · cases h
      exact hinv.addFlight (resumesLoaded_of_ne rfl) _
  | run k outcome =>
    simp only [spaceMapStep] at h
    split at h
    · cases h
    next flight hk =>
    split at h
    · cases h
    next next s₁ hresume =>
    cases h
    have hflight : ResumesLoaded s flight := by
      rintro epoch spaceId state doc rfl
      exact hinv.resumed epoch spaceId state doc (mem_of_getElem? hk)
    have hsound := resume_sound_flight hinv hflight (hadm flight hk) hresume
    exact hsound.inv.settle hsound.next k
  | openSpace spaceId =>
    simp only [spaceMapStep] at h
    split at h
    · cases h
    next state hget =>
    cases h
    refine ⟨hinv.kept, hinv.rows, hinv.synced, hinv.observers, fun o ho => ?_, hinv.resumed⟩
    rcases mem_append.mp ho with hold | hnew
    · exact hinv.handles o hold
    · cases mem_singleton.mp hnew
      exact mem_of_get? hget
  | closeHandle n =>
    cases h
    exact ⟨hinv.kept, hinv.rows, hinv.synced, hinv.observers,
      fun o ho => hinv.handles o (mem_of_mem_eraseIdx ho), hinv.resumed⟩
  | cleanup spaceId =>
    cases h
    exact hinv.cleanup spaceId
  | stop =>
    cases h
    exact hinv.stop

theorem spaceMapInv_start : SpaceMapInv .start := by
  constructor <;> simp [start]

/-- **A loaded space stays**, in every run in which a restore pass and a create that come to
    install find nothing loaded: every loaded state is in the map until it is cleaned up or
    stopped, as the only one of its space, and every open handle and attached observer is of
    a state in the map. -/
theorem loaded_stays (h : Machine.Reaches (spaceMapStep spaceFilter) installsUnloaded .start s) :
    (∀ l ∈ s.loaded, l ∈ s.spaces.rows ∨ l ∈ s.ended) ∧
      (∀ l ∈ s.spaces.rows, ∀ l' ∈ s.spaces.rows, l.spaceId = l'.spaceId → l = l') ∧
      (∀ o ∈ s.observers, o ∈ s.spaces.rows) ∧ ∀ o ∈ s.handles, o ∈ s.spaces.rows := by
  have hinv : SpaceMapInv s := h.invariant spaceMapInv_start fun _ _ _ => spaceMapStep_inv
  exact ⟨hinv.kept, fun l hl l' hl' hid => eq_of_key_eq hl hl' hid, hinv.observers, hinv.handles⟩

/-! ## 7. Runs -/

def everySpace (_ : DocId) : Bool := true

/-- A restore pass, an invite to a space that it has loaded, a create, and a stop. -/
theorem loaded_stays_session : ∃ s,
    Machine.Reaches (spaceMapStep everySpace) installsUnloaded .start s ∧ s.loaded.length = 3 ∧
      ∀ l ∈ s.loaded, l ∈ s.spaces.rows ∨ l ∈ s.ended := by
  obtain ⟨s, hreach, hp⟩ := Machine.Reaches.of_exec (spaceMapStep everySpace) installsUnloaded
    .start
    [.restore, .run 0 (.metadata ["a"]), .run 0 .ok, .run 0 .ok, .run 0 .ok, .openSpace "a",
      .invite "a", .run 1 .ok, .run 1 .ok, .run 1 .ok, .openPrivate "p", .run 2 .ok, .run 2 .ok,
      .run 2 .ok, .run 2 .ok, .openSpace "p", .cleanup "a", .stop, .restore,
      .run 3 (.metadata ["p"]), .run 3 .ok, .run 3 .ok, .run 3 .ok]
    (fun s => decide (s.loaded.length = 3)) (by decide +kernel)
  exact ⟨s, hreach, of_decide_eq_true hp, (loaded_stays hreach).1⟩

/-- A loaded state is gone from the map, neither cleaned up nor stopped, with a handle open
    and its observer attached. -/
def SpaceMap.replaced (s : SpaceMap) (l : LoadedSpace) : Bool :=
  s.loaded.contains l && !s.spaces.rows.contains l && !s.ended.contains l &&
    s.handles.contains l && s.observers.contains l

/-- A restore pass has found the space not loaded; an invite loads it, and a handle is
    opened; the pass puts its own document in the place.  Likewise the create of the private
    space, which a restore pass loads in between. -/
theorem restore_replaces :
    (∃ s, Machine.Reaches (spaceMapStep everySpace) (fun _ _ => True) .start s ∧
      s.replaced ⟨"a", 1⟩ = true) ∧
      ∃ s, Machine.Reaches (spaceMapStep everySpace) (fun _ _ => True) .start s ∧
        s.replaced ⟨"p", 1⟩ = true := by
  constructor
  · exact Machine.Reaches.of_exec (spaceMapStep everySpace) (fun _ _ => True) .start
      [.restore, .run 0 (.metadata ["a"]), .run 0 .ok, .run 0 .ok, .invite "a", .run 1 .ok,
        .run 1 .ok, .run 1 .ok, .openSpace "a", .run 0 .ok]
      (·.replaced ⟨"a", 1⟩) (by decide +kernel)
  · exact Machine.Reaches.of_exec (spaceMapStep everySpace) (fun _ _ => True) .start
      [.openPrivate "p", .run 0 .ok, .run 0 .ok, .restore, .run 1 (.metadata ["p"]), .run 1 .ok,
        .run 1 .ok, .run 1 .ok, .openSpace "p", .run 0 .ok]
      (·.replaced ⟨"p", 1⟩) (by decide +kernel)

end WebOfTrust
