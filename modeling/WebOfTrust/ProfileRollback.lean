/-
  **Rollback protection of profile resources** (`HttpDiscoveryAdapter.ts`,
  `LocalProfileVersionCache`).

  A resolve reads the last seen version, compares the version it has fetched with it, and
  writes that version.  These are separate awaits: the older of two resolves may overwrite
  the newer version, and the old resource passes from then on (`baseline_moves_back`).  Where
  a resolve that passed the check would still pass it when it writes, the baseline never falls
  and nothing older than what a caller has seen is returned (`resolves_never_roll_back`).
-/
import WebOfTrust.ProfileResource
import WebOfTrust.CallHistory

namespace WebOfTrust

/-! ## 1. The version cache -/

/-- `LocalProfileVersionCache`, as far as one DID and resource is concerned.  A text in the
    local storage is the version it stands for, if it stands for one.  The two slots of a
    legacy prefix are empty where the cache has no such prefix. -/
structure LocalProfileVersionCache where
  /-- Whether the local storage can be reached. -/
  storage : Bool
  /-- Under `keyFor(did, resource)`. -/
  item : Option (Option Nat)
  /-- Under `keyPrefix + did`. -/
  preResource : Option (Option Nat)
  legacy : Option (Option Nat)
  legacyPreResource : Option (Option Nat)
  fallback : Option Nat

namespace LocalProfileVersionCache

variable (resource : ProfileServiceResourceKind)

/-- `getLastSeenVersion`.  A legacy text that is read moves to the key of the resource, as far
    as the storage is `writable`. -/
def getLastSeenVersion (writable : Bool) (c : LocalProfileVersionCache) :
    Option Nat × LocalProfileVersionCache :=
  if c.storage then
    match c.item with
    | some raw => (raw, c)
    | none =>
      match c.preResource, decide (resource = .profile) with
      | some raw, true => (raw, c)
      | _, isProfile =>
        match c.legacy with
        | some raw =>
          (raw, if writable then { c with item := some raw, legacy := none } else c)
        | none =>
          match c.legacyPreResource, isProfile with
          | some raw, true =>
            (raw, if writable then { c with item := some raw, legacyPreResource := none } else c)
          | _, _ => (c.fallback, c)
  else (c.fallback, c)

/-- `setLastSeenVersion`, which throws where the storage takes nothing any more. -/
def setLastSeenVersion (writable : Bool) (c : LocalProfileVersionCache) (version : Nat) :
    Except String Unit × LocalProfileVersionCache :=
  let c := { c with fallback := some version }
  if c.storage then
    if writable then (.ok (), { c with item := some (some version) })
    else (.error "QuotaExceededError", c)
  else (.ok (), c)

def baseline (c : LocalProfileVersionCache) : Option Nat := (c.getLastSeenVersion resource true).1

end LocalProfileVersionCache

/-! ## 2. What a resolve returns -/

/-- What `importVerifiedAttestationFromVcJws` makes of an entry: the derived attestation, as
    far as it is looked at here, and the verified payload. -/
structure VerifiedImportedAttestation where
  vcJws : String
  toDid : Did
  payload : AttestationVcPayload

/-- `/v` keeps verifications, `/a` the rest, both only what is about the holder. -/
def keepsItem (kind : ProfileServiceResourceKind) (did : Did)
    (derived : VerifiedImportedAttestation) : Bool :=
  decide (derived.toDid = did) &&
    if kind = .verifications then isVerificationAttestation derived.payload
    else !isVerificationAttestation derived.payload

def deriveAttestations (importAttestation : String → Except String VerifiedImportedAttestation)
    (kind : ProfileServiceResourceKind) (did : Did) (items : List String) :
    List VerifiedImportedAttestation :=
  (items.filterMap fun item => (importAttestation item).toOption).filter (keepsItem kind did)

namespace JsonValue

def truthy : JsonValue → Bool
  | .null => false
  | .boolean value => value
  | .number value => decide (value ≠ 0)
  | .text value => !value.isEmpty
  | .array _ | .object _ => true

def nonemptyArray : JsonValue → Bool
  | .array entries => !entries.isEmpty
  | _ => false

end JsonValue

structure PublicProfile where
  did : Did
  name : String
  bio : Option JsonValue
  avatar : Option JsonValue
  offers : Option JsonValue
  needs : Option JsonValue
  protocols : Option JsonValue
  updatedAt : String

open JsonValue

def flattenProfilePublicationPayload (payload : ProfileServiceResourcePayload)
    (profile : ProfileMetadata) : PublicProfile where
  did := payload.did
  name := profile.name
  bio := (profile.fields.lookup "bio").filter truthy
  avatar := (profile.fields.lookup "avatar").filter truthy
  offers := (profile.fields.lookup "offers").filter nonemptyArray
  needs := (profile.fields.lookup "needs").filter nonemptyArray
  protocols := (profile.fields.lookup "protocols").filter nonemptyArray
  updatedAt := payload.updatedAt

inductive ResolveError where
  | failure (message : String)
  | rollback (did : Did) (fetchedVersion lastSeenVersion : Nat)
      (resource : ProfileServiceResourceKind)

inductive ResolveResult where
  | absent
  | profile (profile : PublicProfile) (didDocument : DidDocumentRecord) (version : Nat)
  | attestations (items : List VerifiedImportedAttestation)
  | thrown (error : ResolveError)

structure LastVerified where
  jws : String
  attestations : List VerifiedImportedAttestation
  version : Nat

inductive FetchOutcome where
  | failed (message : String)
  | answered (status : Nat) (body : String)

def fetchFailed : ProfileServiceResourceKind → Nat → String
  | .profile, status => "Profile fetch failed: " ++ toString status
  | .verifications, status => "resolveVerifications fetch failed: " ++ toString status
  | .attestations, status => "resolveAttestations fetch failed: " ++ toString status

/-! ## 3. Resolves side by side -/

inductive ResolveStage where
  | fetching
  /-- The bytes are the last verified ones; the baseline has been read. -/
  | recognized (guarded : LastVerified) (lastSeenVersion : Option Nat)
  | verifying (jws : String)
  /-- The resource is verified and the baseline has been read. -/
  | comparing (jws : String) (payload : ProfileServiceResourcePayload)
      (lastSeenVersion : Option Nat)
  /-- The version is written. -/
  | deriving (jws : String) (payload : ProfileServiceResourcePayload)
  | done (result : ResolveResult)

structure Resolve where
  adapter : Nat
  stage : ResolveStage

/-- Adapters that share the version cache of one DID and resource.  The history is for the
    observer: which resolve started and which version it returned. -/
structure ResolveSystem where
  cache : LocalProfileVersionCache
  lastVerified : Nat → Option LastVerified
  resolves : List Resolve
  history : List (CallEvent Nat)

namespace ResolveSystem

def start (cache : LocalProfileVersionCache) : ResolveSystem := ⟨cache, fun _ => none, [], []⟩

inductive Input where
  | resolve (adapter : Nat)
  | fetched (n : Nat) (outcome : FetchOutcome) (writable : Bool)
  | verified (n : Nat) (didResolver : DidResolver) (writable : Bool)
  | baselineRead (n : Nat) (writable : Bool)
  | derived (n : Nat) (importAttestation : String → Except String VerifiedImportedAttestation)

def put (w : ResolveSystem) (n : Nat) (r : Resolve) (stage : ResolveStage) : ResolveSystem :=
  { w with resolves := w.resolves.set n { r with stage } }

section

variable (env : ResourceEnvironment) (did : Did) (kind : ProfileServiceResourceKind)

def onFetched (w : ResolveSystem) (n : Nat) (r : Resolve) (writable : Bool) :
    FetchOutcome → ResolveSystem
  | .failed message => w.put n r (.done (.thrown (.failure message)))
  | .answered status body =>
    if status = 404 then w.put n r (.done .absent)
    else if ¬ (200 ≤ status ∧ status < 300) then
      w.put n r (.done (.thrown (.failure (fetchFailed kind status))))
    else
      match (w.lastVerified r.adapter).filter fun guarded => decide (guarded.jws = body) with
      | some guarded =>
        let (lastSeenVersion, cache) := w.cache.getLastSeenVersion kind writable
        { w with cache }.put n r (.recognized guarded lastSeenVersion)
      | none => w.put n r (.verifying body)

def onVerified (w : ResolveSystem) (n : Nat) (r : Resolve) (jws : String)
    (didResolver : DidResolver) (writable : Bool) : ResolveSystem :=
  match verifyProfileServiceResourceJws env didResolver jws did kind with
  | .error _ => w.put n r (.done .absent)
  | .ok payload =>
    let (lastSeenVersion, cache) := w.cache.getLastSeenVersion kind writable
    { w with cache }.put n r (.comparing jws payload lastSeenVersion)

def rolledBack (fetchedVersion : Nat) (lastSeenVersion : Option Nat) : ResolveStage :=
  .done (.thrown (.rollback did fetchedVersion (lastSeenVersion.getD 0) kind))

def onBaselineRead (w : ResolveSystem) (n : Nat) (r : Resolve) (jws : String)
    (payload : ProfileServiceResourcePayload) (lastSeenVersion : Option Nat) (writable : Bool) :
    ResolveSystem :=
  if detectProfileResourceRollback payload.version lastSeenVersion then
    w.put n r (rolledBack did kind payload.version lastSeenVersion)
  else
    match w.cache.setLastSeenVersion writable payload.version with
    | (.ok (), cache) => { w with cache }.put n r (.deriving jws payload)
    | (.error message, cache) => { w with cache }.put n r (.done (.thrown (.failure message)))

def onRecognized (w : ResolveSystem) (n : Nat) (r : Resolve) (guarded : LastVerified)
    (lastSeenVersion : Option Nat) : ResolveSystem :=
  if detectProfileResourceRollback guarded.version lastSeenVersion then
    w.put n r (rolledBack did kind guarded.version lastSeenVersion)
  else
    { w.put n r (.done (.attestations guarded.attestations)) with
      history := w.history ++ [CallEvent.returned n guarded.version] }

def onDerived (w : ResolveSystem) (n : Nat) (r : Resolve) (jws : String)
    (payload : ProfileServiceResourcePayload)
    (importAttestation : String → Except String VerifiedImportedAttestation) : ResolveSystem :=
  let w := { w with history := w.history ++ [CallEvent.returned n payload.version] }
  match payload.content with
  | .profile didDocument profile =>
    w.put n r (.done (.profile (flattenProfilePublicationPayload payload profile) didDocument
      payload.version))
  | .list _ items =>
    let attestations := deriveAttestations importAttestation kind did items
    { w.put n r (.done (.attestations attestations)) with
      lastVerified := Function.update w.lastVerified r.adapter
        (some ⟨jws, attestations, payload.version⟩) }

def step (w : ResolveSystem) : Input → Option ResolveSystem
  | .resolve adapter =>
    some { w with
      resolves := w.resolves ++ [⟨adapter, .fetching⟩]
      history := w.history ++ [.started w.resolves.length] }
  | .fetched n outcome writable =>
    match w.resolves[n]? with
    | some r =>
      match r.stage with
      | .fetching => some (w.onFetched kind n r writable outcome)
      | _ => none
    | none => none
  | .verified n didResolver writable =>
    match w.resolves[n]? with
    | some r =>
      match r.stage with
      | .verifying jws => some (w.onVerified env did kind n r jws didResolver writable)
      | _ => none
    | none => none
  | .baselineRead n writable =>
    match w.resolves[n]? with
    | some r =>
      match r.stage with
      | .comparing jws payload lastSeenVersion =>
        some (w.onBaselineRead did kind n r jws payload lastSeenVersion writable)
      | .recognized guarded lastSeenVersion =>
        some (w.onRecognized did kind n r guarded lastSeenVersion)
      | _ => none
    | none => none
  | .derived n importAttestation =>
    match w.resolves[n]? with
    | some r =>
      match r.stage with
      | .deriving jws payload => some (w.onDerived did kind n r jws payload importAttestation)
      | _ => none
    | none => none

end

def InTime (kind : ProfileServiceResourceKind) (w : ResolveSystem) : Input → Prop
  | .baselineRead n _ =>
    match (w.resolves[n]?).map Resolve.stage with
    | some (.comparing _ payload lastSeenVersion) =>
      detectProfileResourceRollback payload.version lastSeenVersion = false →
        detectProfileResourceRollback payload.version (w.cache.baseline kind) = false
    | _ => True
  | _ => True

instance (kind : ProfileServiceResourceKind) (w : ResolveSystem) : ∀ i, Decidable (w.InTime kind i)
  | .resolve _ | .fetched _ _ _ | .verified _ _ _ | .derived _ _ => isTrue trivial
  | .baselineRead n _ => by
    unfold InTime
    dsimp only
    split <;> infer_instance

end ResolveSystem

/-! ## 4. The baseline -/

/-- There is a version, and it is not below `v`. -/
def Covers (seen : Option Nat) (v : Nat) : Prop := ∃ b, seen = some b ∧ v ≤ b

theorem passes_iff {fetchedVersion : Nat} {lastSeenVersion : Option Nat} :
    detectProfileResourceRollback fetchedVersion lastSeenVersion = false ↔
      ∀ v, Covers lastSeenVersion v → v ≤ fetchedVersion := by
  rcases lastSeenVersion with _ | lastSeen
  · simp [detectProfileResourceRollback, Covers]
  simp only [detectProfileResourceRollback, Covers, decide_eq_false_iff_not, not_lt,
    Option.some.injEq, exists_eq_left']
  constructor
  · exact fun h v hv => Nat.le_trans hv h
  · exact fun h => h lastSeen (Nat.le_refl _)

namespace LocalProfileVersionCache

variable {kind : ProfileServiceResourceKind} {c : LocalProfileVersionCache} {writable : Bool}

theorem getLastSeenVersion_fst : (c.getLastSeenVersion kind writable).1 = c.baseline kind := by
  unfold baseline getLastSeenVersion
  split
  · split
    · rfl
    split
    · rfl
    split
    · rfl
    · split <;> rfl
  · rfl

theorem baseline_getLastSeenVersion :
    (c.getLastSeenVersion kind writable).2.baseline kind = c.baseline kind := by
  rcases c with ⟨storage, item, preResource, legacy, legacyPreResource, fallback⟩
  rcases storage
  · rfl
  rcases item with _ | raw
  · by_cases hprofile : kind = .profile
    · subst hprofile
      rcases preResource with _ | raw
      · rcases legacy with _ | raw
        · rcases legacyPreResource with _ | raw
          · rfl
          · rcases writable <;> rfl
        · rcases writable <;> rfl
      · rfl
    · rcases legacy with _ | raw
      · simp [getLastSeenVersion, baseline, hprofile]
      · rcases writable <;> simp [getLastSeenVersion, baseline, hprofile]
  · rfl

theorem baseline_of_setLastSeenVersion {version : Nat} {c' : LocalProfileVersionCache}
    (h : c.setLastSeenVersion writable version = (.ok (), c')) :
    c'.baseline kind = some version := by
  unfold setLastSeenVersion at h
  dsimp only at h
  split at h
  · next hstorage =>
    split at h
    · cases h
      simp [baseline, getLastSeenVersion, hstorage]
    · cases h
  next hstorage =>
  cases h
  simp [baseline, getLastSeenVersion, hstorage]

/-- A version that passes is written without the baseline falling, also where the storage takes
    nothing. -/
theorem covers_setLastSeenVersion {version v : Nat}
    (hpass : detectProfileResourceRollback version (c.baseline kind) = false)
    (hv : Covers (c.baseline kind) v) :
    Covers ((c.setLastSeenVersion writable version).2.baseline kind) v := by
  have hle := passes_iff.mp hpass v hv
  rcases c with ⟨storage, item, preResource, legacy, legacyPreResource, fallback⟩
  rcases storage
  · exact ⟨version, rfl, hle⟩
  rcases writable
  · -- Only the fallback has changed, which counts where the storage holds nothing.
    rcases item with _ | raw
    · by_cases hprofile : kind = .profile
      · subst hprofile
        rcases preResource with _ | raw
        · rcases legacy with _ | raw
          · rcases legacyPreResource with _ | raw
            · exact ⟨version, rfl, hle⟩
            · exact hv
          · exact hv
        · exact hv
      · rcases legacy with _ | raw
        · refine ⟨version, ?_, hle⟩
          simp [setLastSeenVersion, baseline, getLastSeenVersion, hprofile]
        · simpa [setLastSeenVersion, baseline, getLastSeenVersion, hprofile] using hv
    · exact hv
  · exact ⟨version, rfl, hle⟩

end LocalProfileVersionCache

/-! ## 5. Whole runs -/

open LocalProfileVersionCache

namespace ResolveSystem

open CallHistory Machine

section

variable {env : ResourceEnvironment} {did : Did} {kind : ProfileServiceResourceKind}
  {w w' : ResolveSystem} {n : Nat} {writable : Bool} {stage : ResolveStage} {r : Resolve}
  {jws : String}

/-- What the stage of resolve `n` says about the floor of the resolve and about the baseline. -/
def StageOk (kind : ProfileServiceResourceKind) (w : ResolveSystem) (n : Nat) : ResolveStage → Prop
  | .fetching | .verifying _ | .done _ => True
  | .recognized guarded lastSeenVersion => Covers (w.cache.baseline kind) guarded.version ∧
      ∀ v, Floor w.history n v → Covers lastSeenVersion v
  | .comparing _ _ lastSeenVersion => ∀ v, Floor w.history n v → Covers lastSeenVersion v
  | .deriving _ payload => Covers (w.cache.baseline kind) payload.version ∧
      ∀ v, Floor w.history n v → v ≤ payload.version

/-- The baseline covers everything that was returned and everything that is remembered, and
    each resolve has what its stage needs. -/
structure RollbackInv (kind : ProfileServiceResourceKind) (w : ResolveSystem) : Prop where
  monotone : Monotone w.history
  returned : ∀ v, Returned w.history v → Covers (w.cache.baseline kind) v
  remembered : ∀ a guarded, w.lastVerified a = some guarded →
    Covers (w.cache.baseline kind) guarded.version
  stages : ∀ n r, w.resolves[n]? = some r → StageOk kind w n r.stage

section

variable (h : RollbackInv kind w)
include h

theorem RollbackInv.read :
    ∀ v, Floor w.history n v → Covers (w.cache.getLastSeenVersion kind writable).1 v := by
  intro v hv
  rw [getLastSeenVersion_fst]
  exact h.returned v hv.returned

omit h in
theorem StageOk.frame (h : StageOk kind w n stage)
    (hrises : ∀ v, Covers (w.cache.baseline kind) v → Covers (w'.cache.baseline kind) v)
    (hfloor : ∀ v, Floor w'.history n v → Floor w.history n v) : StageOk kind w' n stage := by
  rcases stage with _ | ⟨guarded, lastSeenVersion⟩ | jws | ⟨jws, payload, lastSeenVersion⟩ |
    ⟨jws, payload⟩ | result
  · trivial
  · exact ⟨hrises _ h.1, fun v hv => h.2 v (hfloor v hv)⟩
  · trivial
  · exact fun v hv => h v (hfloor v hv)
  · exact ⟨hrises _ h.1, fun v hv => h.2 v (hfloor v hv)⟩
  · trivial

structure Moves (kind : ProfileServiceResourceKind) (n : Nat) (w w' : ResolveSystem) : Prop where
  rises : ∀ v, Covers (w.cache.baseline kind) v → Covers (w'.cache.baseline kind) v
  monotone : Monotone w'.history
  returned : ∀ v, Returned w'.history v → Returned w.history v ∨ Covers (w'.cache.baseline kind) v
  floor : ∀ m v, Floor w'.history m v → Floor w.history m v
  remembered : ∀ a guarded, w'.lastVerified a = some guarded →
    w.lastVerified a = some guarded ∨ Covers (w'.cache.baseline kind) guarded.version
  others : ∀ m r, w'.resolves[m]? = some r → m ≠ n → w.resolves[m]? = some r
  stage : ∀ r, w'.resolves[n]? = some r → StageOk kind w' n r.stage

theorem RollbackInv.moves (hm : Moves kind n w w') : RollbackInv kind w' where
  monotone := hm.monotone
  returned v hv := by
    rcases hm.returned v hv with hold | hcovers
    · exact hm.rises v (h.returned v hold)
    · exact hcovers
  remembered a guarded hguarded := by
    rcases hm.remembered a guarded hguarded with hold | hcovers
    · exact hm.rises _ (h.remembered a guarded hold)
    · exact hcovers
  stages m r hr := by
    by_cases hmn : m = n
    · subst hmn
      exact hm.stage r hr
    · exact (h.stages m r (hm.others m r hr hmn)).frame hm.rises (hm.floor m)

theorem moves_put {cache : LocalProfileVersionCache}
    (hrises : ∀ v, Covers (w.cache.baseline kind) v → Covers (cache.baseline kind) v)
    (hstage : StageOk kind ({ w with cache }.put n r stage) n stage) :
    Moves kind n w ({ w with cache }.put n r stage) where
  rises := hrises
  monotone := h.monotone
  returned v hv := .inl hv
  floor m v hv := hv
  remembered a guarded hguarded := .inl hguarded
  others m r' hr' hmn := by
    rcases getElem?_set_cases hr' with ⟨heq, -⟩ | ⟨-, hold⟩
    · exact absurd heq hmn
    · exact hold
  stage r' hr' := by
    rcases getElem?_set_cases hr' with ⟨-, rfl⟩ | ⟨hne, -⟩
    · exact hstage
    · exact absurd rfl hne

theorem moves_read (hstage : StageOk kind w n stage) : Moves kind n w
      ({ w with cache := (w.cache.getLastSeenVersion kind writable).2 }.put n r stage) := by
  have hrises : ∀ v, Covers (w.cache.baseline kind) v →
      Covers ((w.cache.getLastSeenVersion kind writable).2.baseline kind) v := by
    intro v hv
    rw [baseline_getLastSeenVersion]
    exact hv
  exact moves_put h hrises (hstage.frame hrises fun v hv => hv)

theorem moves_onFetched (outcome : FetchOutcome) :
    Moves kind n w (w.onFetched kind n r writable outcome) := by
  have hstay : ∀ v, Covers (w.cache.baseline kind) v → Covers (w.cache.baseline kind) v :=
    fun v hv => hv
  unfold onFetched
  split
  · exact moves_put h hstay trivial
  split
  · exact moves_put h hstay trivial
  split
  · exact moves_put h hstay trivial
  split
  · next status body _ _ guarded hguarded =>
    have hremembered :=
      h.remembered r.adapter guarded (Option.filter_eq_some_iff.mp hguarded).1
    exact moves_read h ⟨hremembered, h.read⟩
  · exact moves_put h hstay trivial

theorem moves_onVerified {didResolver : DidResolver} :
    Moves kind n w (w.onVerified env did kind n r jws didResolver writable) := by
  unfold onVerified
  split
  · exact moves_put h (fun v hv => hv) trivial
  · exact moves_read h h.read

theorem moves_onBaselineRead {payload : ProfileServiceResourcePayload}
    {lastSeenVersion : Option Nat} (hr : w.resolves[n]? = some r)
    (hstage : r.stage = .comparing jws payload lastSeenVersion)
    (hintime : w.InTime kind (.baselineRead n writable)) :
    Moves kind n w (w.onBaselineRead did kind n r jws payload lastSeenVersion writable) := by
  unfold onBaselineRead
  by_cases hpass : detectProfileResourceRollback payload.version lastSeenVersion = true
  · rw [if_pos hpass]
    exact moves_put h (fun v hv => hv) trivial
  rw [if_neg hpass]
  rw [Bool.not_eq_true] at hpass
  have hfloor : ∀ v, Floor w.history n v → v ≤ payload.version := by
    have hok := h.stages n r hr
    rw [hstage] at hok
    exact fun v hv => passes_iff.mp hpass v (hok v hv)
  have hstill :
      detectProfileResourceRollback payload.version (w.cache.baseline kind) = false := by
    simp only [InTime, hr, Option.map_some, hstage] at hintime
    exact hintime hpass
  have hrises : ∀ v, Covers (w.cache.baseline kind) v →
      Covers ((w.cache.setLastSeenVersion writable payload.version).2.baseline kind) v :=
    fun v hv => covers_setLastSeenVersion hstill hv
  split
  · next cache hset =>
    rw [hset] at hrises
    apply moves_put h hrises
    refine ⟨?_, hfloor⟩
    show Covers (cache.baseline kind) payload.version
    rw [baseline_of_setLastSeenVersion hset]
    exact ⟨payload.version, rfl, Nat.le_refl _⟩
  · next message cache hset =>
    rw [hset] at hrises
    exact moves_put h hrises trivial

theorem moves_return {version : Nat} {result : ResolveResult}
    {lastVerified : Nat → Option LastVerified}
    (hcovers : Covers (w.cache.baseline kind) version)
    (hfloor : ∀ v, Floor w.history n v → v ≤ version)
    (hremembered : ∀ a guarded, lastVerified a = some guarded →
      w.lastVerified a = some guarded ∨ guarded.version = version) :
    Moves kind n w { w.put n r (.done result) with
      history := w.history ++ [.returned n version], lastVerified } := by
  have hput : Moves kind n w (w.put n r (.done result)) :=
    moves_put h (fun v hv => hv) trivial
  constructor
  · exact fun v hv => hv
  · exact h.monotone.append_returned hfloor
  · intro v hv
    rcases returned_append_returned.mp hv with hold | rfl
    · exact .inl hold
    · exact .inr hcovers
  · exact fun m v hv => floor_append_returned.mp hv
  · intro a guarded hguarded
    rcases hremembered a guarded hguarded with hold | heq
    · exact .inl hold
    · exact .inr (heq ▸ hcovers)
  · exact hput.others
  · intro r' hr'
    exact (hput.stage r' hr').frame (fun v hv => hv) fun v hv => floor_append_returned.mp hv

theorem moves_onRecognized {guarded : LastVerified} {lastSeenVersion : Option Nat}
    (hr : w.resolves[n]? = some r)
    (hstage : r.stage = .recognized guarded lastSeenVersion) :
    Moves kind n w (w.onRecognized did kind n r guarded lastSeenVersion) := by
  unfold onRecognized
  by_cases hpass : detectProfileResourceRollback guarded.version lastSeenVersion = true
  · rw [if_pos hpass]
    exact moves_put h (fun v hv => hv) trivial
  rw [if_neg hpass]
  rw [Bool.not_eq_true] at hpass
  have hok := h.stages n r hr
  rw [hstage] at hok
  exact moves_return h hok.1 (fun v hv => passes_iff.mp hpass v (hok.2 v hv))
    fun a g hg => .inl hg

theorem moves_onDerived {payload : ProfileServiceResourcePayload}
    {importAttestation : String → Except String VerifiedImportedAttestation} (hr : w.resolves[n]? = some r)
    (hstage : r.stage = .deriving jws payload) :
    Moves kind n w (w.onDerived did kind n r jws payload importAttestation) := by
  have hok := h.stages n r hr
  rw [hstage] at hok
  unfold onDerived
  dsimp only
  split
  · exact moves_return h hok.1 hok.2 fun a guarded hguarded => .inl hguarded
  apply moves_return h hok.1 hok.2
  intro a guarded hguarded
  by_cases ha : a = r.adapter
  · subst ha
    rw [Function.update_self] at hguarded
    cases hguarded
    exact .inr rfl
  · rw [Function.update_of_ne ha] at hguarded
    exact .inl hguarded

theorem RollbackInv.resolve (adapter : Nat) : RollbackInv kind { w with
      resolves := w.resolves ++ [⟨adapter, .fetching⟩]
      history := w.history ++ [.started w.resolves.length] } where
  monotone := h.monotone.append_started
  returned v hv := h.returned v (returned_append_started.mp hv)
  remembered := h.remembered
  stages n r hr := by
    rcases getElem?_concat_cases hr with ⟨rfl, rfl⟩ | hold
    · trivial
    have hlt : n < w.resolves.length := (List.getElem?_eq_some_iff.mp hold).1
    refine (h.stages n r hold).frame (fun v hv => hv) fun v hv => ?_
    rcases floor_append_started.mp hv with hfloor | ⟨rfl, -⟩
    · exact hfloor
    · exact absurd hlt (Nat.lt_irrefl _)

theorem step_spec {i : Input} (hintime : w.InTime kind i)
    (hs : step env did kind w i = some w') :
    RollbackInv kind w' ∧
      ∀ v, Covers (w.cache.baseline kind) v → Covers (w'.cache.baseline kind) v := by
  have hmoves : ∀ {n : Nat}, Moves kind n w w' → RollbackInv kind w' ∧
      ∀ v, Covers (w.cache.baseline kind) v → Covers (w'.cache.baseline kind) v :=
    fun hm => ⟨h.moves hm, hm.rises⟩
  rcases i with adapter | ⟨n, outcome, writable⟩ | ⟨n, didResolver, writable⟩ | ⟨n, writable⟩ |
    ⟨n, importAttestation⟩
  · cases hs
    exact ⟨h.resolve adapter, fun v hv => hv⟩
  all_goals
    unfold step at hs
    dsimp only at hs
    rcases hr : w.resolves[n]? with _ | r
    · simp [hr] at hs
    rw [hr] at hs
    dsimp only at hs
    split at hs <;> try cases hs
  · exact hmoves (moves_onFetched h outcome)
  · exact hmoves (moves_onVerified h)
  · next jws payload lastSeenVersion hstage =>
    exact hmoves (moves_onBaselineRead h hr hstage hintime)
  · next guarded lastSeenVersion hstage => exact hmoves (moves_onRecognized h hr hstage)
  · next jws payload hstage => exact hmoves (moves_onDerived h hr hstage)

end

/-- **Rollback protection.**  In a run in which every resolve that passed the check would still
    pass it when it writes, no resolve that starts after a version was returned returns a lower
    one, and no step lowers the baseline. -/
theorem resolves_never_roll_back {cache : LocalProfileVersionCache}
    (h : Reaches (step env did kind) (InTime kind) (start cache) w) :
    Monotone w.history ∧ ∀ i w', w.InTime kind i → step env did kind w i = some w' →
      ∀ v, Covers (w.cache.baseline kind) v → Covers (w'.cache.baseline kind) v := by
  have hstart : RollbackInv kind (start cache) := by
    refine ⟨monotone_nil, ?_, ?_, ?_⟩
    · rintro v ⟨k, hk⟩
      cases hk
    · intro a guarded hguarded
      cases hguarded
    · intro n r hr
      cases hr
  have hinv := h.invariant hstart fun s i s' hs hi hstep => (step_spec hs hi hstep).1
  exact ⟨hinv.monotone, fun i w' hi hs => (step_spec hinv hi hs).2⟩

end

/-- A list of attestations of `did:key:zA`, signed by its key. -/
def listJws (version : Nat) : DecodedJws JsonValue :=
  ⟨some ⟨some "EdDSA", some "did:key:zA#sig-0"⟩,
    .object [("did", .text "did:key:zA"), ("version", .number version),
      ("attestations", .array []), ("updatedAt", .text "2026-01-01T00:00:00Z")], [], []⟩

def twoVersions : ResourceEnvironment where
  decodeJws jws :=
    if jws = "v1" then .ok (listJws 1)
    else if jws = "v2" then .ok (listJws 2)
    else .error "Invalid JWS compact serialization"
  ed25519MultibaseToPublicKeyBytes _ := .ok []
  verifyEd25519 _ _ _ := true

def keyOfA : DidResolver := fun did =>
  .ok (if did = "did:key:zA" then
    some (.object [("id", .text did),
      ("verificationMethod", .array [.object [("id", .text "#sig-0"),
        ("type", .text "Ed25519VerificationKey2020"), ("controller", .text did),
        ("publicKeyMultibase", .text "zA")]]),
      ("authentication", .array [.text "#sig-0"]), ("assertionMethod", .array [.text "#sig-0"]),
      ("keyAgreement", .array [])])
    else none)

/-- The steps of resolve `n` from the response on. -/
def finish (n : Nat) (jws : String) : List Input :=
  [.fetched n (.answered 200 jws) true, .verified n keyOfA true, .baselineRead n true,
    .derived n fun _ => .error "Invalid attestation format"]

def emptyCache : LocalProfileVersionCache := ⟨true, none, none, none, none, none⟩

/-- The newer resolve reads the baseline first and writes last; version 2 is then served again
    from the bytes that are remembered. -/
theorem resolves_never_roll_back_overlapping :
    ∃ w, Reaches (step twoVersions "did:key:zA" .attestations) (InTime .attestations)
        (start emptyCache) w ∧
      w.history = [.started 0, .started 1, .returned 1 1, .returned 0 2, .started 2,
        .returned 2 2] ∧ Monotone w.history ∧
      ∀ i w', w.InTime .attestations i → step twoVersions "did:key:zA" .attestations w i = some w' →
        ∀ v, Covers (w.cache.baseline .attestations) v →
          Covers (w'.cache.baseline .attestations) v := by
  obtain ⟨w, hreach, htest⟩ := Reaches.of_exec
    (step twoVersions "did:key:zA" .attestations) (InTime .attestations) (start emptyCache)
    (List.flatten
      [[.resolve 0, .resolve 1, .fetched 0 (.answered 200 "v2") true, .verified 0 keyOfA true],
        finish 1 "v1", [.baselineRead 0 true, .derived 0 fun _ => .error "Invalid attestation format",
          .resolve 0, .fetched 2 (.answered 200 "v2") true, .baselineRead 2 true]])
    (fun w => decide (w.history = [.started 0, .started 1, .returned 1 1, .returned 0 2,
      .started 2, .returned 2 2]))
    (by decide +kernel)
  exact ⟨w, hreach, of_decide_eq_true htest, resolves_never_roll_back hreach⟩

/-- The older of two overlapping resolves writes last, and version 1 is returned to a resolve
    that started after version 2 was returned. -/
theorem baseline_moves_back :
    ¬ ∀ (env : ResourceEnvironment) (did : Did) (kind : ProfileServiceResourceKind)
      (cache : LocalProfileVersionCache) (w : ResolveSystem),
      Reaches (step env did kind) (fun _ _ => True) (start cache) w →
      Monotone w.history := by
  obtain ⟨w, hreach, htest⟩ := Reaches.of_exec
    (step twoVersions "did:key:zA" .attestations) (fun _ _ => True) (start emptyCache)
    (List.flatten
      [[.resolve 0, .resolve 1, .fetched 1 (.answered 200 "v1") true, .verified 1 keyOfA true],
        finish 0 "v2", [.baselineRead 1 true, .resolve 1], finish 2 "v1"])
    (fun w => decide (w.history = [.started 0, .started 1, .returned 0 2, .started 2,
      .returned 2 1]))
    (by decide +kernel)
  intro h
  have hmonotone := h _ _ _ _ w hreach
  rw [of_decide_eq_true htest] at hmonotone
  have hle : 2 ≤ 1 := hmonotone 0 2 2 1 (by decide)
  omega

end ResolveSystem

end WebOfTrust
