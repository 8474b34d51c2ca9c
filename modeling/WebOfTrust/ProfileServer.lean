/-
  **The profile server** (`wot-profiles/src/server.ts`, `profile-store.ts`).

  A PUT reads its body, verifies it, and then compares and stores without waiting in between.
  So each resource is a register that only signed and strictly newer values get into, however
  the handlers interleave (`monotone_signed_register`).  A row from before the version column
  has its version in its JWS only, and counts with that.
-/
import WebOfTrust.ProfileResource

namespace WebOfTrust

/-! ## 1. The store -/

structure StoredProfile where
  did : Did
  jws : String
  updatedAt : String
  /-- `null` in a row from before the column existed. -/
  version : Option Int

/-- The tables `profiles`, `verifications` and `attestations`, with the DID as key. -/
structure ProfileStore where
  table : ProfileServiceResourceKind → KeyedTable StoredProfile.did

namespace ProfileStore

def fresh : ProfileStore := ⟨fun _ => .empty⟩

def putResource (s : ProfileStore) (kind : ProfileServiceResourceKind) (did : Did) (jws : String)
    (now : String) (version : Nat) : ProfileStore :=
  ⟨Function.update s.table kind ((s.table kind).put ⟨did, jws, now, some version⟩)⟩

def getResource (s : ProfileStore) (kind : ProfileServiceResourceKind) (did : Did) :
    Option StoredProfile :=
  (s.table kind).get? did

end ProfileStore

/-! ## 2. Verification on the server -/

structure ServerEnvironment extends ResourceEnvironment where
  ed25519PublicKeyToMultibase : Bytes → String

section

variable (env : ServerEnvironment)

def bareDidKeyDocument (did : Did) (publicKeyMultibase : String) : JsonValue :=
  .object [("id", .text did), ("verificationMethod", .array [.object [("id", .text "#sig-0"),
      ("type", .text "Ed25519VerificationKey2020"), ("controller", .text did),
      ("publicKeyMultibase", .text publicKeyMultibase)]]),
    ("authentication", .array [.text "#sig-0"]), ("assertionMethod", .array [.text "#sig-0"]),
    ("keyAgreement", .array [])]

/-- `createDidKeyResolver()`; whatever is no proper `did:key` has no document. -/
def didKeyResolver : DidResolver := fun did =>
  if "did:key:z".toList.isPrefixOf did.toList ∧ '#' ∉ did.toList then
    match env.ed25519MultibaseToPublicKeyBytes (String.ofList (did.toList.drop 8)) with
    | .ok publicKey =>
      .ok (some (bareDidKeyDocument did (env.ed25519PublicKeyToMultibase publicKey)))
    | .error _ => .ok none
  else .ok none

def extractJwsPayload (jws : String) : Option JsonRecord :=
  match env.decodeJws jws with
  | .ok ⟨_, .object fields, _, _⟩ => some fields
  | _ => none

def extractVersionFromStoredJws (jws : String) : Option Nat :=
  (extractJwsPayload env jws).bind fun payload => safeVersion (payload.lookup "version")

def storedVersion (stored : StoredProfile) : Option Nat :=
  match stored.version with
  | some version =>
    if 0 ≤ version ∧ version ≤ MAX_SAFE_INTEGER then some version.toNat
    else extractVersionFromStoredJws env stored.jws
  | none => extractVersionFromStoredJws env stored.jws

end

/-! ## 3. Handlers side by side -/

inductive ServerResponse where
  | text (status : Nat) (body : String)
  | jws (body : String)
  /-- 409, with the version in the body. -/
  | versionConflict (version : Nat)
deriving DecidableEq

inductive HandlerStage where
  | readingBody
  | verifying (body : String)
  | answered (response : ServerResponse)
  /-- The request broke off. -/
  | broken
deriving DecidableEq

structure Handler where
  did : Did
  kind : ProfileServiceResourceKind
  stage : HandlerStage

structure ProfileServer where
  store : ProfileStore
  handlers : List Handler

open Handler

namespace ProfileServer

def start (store : ProfileStore) : ProfileServer := ⟨store, []⟩

inductive Input where
  | get (did : Did) (kind : ProfileServiceResourceKind)
  | put (did : Did) (kind : ProfileServiceResourceKind)
  | body (n : Nat) (body : Except String String)
  | verified (n : Nat) (now : String)
deriving DecidableEq

section

variable (env : ServerEnvironment)

def handleGet (s : ProfileStore) (did : Did) (kind : ProfileServiceResourceKind) : ServerResponse :=
  match s.getResource kind did with
  | some stored => .jws stored.jws
  | none => .text 404 "Not Found"

def checkBody (did : Did) (body : String) : HandlerStage :=
  if body.isEmpty then .answered (.text 400 "Empty body")
  else
    match (extractJwsPayload env body).bind fun payload => payload.lookup "did" with
    | some (.text payloadDid) =>
      if payloadDid ≠ did then
        .answered (.text 403 "DID mismatch: payload DID does not match URL DID")
      else .verifying body
    | _ => .verifying body

def onBody (did : Did) : Except String String → HandlerStage
  | .ok body => checkBody env did body
  | .error _ => .broken

def compareAndStore (s : ProfileStore) (did : Did) (kind : ProfileServiceResourceKind)
    (body now : String) : ServerResponse × ProfileStore :=
  match verifyProfileServiceResourceJws env.toResourceEnvironment (didKeyResolver env) body did
      kind with
  | .error message => (.text 400 ("Invalid profile resource: " ++ message), s)
  | .ok payload =>
    match decideProfileResourcePutAcceptance payload.version
        ((s.getResource kind did).bind (storedVersion env)) with
    | .conflict version => (.versionConflict version, s)
    | .accept => (.text 200 "OK", s.putResource kind did body now payload.version)

def step (w : ProfileServer) : Input → Option ProfileServer
  | .get did kind =>
    some { w with handlers := w.handlers ++ [⟨did, kind, .answered (handleGet w.store did kind)⟩] }
  | .put did kind => some { w with handlers := w.handlers ++ [⟨did, kind, .readingBody⟩] }
  | .body n body =>
    match w.handlers[n]? with
    | some ⟨did, kind, .readingBody⟩ =>
      some { w with handlers := w.handlers.set n ⟨did, kind, onBody env did body⟩ }
    | _ => none
  | .verified n now =>
    match w.handlers[n]? with
    | some ⟨did, kind, .verifying body⟩ =>
      let (response, store) := compareAndStore env w.store did kind body now
      some ⟨store, w.handlers.set n ⟨did, kind, .answered response⟩⟩
    | _ => none

end

/-! ## 4. A register of signed versions -/

section

variable (env : ServerEnvironment)

def version (w : ProfileServer) (kind : ProfileServiceResourceKind) (did : Did) : Option Nat :=
  (w.store.getResource kind did).bind (storedVersion env)

/-- The row verifies for its DID and kind, and counts with the version inside its JWS. -/
def Signed (did : Did) (kind : ProfileServiceResourceKind) (stored : StoredProfile) : Prop :=
  ∃ payload, Genuine env.toResourceEnvironment (didKeyResolver env) stored.jws did kind payload ∧
    verifyProfileServiceResourceJws env.toResourceEnvironment (didKeyResolver env) stored.jws did
      kind = .ok payload ∧
    storedVersion env stored = some payload.version ∧
    extractVersionFromStoredJws env stored.jws = some payload.version

/-- In the step from `w` to `w'`, the PUT of handler `n` is answered. -/
def Answers (w w' : ProfileServer) (n : Nat) (h : Handler) (response : ServerResponse) : Prop :=
  w.handlers[n]? = some h ∧ (∀ earlier, h.stage ≠ .answered earlier) ∧
    w'.handlers[n]? = some { h with stage := .answered response }

/-- What a step does to the register: an accepted PUT raises the version of its resource and
    leaves the others alone, a conflict reports the version as it is, and whatever is no
    accepted PUT changes nothing. -/
structure RegisterStep (w w' : ProfileServer) : Prop where
  accepted : ∀ n h, Answers w w' n h (.text 200 "OK") →
    ∃ v, w'.version env h.kind h.did = some v ∧ ∀ v₀ ∈ w.version env h.kind h.did, v₀ < v
  others : ∀ n h, Answers w w' n h (.text 200 "OK") → ∀ kind did, (kind, did) ≠ (h.kind, h.did) →
    w'.store.getResource kind did = w.store.getResource kind did
  conflict : ∀ n h v, Answers w w' n h (.versionConflict v) → w.version env h.kind h.did = some v
  rejected : (∀ n h, ¬ Answers w w' n h (.text 200 "OK")) → w'.store = w.store

end

section

variable {env : ServerEnvironment} {w w' : ProfileServer} {did : Did}
  {kind : ProfileServiceResourceKind} {payload : ProfileServiceResourcePayload}

theorem safeVersion_le {value : Option JsonValue} {version : Nat}
    (h : safeVersion value = some version) : version ≤ MAX_SAFE_INTEGER := by
  unfold safeVersion at h
  split at h
  · split at h
    · next hsafe =>
      cases h
      omega
    · cases h
  · cases h

/-- What verifies has its version where `extractVersionFromStoredJws` looks for it. -/
theorem extractVersionFromStoredJws_of_genuine {jws : String}
    (h : Genuine env.toResourceEnvironment (didKeyResolver env) jws did kind payload) :
    extractVersionFromStoredJws env jws = some payload.version ∧
      payload.version ≤ MAX_SAFE_INTEGER := by
  obtain ⟨⟨header, json, signingInput, signature⟩, kid, publicKey, hdecoded, hdescribes, -⟩ := h
  obtain ⟨fields, hjson, -, hversion⟩ := hdescribes.fields
  dsimp only at hjson
  subst hjson
  refine ⟨?_, safeVersion_le hversion⟩
  simp [extractVersionFromStoredJws, extractJwsPayload, hdecoded, hversion]

theorem storedVersion_of_column {stored : StoredProfile} {version : Nat}
    (h : stored.version = some (version : Int)) (hle : version ≤ MAX_SAFE_INTEGER) :
    storedVersion env stored = some version := by
  unfold storedVersion
  rw [h]
  simp [hle]

theorem getResource_putResource (s : ProfileStore) (kind kind' : ProfileServiceResourceKind)
    (did did' : Did) (jws now : String) (version : Nat) :
    (s.putResource kind did jws now version).getResource kind' did' =
      if (kind', did') = (kind, did) then some ⟨did, jws, now, some version⟩
      else s.getResource kind' did' := by
  unfold ProfileStore.putResource ProfileStore.getResource
  dsimp only
  by_cases hkind : kind' = kind
  · subst hkind
    rw [Function.update_self, KeyedTable.get?_put]
    by_cases hdid : did' = did
    · subst hdid
      simp
    · have hne : ¬ did = did' := fun h => hdid h.symm
      simp [hdid, hne]
  · rw [Function.update_of_ne hkind]
    simp [hkind]

theorem compareAndStore_spec (s : ProfileStore) (did : Did) (kind : ProfileServiceResourceKind)
    (body now : String) :
    (∃ message, compareAndStore env s did kind body now =
        (.text 400 ("Invalid profile resource: " ++ message), s)) ∨
    (∃ version, (s.getResource kind did).bind (storedVersion env) = some version ∧
      compareAndStore env s did kind body now = (.versionConflict version, s)) ∨
    ∃ payload,
      verifyProfileServiceResourceJws env.toResourceEnvironment (didKeyResolver env) body did kind =
        .ok payload ∧
      (∀ v₀ ∈ (s.getResource kind did).bind (storedVersion env), v₀ < payload.version) ∧
      compareAndStore env s did kind body now =
        (.text 200 "OK", s.putResource kind did body now payload.version) := by
  unfold compareAndStore
  rcases hverify : verifyProfileServiceResourceJws env.toResourceEnvironment (didKeyResolver env)
    body did kind with message | payload
  · exact .inl ⟨message, rfl⟩
  dsimp only
  rcases hdecide : decideProfileResourcePutAcceptance payload.version
    ((s.getResource kind did).bind (storedVersion env)) with _ | version
  · exact .inr (.inr ⟨payload, rfl, accept_iff.mp hdecide, rfl⟩)
  · exact .inr (.inl ⟨version, (conflict_iff.mp hdecide).1, rfl⟩)

theorem signed_of_stored {body now : String}
    (hverifies : verifyProfileServiceResourceJws env.toResourceEnvironment (didKeyResolver env)
      body did kind = .ok payload) : Signed env did kind ⟨did, body, now, some payload.version⟩ ∧
      storedVersion env ⟨did, body, now, some payload.version⟩ = some payload.version := by
  have hgenuine := verifyProfileServiceResourceJws_ok hverifies
  obtain ⟨hversion, hle⟩ := extractVersionFromStoredJws_of_genuine hgenuine
  have hcolumn : storedVersion env ⟨did, body, now, some payload.version⟩ = some payload.version :=
    storedVersion_of_column rfl hle
  exact ⟨⟨payload, hgenuine, hverifies, hcolumn, hversion⟩, hcolumn⟩

theorem registerStep_of_store_eq (hstore : w'.store = w.store)
    (hquiet : ∀ n h response, Answers w w' n h response →
      response ≠ .text 200 "OK" ∧ ∀ v, response ≠ .versionConflict v) : RegisterStep env w w' where
  accepted n h hanswers := absurd rfl (hquiet n h _ hanswers).1
  others n h hanswers := absurd rfl (hquiet n h _ hanswers).1
  conflict n h v hanswers := absurd rfl ((hquiet n h _ hanswers).2 v)
  rejected _ := hstore

theorem answers_set {n m : Nat} {h h' h₀ : Handler} {response : ServerResponse}
    {store : ProfileStore} (hn : w.handlers[n]? = some h)
    (hanswers : Answers w ⟨store, w.handlers.set n h'⟩ m h₀ response) :
    m = n ∧ h₀ = h ∧ h' = { h with stage := .answered response } := by
  obtain ⟨hm, hpending, hm'⟩ := hanswers
  rcases Machine.getElem?_set_cases hm' with ⟨rfl, heq⟩ | ⟨-, hold⟩
  · rw [hn] at hm
    cases hm
    exact ⟨rfl, rfl, heq.symm⟩
  · rw [hm] at hold
    exact absurd (congrArg stage (Option.some.inj hold)) (hpending response)

theorem onBody_answered {body : Except String String} {response : ServerResponse}
    (h : onBody env did body = .answered response) :
    response ≠ .text 200 "OK" ∧ ∀ v, response ≠ .versionConflict v := by
  rcases body with message | body
  · cases h
  simp only [onBody, checkBody] at h
  split at h
  · cases h
    exact ⟨by simp, fun v => nofun⟩
  split at h
  · split at h
    · cases h
      exact ⟨by simp, fun v => nofun⟩
    · cases h
  · cases h

theorem step_spec {i : Input} (hs : step env w i = some w') :
    RegisterStep env w w' ∧ ∀ kind did stored, w'.store.getResource kind did = some stored →
      w.store.getResource kind did = some stored ∨ Signed env did kind stored := by
  rcases i with ⟨did, kind⟩ | ⟨did, kind⟩ | ⟨n, body⟩ | ⟨n, now⟩
  iterate 2
    cases hs
    refine ⟨registerStep_of_store_eq rfl ?_, fun kind did stored hstored => .inl hstored⟩
    rintro m h response ⟨hm, hpending, hm'⟩
    rw [List.getElem?_append_left (List.getElem?_eq_some_iff.mp hm).1, hm] at hm'
    exact absurd (congrArg stage (Option.some.inj hm')) (hpending response)
  · simp only [step] at hs
    split at hs
    · next did kind hn =>
      cases hs
      refine ⟨registerStep_of_store_eq rfl ?_, fun kind did stored hstored => .inl hstored⟩
      intro m h response hanswers
      obtain ⟨-, -, hstage⟩ := answers_set hn hanswers
      exact onBody_answered (congrArg stage hstage)
    · cases hs
  · simp only [step] at hs
    split at hs
    · next did kind body hn =>
      rcases @compareAndStore_spec env w.store did kind body now with
        ⟨message, hresult⟩ | ⟨version, hversion, hresult⟩ | ⟨payload, hverifies, hlt, hresult⟩
      · rw [hresult] at hs
        cases hs
        refine ⟨registerStep_of_store_eq rfl ?_, fun kind did stored hstored => .inl hstored⟩
        intro m h response hanswers
        obtain ⟨-, -, hstage⟩ := answers_set hn hanswers
        cases hstage
        exact ⟨by simp, fun v => nofun⟩
      · rw [hresult] at hs
        cases hs
        refine ⟨⟨fun m h hanswers => ?_, fun m h hanswers => ?_, fun m h v hanswers => ?_,
          fun _ => rfl⟩, fun kind did stored hstored => .inl hstored⟩
        · obtain ⟨-, -, hstage⟩ := answers_set hn hanswers
          cases hstage
        · obtain ⟨-, -, hstage⟩ := answers_set hn hanswers
          cases hstage
        obtain ⟨-, rfl, hstage⟩ := answers_set hn hanswers
        cases hstage
        exact hversion
      · rw [hresult] at hs
        cases hs
        obtain ⟨hsigned, hcolumn⟩ := @signed_of_stored env did kind payload body now hverifies
        refine ⟨⟨fun m h hanswers => ?_, fun m h hanswers => ?_, fun m h v hanswers => ?_,
          fun hnone => ?_⟩, fun kind' did' stored hstored => ?_⟩
        · obtain ⟨-, rfl, -⟩ := answers_set hn hanswers
          refine ⟨payload.version, ?_, hlt⟩
          simp [version, getResource_putResource, hcolumn]
        · obtain ⟨-, rfl, -⟩ := answers_set hn hanswers
          intro kind' did' hne
          rw [getResource_putResource, if_neg hne]
        · obtain ⟨-, -, hstage⟩ := answers_set hn hanswers
          cases hstage
        · refine absurd ⟨hn, fun earlier => nofun, ?_⟩ (hnone n ⟨did, kind, .verifying body⟩)
          exact List.getElem?_set_self (List.getElem?_eq_some_iff.mp hn).1
        · rw [getResource_putResource] at hstored
          split at hstored
          · next heq =>
            cases heq
            cases hstored
            exact .inr hsigned
          · exact .inl hstored
    · cases hs

/-- **A monotone signed register.**  In every run, whatever the database held at the start: a
    row is one of the start that no PUT has replaced, or it verifies and counts with the
    version inside its JWS; and every step is a step of the register. -/
theorem monotone_signed_register {store : ProfileStore}
    (h : Machine.Reaches (step env) (fun _ _ => True) (start store) w) :
    (∀ kind did stored, w.store.getResource kind did = some stored →
      store.getResource kind did = some stored ∨ Signed env did kind stored) ∧
    ∀ i w', step env w i = some w' → RegisterStep env w w' := by
  refine ⟨?_, fun i w' hs => (step_spec hs).1⟩
  apply h.invariant (P := fun w => ∀ kind did stored, w.store.getResource kind did = some stored →
    store.getResource kind did = some stored ∨ Signed env did kind stored)
  · exact fun kind did stored hstored => .inl hstored
  intro s i s' hs _ hstep kind did stored hstored
  rcases (step_spec hstep).2 kind did stored hstored with hold | hsigned
  · exact hs kind did stored hold
  · exact .inr hsigned

theorem version_step {i : Input} {v : Nat} (hs : step env w i = some w')
    (hv : w.version env kind did = some v) : ∃ v', w'.version env kind did = some v' ∧ v ≤ v' := by
  obtain ⟨haccepted, hothers, -, hrejected⟩ := (step_spec hs).1
  have same (heq : w'.store.getResource kind did = w.store.getResource kind did) :
      ∃ v', w'.version env kind did = some v' ∧ v ≤ v' := by
    refine ⟨v, ?_, Nat.le_refl v⟩
    rw [version, heq]
    exact hv
  by_cases hput : ∃ n h, Answers w w' n h (.text 200 "OK")
  · obtain ⟨n, h, hanswers⟩ := hput
    by_cases hsame : (kind, did) = (h.kind, h.did)
    · cases hsame
      obtain ⟨v', hv', hlt⟩ := haccepted n h hanswers
      exact ⟨v', hv', Nat.le_of_lt (hlt v hv)⟩
    · exact same (hothers n h hanswers kind did hsame)
  · exact same (by rw [hrejected fun n h hanswers => hput ⟨n, h, hanswers⟩])

/-- **No stale read.**  Behind an accepted PUT, whatever other handlers do, a GET is answered
    with a resource that its DID has signed, of the version that was put or a later one. -/
theorem get_after_put {n : Nat} {body now : String} {w'' : ProfileServer}
    (hn : w.handlers[n]? = some ⟨did, kind, .verifying body⟩)
    (hs : step env w (.verified n now) = some w')
    (hok : w'.handlers[n]? = some ⟨did, kind, .answered (.text 200 "OK")⟩)
    (h : Machine.Reaches (step env) (fun _ _ => True) w' w'') :
    ∃ v jws payload, extractVersionFromStoredJws env body = some v ∧
      handleGet w''.store did kind = .jws jws ∧
      Genuine env.toResourceEnvironment (didKeyResolver env) jws did kind payload ∧
      v ≤ payload.version := by
  have hlt := (List.getElem?_eq_some_iff.mp hn).1
  simp only [step, hn, Option.some.injEq] at hs
  subst hs
  simp only [List.getElem?_set_self hlt, Option.some.injEq, Handler.mk.injEq, true_and,
    HandlerStage.answered.injEq] at hok
  rcases @compareAndStore_spec env w.store did kind body now with
    ⟨message, hresult⟩ | ⟨version, -, hresult⟩ | ⟨payload, hverifies, -, hresult⟩
  · simp [hresult] at hok
  · simp [hresult] at hok
  rw [hresult] at h
  obtain ⟨hsigned, hcolumn⟩ := @signed_of_stored env did kind payload body now hverifies
  obtain ⟨⟨v', hv', hle⟩, hrows⟩ := h.invariant (P := fun w =>
      (∃ v', w.version env kind did = some v' ∧ payload.version ≤ v') ∧
      ∀ stored, w.store.getResource kind did = some stored → Signed env did kind stored)
    (by simp [version, getResource_putResource, hcolumn, hsigned]) (by
      rintro s i s' ⟨⟨v', hv', hle⟩, hrows⟩ - hstep
      obtain ⟨v'', hv'', hle'⟩ := version_step hstep hv'
      refine ⟨⟨v'', hv'', Nat.le_trans hle hle'⟩, fun stored hstored => ?_⟩
      exact ((step_spec hstep).2 kind did stored hstored).elim (hrows stored) id)
  obtain ⟨stored, hstored, hversion⟩ := Option.bind_eq_some_iff.mp hv'
  obtain ⟨payload', hgenuine, -, hcolumn', -⟩ := hrows stored hstored
  rw [hversion, Option.some.injEq] at hcolumn'
  refine ⟨payload.version, stored.jws, payload', ?_, by rw [handleGet, hstored], hgenuine,
    hcolumn' ▸ hle⟩
  exact (extractVersionFromStoredJws_of_genuine (verifyProfileServiceResourceJws_ok hverifies)).1

end

/-- A server that knows three versions of the attestations of `did:key:zA`. -/
def threeVersions : ServerEnvironment where
  decodeJws jws :=
    if jws ∈ ["v1", "v2", "v3"] then
      .ok ⟨some ⟨some "EdDSA", some "did:key:zA#sig-0"⟩, .object [("did", .text "did:key:zA"),
          ("version", .number (if jws = "v1" then 1 else if jws = "v2" then 2 else 3)),
          ("attestations", .array []), ("updatedAt", .text "2026-01-01T00:00:00Z")], [], []⟩
    else .error "Invalid JWS compact serialization"
  ed25519MultibaseToPublicKeyBytes _ := .ok (List.replicate 32 0)
  verifyEd25519 _ _ _ := true
  ed25519PublicKeyToMultibase _ := "zA"

def legacyStore : ProfileStore :=
  ⟨fun _ => KeyedTable.empty.put ⟨"did:key:zA", "v2", "2026-01-01T00:00:00Z", none⟩⟩

/-- Version 3 is accepted over the legacy row; versions 1 and 2, whose handlers began earlier,
    are in conflict with what is stored by then. -/
theorem monotone_signed_register_legacy :
    ∃ w, Machine.Reaches (step threeVersions) (fun _ _ => True) (start legacyStore) w ∧
      w.handlers.map stage = [.answered (.versionConflict 2), .answered (.versionConflict 3),
        .answered (.text 200 "OK"), .answered (.jws "v3")] ∧
      (∀ kind did stored, w.store.getResource kind did = some stored →
        legacyStore.getResource kind did = some stored ∨ Signed threeVersions did kind stored) ∧
      ∀ i w', step threeVersions w i = some w' → RegisterStep threeVersions w w' := by
  obtain ⟨w, hreach, htest⟩ := Machine.Reaches.of_exec (step threeVersions) (fun _ _ => True)
    (start legacyStore)
    [.put "did:key:zA" .attestations, .put "did:key:zA" .attestations,
      .put "did:key:zA" .attestations, .body 0 (.ok "v1"), .body 1 (.ok "v2"), .body 2 (.ok "v3"),
      .verified 0 "now", .verified 2 "now", .verified 1 "now", .get "did:key:zA" .attestations]
    (fun w => decide (w.handlers.map stage = [.answered (.versionConflict 2),
      .answered (.versionConflict 3), .answered (.text 200 "OK"), .answered (.jws "v3")]))
    (by decide +kernel)
  exact ⟨w, hreach, of_decide_eq_true htest, monotone_signed_register hreach⟩

/-- Three PUTs are at their check, and the first is accepted with version 2. -/
def threePuts (store : ProfileStore) (first : HandlerStage) : ProfileServer :=
  ⟨store, [first, .verifying "v3", .verifying "v1"].map fun stage =>
    ⟨"did:key:zA", .attestations, stage⟩⟩

/-- Behind it the second one is accepted with version 3, and the third one is in conflict. -/
theorem get_after_put_three : ∃ (w : ProfileServer) (v : Nat) (jws : String) (payload : _),
    w.handlers.map stage = [.answered (.text 200 "OK"), .answered (.text 200 "OK"),
      .answered (.versionConflict 3)] ∧
    extractVersionFromStoredJws threeVersions "v2" = some v ∧
      handleGet w.store "did:key:zA" .attestations = .jws jws ∧
      Genuine threeVersions.toResourceEnvironment (didKeyResolver threeVersions) jws "did:key:zA"
        .attestations payload ∧ v ≤ payload.version := by
  obtain ⟨w, hreach, htest⟩ := Machine.Reaches.of_exec (step threeVersions) (fun _ _ => True)
    (threePuts (ProfileStore.putResource ⟨fun _ => .empty⟩ .attestations "did:key:zA" "v2" "now" 2)
      (.answered (.text 200 "OK")))
    [.verified 1 "now", .verified 2 "now"]
    (fun w => decide (w.handlers.map stage = [.answered (.text 200 "OK"),
      .answered (.text 200 "OK"), .answered (.versionConflict 3)]))
    (by decide +kernel)
  have hread := get_after_put (w := threePuts ⟨fun _ => .empty⟩ (.verifying "v2")) (n := 0)
    rfl rfl rfl hreach
  obtain ⟨v, jws, payload, hv, hget, hgenuine, hle⟩ := hread
  exact ⟨w, v, jws, payload, of_decide_eq_true htest, hv, hget, hgenuine, hle⟩

end ProfileServer

end WebOfTrust
