/-
  **Activations that are cut off** (`group-key-workflow.ts`: `commitStagedRotation`,
  `createDeterministicSpaceKey`).

  A generation is written down in three steps: its content key, its capability key pair and
  the own capability.  Whoever is cut off in between is run again with the same material,
  and finds out from what is stored how far it has come.
-/
import WebOfTrust.AsyncSolo
import WebOfTrust.GroupKeys
import Mathlib.Order.MinMax
import Mathlib.Order.Nat

namespace WebOfTrust

open Async KeyedTable

/-! ## 1. The writes of a generation -/

namespace KeyStore

variable {s s' : KeyStore} {slot : KeySlot} {key : Bytes}

theorem withValidGeneration_ok_iff {α : Type} {generation : Nat} {r : Except String α} {a : α} :
    withValidGeneration generation r = .ok a ↔ generation ≤ maxSafeInteger ∧ r = .ok a := by
  rw [withValidGeneration]
  split_ifs with h
  · simp [h.not_ge]
  · simp [not_lt.mp h]

theorem saveKey_ok_iff : s.saveKey slot key = .ok s' ↔ slot.2 ≤ maxSafeInteger ∧ key.length = 32 ∧
      { s with contentKeys := s.contentKeys.put ⟨slot, key⟩ } = s' := by
  rw [saveKey, withValidGeneration_ok_iff]
  by_cases hlen : key.length = 32 <;> simp [hlen]

theorem saveCapabilityKeyPair_ok_iff {seed vk : Bytes} :
    s.saveCapabilityKeyPair slot seed vk = .ok s' ↔
      slot.2 ≤ maxSafeInteger ∧ seed.length = 32 ∧ vk.length = 32 ∧
        { s with capKeyPairs := s.capKeyPairs.put ⟨slot, seed, vk⟩ } = s' := by
  rw [saveCapabilityKeyPair, withValidGeneration_ok_iff]
  by_cases hseed : seed.length = 32 <;> by_cases hvk : vk.length = 32 <;> simp [hseed, hvk]

theorem saveOwnCapability_ok_iff {jws : String} :
    s.saveOwnCapability slot jws = .ok s' ↔ slot.2 ≤ maxSafeInteger ∧
      { s with ownCapabilities := s.ownCapabilities.put ⟨slot, jws⟩ } = s' := by
  rw [saveOwnCapability, withValidGeneration_ok_iff]
  simp

theorem le_getCurrentGeneration (h : s.contentKey slot = some key) :
    (slot.2 : Int) ≤ s.getCurrentGeneration slot.1 := by
  by_contra hlt
  rw [contentKey_of_getCurrentGeneration (not_le.mp hlt)] at h
  cases h

theorem neg_one_le_getCurrentGeneration (spaceId : DocId) :
    -1 ≤ s.getCurrentGeneration spaceId := by
  rw [getCurrentGeneration]
  induction s.contentKeys.rows.filter fun r => decide (r.slot.1 = spaceId) with
  | nil => exact le_refl _
  | cons r rest ih => exact ih.trans (le_max_right _ _)

theorem getCurrentGeneration_le_iff {spaceId : DocId} {n : Int} (hn : -1 ≤ n) :
    s.getCurrentGeneration spaceId ≤ n ↔
      ∀ generation key, s.contentKey (spaceId, generation) = some key → (generation : Int) ≤ n := by
  have hfold : ∀ rows : List StoredContentKey,
      rows.foldr (fun r generation => max (r.slot.2 : Int) generation) (-1) ≤ n ↔
        ∀ r ∈ rows, (r.slot.2 : Int) ≤ n := by
    intro rows
    induction rows with
    | nil => simpa using hn
    | cons r rest ih => rw [List.foldr_cons, List.forall_mem_cons, max_le_iff, ih]
  rw [getCurrentGeneration, hfold]
  constructor
  · intro h generation key hkey
    obtain ⟨row, hrow, -⟩ := Option.map_eq_some_iff.mp hkey
    have hslot := key_of_get? hrow
    have hle := h row (List.mem_filter.mpr ⟨mem_of_get? hrow, by simp [hslot]⟩)
    rwa [hslot] at hle
  · intro h row hrow
    obtain ⟨hmem, hspace⟩ := List.mem_filter.mp hrow
    refine h row.slot.2 row.key ?_
    rw [← of_decide_eq_true hspace, contentKey, mem_rows_iff.mp hmem]
    rfl

theorem getCurrentGeneration_saveKey (hcurrent : s.getCurrentGeneration slot.1 ≤ slot.2)
    (h : s.saveKey slot key = .ok s') : s'.getCurrentGeneration slot.1 = slot.2 := by
  apply le_antisymm
  · rw [getCurrentGeneration_le_iff (by omega)]
    intro generation stored hstored
    rw [contentKey_saveKey h] at hstored
    split at hstored
    · next heq => rw [heq]
    · exact (le_getCurrentGeneration hstored).trans hcurrent
  · have hkey : s'.contentKey slot = some key := by rw [contentKey_saveKey h, if_pos rfl]
    exact le_getCurrentGeneration hkey

theorem saveCapabilityKeyPair_again {seed vk : Bytes}
    (h : s.saveCapabilityKeyPair slot seed vk = .ok s') :
    s'.saveCapabilityKeyPair slot seed vk = .ok s' := by
  obtain ⟨hvalid, hseed, hvk, rfl⟩ := saveCapabilityKeyPair_ok_iff.mp h
  have hput := put_of_get? (t := s.capKeyPairs.put ⟨slot, seed, vk⟩)
    (r := ⟨slot, seed, vk⟩) (by rw [get?_put, if_pos rfl])
  refine saveCapabilityKeyPair_ok_iff.mpr ⟨hvalid, hseed, hvk, ?_⟩
  simp only [hput]

theorem getCurrentGeneration_congr (h : s'.contentKeys = s.contentKeys) (spaceId : DocId) :
    s'.getCurrentGeneration spaceId = s.getCurrentGeneration spaceId := by
  rw [getCurrentGeneration, getCurrentGeneration, h]

theorem contentKey_congr (h : s'.contentKeys = s.contentKeys) (slot : KeySlot) :
    s'.contentKey slot = s.contentKey slot := by
  rw [contentKey, contentKey, h]

end KeyStore

/-! ## 2. Programs over the store, run alone -/

section

variable {input : KeyPoint → KeyStore → KeyEnv} {s : KeyStore} {α : Type} {β : Type} {t : KeyPoint}
  {a : α} {f : KeyStore → Except String KeyStore} {P : KeyStore → Prop}

@[simp] theorem outcome_readKeyStore (t : KeyPoint) (f : KeyStore → Except String α) :
    (readKeyStore t f).outcome input s = (f s, s) :=
  outcome_atomic input t _ s

@[simp] theorem outcome_callCrypto (t : KeyPoint) (f : KeyEnv → Except String α) :
    (callCrypto t f).outcome input s = (f (input t s), s) :=
  outcome_atomic input t _ s

theorem outcome_readKeyStore_bind {f : KeyStore → Except String α} {g : α → KeyProgram β}
    (h : f s = .ok a) : ((readKeyStore t f).bind g).outcome input s = (g a).outcome input s := by
  rw [outcome_bind_ok]
  rw [outcome_readKeyStore, h]

theorem leadsTo_readKeyStore {f : KeyStore → Except String α} {g : α → KeyProgram β}
    (h : f s = .ok a) : LeadsTo input ((readKeyStore t f).bind g) (g a) s :=
  leadsTo_atomic_bind (by rw [h])

theorem leadsTo_callCrypto {f : KeyEnv → Except String α} {g : α → KeyProgram β}
    (h : f (input t s) = .ok a) : LeadsTo input ((callCrypto t f).bind g) (g a) s :=
  leadsTo_atomic_bind (by rw [h])

theorem outcome_writeKeyStore_ok {s' : KeyStore} (h : f s = .ok s') :
    (writeKeyStore t f).outcome input s = (.ok (), s') := by
  rw [writeKeyStore, outcome_atomic, h]

theorem outcome_writeKeyStore_error {e : String} (h : f s = .error e) :
    (writeKeyStore t f).outcome input s = (.error e, s) := by
  rw [writeKeyStore, outcome_atomic, h]

theorem through_callCrypto (hs : P s) (t : KeyPoint) (f : KeyEnv → Except String α) :
    Through input P (callCrypto t f) s :=
  through_atomic hs hs

theorem through_writeKeyStore (hs : P s) (t : KeyPoint) (hf : ∀ s', f s = .ok s' → P s') :
    Through input P (writeKeyStore t f) s := by
  refine through_atomic hs ?_
  cases h : f s with
  | error e => exact hs
  | ok s' => exact hf s' h

theorem through_writeKeyStore_bind (hs : P s) {g : Unit → KeyProgram β}
    (hg : ∀ s', f s = .ok s' → Through input P (g ()) s') :
    Through input P ((writeKeyStore t f).bind g) s := by
  refine through_bind (through_writeKeyStore hs t fun s' h => (hg s' h).start) ?_
  intro _ s' hwrite
  rcases h : f s with e | s₁
  · rw [outcome_writeKeyStore_error h] at hwrite
    cases hwrite
  rw [outcome_writeKeyStore_ok h] at hwrite
  cases hwrite
  exact hg s' h

end

/-! ## 3. The capability of a generation -/

open KeyStore

namespace GroupKeys

def createdWith (material : StagedRotationMaterial) (ownCapabilityJws : String) :
    CreateSpaceKeyResult where
  contentKey := material.contentKey
  capabilitySigningSeed := material.capabilitySigningSeed
  capabilityVerificationKey := material.capabilityVerificationKey
  ownCapabilityJws := ownCapabilityJws

section

variable (crypto : KeyCrypto) (spaceId : DocId) (ownerDid : Did)
  (material : StagedRotationMaterial) (validityMs : Nat)

/-- `provisionCapabilityForGeneration`, from where the key pair is stored. -/
def provisionOwnCapability : KeyProgram CreateSpaceKeyResult := do
  let ownCapabilityJws ← callCrypto .crypto fun env =>
    crypto.createSpaceCapabilityJws
      { spaceId := spaceId
        audience := ownerDid
        permissions := ["read", "write"]
        generation := material.newGeneration
        issuedAt := env.now
        validUntil := env.now + validityMs }
      material.capabilitySigningSeed
  writeKeyStore (.saveOwnCapability (spaceId, material.newGeneration))
    (·.saveOwnCapability (spaceId, material.newGeneration) ownCapabilityJws)
  pure (createdWith material ownCapabilityJws)

theorem provisionCapabilityForGeneration_eq :
    provisionCapabilityForGeneration crypto spaceId ownerDid material validityMs =
      (writeKeyStore (.saveCapabilityKeyPair (spaceId, material.newGeneration))
        (·.saveCapabilityKeyPair (spaceId, material.newGeneration)
          material.capabilitySigningSeed material.capabilityVerificationKey)).bind fun _ =>
        provisionOwnCapability crypto spaceId ownerDid material validityMs := rfl

variable {crypto spaceId ownerDid material validityMs} {input : KeyPoint → KeyStore → KeyEnv}
  {s s' : KeyStore}

theorem provisionOwnCapability_cases :
    (∃ e, (provisionOwnCapability crypto spaceId ownerDid material validityMs).outcome input s =
      (.error e, s)) ∨
    ∃ jws s', s.saveOwnCapability (spaceId, material.newGeneration) jws = .ok s' ∧
      (provisionOwnCapability crypto spaceId ownerDid material validityMs).outcome input s =
        (.ok (createdWith material jws), s') := by
  rw [provisionOwnCapability, bind_def]
  cases hmint : (callCrypto KeyPoint.crypto fun env =>
      crypto.createSpaceCapabilityJws
        { spaceId := spaceId
          audience := ownerDid
          permissions := ["read", "write"]
          generation := material.newGeneration
          issuedAt := env.now
          validUntil := env.now + validityMs }
        material.capabilitySigningSeed).outcome input s with
  | mk minted s₁ =>
    obtain rfl : s = s₁ := congrArg Prod.snd ((outcome_callCrypto _ _).symm.trans hmint)
    rcases minted with e | jws
    · exact .inl ⟨e, outcome_bind_error hmint⟩
    rw [outcome_bind_ok hmint, bind_def]
    cases hsave : s.saveOwnCapability (spaceId, material.newGeneration) jws with
    | error e => exact .inl ⟨e, outcome_bind_error (outcome_writeKeyStore_error hsave)⟩
    | ok s' =>
      rw [outcome_bind_ok (outcome_writeKeyStore_ok hsave)]
      exact .inr ⟨jws, s', hsave, rfl⟩

theorem through_provisionOwnCapability {P : KeyStore → Prop} (hs : P s)
    (hdone : ∀ r s', (provisionOwnCapability crypto spaceId ownerDid material
      validityMs).outcome input s = (.ok r, s') → P s') :
    Through input P (provisionOwnCapability crypto spaceId ownerDid material validityMs) s := by
  rw [provisionOwnCapability, bind_def] at hdone ⊢
  refine through_bind (through_callCrypto hs _ _) ?_
  intro jws s₁ hmint
  obtain rfl : s = s₁ := congrArg Prod.snd ((outcome_callCrypto _ _).symm.trans hmint)
  rw [outcome_bind_ok hmint] at hdone
  refine through_writeKeyStore_bind hs ?_
  intro s' hsave
  exact hdone _ s' (outcome_bind_ok (outcome_writeKeyStore_ok hsave))

section

variable (h : s.saveCapabilityKeyPair (spaceId, material.newGeneration)
  material.capabilitySigningSeed material.capabilityVerificationKey = .ok s')
include h

theorem outcome_provision_of_saved :
    (provisionCapabilityForGeneration crypto spaceId ownerDid material validityMs).outcome
        input s =
      (provisionOwnCapability crypto spaceId ownerDid material validityMs).outcome input s' := by
  rw [provisionCapabilityForGeneration_eq, outcome_bind_ok (outcome_writeKeyStore_ok h)]

theorem outcome_provision_again :
    (provisionCapabilityForGeneration crypto spaceId ownerDid material validityMs).outcome
        input s' =
      (provisionCapabilityForGeneration crypto spaceId ownerDid material validityMs).outcome
        input s := by
  rw [outcome_provision_of_saved h,
    outcome_provision_of_saved (saveCapabilityKeyPair_again h)]

end

theorem through_provision {P : KeyStore → Prop} (hs : P s)
    (hpair : ∀ s', s.saveCapabilityKeyPair (spaceId, material.newGeneration)
      material.capabilitySigningSeed material.capabilityVerificationKey = .ok s' → P s')
    (hdone : ∀ r s', (provisionCapabilityForGeneration crypto spaceId ownerDid material
      validityMs).outcome input s = (.ok r, s') → P s') :
    Through input P
      (provisionCapabilityForGeneration crypto spaceId ownerDid material validityMs) s := by
  rw [provisionCapabilityForGeneration_eq] at hdone ⊢
  refine through_writeKeyStore_bind hs ?_
  intro s' hsave
  rw [outcome_bind_ok (outcome_writeKeyStore_ok hsave)] at hdone
  exact through_provisionOwnCapability (hpair s' hsave) hdone

/-- Where it succeeds, all of the capability is stored, and no content key is touched. -/
theorem provision_ok {r : CreateSpaceKeyResult}
    (h : (provisionCapabilityForGeneration crypto spaceId ownerDid material validityMs).outcome
      input s = (.ok r, s')) :
    ∃ jws, r = createdWith material jws ∧ s'.contentKeys = s.contentKeys ∧
      s'.capKeyPairs.get? (spaceId, material.newGeneration) =
        some ⟨(spaceId, material.newGeneration), material.capabilitySigningSeed,
          material.capabilityVerificationKey⟩ ∧
      s'.ownCapabilities.get? (spaceId, material.newGeneration) =
        some ⟨(spaceId, material.newGeneration), jws⟩ := by
  cases hsave : s.saveCapabilityKeyPair (spaceId, material.newGeneration)
      material.capabilitySigningSeed material.capabilityVerificationKey with
  | error e =>
    rw [provisionCapabilityForGeneration_eq,
      outcome_bind_error (outcome_writeKeyStore_error hsave)] at h
    cases h
  | ok s₁ =>
    rw [outcome_provision_of_saved hsave] at h
    obtain ⟨-, -, -, rfl⟩ := saveCapabilityKeyPair_ok_iff.mp hsave
    rcases provisionOwnCapability_cases with ⟨e, herror⟩ | ⟨jws, s₂, hown, hok⟩
    · rw [herror] at h
      cases h
    rw [hok] at h
    cases h
    obtain ⟨-, rfl⟩ := saveOwnCapability_ok_iff.mp hown
    refine ⟨jws, rfl, rfl, ?_, ?_⟩
    · rw [get?_put, if_pos rfl]
    · rw [get?_put, if_pos rfl]

end

section

variable {crypto : KeyCrypto} {spaceId : DocId} {ownerDid : Did}
  {material : StagedRotationMaterial} {validityMs : Nat} {divergentKey divergentCapability : String}
  {input : KeyPoint → KeyStore → KeyEnv} {s : KeyStore}

theorem outcome_completeCapabilityChain :
    (completeCapabilityChain crypto spaceId ownerDid material validityMs divergentKey
      divergentCapability).outcome input s =
    if maxSafeInteger < material.newGeneration then
      (.error "Key generation must be a non-negative safe integer", s)
    else if s.contentKey (spaceId, material.newGeneration) ≠ some material.contentKey then
      (.error divergentKey, s)
    else if ((s.capKeyPairs.get? (spaceId, material.newGeneration)).map (·.verificationKey)).any
        fun key => decide (key ≠ material.capabilityVerificationKey) then
      (.error divergentCapability, s)
    else
      match s.capKeyPairs.get? (spaceId, material.newGeneration),
        s.ownCapabilities.get? (spaceId, material.newGeneration) with
      | some _, some own => (.ok (createdWith material own.capabilityJws), s)
      | _, _ => (provisionCapabilityForGeneration crypto spaceId ownerDid material
          validityMs).outcome input s := by
  rw [completeCapabilityChain, bind_def]
  by_cases hvalid : maxSafeInteger < material.newGeneration
  · rw [if_pos hvalid]
    apply outcome_bind_error
    rw [outcome_readKeyStore, getKeyByGeneration, withValidGeneration, if_pos hvalid]
  have hread : ∀ {α : Type} (a : α), withValidGeneration material.newGeneration
      (.ok a) = .ok a := fun a => by rw [withValidGeneration, if_neg hvalid]
  rw [if_neg hvalid, outcome_readKeyStore_bind (hread _)]
  split_ifs with hkey hpair
  · rfl
  · rw [bind_def, outcome_readKeyStore_bind (hread _), if_pos hpair]
    rfl
  rw [bind_def, outcome_readKeyStore_bind (hread _), if_neg hpair, bind_def,
    outcome_readKeyStore_bind (f := (·.getOwnCapability _)) rfl]
  cases s.capKeyPairs.get? (spaceId, material.newGeneration) with
  | none => rfl
  | some pair =>
    cases s.ownCapabilities.get? (spaceId, material.newGeneration) with
    | none | some own => rfl

theorem completeCapabilityChain_foreign (h : maxSafeInteger < material.newGeneration ∨
      s.contentKey (spaceId, material.newGeneration) ≠ some material.contentKey ∨
      ∃ pair, s.capKeyPairs.get? (spaceId, material.newGeneration) = some pair ∧
        pair.verificationKey ≠ material.capabilityVerificationKey) :
    ∃ e, (completeCapabilityChain crypto spaceId ownerDid material validityMs divergentKey
      divergentCapability).outcome input s = (.error e, s) := by
  rw [outcome_completeCapabilityChain]
  split_ifs with hvalid hkey hpair
  · exact ⟨_, rfl⟩
  · exact ⟨_, rfl⟩
  · exact ⟨_, rfl⟩
  · exfalso
    rcases h with h | h | ⟨pair, hget, hne⟩
    · exact hvalid h
    · exact hkey h
    · simp [hget, hne] at hpair

theorem completeCapabilityChain_incomplete (hvalid : material.newGeneration ≤ maxSafeInteger)
    (hkey : s.contentKey (spaceId, material.newGeneration) = some material.contentKey)
    (hpair : ∀ pair, s.capKeyPairs.get? (spaceId, material.newGeneration) = some pair →
      pair.verificationKey = material.capabilityVerificationKey)
    (hmissing : s.capKeyPairs.get? (spaceId, material.newGeneration) = none ∨
      s.ownCapabilities.get? (spaceId, material.newGeneration) = none) :
    (completeCapabilityChain crypto spaceId ownerDid material validityMs divergentKey
      divergentCapability).outcome input s =
    (provisionCapabilityForGeneration crypto spaceId ownerDid material validityMs).outcome
      input s := by
  rw [outcome_completeCapabilityChain, if_neg (not_lt.mpr hvalid), if_neg (not_not.mpr hkey)]
  cases hget : s.capKeyPairs.get? (spaceId, material.newGeneration) with
  | none => simp
  | some pair =>
    have hown := hmissing.resolve_left (by simp [hget])
    simp [hpair pair hget, hown]

theorem completeCapabilityChain_complete {pair : StoredCapKeyPair} {own : StoredOwnCapability}
    (hvalid : material.newGeneration ≤ maxSafeInteger)
    (hkey : s.contentKey (spaceId, material.newGeneration) = some material.contentKey)
    (hpair : s.capKeyPairs.get? (spaceId, material.newGeneration) = some pair)
    (hsame : pair.verificationKey = material.capabilityVerificationKey)
    (hown : s.ownCapabilities.get? (spaceId, material.newGeneration) = some own) :
    (completeCapabilityChain crypto spaceId ownerDid material validityMs divergentKey
      divergentCapability).outcome input s =
    (.ok (createdWith material own.capabilityJws), s) := by
  rw [outcome_completeCapabilityChain, if_neg (not_lt.mpr hvalid), if_neg (not_not.mpr hkey),
    hpair, hown]
  simp [hsame]

theorem completeCapabilityChain_ok {s' : KeyStore} {r : CreateSpaceKeyResult}
    (h : (completeCapabilityChain crypto spaceId ownerDid material validityMs divergentKey
      divergentCapability).outcome input s = (.ok r, s')) :
    material.newGeneration ≤ maxSafeInteger ∧
    s.contentKey (spaceId, material.newGeneration) = some material.contentKey ∧
    ((∃ pair own, s.capKeyPairs.get? (spaceId, material.newGeneration) = some pair ∧
        pair.verificationKey = material.capabilityVerificationKey ∧
        s.ownCapabilities.get? (spaceId, material.newGeneration) = some own ∧
        r = createdWith material own.capabilityJws ∧ s' = s) ∨
      (provisionCapabilityForGeneration crypto spaceId ownerDid material validityMs).outcome
        input s = (.ok r, s')) := by
  rw [outcome_completeCapabilityChain] at h
  split_ifs at h with hvalid hkey hpair
  · cases h
  · cases h
  · cases h
  · refine ⟨not_lt.mp hvalid, not_not.mp hkey, ?_⟩
    split at h
    · next pair own hget hown =>
      cases h
      exact .inl ⟨pair, own, hget, by simpa [hget] using hpair, hown, rfl, rfl⟩
    · exact .inr h

end

/-! ## 4. Activation -/

/-- A program that activates the material of a generation: a fresh one is written down, and
    one that is there already is completed. -/
structure Activates (crypto : KeyCrypto) (spaceId : DocId) (ownerDid : Did)
    (material : StagedRotationMaterial) (validityMs : Nat)
    (program : KeyProgram CreateSpaceKeyResult) : Prop where
  fresh : ∀ input (s : KeyStore),
    s.getCurrentGeneration spaceId = (material.newGeneration : Int) - 1 →
    ∃ writer, LeadsTo input program
      ((saveContentKey writer (spaceId, material.newGeneration) material.contentKey).bind
        fun _ => provisionCapabilityForGeneration crypto spaceId ownerDid material validityMs) s
  present : ∀ input (s : KeyStore), s.getCurrentGeneration spaceId = material.newGeneration →
    ∃ divergentKey divergentCapability, LeadsTo input program
      (completeCapabilityChain crypto spaceId ownerDid material validityMs divergentKey
        divergentCapability) s
  refused : ∀ input (s : KeyStore),
    s.getCurrentGeneration spaceId ≠ (material.newGeneration : Int) - 1 →
    s.getCurrentGeneration spaceId ≠ material.newGeneration →
    ∃ e, program.outcome input s = (.error e, s)

variable {crypto : KeyCrypto} {validityMs : Nat}

theorem commitStagedRotation_activates {options : CreateSpaceKeyOptions}
    {staged : StagedRotationMaterial}
    (hvalidity : resolveCapabilityValidityMs options.validityDurationMs = .ok validityMs) :
    Activates crypto options.spaceId options.ownerDid staged validityMs
      (commitStagedRotation crypto options staged) where
  fresh := by
    intro input s hcurrent
    refine ⟨.commitStagedRotation, ?_⟩
    rw [commitStagedRotation, hvalidity]
    refine (leadsTo_readKeyStore rfl).trans ?_
    beta_reduce
    rw [if_pos hcurrent]
    exact .refl _ _
  present := by
    intro input s hcurrent
    apply Exists.intro
    apply Exists.intro
    rw [commitStagedRotation, hvalidity]
    refine (leadsTo_readKeyStore rfl).trans ?_
    beta_reduce
    rw [if_neg (by omega), if_pos hcurrent]
    exact .refl _ _
  refused := by
    intro input s hnext hcurrent
    apply LeadsTo.fails
    rw [commitStagedRotation, hvalidity]
    refine (leadsTo_readKeyStore rfl).trans ?_
    beta_reduce
    rw [if_neg hnext, if_neg hcurrent]
    exact .refl _ _

theorem createDeterministicSpaceKey_activates {options : CreateSpaceKeyOptions}
    {contentKey capabilitySigningSeed : Bytes}
    (hvalidity : resolveCapabilityValidityMs options.validityDurationMs = .ok validityMs) :
    Activates crypto options.spaceId options.ownerDid ⟨0, contentKey, capabilitySigningSeed,
        crypto.ed25519PublicKeyFromSeed capabilitySigningSeed⟩ validityMs
      (createDeterministicSpaceKey crypto options contentKey capabilitySigningSeed) where
  fresh := by
    intro input s hcurrent
    refine ⟨.createDeterministicSpaceKey, ?_⟩
    rw [createDeterministicSpaceKey, hvalidity]
    refine (leadsTo_callCrypto rfl).trans ((leadsTo_readKeyStore rfl).trans ?_)
    beta_reduce
    have hnone : s.getCurrentGeneration options.spaceId = -1 := by simpa using hcurrent
    rw [if_pos (by omega)]
    exact .refl _ _
  present := by
    intro input s hcurrent
    apply Exists.intro
    apply Exists.intro
    rw [createDeterministicSpaceKey, hvalidity]
    refine (leadsTo_callCrypto rfl).trans ((leadsTo_readKeyStore rfl).trans ?_)
    beta_reduce
    have hzero : s.getCurrentGeneration options.spaceId = 0 := by simpa using hcurrent
    rw [if_neg (by omega), if_pos hzero]
    exact .refl _ _
  refused := by
    intro input s hnext hcurrent
    apply LeadsTo.fails
    rw [createDeterministicSpaceKey, hvalidity]
    refine (leadsTo_callCrypto rfl).trans ((leadsTo_readKeyStore rfl).trans ?_)
    beta_reduce
    have hle := neg_one_le_getCurrentGeneration (s := s) options.spaceId
    have hne : s.getCurrentGeneration options.spaceId ≠ -1 := by simpa using hnext
    have hzero : s.getCurrentGeneration options.spaceId ≠ 0 := by simpa using hcurrent
    rw [if_neg (by omega), if_neg (by omega)]
    exact .refl _ _

section

variable {crypto : KeyCrypto} {spaceId : DocId} {ownerDid : Did}
  {material : StagedRotationMaterial} {validityMs : Nat}
  {program : KeyProgram CreateSpaceKeyResult}
  (hprogram : Activates crypto spaceId ownerDid material validityMs program)
  {input input' : KeyPoint → KeyStore → KeyEnv} {s s' : KeyStore}
include hprogram

section

variable (hs : s.getCurrentGeneration spaceId = material.newGeneration - 1)
include hs

theorem Activates.outcome_of_saved
    (hsave : s.saveKey (spaceId, material.newGeneration) material.contentKey = .ok s') :
    program.outcome input s =
      (provisionCapabilityForGeneration crypto spaceId ownerDid material validityMs).outcome
        input s' := by
  obtain ⟨writer, hleads⟩ := hprogram.fresh input s hs
  rw [hleads.outcome_eq, saveContentKey, outcome_bind_ok (outcome_writeKeyStore_ok hsave)]

/-- Cut off, such a run has stored nothing, the content key, the key pair as well, or all. -/
theorem Activates.through {P : KeyStore → Prop} (hstart : P s)
    (hkey : ∀ s₁, s.saveKey (spaceId, material.newGeneration) material.contentKey = .ok s₁ → P s₁)
    (hpair : ∀ s₁ s₂, s.saveKey (spaceId, material.newGeneration) material.contentKey = .ok s₁ →
      s₁.saveCapabilityKeyPair (spaceId, material.newGeneration)
        material.capabilitySigningSeed material.capabilityVerificationKey = .ok s₂ → P s₂)
    (hdone : ∀ r s', program.outcome input s = (.ok r, s') → P s') :
    Through input P program s := by
  obtain ⟨writer, hleads⟩ := hprogram.fresh input s hs
  refine hleads.through P (through_writeKeyStore_bind hstart ?_)
  intro s₁ hsave
  refine through_provision (hkey s₁ hsave) (fun s₂ => hpair s₁ s₂ hsave) ?_
  intro r s' hprovision
  rw [← hprogram.outcome_of_saved hs hsave] at hprovision
  exact hdone r s' hprovision

end

section

variable (hcurrent : s.getCurrentGeneration spaceId = material.newGeneration)
include hcurrent

section

variable (hvalid : material.newGeneration ≤ maxSafeInteger)
include hvalid

section

variable (hkey : s.contentKey (spaceId, material.newGeneration) = some material.contentKey)
include hkey

theorem Activates.outcome_of_incomplete
    (hpair : ∀ pair, s.capKeyPairs.get? (spaceId, material.newGeneration) = some pair →
      pair.verificationKey = material.capabilityVerificationKey)
    (hmissing : s.capKeyPairs.get? (spaceId, material.newGeneration) = none ∨
      s.ownCapabilities.get? (spaceId, material.newGeneration) = none) :
    program.outcome input s =
      (provisionCapabilityForGeneration crypto spaceId ownerDid material validityMs).outcome
        input s := by
  obtain ⟨_, _, hleads⟩ := hprogram.present input s hcurrent
  rw [hleads.outcome_eq, completeCapabilityChain_incomplete hvalid hkey hpair hmissing]

theorem Activates.outcome_of_complete {pair : StoredCapKeyPair} {own : StoredOwnCapability}
    (hpair : s.capKeyPairs.get? (spaceId, material.newGeneration) = some pair)
    (hsame : pair.verificationKey = material.capabilityVerificationKey)
    (hown : s.ownCapabilities.get? (spaceId, material.newGeneration) = some own) :
    program.outcome input s = (.ok (createdWith material own.capabilityJws), s) := by
  obtain ⟨_, _, hleads⟩ := hprogram.present input s hcurrent
  rw [hleads.outcome_eq, completeCapabilityChain_complete hvalid hkey hpair hsame hown]

/-- What `provisionCapabilityForGeneration` leaves behind is complete. -/
theorem Activates.outcome_of_provisioned {r : CreateSpaceKeyResult} {provisionMs : Nat}
    (h : (provisionCapabilityForGeneration crypto spaceId ownerDid material provisionMs).outcome
      input s = (.ok r, s')) :
    program.outcome input' s' = (.ok r, s') := by
  obtain ⟨jws, rfl, hkeys, hpair, hown⟩ := provision_ok h
  refine hprogram.outcome_of_complete ?_ hvalid ?_ hpair rfl hown
  · rw [getCurrentGeneration_congr hkeys, hcurrent]
  · rw [contentKey_congr hkeys, hkey]

end

end

end

theorem Activates.again {r : CreateSpaceKeyResult} (h : program.outcome input s = (.ok r, s')) :
    program.outcome input' s' = (.ok r, s') := by
  by_cases hnext : s.getCurrentGeneration spaceId = (material.newGeneration : Int) - 1
  · cases hsave : s.saveKey (spaceId, material.newGeneration) material.contentKey with
    | error e =>
      obtain ⟨writer, hleads⟩ := hprogram.fresh input s hnext
      rw [hleads.outcome_eq, saveContentKey,
        outcome_bind_error (outcome_writeKeyStore_error hsave)] at h
      cases h
    | ok s₁ =>
      rw [hprogram.outcome_of_saved hnext hsave] at h
      refine hprogram.outcome_of_provisioned ?_ (saveKey_ok_iff.mp hsave).1 ?_ h
      · exact getCurrentGeneration_saveKey (by simp only; omega) hsave
      · rw [contentKey_saveKey hsave, if_pos rfl]
  · by_cases hcurrent : s.getCurrentGeneration spaceId = material.newGeneration
    · obtain ⟨_, _, hleads⟩ := hprogram.present input s hcurrent
      rw [hleads.outcome_eq] at h
      obtain ⟨hvalid, hkey, ⟨pair, own, hpair, hsame, hown, rfl, rfl⟩ | hprovision⟩ :=
        completeCapabilityChain_ok h
      · exact hprogram.outcome_of_complete hcurrent hvalid hkey hpair hsame hown
      · exact hprogram.outcome_of_provisioned hcurrent hvalid hkey hprovision
    · obtain ⟨e, herror⟩ := hprogram.refused input s hnext hcurrent
      rw [herror] at h
      cases h

theorem Activates.foreign {key : Bytes}
    (hstored : s.contentKey (spaceId, material.newGeneration) = some key)
    (h : key ≠ material.contentKey ∨
      ∃ pair, s.capKeyPairs.get? (spaceId, material.newGeneration) = some pair ∧
        pair.verificationKey ≠ material.capabilityVerificationKey) :
    ∃ e, program.outcome input s = (.error e, s) := by
  have hle := le_getCurrentGeneration hstored
  by_cases hcurrent : s.getCurrentGeneration spaceId = material.newGeneration
  · obtain ⟨_, _, hleads⟩ := hprogram.present input s hcurrent
    rw [hleads.outcome_eq]
    refine completeCapabilityChain_foreign (.inr (h.imp_left fun hne => ?_))
    rw [hstored]
    exact fun heq => hne (Option.some.inj heq)
  · exact hprogram.refused input s (by simp only at hle; omega) hcurrent

/-- Cut off and begun again, it ends as a run that was not cut off: the second one, or, where
    the first had come to its end, the first. -/
theorem Activates.resume (hs : s.getCurrentGeneration spaceId = material.newGeneration - 1)
    (hpair : s.capKeyPairs.get? (spaceId, material.newGeneration) = none)
    (hown : s.ownCapabilities.get? (spaceId, material.newGeneration) = none) (k : Nat) :
    program.outcome input' (program.cut input k s) = program.outcome input' s ∨
      program.cut input k s = (program.outcome input s).2 ∧
        program.outcome input' (program.cut input k s) = program.outcome input s := by
  refine Through.cut (P := fun s' => program.outcome input' s' = program.outcome input' s ∨
    s' = (program.outcome input s).2 ∧ program.outcome input' s' = program.outcome input s) ?_ k
  refine hprogram.through hs (.inl rfl) ?_ ?_ ?_
  · -- The content key is stored, and no capability.
    intro s₁ hsave
    refine .inl ?_
    rw [hprogram.outcome_of_saved hs hsave]
    obtain ⟨hvalid, -, rfl⟩ := saveKey_ok_iff.mp hsave
    refine hprogram.outcome_of_incomplete ?_ hvalid ?_ ?_ (.inl hpair)
    · exact getCurrentGeneration_saveKey (by simp only; omega) hsave
    · rw [contentKey_saveKey hsave, if_pos rfl]
    · intro pair hget
      exact absurd (hget.symm.trans hpair) nofun
  · -- The key pair is stored as well, and no own capability.
    intro s₁ s₂ hsave hsavePair
    refine .inl ?_
    rw [hprogram.outcome_of_saved hs hsave, ← outcome_provision_again hsavePair]
    have hcurrent := getCurrentGeneration_saveKey (by simp only; omega) hsave
    have hkey := contentKey_saveKey hsave (spaceId, material.newGeneration)
    obtain ⟨hvalid, -, rfl⟩ := saveKey_ok_iff.mp hsave
    obtain ⟨-, -, -, rfl⟩ := saveCapabilityKeyPair_ok_iff.mp hsavePair
    refine hprogram.outcome_of_incomplete hcurrent hvalid (hkey.trans (if_pos rfl)) ?_ (.inr hown)
    intro pair hget
    rw [get?_put, if_pos rfl] at hget
    cases hget
    rfl
  · -- All is stored.
    intro r s' hdone
    rw [hdone]
    exact .inr ⟨rfl, hprogram.again hdone⟩

end

/-- The run of an activation can be cut off anywhere and begun again, is not done twice, and
    stops where the generation is stored with other material. -/
structure Resumable (spaceId : DocId) (material : StagedRotationMaterial)
    (program : KeyProgram CreateSpaceKeyResult) : Prop where
  resume : ∀ (input input' : KeyPoint → KeyStore → KeyEnv) (s : KeyStore) (k : Nat),
    s.getCurrentGeneration spaceId = material.newGeneration - 1 →
    s.capKeyPairs.get? (spaceId, material.newGeneration) = none →
    s.ownCapabilities.get? (spaceId, material.newGeneration) = none →
    program.outcome input' (program.cut input k s) = program.outcome input' s ∨
      program.cut input k s = (program.outcome input s).2 ∧
        program.outcome input' (program.cut input k s) = program.outcome input s
  again : ∀ (input input' : KeyPoint → KeyStore → KeyEnv) (s s' : KeyStore) r,
    program.outcome input s = (.ok r, s') → program.outcome input' s' = (.ok r, s')
  foreign : ∀ (input : KeyPoint → KeyStore → KeyEnv) (s : KeyStore) key,
    s.contentKey (spaceId, material.newGeneration) = some key →
    (key ≠ material.contentKey ∨
      ∃ pair, s.capKeyPairs.get? (spaceId, material.newGeneration) = some pair ∧
        pair.verificationKey ≠ material.capabilityVerificationKey) →
    ∃ e, program.outcome input s = (.error e, s)

theorem Activates.resumable {spaceId : DocId} {ownerDid : Did} {material : StagedRotationMaterial}
    {program : KeyProgram CreateSpaceKeyResult}
    (hprogram : Activates crypto spaceId ownerDid material validityMs program) :
    Resumable spaceId material program where
  resume _ _ _ k hs hpair hown := hprogram.resume hs hpair hown k
  again _ _ _ _ _ := hprogram.again
  foreign _ _ _ := hprogram.foreign

theorem resumable_fail (spaceId : DocId) (material : StagedRotationMaterial) (e : String) :
    Resumable spaceId material (.fail e) where
  resume _ _ _ k _ _ _ := .inl (by cases k <;> rfl)
  again _ _ _ _ _ h := by cases h
  foreign _ _ _ _ _ := ⟨e, rfl⟩

/-- **Activations are resumable**: a staged rotation and the key of a private space. -/
theorem activation_resumable (crypto : KeyCrypto) (options : CreateSpaceKeyOptions)
    (staged : StagedRotationMaterial) (contentKey capabilitySigningSeed : Bytes) :
    Resumable options.spaceId staged (commitStagedRotation crypto options staged) ∧
    Resumable options.spaceId
      ⟨0, contentKey, capabilitySigningSeed, crypto.ed25519PublicKeyFromSeed capabilitySigningSeed⟩
      (createDeterministicSpaceKey crypto options contentKey capabilitySigningSeed) := by
  cases hvalidity : resolveCapabilityValidityMs options.validityDurationMs with
  | error e =>
    rw [commitStagedRotation, createDeterministicSpaceKey, hvalidity]
    exact ⟨resumable_fail _ _ e, resumable_fail _ _ e⟩
  | ok validityMs =>
    exact ⟨(commitStagedRotation_activates hvalidity).resumable,
      (createDeterministicSpaceKey_activates hvalidity).resumable⟩

/-- A capability pair without a content key is not looked at: the run writes over it. -/
theorem commitStagedRotation_overwrites_pair :
    ¬ ∀ (crypto : KeyCrypto) (options : CreateSpaceKeyOptions) (staged : StagedRotationMaterial)
      (input : KeyPoint → KeyStore → KeyEnv) (s : KeyStore),
      ((∃ key, s.contentKey (options.spaceId, staged.newGeneration) = some key ∧
          key ≠ staged.contentKey) ∨
        ∃ pair, s.capKeyPairs.get? (options.spaceId, staged.newGeneration) = some pair ∧
          (pair.signingSeed ≠ staged.capabilitySigningSeed ∨
            pair.verificationKey ≠ staged.capabilityVerificationKey)) →
      ∃ e, (commitStagedRotation crypto options staged).outcome input s = (.error e, s) := by
  intro h
  obtain ⟨e, he⟩ := h ⟨id, fun _ _ => .ok "jws", fun _ _ _ _ _ => true⟩ ⟨"space", "did:a", none⟩
    ⟨1, .replicate 32 1, .replicate 32 2, .replicate 32 2⟩ (fun _ _ => ⟨[], 0⟩)
    { contentKeys := empty.put ⟨("space", 0), .replicate 32 0⟩
      capKeyPairs := empty.put ⟨("space", 1), .replicate 32 3, .replicate 32 3⟩
      ownCapabilities := .empty }
    (.inr ⟨⟨("space", 1), .replicate 32 3, .replicate 32 3⟩, rfl, .inl (by decide)⟩)
  have hok := congrArg (fun outcome => outcome.1.isOk) he
  change _ = false at hok
  revert hok
  decide

end GroupKeys

end WebOfTrust
