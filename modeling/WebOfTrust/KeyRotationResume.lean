/-
  **Key rotations that are delivered again** (`key-rotation-workflow.ts`:
  `applyKeyRotationBody`, `importDuplicateCapabilityMaterial`).

  A rotation that was cut off comes again as a duplicate, and the duplicate path fills in the
  capability where there is no key pair.  It looks at the signing seed only: where the cut
  fell between the key pair and the own capability, the own capability stays away
  (`own_capability_missing`).  In all other cases the second delivery ends where the first
  one would have (`applyKeyRotationBody_converges`).
-/
import WebOfTrust.GroupKeysResume

namespace WebOfTrust

open Async KeyStore KeyedTable

namespace GroupKeys

/-! ## 1. A body and what it brings -/

/-- The keys of Ed25519 have 32 bytes: a capability that verifies under the public key of a
    seed says so of both. -/
def Ed25519Lengths (crypto : KeyCrypto) : Prop :=
  ∀ capability seed spaceId did generation,
    crypto.verifySpaceCapabilityJws capability (crypto.ed25519PublicKeyFromSeed seed) spaceId did
      generation = true →
    seed.length = 32 ∧ (crypto.ed25519PublicKeyFromSeed seed).length = 32

section

variable (crypto : KeyCrypto) (body : KeyRotationBody)

def rotationSlot : KeySlot := (body.spaceId, body.generation)

def rotationPair : StoredCapKeyPair where
  slot := rotationSlot body
  signingSeed := body.spaceCapabilitySigningKey
  verificationKey := crypto.ed25519PublicKeyFromSeed body.spaceCapabilitySigningKey

def rotationCapability : StoredOwnCapability := ⟨rotationSlot body, body.capability⟩

@[simp] theorem rotationPair_slot : (rotationPair crypto body).slot = rotationSlot body := rfl

@[simp] theorem rotationCapability_slot : (rotationCapability body).slot = rotationSlot body := rfl

def withContentKey (s : KeyStore) : KeyStore :=
  { s with contentKeys := s.contentKeys.put ⟨rotationSlot body, body.spaceContentKey⟩ }

def withKeyPair (s : KeyStore) : KeyStore :=
  { s with capKeyPairs := s.capKeyPairs.put (rotationPair crypto body) }

def withCapability (s : KeyStore) : KeyStore :=
  { s with ownCapabilities := s.ownCapabilities.put (rotationCapability body) }

def Authorised (recipientDid senderDid : Did) (knownAdminDids : List Did) : Prop :=
  senderDid ∈ knownAdminDids ∧ crypto.verifySpaceCapabilityJws body.capability
      (crypto.ed25519PublicKeyFromSeed body.spaceCapabilitySigningKey) body.spaceId recipientDid
      body.generation = true

def storeCapability {α : Type} (result : α) : KeyProgram α := do
  writeKeyStore (.saveCapabilityKeyPair (rotationSlot body))
    (·.saveCapabilityKeyPair (rotationSlot body) body.spaceCapabilitySigningKey
      (crypto.ed25519PublicKeyFromSeed body.spaceCapabilitySigningKey))
  writeKeyStore (.saveOwnCapability (rotationSlot body))
    (·.saveOwnCapability (rotationSlot body) body.capability)
  pure result

/-- `applyKeyRotationBody`, from where the body is verified. -/
def applyVerifiedBody : KeyProgram ApplyKeyRotationBodyResult := do
  let disposition ← applyKeyRotation (rotationSlot body) body.spaceContentKey
  match disposition with
  | .apply => storeCapability crypto body .apply
  | .ignoreStaleOrDuplicate =>
    let outcome ← importDuplicateCapabilityMaterial body
      (crypto.ed25519PublicKeyFromSeed body.spaceCapabilitySigningKey)
    pure (.ignoreStaleOrDuplicate outcome)
  | .futureBuffer => pure .futureBuffer

variable {crypto body} {recipientDid senderDid : Did} {knownAdminDids : List Did}
  {input : KeyPoint → KeyStore → KeyEnv} {s : KeyStore}

theorem applyKeyRotationBody_authorised
    (h : Authorised crypto body recipientDid senderDid knownAdminDids) :
    LeadsTo input (applyKeyRotationBody crypto body recipientDid senderDid knownAdminDids)
      (applyVerifiedBody crypto body) s := by
  rw [applyKeyRotationBody, if_neg (not_not.mpr h.1)]
  refine (leadsTo_callCrypto rfl).trans ((leadsTo_callCrypto rfl).trans ?_)
  simp only [h.2]
  exact .refl _ _

theorem applyKeyRotationBody_unauthorised
    (h : ¬ Authorised crypto body recipientDid senderDid knownAdminDids) :
    ∃ reason, LeadsTo input (applyKeyRotationBody crypto body recipientDid senderDid knownAdminDids)
      (pure (.reject reason)) s := by
  rw [applyKeyRotationBody]
  by_cases hsender : senderDid ∈ knownAdminDids
  · have hverified := Bool.eq_false_iff.mpr fun hv => h ⟨hsender, hv⟩
    refine ⟨"invalid-capability", ?_⟩
    rw [if_neg (not_not.mpr hsender)]
    refine (leadsTo_callCrypto rfl).trans ((leadsTo_callCrypto rfl).trans ?_)
    simp only [hverified]
    exact .refl _ _
  · rw [if_pos hsender]
    exact ⟨_, .refl _ _⟩

/-! ## 2. Next, duplicate and other generations -/

theorem leadsTo_getCurrentGeneration {β : Type} {spaceId : DocId} {g : Int → KeyProgram β} :
    LeadsTo input ((getCurrentGeneration spaceId).bind g) (g (s.getCurrentGeneration spaceId)) s :=
  leadsTo_readKeyStore rfl

theorem applyKeyRotation_next {slot : KeySlot} {key : Bytes}
    (hnext : s.getCurrentGeneration slot.1 + 1 = slot.2)
    (hknown : 0 ≤ s.getCurrentGeneration slot.1) (hvalid : slot.2 ≤ maxSafeInteger) :
    LeadsTo input (applyKeyRotation slot key)
      ((saveContentKey .applyKeyRotation slot key).bind fun _ => pure .apply) s := by
  have hdisposition : evaluateKeyRotationDisposition
      (s.getCurrentGeneration slot.1).toNat slot.2 = .ok .apply := by
    rw [evaluateKeyRotationDisposition, if_neg (by omega), if_neg (by omega), if_pos (by omega)]
  rw [applyKeyRotation, if_neg (not_lt.mpr hvalid)]
  refine leadsTo_getCurrentGeneration.trans ?_
  rw [if_neg (by omega), hdisposition]
  exact .refl _ _

theorem applyKeyRotation_duplicate {slot : KeySlot} {key : Bytes}
    (hle : slot.2 ≤ s.getCurrentGeneration slot.1)
    (hsafe : s.getCurrentGeneration slot.1 ≤ maxSafeInteger) :
    LeadsTo input (applyKeyRotation slot key) (pure .ignoreStaleOrDuplicate) s := by
  have hdisposition : evaluateKeyRotationDisposition
      (s.getCurrentGeneration slot.1).toNat slot.2 = .ok .ignoreStaleOrDuplicate := by
    rw [evaluateKeyRotationDisposition, if_neg (by omega), if_pos (by omega)]
  rw [applyKeyRotation, if_neg (by omega)]
  refine leadsTo_getCurrentGeneration.trans ?_
  rw [if_neg (by omega), hdisposition]
  exact .refl _ _

theorem applyKeyRotation_other {slot : KeySlot} {key : Bytes}
    (hnext : ¬ (s.getCurrentGeneration slot.1 + 1 = slot.2 ∧
      0 ≤ s.getCurrentGeneration slot.1 ∧ slot.2 ≤ maxSafeInteger))
    (hle : ¬ (slot.2 ≤ s.getCurrentGeneration slot.1 ∧
      s.getCurrentGeneration slot.1 ≤ maxSafeInteger)) :
    LeadsTo input (applyKeyRotation slot key) (pure .futureBuffer) s ∨
      ∃ e, LeadsTo input (applyKeyRotation slot key) (.fail e) s := by
  rw [applyKeyRotation]
  by_cases hvalid : maxSafeInteger < slot.2
  · rw [if_pos hvalid]
    exact .inr ⟨_, .refl _ _⟩
  rw [if_neg hvalid]
  by_cases hknown : s.getCurrentGeneration slot.1 < 0
  · refine .inl (leadsTo_getCurrentGeneration.trans ?_)
    rw [if_pos hknown]
    exact .refl _ _
  have hskip : ∀ r, evaluateKeyRotationDisposition
      (s.getCurrentGeneration slot.1).toNat slot.2 = r →
      r = .ok .futureBuffer ∨ ∃ e, r = .error e := by
    rintro r rfl
    rw [evaluateKeyRotationDisposition]
    split_ifs
    · exact .inr ⟨_, rfl⟩
    · omega
    · omega
    · exact .inl rfl
  rcases hskip _ rfl with hr | ⟨e, hr⟩
  · refine .inl (leadsTo_getCurrentGeneration.trans ?_)
    rw [if_neg hknown, hr]
    exact .refl _ _
  refine .inr ⟨e, leadsTo_getCurrentGeneration.trans ?_⟩
  rw [if_neg hknown, hr]
  exact .refl _ _

/-! ## 3. What a delivery does to the store -/

theorem storeCapability_outcome {α : Type} (result : α) (hvalid : body.generation ≤ maxSafeInteger)
    (hseed : body.spaceCapabilitySigningKey.length = 32)
    (hvk : (crypto.ed25519PublicKeyFromSeed body.spaceCapabilitySigningKey).length = 32) :
    (storeCapability crypto body result).outcome input s =
      (.ok result, withCapability body (withKeyPair crypto body s)) := by
  have hpair : s.saveCapabilityKeyPair (rotationSlot body) body.spaceCapabilitySigningKey
      (crypto.ed25519PublicKeyFromSeed body.spaceCapabilitySigningKey) =
      .ok (withKeyPair crypto body s) :=
    saveCapabilityKeyPair_ok_iff.mpr ⟨hvalid, hseed, hvk, rfl⟩
  have hown : (withKeyPair crypto body s).saveOwnCapability (rotationSlot body) body.capability =
      .ok (withCapability body (withKeyPair crypto body s)) :=
    saveOwnCapability_ok_iff.mpr ⟨hvalid, rfl⟩
  rw [storeCapability, bind_def, outcome_bind_ok (outcome_writeKeyStore_ok hpair), bind_def,
    outcome_bind_ok (outcome_writeKeyStore_ok hown)]
  rfl

theorem through_storeCapability {α : Type} (result : α) {P : KeyStore → Prop} (hs : P s)
    (hpair : P (withKeyPair crypto body s))
    (hown : P (withCapability body (withKeyPair crypto body s))) :
    Through input P (storeCapability crypto body result) s := by
  refine through_writeKeyStore_bind hs ?_
  intro s₁ hsave
  obtain ⟨-, -, -, rfl⟩ := saveCapabilityKeyPair_ok_iff.mp hsave
  refine through_writeKeyStore_bind hpair ?_
  intro s₂ hsave
  obtain ⟨-, rfl⟩ := saveOwnCapability_ok_iff.mp hsave
  exact hown

/-- The duplicate fills in the capability: its content key is the stored one of the current
    generation, and there is no key pair. -/
def Imports (body : KeyRotationBody) (s : KeyStore) : Prop :=
  body.generation ≤ maxSafeInteger ∧ s.getCurrentGeneration body.spaceId = body.generation ∧
    s.contentKey (rotationSlot body) = some body.spaceContentKey ∧
    s.capKeyPairs.get? (rotationSlot body) = none

def Advances (body : KeyRotationBody) (s : KeyStore) : Prop :=
  0 ≤ s.getCurrentGeneration body.spaceId ∧
    s.getCurrentGeneration body.spaceId + 1 = body.generation ∧
    body.generation ≤ maxSafeInteger ∧ body.spaceContentKey.length = 32

theorem importDuplicate_imports (h : Imports body s) :
    LeadsTo input (importDuplicateCapabilityMaterial body
        (crypto.ed25519PublicKeyFromSeed body.spaceCapabilitySigningKey))
      (storeCapability crypto body .imported) s := by
  obtain ⟨hvalid, hcurrent, hkey, hpair⟩ := h
  have hread : ∀ {α : Type} (a : α), withValidGeneration body.generation
      (.ok a) = .ok a := fun a => by rw [withValidGeneration, if_neg (not_lt.mpr hvalid)]
  rw [importDuplicateCapabilityMaterial]
  refine leadsTo_getCurrentGeneration.trans ?_
  rw [if_neg (not_not.mpr hcurrent)]
  refine (leadsTo_readKeyStore (hread _)).trans ?_
  rw [rotationSlot] at hkey hpair
  rw [hkey]
  simp only [ne_eq, not_true_eq_false, if_false]
  refine (leadsTo_readKeyStore (hread _)).trans ?_
  rw [hpair]
  exact .refl _ _

theorem importDuplicate_other (h : ¬ Imports body s) (hvalid : body.generation ≤ maxSafeInteger) :
    ∃ outcome, LeadsTo input (importDuplicateCapabilityMaterial body
        (crypto.ed25519PublicKeyFromSeed body.spaceCapabilitySigningKey))
      (pure outcome) s := by
  have hread : ∀ {α : Type} (a : α), withValidGeneration body.generation
      (.ok a) = .ok a := fun a => by rw [withValidGeneration, if_neg (not_lt.mpr hvalid)]
  rw [importDuplicateCapabilityMaterial]
  by_cases hcurrent : s.getCurrentGeneration body.spaceId = body.generation
  · cases hkey : s.contentKey (body.spaceId, body.generation) with
    | none =>
      refine ⟨.notApplicable, leadsTo_getCurrentGeneration.trans ?_⟩
      rw [if_neg (not_not.mpr hcurrent)]
      refine (leadsTo_readKeyStore (hread _)).trans ?_
      rw [hkey]
      exact .refl _ _
    | some stored =>
      by_cases hsame : stored = body.spaceContentKey
      · cases hpair : s.capKeyPairs.get? (body.spaceId, body.generation) with
        | none => exact absurd ⟨hvalid, hcurrent, hsame ▸ hkey, hpair⟩ h
        | some pair =>
          refine ⟨if pair.signingSeed = body.spaceCapabilitySigningKey then .alreadyPresent
            else .conflict, leadsTo_getCurrentGeneration.trans ?_⟩
          rw [if_neg (not_not.mpr hcurrent)]
          refine (leadsTo_readKeyStore (hread _)).trans ?_
          rw [hkey]
          simp only [hsame, ne_eq, not_true_eq_false, if_false]
          refine (leadsTo_readKeyStore (hread _)).trans ?_
          rw [hpair]
          dsimp only [Option.map]
          split_ifs
          · exact .refl _ _
          · exact .refl _ _
      · refine ⟨.conflict, leadsTo_getCurrentGeneration.trans ?_⟩
        rw [if_neg (not_not.mpr hcurrent)]
        refine (leadsTo_readKeyStore (hread _)).trans ?_
        rw [hkey]
        simp only [hsame, ne_eq, not_false_eq_true, if_true]
        exact .refl _ _
  · refine ⟨.notApplicable, leadsTo_getCurrentGeneration.trans ?_⟩
    rw [if_pos hcurrent]
    exact .refl _ _

theorem applyVerifiedBody_next (hnext : s.getCurrentGeneration body.spaceId + 1 = body.generation)
    (hknown : 0 ≤ s.getCurrentGeneration body.spaceId)
    (hvalid : body.generation ≤ maxSafeInteger) :
    LeadsTo input (applyVerifiedBody crypto body)
      ((saveContentKey .applyKeyRotation (rotationSlot body) body.spaceContentKey).bind fun _ =>
        storeCapability crypto body .apply) s := by
  refine (LeadsTo.bind (applyKeyRotation_next hnext hknown hvalid) _).trans ?_
  rw [bind_assoc]
  exact .refl _ _

theorem applyVerifiedBody_imports (h : Imports body s) :
    LeadsTo input (applyVerifiedBody crypto body)
      ((storeCapability crypto body .imported).bind fun outcome =>
        pure (.ignoreStaleOrDuplicate outcome)) s := by
  have hcurrent : s.getCurrentGeneration (rotationSlot body).1 = (rotationSlot body).2 := h.2.1
  have hsafe : s.getCurrentGeneration (rotationSlot body).1 ≤ maxSafeInteger := by
    rw [hcurrent]
    exact Int.ofNat_le.mpr h.1
  exact (LeadsTo.bind (applyKeyRotation_duplicate hcurrent.ge hsafe) _).trans
    ((importDuplicate_imports h).bind _)

theorem applyVerifiedBody_other (hadvances : ¬ Advances body s) (himports : ¬ Imports body s) :
    ((applyVerifiedBody crypto body).outcome input s).2 = s := by
  by_cases hnext : s.getCurrentGeneration (rotationSlot body).1 + 1 = (rotationSlot body).2 ∧
      0 ≤ s.getCurrentGeneration (rotationSlot body).1 ∧ (rotationSlot body).2 ≤ maxSafeInteger
  · obtain ⟨hnext, hknown, hvalid⟩ := hnext
    -- The content key has another length.
    cases hsave : s.saveKey (rotationSlot body) body.spaceContentKey with
    | ok s' =>
      have hlength := (saveKey_ok_iff.mp hsave).2.1
      exact absurd ⟨hknown, hnext, hvalid, hlength⟩ hadvances
    | error e =>
      rw [(applyVerifiedBody_next hnext hknown hvalid).outcome_eq, saveContentKey,
        outcome_bind_error (outcome_writeKeyStore_error hsave)]
  · by_cases hle : (rotationSlot body).2 ≤ s.getCurrentGeneration (rotationSlot body).1 ∧
        s.getCurrentGeneration (rotationSlot body).1 ≤ maxSafeInteger
    · have hvalid : body.generation ≤ maxSafeInteger := by
        have hgeneration : ((rotationSlot body).2 : Int) = body.generation := rfl
        omega
      obtain ⟨outcome, hleads⟩ := importDuplicate_other himports hvalid
      have hbind : LeadsTo input (applyVerifiedBody crypto body)
          (pure (.ignoreStaleOrDuplicate outcome)) s :=
        (LeadsTo.bind (applyKeyRotation_duplicate hle.1 hle.2) _).trans (hleads.bind _)
      rw [hbind.outcome_eq]
      rfl
    · rcases applyKeyRotation_other hnext hle with hleads | ⟨e, hleads⟩
      · have hbind : LeadsTo input (applyVerifiedBody crypto body) (pure .futureBuffer) s :=
          hleads.bind _
        rw [hbind.outcome_eq]
        rfl
      have hbind : LeadsTo input (applyVerifiedBody crypto body) (.fail e) s := hleads.bind _
      rw [hbind.outcome_eq]
      rfl

/-! ## 4. Deliveries -/

def rotated (crypto : KeyCrypto) (body : KeyRotationBody) (s : KeyStore) : KeyStore :=
  withCapability body (withKeyPair crypto body (withContentKey body s))

section

variable (hcrypto : Ed25519Lengths crypto)
  (hauthorised : Authorised crypto body recipientDid senderDid knownAdminDids)
include hcrypto hauthorised

theorem delivery_advances (h : Advances body s) :
    (applyKeyRotationBody crypto body recipientDid senderDid knownAdminDids).outcome input s =
      (.ok .apply, rotated crypto body s) := by
  obtain ⟨hknown, hnext, hvalid, hlength⟩ := h
  obtain ⟨hseed, hvk⟩ := hcrypto _ _ _ _ _ hauthorised.2
  have hsave : s.saveKey (rotationSlot body) body.spaceContentKey = .ok (withContentKey body s) :=
    saveKey_ok_iff.mpr ⟨hvalid, hlength, rfl⟩
  rw [(applyKeyRotationBody_authorised hauthorised).outcome_eq,
    (applyVerifiedBody_next hnext hknown hvalid).outcome_eq, saveContentKey,
    outcome_bind_ok (outcome_writeKeyStore_ok hsave),
    storeCapability_outcome _ hvalid hseed hvk]
  rfl

omit hcrypto in
theorem through_delivery {P : KeyStore → Prop} (h : Advances body s) (hs : P s)
    (hkey : P (withContentKey body s))
    (hpair : P (withKeyPair crypto body (withContentKey body s)))
    (hrotated : P (rotated crypto body s)) :
    Through input P (applyKeyRotationBody crypto body recipientDid senderDid knownAdminDids) s := by
  refine (applyKeyRotationBody_authorised hauthorised).through P
    ((applyVerifiedBody_next h.2.1 h.1 h.2.2.1).through P ?_)
  refine through_writeKeyStore_bind hs ?_
  intro s' hsave
  obtain ⟨-, -, rfl⟩ := saveKey_ok_iff.mp hsave
  exact through_storeCapability _ hkey hpair hrotated

theorem delivery_imports (h : Imports body s) :
    ((applyKeyRotationBody crypto body recipientDid senderDid knownAdminDids).outcome input
      s).2 = withCapability body (withKeyPair crypto body s) := by
  obtain ⟨hseed, hvk⟩ := hcrypto _ _ _ _ _ hauthorised.2
  rw [(applyKeyRotationBody_authorised hauthorised).outcome_eq,
    (applyVerifiedBody_imports h).outcome_eq,
    outcome_bind_ok (storeCapability_outcome _ h.1 hseed hvk)]
  rfl

omit hcrypto in
theorem delivery_other (hadvances : ¬ Advances body s) (himports : ¬ Imports body s) :
    ((applyKeyRotationBody crypto body recipientDid senderDid knownAdminDids).outcome input
      s).2 = s := by
  rw [(applyKeyRotationBody_authorised hauthorised).outcome_eq]
  exact applyVerifiedBody_other hadvances himports

end

theorem delivery_unauthorised (h : ¬ Authorised crypto body recipientDid senderDid knownAdminDids) :
    ((applyKeyRotationBody crypto body recipientDid senderDid knownAdminDids).outcome input
      s).2 = s := by
  obtain ⟨reason, hleads⟩ := applyKeyRotationBody_unauthorised (s := s) h
  rw [hleads.outcome_eq]
  rfl

/-- What a second delivery can complete: the generation is not there yet, or has no key pair,
    or has all that the body brings. -/
def Redeliverable (crypto : KeyCrypto) (body : KeyRotationBody) (s : KeyStore) : Prop :=
  s.contentKey (rotationSlot body) = none ∨ s.capKeyPairs.get? (rotationSlot body) = none ∨
    s.capKeyPairs.get? (rotationSlot body) = some (rotationPair crypto body) ∧
      s.ownCapabilities.get? (rotationSlot body) = some (rotationCapability body)

def Kept (s s' : KeyStore) : Prop :=
  (∀ slot key, s.contentKey slot = some key → s'.contentKey slot = some key) ∧
  (∀ slot pair, s.capKeyPairs.get? slot = some pair → s'.capKeyPairs.get? slot = some pair) ∧
  ∀ slot own, s.ownCapabilities.get? slot = some own → s'.ownCapabilities.get? slot = some own

theorem withCapability_withKeyPair_eq_iff : withCapability body (withKeyPair crypto body s) = s ↔
      s.capKeyPairs.get? (rotationSlot body) = some (rotationPair crypto body) ∧
        s.ownCapabilities.get? (rotationSlot body) = some (rotationCapability body) := by
  constructor
  · intro h
    have hpair := congrArg (fun s => s.capKeyPairs.get? (rotationSlot body)) h
    have hown := congrArg (fun s => s.ownCapabilities.get? (rotationSlot body)) h
    simp only [withCapability, withKeyPair, get?_put] at hpair hown
    exact ⟨hpair.symm.trans (if_pos rfl), hown.symm.trans (if_pos rfl)⟩
  · rintro ⟨hpair, hown⟩
    rw [withKeyPair, withCapability, put_of_get? hpair, put_of_get? hown]

/-- With the content key of the body in place, a delivery completes the capability exactly
    where the store can be redelivered to. -/
theorem delivery_completes_iff (input : KeyPoint → KeyStore → KeyEnv)
    (hcrypto : Ed25519Lengths crypto)
    (hauthorised : Authorised crypto body recipientDid senderDid knownAdminDids)
    (hvalid : body.generation ≤ maxSafeInteger)
    (hcurrent : s.getCurrentGeneration body.spaceId = body.generation)
    (hkey : s.contentKey (rotationSlot body) = some body.spaceContentKey) :
    ((applyKeyRotationBody crypto body recipientDid senderDid knownAdminDids).outcome input
        s).2 = withCapability body (withKeyPair crypto body s) ↔ Redeliverable crypto body s := by
  by_cases hpair : s.capKeyPairs.get? (rotationSlot body) = none
  · exact iff_of_true (delivery_imports hcrypto hauthorised ⟨hvalid, hcurrent, hkey, hpair⟩)
      (.inr (.inl hpair))
  have hadvances : ¬ Advances body s := by
    rintro ⟨-, hnext, -⟩
    omega
  rw [delivery_other hauthorised hadvances fun himports => hpair himports.2.2.2, eq_comm,
    withCapability_withKeyPair_eq_iff, Redeliverable, hkey]
  simp [hpair]

/-- **A rotation that is cut off and delivered again** ends as the first delivery would have,
    exactly where what the cut has left can be redelivered to. -/
theorem redelivery_iff (hcrypto : Ed25519Lengths crypto)
    (hauthorised : Authorised crypto body recipientDid senderDid knownAdminDids)
    (h : Advances body s) {input' : KeyPoint → KeyStore → KeyEnv} (k : Nat) :
    ((applyKeyRotationBody crypto body recipientDid senderDid knownAdminDids).outcome input'
        ((applyKeyRotationBody crypto body recipientDid senderDid knownAdminDids).cut input k
          s)).2 = rotated crypto body s ↔
      Redeliverable crypto body
        ((applyKeyRotationBody crypto body recipientDid senderDid knownAdminDids).cut input k
          s) := by
  refine Through.cut (P := fun t => ((applyKeyRotationBody crypto body recipientDid senderDid
    knownAdminDids).outcome input' t).2 = rotated crypto body s ↔ Redeliverable crypto body t)
    ?_ k
  obtain ⟨hknown, hnext, hvalid, hlength⟩ := h
  have hsave : s.saveKey (rotationSlot body) body.spaceContentKey = .ok (withContentKey body s) :=
    saveKey_ok_iff.mpr ⟨hvalid, hlength, rfl⟩
  have hslot : s.getCurrentGeneration (rotationSlot body).1 + 1 = (rotationSlot body).2 := hnext
  have hcurrent : (withContentKey body s).getCurrentGeneration body.spaceId = body.generation :=
    getCurrentGeneration_saveKey (by omega) hsave
  have hkey : (withContentKey body s).contentKey (rotationSlot body) =
      some body.spaceContentKey := by
    rw [contentKey_saveKey hsave, if_pos rfl]
  refine through_delivery hauthorised ⟨hknown, hnext, hvalid, hlength⟩ ?_ ?_ ?_ ?_
  · -- Nothing is stored: the second delivery is a first one.
    refine iff_of_true ?_ (.inl (contentKey_of_getCurrentGeneration (by omega)))
    rw [delivery_advances hcrypto hauthorised ⟨hknown, hnext, hvalid, hlength⟩]
  · exact delivery_completes_iff input' hcrypto hauthorised hvalid hcurrent hkey
  · have hpair : withKeyPair crypto body (withKeyPair crypto body (withContentKey body s)) =
        withKeyPair crypto body (withContentKey body s) := by
      rw [withKeyPair, put_of_get?]
      rw [withKeyPair, get?_put, if_pos rfl]
    have hiff := delivery_completes_iff (s := withKeyPair crypto body (withContentKey body s))
      input' hcrypto hauthorised hvalid hcurrent hkey
    rwa [hpair] at hiff
  · have hsame : withCapability body (withKeyPair crypto body (rotated crypto body s)) =
        rotated crypto body s := by
      rw [withCapability_withKeyPair_eq_iff]
      simp [rotated, withCapability, withKeyPair, get?_put, rotationPair, rotationCapability]
    have hiff := delivery_completes_iff (s := rotated crypto body s) input' hcrypto hauthorised
      hvalid hcurrent hkey
    rwa [hsame] at hiff

theorem Kept.refl (s : KeyStore) : Kept s s := ⟨fun _ _ h => h, fun _ _ h => h, fun _ _ h => h⟩

/-- The duplicate path writes over an own capability that has no key pair beside it, and over
    nothing else. -/
theorem delivery_kept_iff (hcrypto : Ed25519Lengths crypto) (hadvances : ¬ Advances body s) :
    Kept s ((applyKeyRotationBody crypto body recipientDid senderDid knownAdminDids).outcome
        input s).2 ↔
      ¬ (Authorised crypto body recipientDid senderDid knownAdminDids ∧ Imports body s ∧
        ∃ own, s.ownCapabilities.get? (rotationSlot body) = some own ∧
          own ≠ rotationCapability body) := by
  by_cases hauthorised : Authorised crypto body recipientDid senderDid knownAdminDids
  · by_cases himports : Imports body s
    · rw [delivery_imports hcrypto hauthorised himports]
      simp only [hauthorised, himports, true_and, not_exists, not_and, not_not]
      constructor
      · rintro ⟨-, -, hown⟩ own hget
        have hkept := hown _ own hget
        rw [withCapability, get?_put, rotationCapability_slot, if_pos rfl] at hkept
        exact (Option.some.inj hkept).symm
      · intro hown
        refine ⟨fun _ _ h => h, ?_, ?_⟩
        · intro slot pair hget
          have hne : rotationSlot body ≠ slot := by
            rintro rfl
            rw [himports.2.2.2] at hget
            cases hget
          change (s.capKeyPairs.put (rotationPair crypto body)).get? slot = some pair
          rw [get?_put, rotationPair_slot, if_neg hne, hget]
        · intro slot own hget
          change (s.ownCapabilities.put (rotationCapability body)).get? slot = some own
          rw [get?_put]
          split_ifs with heq
          · change rotationSlot body = slot at heq
            rw [hown own (heq ▸ hget)]
          · exact hget
    · rw [delivery_other hauthorised hadvances himports]
      simp [himports, Kept.refl]
  · rw [delivery_unauthorised hauthorised]
    simp [hauthorised, Kept.refl]

end

/-- **Rotations converge** under two conditions: what a cut leaves behind can be redelivered
    to, and no foreign own capability is stored without a key pair. -/
theorem applyKeyRotationBody_converges_iff (crypto : KeyCrypto) (hcrypto : Ed25519Lengths crypto)
    (body : KeyRotationBody) (recipientDid senderDid : Did) (knownAdminDids : List Did)
    (input input' : KeyPoint → KeyStore → KeyEnv) (s : KeyStore) (k : Nat) :
    ((¬ Authorised crypto body recipientDid senderDid knownAdminDids →
        ((applyKeyRotationBody crypto body recipientDid senderDid knownAdminDids).outcome
          input s).2 = s) ∧
      (Authorised crypto body recipientDid senderDid knownAdminDids → ¬ Advances body s →
        ¬ Imports body s →
        ((applyKeyRotationBody crypto body recipientDid senderDid knownAdminDids).outcome
          input s).2 = s) ∧
      (Authorised crypto body recipientDid senderDid knownAdminDids → Advances body s →
        (applyKeyRotationBody crypto body recipientDid senderDid knownAdminDids).outcome
          input s = (.ok .apply, rotated crypto body s)) ∧
      (Authorised crypto body recipientDid senderDid knownAdminDids → Advances body s →
        ((applyKeyRotationBody crypto body recipientDid senderDid knownAdminDids).outcome
          input' ((applyKeyRotationBody crypto body recipientDid senderDid knownAdminDids).cut
            input k s)).2 =
        ((applyKeyRotationBody crypto body recipientDid senderDid knownAdminDids).outcome
          input s).2) ∧
      (¬ Advances body s →
        Kept s ((applyKeyRotationBody crypto body recipientDid senderDid knownAdminDids).outcome
          input s).2)) ↔
    (Authorised crypto body recipientDid senderDid knownAdminDids → Advances body s →
      Redeliverable crypto body
        ((applyKeyRotationBody crypto body recipientDid senderDid knownAdminDids).cut input k s)) ∧
    ¬ (Authorised crypto body recipientDid senderDid knownAdminDids ∧ Imports body s ∧
      ∃ own, s.ownCapabilities.get? (rotationSlot body) = some own ∧
        own ≠ rotationCapability body) := by
  constructor
  · rintro ⟨-, -, -, hredelivery, hkept⟩
    constructor
    · intro hauthorised hadvances
      have hsame := hredelivery hauthorised hadvances
      rw [delivery_advances hcrypto hauthorised hadvances] at hsame
      exact (redelivery_iff hcrypto hauthorised hadvances k).mp hsame
    · rintro ⟨hauthorised, himports, hown⟩
      have hadvances : ¬ Advances body s := by
        rintro ⟨-, hnext, -⟩
        have hcurrent := himports.2.1
        omega
      exact (delivery_kept_iff hcrypto hadvances).mp (hkept hadvances) ⟨hauthorised, himports, hown⟩
  · rintro ⟨hredeliverable, hown⟩
    refine ⟨delivery_unauthorised, delivery_other, ?_, ?_, ?_⟩
    · exact fun hauthorised hadvances => delivery_advances hcrypto hauthorised hadvances
    · intro hauthorised hadvances
      rw [(redelivery_iff hcrypto hauthorised hadvances k).mpr
        (hredeliverable hauthorised hadvances), delivery_advances hcrypto hauthorised hadvances]
    · exact fun hadvances => (delivery_kept_iff hcrypto hadvances).mpr hown

def tokenCrypto : KeyCrypto where
  ed25519PublicKeyFromSeed seed := seed
  createSpaceCapabilityJws _ _ := .ok "jws"
  verifySpaceCapabilityJws _ vk _ _ _ := decide (vk.length = 32)

theorem tokenCrypto_lengths : Ed25519Lengths tokenCrypto := by
  intro capability seed spaceId did generation h
  have hlength : seed.length = 32 := of_decide_eq_true h
  exact ⟨hlength, hlength⟩

def rotationBody : KeyRotationBody where
  spaceId := "space"
  generation := 1
  spaceContentKey := .replicate 32 1
  spaceCapabilitySigningKey := .replicate 32 2
  capability := "jws"

def genesisStore : KeyStore where
  contentKeys := empty.put ⟨("space", 0), .replicate 32 0⟩
  capKeyPairs := .empty
  ownCapabilities := .empty

/-- Cut off with the content key stored and nothing else, it is completed. -/
theorem applyKeyRotationBody_converges_content :
    ((applyKeyRotationBody tokenCrypto rotationBody "did:b" "did:a" ["did:a"]).outcome
        (fun _ _ => ⟨[], 0⟩)
        ((applyKeyRotationBody tokenCrypto rotationBody "did:b" "did:a" ["did:a"]).cut
          (fun _ _ => ⟨[], 0⟩) 4 genesisStore)).2 =
      ((applyKeyRotationBody tokenCrypto rotationBody "did:b" "did:a" ["did:a"]).outcome
        (fun _ _ => ⟨[], 0⟩) genesisStore).2 :=
  ((applyKeyRotationBody_converges_iff tokenCrypto tokenCrypto_lengths rotationBody "did:b"
    "did:a" ["did:a"] (fun _ _ => ⟨[], 0⟩) (fun _ _ => ⟨[], 0⟩) genesisStore 4).mpr
    ⟨fun _ _ => .inr (.inl (by decide)), fun h => absurd h.2.1.2.1 (by decide)⟩).2.2.2.1
    ⟨by decide, by decide⟩ ⟨by decide, by decide, by decide, by decide⟩

/-- Cut off between the key pair and the own capability, the rotation stays without the own
    capability: the second delivery finds its signing seed and stops. -/
theorem own_capability_missing :
    ¬ ∀ (crypto : KeyCrypto) (body : KeyRotationBody) (recipientDid senderDid : Did)
      (knownAdminDids : List Did) (input : KeyPoint → KeyStore → KeyEnv) (s : KeyStore) (k : Nat),
      Ed25519Lengths crypto → Authorised crypto body recipientDid senderDid knownAdminDids →
      Advances body s →
      ((applyKeyRotationBody crypto body recipientDid senderDid knownAdminDids).outcome input
        ((applyKeyRotationBody crypto body recipientDid senderDid knownAdminDids).cut input k
          s)).2 =
      ((applyKeyRotationBody crypto body recipientDid senderDid knownAdminDids).outcome input
        s).2 := by
  intro h
  have hsame := h tokenCrypto rotationBody "did:b" "did:a" ["did:a"] (fun _ _ => ⟨[], 0⟩)
    genesisStore 5 tokenCrypto_lengths ⟨by decide, by decide⟩
    ⟨by decide, by decide, by decide, by decide⟩
  have hown := congrArg (fun s => s.ownCapabilities.get? ("space", 1)) hsame
  revert hown
  decide

end GroupKeys

end WebOfTrust
