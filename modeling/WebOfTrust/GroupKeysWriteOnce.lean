/-
  **A content key is written once.**  The store overwrites blindly; what protects a slot
  is that a workflow has seen it above the current generation.  Between that look and the
  save lie awaits, so two workflows can have looked at the same slot, and an import or an
  invite does not look at all (`invite_overwrites`).

  Where no save hits a slot that another workflow has looked at and not saved yet, and
  where imports and invites bring what is stored or fill a free slot, no key is ever
  replaced (`contentKey_writeOnce`).
-/
import WebOfTrust.GroupKeys

namespace WebOfTrust

open Async Config List

/-! ## 1. What a writer relies on -/

/-- The slot that a workflow has looked at and is going to save, with the key it holds
    for it already. -/
def KeyPoint.reserved : KeyPoint → Option (KeySlot × Option Bytes)
  | .randomContentKey spaceId => some ((spaceId, 0), none)
  | .saveKey writer slot key => if writer.checks then some (slot, some key) else none
  | _ => none

def KeyStore.Free (s : KeyStore) (slot : KeySlot) (key : Option Bytes) : Prop :=
  s.contentKey slot = none ∨ s.contentKey slot = key

def KeyPoint.Pending (t : KeyPoint) (s : KeyStore) : Prop :=
  ∀ slot key, t.reserved = some (slot, key) → s.Free slot key

structure KeysKept (t : KeyPoint) (s s' : KeyStore) : Prop where
  kept : ∀ slot key, s.contentKey slot = some key → s'.contentKey slot = some key
  added : ∀ slot, s'.contentKey slot ≠ s.contentKey slot →
    ∃ writer key, t = .saveKey writer slot key ∧ s'.contentKey slot = some key

def KeyPoint.May (t : KeyPoint) (s : KeyStore) : Prop :=
  ∀ writer slot key, t = .saveKey writer slot key → writer.checks = false → s.Free slot (some key)

def keyContract : Contract KeyPoint KeyEnv KeyStore where
  inv _ := True
  rely t s s' := t.Pending s → t.Pending s'
  may t _ s := t.May s
  guar t _ s s' := KeysKept t s s'

abbrev Safe {α : Type} (p : KeyProgram α) (s : KeyStore) : Prop :=
  Meets keyContract (fun _ _ => True) (fun _ _ => True) p s

open KeyStore

theorem KeysKept.of_eq {t : KeyPoint} {s s' : KeyStore} (h : s'.contentKeys = s.contentKeys) :
    KeysKept t s s' := by
  have hsame : ∀ slot, s'.contentKey slot = s.contentKey slot := by
    intro slot
    unfold contentKey
    rw [h]
  constructor
  · intro slot key hk
    rw [hsame]
    exact hk
  · intro slot hne
    exact absurd (hsame slot) hne

theorem pending_of_star {t : KeyPoint} {s s' : KeyStore}
    (h : Relation.ReflTransGen (keyContract.rely t) s s') (hs : t.Pending s) : t.Pending s' :=
  relies_of_star (r := keyContract.rely t) (fun _ h => h) (fun _ _ _ h h' hs => h' (h hs)) h hs

/-! ## 2. One lemma per access -/

section

variable {α β : Type} {s : KeyStore} {t : KeyPoint} {p : KeyProgram α} {g : α → KeyProgram β}
  {slot : KeySlot}

theorem safe_bind {f : α → KeyProgram β}
    (h : Meets keyContract (fun a s' => Safe (f a) s') (fun _ _ => True) p s) : Safe (p.bind f) s :=
  meets_bind h

theorem safe_readKeyStore {f : KeyStore → Except String α} (h : ∀ a s', Safe (g a) s') :
    Safe ((readKeyStore t f).bind g) s := by
  apply safe_bind
  apply meets_atomic
  intro s' _ _ _ _
  exact ⟨trivial, .of_eq rfl, fun a _ => h a s', fun _ _ => trivial⟩

theorem safe_getCurrentGeneration {spaceId : DocId} {g : Int → KeyProgram β}
    (h : ∀ s', Safe (g (s'.getCurrentGeneration spaceId)) s') :
    Safe ((getCurrentGeneration spaceId).bind g) s := by
  apply safe_bind
  apply meets_atomic
  intro s' _ _ _ _
  refine ⟨trivial, .of_eq rfl, ?_, fun _ _ => trivial⟩
  intro a ha
  cases ha
  exact h s'

theorem safe_callCrypto {f : KeyEnv → Except String α}
    (h : ∀ a s', (t.Pending s → t.Pending s') → Safe (g a) s') :
    Safe ((callCrypto t f).bind g) s := by
  apply safe_bind
  apply meets_atomic
  intro s' hrely _ _ _
  exact ⟨trivial, .of_eq rfl, fun a _ => h a s' (pending_of_star hrely), fun _ _ => trivial⟩

theorem safe_writeKeyStore {f : KeyStore → Except String KeyStore} {g : Unit → KeyProgram β}
    (hf : ∀ s s', f s = .ok s' → s'.contentKeys = s.contentKeys) (h : ∀ s', Safe (g ()) s') :
    Safe ((writeKeyStore t f).bind g) s := by
  apply safe_bind
  apply meets_atomic
  intro s' _ _ _ _
  split
  · next s'' hs'' => exact ⟨trivial, .of_eq (hf s' s'' hs''), fun _ _ => h s'', fun _ _ => trivial⟩
  · next e he => exact ⟨trivial, .of_eq rfl, fun _ _ => h s', fun _ _ => trivial⟩

theorem meets_saveContentKey {writer : KeyWriter} {key : Bytes} {Q : Unit → KeyStore → Prop}
    (hfree : writer.checks = true → s.Free slot (some key)) (h : ∀ s', Q () s') :
    Meets keyContract Q (fun _ _ => True) (saveContentKey writer slot key) s := by
  apply meets_atomic
  intro s' hrely _ _ hmay
  have hfree' : s'.Free slot (some key) := by
    by_cases hchecks : writer.checks = true
    · apply pending_of_star hrely
      · intro slot' key' hreserved
        simp only [KeyPoint.reserved, hchecks, if_true, Option.some.injEq, Prod.mk.injEq]
          at hreserved
        obtain ⟨rfl, rfl⟩ := hreserved
        exact hfree hchecks
      · simp [KeyPoint.reserved, hchecks]
    · exact hmay writer slot key rfl (by simpa using hchecks)
  split
  · next s'' hs'' =>
    refine ⟨trivial, ?_, fun _ _ => h s'', fun _ _ => trivial⟩
    have hkey := contentKey_saveKey hs''
    constructor
    · intro other key' hstored
      rw [hkey]
      by_cases hslot : slot = other
      · subst hslot
        rcases hfree' with hnone | hsame
        · rw [hnone] at hstored
          cases hstored
        · rw [if_pos rfl, ← hsame]
          exact hstored
      · rw [if_neg hslot]
        exact hstored
    · intro other hne
      by_cases hslot : slot = other
      · subst hslot
        exact ⟨writer, key, rfl, by rw [hkey, if_pos rfl]⟩
      · rw [hkey, if_neg hslot] at hne
        exact absurd rfl hne
  · next e he => exact ⟨trivial, .of_eq rfl, fun _ _ => h s', fun _ _ => trivial⟩

theorem safe_saveContentKey {writer : KeyWriter} {key : Bytes} {g : Unit → KeyProgram β}
    (hfree : writer.checks = true → s.Free slot (some key)) (h : ∀ s', Safe (g ()) s') :
    Safe ((saveContentKey writer slot key).bind g) s :=
  safe_bind (meets_saveContentKey hfree h)

theorem safe_ofExcept {r : Except String α} (h : ∀ a, Safe (g a) s) :
    Safe ((Async.ofExcept r).bind g) s := by
  cases r with
  | ok a => exact h a
  | error e => trivial

theorem Safe.map (h : Safe p s) (f : α → β) : Safe (f <$> p) s :=
  safe_bind (h.mono (fun _ _ _ => trivial) fun _ _ _ => trivial)

theorem Safe.bind (h : Safe p s) (hg : ∀ a s', Safe (g a) s') : Safe (p.bind g) s :=
  safe_bind (h.mono (fun a s' _ => hg a s') fun _ _ _ => trivial)

theorem free_of_getCurrentGeneration {key : Option Bytes}
    (h : s.getCurrentGeneration slot.1 < (slot.2 : Int)) : s.Free slot key :=
  .inl (contentKey_of_getCurrentGeneration h)

end

/-! ## 3. The workflows -/

namespace GroupKeys

variable {crypto : KeyCrypto} {s : KeyStore}

theorem safe_provisionCapabilityForGeneration (spaceId : DocId) (ownerDid : Did)
    (material : StagedRotationMaterial) (validityMs : Nat) :
    Safe (provisionCapabilityForGeneration crypto spaceId ownerDid material validityMs) s := by
  apply safe_writeKeyStore
  · intro s s' h
    exact contentKeys_saveCapabilityKeyPair h
  intro s₁
  apply safe_callCrypto
  intro ownCapabilityJws s₂ _
  apply safe_writeKeyStore
  · intro s s' h
    exact contentKeys_saveOwnCapability h
  intro s₃
  trivial

theorem safe_completeCapabilityChain (spaceId : DocId) (ownerDid : Did)
    (material : StagedRotationMaterial) (validityMs : Nat) (divergentKey divergentCap : String) :
    Safe (completeCapabilityChain crypto spaceId ownerDid material validityMs divergentKey
      divergentCap) s := by
  apply safe_readKeyStore
  intro storedKey s₁
  split
  · trivial
  apply safe_readKeyStore
  intro storedCapVk s₂
  split
  · trivial
  apply safe_readKeyStore
  intro ownCapability s₃
  split
  · trivial
  · apply safe_provisionCapabilityForGeneration

section

variable (options : CreateSpaceKeyOptions)

theorem safe_createSpaceKey : Safe (createSpaceKey crypto options) s := by
  apply safe_ofExcept
  intro validityMs
  apply safe_getCurrentGeneration
  intro s₁
  split
  · trivial
  next hnone =>
  have hfree : s₁.Free (options.spaceId, 0) none := by
    apply free_of_getCurrentGeneration
    simpa using hnone
  -- the slot is reserved from here on
  apply safe_callCrypto
  intro contentKey s₂ hpending
  apply safe_saveContentKey
  · intro _
    have hpending₁ : (KeyPoint.randomContentKey options.spaceId).Pending s₁ := by
      intro slot key hreserved
      cases hreserved
      exact hfree
    rcases hpending hpending₁ _ _ rfl with hnone | hnone
    · exact .inl hnone
    · exact .inl hnone
  intro s₃
  apply safe_callCrypto
  intro seed s₄ _
  apply safe_callCrypto
  intro verificationKey s₅ _
  apply safe_provisionCapabilityForGeneration

theorem safe_createDeterministicSpaceKey (contentKey seed : Bytes) :
    Safe (createDeterministicSpaceKey crypto options contentKey seed) s := by
  apply safe_ofExcept
  intro validityMs
  apply safe_callCrypto
  intro verificationKey s₁ _
  apply safe_getCurrentGeneration
  intro s₂
  split
  · next hnone =>
    apply safe_saveContentKey
    · intro _
      apply free_of_getCurrentGeneration
      exact hnone
    intro s₃
    apply safe_provisionCapabilityForGeneration
  · split
    · apply safe_completeCapabilityChain
    · trivial

theorem safe_commitStagedRotation
    (staged : StagedRotationMaterial) : Safe (commitStagedRotation crypto options staged) s := by
  apply safe_ofExcept
  intro validityMs
  apply safe_getCurrentGeneration
  intro s₁
  split
  · next hcurrent =>
    apply safe_saveContentKey
    · intro _
      apply free_of_getCurrentGeneration
      dsimp only
      omega
    intro s₂
    apply safe_provisionCapabilityForGeneration
  · split
    · apply safe_completeCapabilityChain
    · trivial

theorem safe_stageRotateSpaceKey : Safe (stageRotateSpaceKey crypto options) s := by
  apply safe_ofExcept
  intro validityMs
  apply safe_getCurrentGeneration
  intro s₁
  split
  · trivial
  apply safe_callCrypto
  intro contentKey s₂ _
  apply safe_callCrypto
  intro seed s₃ _
  apply safe_callCrypto
  intro verificationKey s₄ _
  trivial

end

theorem safe_applyKeyRotation (slot : KeySlot) (incomingKey : Bytes) :
    Safe (applyKeyRotation slot incomingKey) s := by
  unfold applyKeyRotation
  split
  · trivial
  apply safe_getCurrentGeneration
  intro s₁
  split
  · trivial
  next hknown =>
  cases hdisp :
    evaluateKeyRotationDisposition (s₁.getCurrentGeneration slot.1).toNat slot.2 with
  | error e => trivial
  | ok disposition =>
    show Safe (if disposition = .apply then
      (saveContentKey .applyKeyRotation slot incomingKey).bind fun _ => .ret disposition
      else .ret disposition) s₁
    split
    · next happly =>
      subst happly
      have hnext : slot.2 = (s₁.getCurrentGeneration slot.1).toNat + 1 := by
        unfold evaluateKeyRotationDisposition at hdisp
        split at hdisp
        · cases hdisp
        split at hdisp
        · cases hdisp
        split at hdisp
        · next h => exact h
        · cases hdisp
      apply safe_saveContentKey
      · intro _
        apply free_of_getCurrentGeneration
        omega
      intro s₂
      trivial
    · trivial

theorem safe_importDuplicateCapabilityMaterial (body : KeyRotationBody) (verificationKey : Bytes) :
    Safe (importDuplicateCapabilityMaterial body verificationKey) s := by
  apply safe_getCurrentGeneration
  intro s₁
  split
  · trivial
  apply safe_readKeyStore
  intro storedContentKey s₂
  split
  · trivial
  split
  · trivial
  apply safe_readKeyStore
  intro existingSeed s₃
  split
  · split
    · trivial
    · trivial
  apply safe_writeKeyStore
  · intro s s' h
    exact contentKeys_saveCapabilityKeyPair h
  intro s₄
  apply safe_writeKeyStore
  · intro s s' h
    exact contentKeys_saveOwnCapability h
  intro s₅
  trivial

theorem safe_applyKeyRotationBody (body : KeyRotationBody) (recipientDid senderDid : Did)
    (knownAdminDids : List Did) :
    Safe (applyKeyRotationBody crypto body recipientDid senderDid knownAdminDids) s := by
  unfold applyKeyRotationBody
  split
  · trivial
  apply safe_callCrypto
  intro verificationKey s₁ _
  apply safe_callCrypto
  intro verified s₂ _
  split
  · trivial
  apply (safe_applyKeyRotation _ _).bind
  intro disposition s₃
  cases disposition with
  | apply =>
    apply safe_writeKeyStore
    · intro s s' h
      exact contentKeys_saveCapabilityKeyPair h
    intro s₄
    apply safe_writeKeyStore
    · intro s s' h
      exact contentKeys_saveOwnCapability h
    intro s₅
    trivial
  | ignoreStaleOrDuplicate =>
    apply (safe_importDuplicateCapabilityMaterial body verificationKey).bind
    intro outcome s₄
    trivial
  | futureBuffer => trivial

theorem safe_applySpaceInviteBody (body : SpaceInviteBody) (recipientDid : Did) :
    Safe (applySpaceInviteBody crypto body recipientDid) s := by
  apply safe_callCrypto
  intro verificationKey s₁ _
  apply safe_callCrypto
  intro verified s₂ _
  split
  · trivial
  have hsaves : Safe (Async.forEach body.spaceContentKeys fun m =>
      saveContentKey .applySpaceInviteBody (body.spaceId, m.generation) m.key) s₂ := by
    apply meets_forEach (J := fun _ => True)
    · intro m _ s₃ _
      apply meets_saveContentKey
      · intro hchecks
        cases hchecks
      · intro s₄
        trivial
    · trivial
  apply hsaves.bind
  intro _ s₃
  apply safe_writeKeyStore
  · intro s s' h
    exact contentKeys_saveCapabilityKeyPair h
  intro s₄
  apply safe_writeKeyStore
  · intro s s' h
    exact contentKeys_saveOwnCapability h
  intro s₅
  trivial

theorem safe_program (call : KeyCall) : Safe (call.program crypto) s := by
  cases call with
  | createSpaceKey options => exact (safe_createSpaceKey options).map _
  | createDeterministicSpaceKey options contentKey seed =>
    exact (safe_createDeterministicSpaceKey options contentKey seed).map _
  | commitStagedRotation options staged => exact (safe_commitStagedRotation options staged).map _
  | rotateSpaceKey options =>
    have hrotate : Safe (rotateSpaceKey crypto options) s := by
      apply (safe_stageRotateSpaceKey options).bind
      intro staged s₁
      exact safe_commitStagedRotation options staged
    exact hrotate.map _
  | applyKeyRotationBody body recipientDid senderDid knownAdminDids =>
    exact (safe_applyKeyRotationBody body recipientDid senderDid knownAdminDids).map _
  | importKey slot key =>
    have hsave : Safe (importKey slot key) s := by
      apply meets_saveContentKey
      · intro hchecks
        cases hchecks
      · intro s₁
        trivial
    exact hsave.map _
  | applySpaceInviteBody body recipientDid =>
    exact (safe_applySpaceInviteBody body recipientDid).map _

/-! ## 4. Runs -/

abbrev KeyConfig := Config KeyPoint KeyEnv KeyStore String KeyResult

/-- The step that is about to be taken takes no slot away from a workflow that has
    looked at it, and an import or an invite replaces nothing. -/
def undisturbed (c : KeyConfig) : Action KeyEnv KeyCall → Bool
  | .run n _ =>
    match c.pointAt n with
    | some (.saveKey writer slot key) =>
      (writer.checks || decide (c.world.contentKey slot = none) ||
        decide (c.world.contentKey slot = some key)) &&
      (range c.procs.length).all fun m =>
        decide (m = n) || ((c.pointAt m).bind KeyPoint.reserved).all fun reserved =>
          decide (reserved.1 ≠ slot) || decide (reserved.2 = some key)
    | _ => true
  | _ => true

abbrev Undisturbed (c : KeyConfig) (a : Action KeyEnv KeyCall) : Prop := undisturbed c a = true

abbrev AnyOrder (_ : KeyConfig) (_ : Action KeyEnv KeyCall) : Prop := True

theorem undisturbed_run {c : KeyConfig} {n : Nat} {i : KeyEnv} {writer : KeyWriter}
    {slot : KeySlot} {key : Bytes} (h : Undisturbed c (.run n i))
    (ht : c.pointAt n = some (.saveKey writer slot key)) :
    (writer.checks = false → c.world.Free slot (some key)) ∧
      ∀ m t', m ≠ n → c.pointAt m = some t' → ∀ expected, t'.reserved = some (slot, expected) →
        expected = some key := by
  simp only [Undisturbed, undisturbed, ht, Bool.and_eq_true, Bool.or_eq_true, decide_eq_true_eq,
    all_eq_true, mem_range] at h
  obtain ⟨hown, hothers⟩ := h
  constructor
  · intro hchecks
    rcases hown with (hlooked | hnone) | hsame
    · rw [hchecks] at hlooked
      cases hlooked
    · exact .inl hnone
    · exact .inr hsame
  · intro m t' hmn hpoint expected hreserved
    have hlt : m < c.procs.length := by
      by_contra hge
      have hnone : c.procs[m]? = none := getElem?_eq_none (Nat.le_of_not_lt hge)
      rw [pointAt, hnone] at hpoint
      cases hpoint
    rcases hothers m hlt with heq | hall
    · exact absurd heq hmn
    rw [hpoint] at hall
    simp only [Option.bind_some, hreserved, Option.all_some, Bool.or_eq_true,
      decide_eq_true_eq] at hall
    rcases hall with hne | hsame
    · exact absurd rfl hne
    · exact hsame

theorem verified (crypto : KeyCrypto) (store : KeyStore) :
    Verified (keySystem crypto) Undisturbed store keyContract (fun _ _ => True)
      (fun _ _ => True) where
  init := trivial
  call _ call _ _ := safe_program call
  may := by
    intro c n i t hadm hpoint _ writer slot key ht hchecks
    subst ht
    exact (undisturbed_run hadm hpoint).1 hchecks
  restart _ _ _ := trivial
  quiet := by
    intro c n i t s' hadm hpoint _ hguar m t' hmn hpoint' hpending slot key hreserved
    by_cases hsame : s'.contentKey slot = c.world.contentKey slot
    · unfold Free
      rw [hsame]
      exact hpending slot key hreserved
    obtain ⟨writer, stored, rfl, hstored⟩ := hguar.added slot hsame
    have hexpected := (undisturbed_run hadm hpoint).2 m t' hmn hpoint' key hreserved
    exact .inr (hstored.trans hexpected.symm)
  result _ _ _ _ _ _ _ := trivial
  error _ _ _ _ _ _ _ := trivial

theorem contentKey_step {store : KeyStore} {c c' : KeyConfig} {a : Action KeyEnv KeyCall}
    (h : Reachable (keySystem crypto) Undisturbed store c) (ha : Undisturbed c a)
    (hs : c.step (keySystem crypto) a = some c') {slot : KeySlot} {key : Bytes}
    (hkey : c.world.contentKey slot = some key) : c'.world.contentKey slot = some key := by
  cases a with
  | call k =>
    rw [world_eq_of_call hs]
    exact hkey
  | run n i =>
    obtain ⟨t, -, hguar⟩ := (verified crypto store).guar h ha hs
    exact hguar.kept slot key hkey
  | crash n =>
    rw [world_eq_of_crash hs]
    exact hkey
  | restart =>
    cases hs
    exact hkey

/-- **Write-once content keys**, over any store and any interleaving in which nobody is
    disturbed. -/
theorem contentKey_writeOnce {store : KeyStore} {c c' : KeyConfig}
    (h : Reachable (keySystem crypto) Undisturbed store c)
    (hlater : LaterIn (keySystem crypto) Undisturbed c c')
    {slot : KeySlot} {key : Bytes} (hkey : c.world.contentKey slot = some key) :
    c'.world.contentKey slot = some key :=
  h.later (P := fun c => c.world.contentKey slot = some key)
    (fun _ _ _ hc ha hs hk => contentKey_step hc ha hs hk) hlater hkey

/-! ## 5. A rotation, and an invite to a space that is there -/

def plainCrypto : KeyCrypto where
  ed25519PublicKeyFromSeed seed := seed
  createSpaceCapabilityJws payload seed :=
    .ok (capability payload.spaceId payload.audience payload.generation seed)
  verifySpaceCapabilityJws jws key spaceId audience generation :=
    decide (jws = capability spaceId audience generation key)
where
  capability (spaceId : DocId) (audience : Did) (generation : Nat) (key : Bytes) : String :=
    String.ofList (spaceId.toList ++ audience.toList ++ replicate generation '+' ++
      key.map fun b => Char.ofNat b.toNat)

def randomEnv (b : UInt8) : KeyEnv where
  randomBytes := replicate 32 b
  now := 0

/-- `did:alice` creates a space. -/
def spaceCreated : List (Action KeyEnv KeyCall) :=
  .call (.createSpaceKey ⟨"space-1", "did:alice", none⟩) :: replicate 8 (.run 0 (randomEnv 1))

def spaceRotated : List (Action KeyEnv KeyCall) :=
  .call (.rotateSpaceKey ⟨"space-1", "did:alice", none⟩) :: replicate 9 (.run 1 (randomEnv 2))

/-- A rotation adds its generation and keeps the one before. -/
theorem contentKey_writeOnce_rotated : ∃ c c' : KeyConfig,
    Reachable (keySystem plainCrypto) Undisturbed .empty c ∧
    LaterIn (keySystem plainCrypto) Undisturbed c c' ∧
    c'.world.contentKey ("space-1", 1) = some (replicate 32 2) ∧
    c'.world.contentKey ("space-1", 0) = some (replicate 32 1) := by
  obtain ⟨c, hc, hruns⟩ := Reachable.of_exec (keySystem plainCrypto) Undisturbed .empty spaceCreated
    (fun c : KeyConfig => decide (c.world.contentKey ("space-1", 0) = some (replicate 32 1)) &&
      (exec (keySystem plainCrypto) Undisturbed c spaceRotated).any fun c' : KeyConfig =>
        decide (c'.world.contentKey ("space-1", 1) = some (replicate 32 2)))
    (by decide)
  rw [Bool.and_eq_true, Option.any_eq_true] at hruns
  obtain ⟨hkey, c', hexec, hnew⟩ := hruns
  have hlater := LaterIn.exec hexec
  exact ⟨c, c', hc, hlater, of_decide_eq_true hnew,
    contentKey_writeOnce hc hlater (of_decide_eq_true hkey)⟩

def otherInvite : SpaceInviteBody where
  spaceId := "space-1"
  currentKeyGeneration := 0
  spaceContentKeys := [⟨0, replicate 32 2⟩]
  spaceCapabilitySigningKey := replicate 32 3
  capability := plainCrypto.capability "space-1" "did:alice" 0 (replicate 32 3)
  current_mem := by decide
  le_current := by decide

def inviteAccepted : List (Action KeyEnv KeyCall) :=
  .call (.applySpaceInviteBody otherInvite "did:alice") :: replicate 3 (.run 1 (randomEnv 0))

/-- **The invite overwrites**: the key of generation 0 is gone, with nobody else at
    work. -/
theorem invite_overwrites :
    ¬ ∀ (crypto : KeyCrypto) (store : KeyStore) (c c' : KeyConfig) (slot : KeySlot) (key : Bytes),
      Reachable (keySystem crypto) AnyOrder store c →
      LaterIn (keySystem crypto) AnyOrder c c' →
      c.world.contentKey slot = some key → c'.world.contentKey slot = some key := by
  intro hclaim
  obtain ⟨c, hc, hruns⟩ := Reachable.of_exec (keySystem plainCrypto) AnyOrder .empty spaceCreated
    (fun c : KeyConfig => decide (c.world.contentKey ("space-1", 0) = some (replicate 32 1)) &&
      (exec (keySystem plainCrypto) AnyOrder c inviteAccepted).any fun c' : KeyConfig =>
        decide (c'.world.contentKey ("space-1", 0) = some (replicate 32 2)))
    (by decide)
  rw [Bool.and_eq_true, Option.any_eq_true] at hruns
  obtain ⟨hkey, c', hexec, hnew⟩ := hruns
  have hkept := hclaim plainCrypto .empty c c' ("space-1", 0) (replicate 32 1) hc
    (LaterIn.exec hexec) (of_decide_eq_true hkey)
  rw [of_decide_eq_true hnew] at hkept
  exact absurd hkept (by decide)

end GroupKeys

end WebOfTrust
