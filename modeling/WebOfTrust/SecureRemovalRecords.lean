/-
  **What a removal record means.**  A staging fixes the material of a removal, its
  generation and its brokers; phase and confirmations are all that changes later.

  Every record with a staging identity goes back to the moment that identity was
  minted (`Minted`).  If the removal was not committed by then, its confirmations
  are frames that the brokers have accepted, with exactly its material.  This is
  known of every stored record (`RemovalInv`) and of every copy a driver holds
  (`Known`), and no other driver can make it false: history only grows (`Grows`).
-/
import WebOfTrust.SecureRemoval

namespace WebOfTrust

open KeyedTable List

/-! ## 1. Stagings -/

structure Staging where
  spaceId : DocId
  removedDid : Did
  homeBrokerSet : List String
  newGeneration : Nat
  stagedKeyMaterial : StagedRemovalKeyMaterial
  stagingId : Option String
  materialFingerprint : Option String
  activityEntry : Option String
  canonicalSelfRemovalRotation : Bool

def RemovalFields.staging (r : RemovalFields) : Staging where
  spaceId := r.spaceId
  removedDid := r.removedDid
  homeBrokerSet := r.homeBrokerSet
  newGeneration := r.newGeneration
  stagedKeyMaterial := r.stagedKeyMaterial
  stagingId := r.stagingId
  materialFingerprint := r.materialFingerprint
  activityEntry := r.activityEntry
  canonicalSelfRemovalRotation := r.canonicalSelfRemovalRotation

def Staging.rotateFrame (s : Staging) : RotateFrame where
  spaceId := s.spaceId
  newGeneration := s.newGeneration
  newCapVerificationKey := s.stagedKeyMaterial.capVerificationKey

open Staging

theorem stagingId_of_staging {r s : RemovalFields} (h : r.staging = s.staging) :
    r.stagingId = s.stagingId :=
  congrArg stagingId h

theorem homeBrokerSet_of_staging {r s : RemovalFields} (h : r.staging = s.staging) :
    r.homeBrokerSet = s.homeBrokerSet :=
  congrArg homeBrokerSet h

theorem rotateFrame_of_staging {r s : PendingRemoval} (h : r.staging = s.staging) :
    r.rotateFrame = s.rotateFrame :=
  congrArg rotateFrame h

theorem PendingRemoval.commit_eq (r : PendingRemoval) :
    r.commit = ⟨r.staging.spaceId, r.staging.removedDid, r.staging.newGeneration,
      r.staging.activityEntry⟩ := rfl

theorem commit_of_staging {r s : PendingRemoval} (h : r.staging = s.staging) :
    r.commit = s.commit := by
  rw [r.commit_eq, s.commit_eq, h]

/-! ## 2. History -/

structure Grows (w w' : RemovalWorld) : Prop where
  minted : ∀ m ∈ w.minted, m ∈ w'.minted
  accepted : ∀ a ∈ w.accepted, a ∈ w'.accepted
  commits : ∀ c ∈ w.commits, c ∈ w'.commits
  generation : ∀ spaceId, (w.keys spaceId).generation ≤ (w'.keys spaceId).generation
  inherited : w'.inherited = w.inherited

namespace Grows

variable (w : RemovalWorld)

theorem refl : Grows w w where
  minted _ h := h
  accepted _ h := h
  commits _ h := h
  generation _ := Int.le_refl _
  inherited := rfl

theorem trans {w₁ w₂ w₃ : RemovalWorld} (h : Grows w₁ w₂) (h' : Grows w₂ w₃) : Grows w₁ w₃ where
  minted m hm := h'.minted m (h.minted m hm)
  accepted a ha := h'.accepted a (h.accepted a ha)
  commits c hc := h'.commits c (h.commits c hc)
  generation spaceId := Int.le_trans (h.generation spaceId) (h'.generation spaceId)
  inherited := h'.inherited.trans h.inherited

theorem of_eq {w w' : RemovalWorld} (hm : w'.minted = w.minted) (ha : w'.accepted = w.accepted)
    (hc : w'.commits = w.commits) (hk : w'.keys = w.keys) (hi : w'.inherited = w.inherited) :
    Grows w w' where
  minted _ h := hm ▸ h
  accepted _ h := ha ▸ h
  commits _ h := hc ▸ h
  generation _ := Int.le_of_eq (by rw [hk])
  inherited := hi

theorem store (removals : PendingRemovals) : Grows w { w with removals := removals } :=
  of_eq rfl rfl rfl rfl rfl

theorem install (brokerUrl : String) (frame : RotateFrame) :
    Grows w (w.install brokerUrl frame) where
  minted _ h := h
  accepted _ h := mem_append_left _ h
  commits _ h := h
  generation _ := Int.le_refl _
  inherited := rfl

theorem mint (m : PendingRemoval) : Grows w { w with minted := w.minted ++ [m] } where
  minted _ h := mem_append_left _ h
  accepted _ h := h
  commits _ h := h
  generation _ := Int.le_refl _
  inherited := rfl

theorem commit (c : RemovalCommit) : Grows w { w with commits := w.commits ++ [c] } where
  minted _ h := h
  accepted _ h := h
  commits _ h := mem_append_left _ h
  generation _ := Int.le_refl _
  inherited := rfl

theorem setKeys {w : RemovalWorld} {spaceId : DocId} {keys : SpaceKeys}
    (h : (w.keys spaceId).generation ≤ keys.generation) :
    Grows w (w.setKeys spaceId keys) where
  minted _ h := h
  accepted _ h := h
  commits _ h := h
  inherited := rfl
  generation spaceId' := by
    show _ ≤ (Function.update w.keys spaceId keys spaceId').generation
    by_cases hspace : spaceId' = spaceId
    · subst hspace
      rwa [Function.update_self]
    · exact Int.le_of_eq (by rw [Function.update_of_ne hspace])

end Grows

/-- `r` has the identity that was minted as `m`.  What was minted before the commit
    is confirmed by accepted frames only, and past it only once that was made; what
    was minted later is never committed again. -/
structure Minted (w : RemovalWorld) (r m : PendingRemoval) : Prop where
  mem : m ∈ w.minted
  staging : m.staging = r.staging
  confirmed : m.phase = .staged → ∀ url ∈ r.confirmedBrokerUrls, (url, r.rotateFrame) ∈ w.accepted
  committed : m.phase = .staged → r.phase.preCommit = false → r.commit ∈ w.commits
  settled : m.phase ≠ .staged → r.phase.preCommit = false ∧ w.inherited = true

structure Known (w : RemovalWorld) (r : PendingRemoval) : Prop where
  home : ∀ url ∈ r.confirmedBrokerUrls, url ∈ r.homeBrokerSet
  minted : r.stagingId.isSome = true → ∃ m, Minted w r m
  identified : r.stagingId = none → w.inherited = true

/-- Every home broker has accepted the frame of a removal. -/
def Enforced (w : RemovalWorld) (r : PendingRemoval) : Prop :=
  ∀ url ∈ r.homeBrokerSet, (url, r.rotateFrame) ∈ w.accepted

def Carries (w : RemovalWorld) (r : PendingRemoval) : Prop :=
  ∃ s, w.removals.getPendingRemoval r.spaceId r.removedDid = some s ∧
    s.stagingId.isSome = true ∧ s.staging = r.staging

/-- A record that may be deleted: past its commit, or a canonical self-removal whose
    generation has come about without it. -/
def Removable (w : RemovalWorld) (r : PendingRemoval) : Prop :=
  r.phase.preCommit = false ∨
    r.canonicalSelfRemovalRotation = true ∧ (r.newGeneration : Int) ≤ (w.keys r.spaceId).generation

section

variable {w w' : RemovalWorld} {r s m : PendingRemoval}

theorem Minted.grow (h : Minted w r m) (hg : Grows w w') : Minted w' r m where
  mem := hg.minted m h.mem
  staging := h.staging
  confirmed hp url hurl := hg.accepted _ (h.confirmed hp url hurl)
  committed hp hpost := hg.commits _ (h.committed hp hpost)
  settled hp := ⟨(h.settled hp).1, hg.inherited.trans (h.settled hp).2⟩

theorem Known.grow (h : Known w r) (hg : Grows w w') : Known w' r where
  home := h.home
  minted hid := by
    obtain ⟨m, hm⟩ := h.minted hid
    exact ⟨m, hm.grow hg⟩
  identified hid := hg.inherited.trans (h.identified hid)

theorem Enforced.grow (h : Enforced w r) (hg : Grows w w') : Enforced w' r :=
  fun url hurl => hg.accepted _ (h url hurl)

theorem Removable.grow (h : Removable w r) (hg : Grows w w') : Removable w' r := by
  rcases h with hpost | ⟨hcanonical, hgen⟩
  · exact .inl hpost
  · exact .inr ⟨hcanonical, Int.le_trans hgen (hg.generation r.spaceId)⟩

theorem Known.change (h : Known w r) (hstaging : s.staging = r.staging)
    (hconf : ∀ url ∈ s.confirmedBrokerUrls,
      url ∈ r.confirmedBrokerUrls ∨ url ∈ r.homeBrokerSet ∧ (url, r.rotateFrame) ∈ w.accepted)
    (hphase : r.phase.preCommit = false → s.phase.preCommit = false)
    (hcommit : s.phase.preCommit = false → r.phase.preCommit = false ∨ r.commit ∈ w.commits) :
    Known w s where
  home := by
    intro url hurl
    have hhome := homeBrokerSet_of_staging hstaging
    rcases hconf url hurl with hold | hnew
    · exact hhome ▸ h.home url hold
    · exact hhome ▸ hnew.1
  minted := by
    intro hid
    rw [stagingId_of_staging hstaging] at hid
    obtain ⟨m, hm⟩ := h.minted hid
    refine ⟨m, hm.mem, hm.staging.trans hstaging.symm, ?_, ?_,
      fun hp => ⟨hphase (hm.settled hp).1, (hm.settled hp).2⟩⟩
    · intro hp url hurl
      rw [rotateFrame_of_staging hstaging]
      rcases hconf url hurl with hold | hnew
      · exact hm.confirmed hp url hold
      · exact hnew.2
    · intro hp hpost
      rw [commit_of_staging hstaging]
      rcases hcommit hpost with hold | hnew
      · exact hm.committed hp hold
      · exact hnew
  identified := by
    rw [stagingId_of_staging hstaging]
    exact h.identified

theorem Known.advance (h : Known w r) (hstaging : s.staging = r.staging)
    (hconf : s.confirmedBrokerUrls = r.confirmedBrokerUrls)
    (hpost : s.phase.preCommit = false)
    (hcommit : r.phase.preCommit = false ∨ r.commit ∈ w.commits) : Known w s :=
  h.change hstaging (fun _ hurl => .inl (hconf ▸ hurl)) (fun _ => hpost) fun _ => hcommit

end

/-! ## 3. The invariant -/

variable (fingerprint : Nat → StagedRemovalKeyMaterial → String)

/-- What holds between any two steps, whoever makes them. -/
structure RemovalInv (w : RemovalWorld) : Prop where
  ids : (w.minted.map fun m => m.stagingId).Nodup
  bound : ∀ m ∈ w.minted, m.isBound fingerprint = true
  known : ∀ k row, w.removals.get? k = some row → Known w row.load
  phased : ∀ k row, w.removals.get? k = some row → row.stagingId.isSome = true →
    row.phase.isSome = true

structure LegacyStore (w : RemovalWorld) : Prop where
  unminted : w.minted = []
  legacy : ∀ k row, w.removals.get? k = some row → row.stagingId = none ∧
    w.inherited = true ∧ ∀ url ∈ row.confirmedBrokerUrls, url ∈ row.homeBrokerSet

variable {fingerprint} {w w' : RemovalWorld} {r s m : PendingRemoval}

theorem LegacyStore.inv (h : LegacyStore w) : RemovalInv fingerprint w where
  ids := by rw [h.unminted]; exact nodup_nil
  bound := by
    intro m hm
    rw [h.unminted] at hm
    cases hm
  known := by
    intro k row hrow
    obtain ⟨hid, hinherited, hhome⟩ := h.legacy k row hrow
    refine ⟨hhome, fun hsome => ?_, fun _ => hinherited⟩
    have hnone : row.load.stagingId = none := hid
    rw [hnone] at hsome
    cases hsome
  phased := by
    intro k row hrow hsome
    rw [(h.legacy k row hrow).1] at hsome
    cases hsome

open Grows

namespace RemovalInv

section

variable (h : RemovalInv fingerprint w)
include h

theorem knownOf {spaceId : DocId} {removedDid : Did}
    (hr : w.removals.getPendingRemoval spaceId removedDid = some r) : Known w r := by
  obtain ⟨row, hrow, rfl⟩ := Option.map_eq_some_iff.mp hr
  exact h.known _ row hrow

theorem knownOf_list (hr : r ∈ w.removals.listPendingRemovals) : Known w r := by
  obtain ⟨row, hrow, rfl⟩ := mem_map.mp hr
  exact h.known _ row (mem_rows_iff.mp hrow)

theorem isBound (hr : Known w r) (hid : r.stagingId.isSome = true) :
    r.isBound fingerprint = true := by
  obtain ⟨m, hm⟩ := hr.minted hid
  have hbound := h.bound m hm.mem
  have hfp : m.materialFingerprint = r.materialFingerprint :=
    congrArg materialFingerprint hm.staging
  have hgen : m.newGeneration = r.newGeneration := congrArg newGeneration hm.staging
  have hmat : m.stagedKeyMaterial = r.stagedKeyMaterial :=
    congrArg stagedKeyMaterial hm.staging
  unfold PendingRemoval.isBound at hbound ⊢
  rwa [stagingId_of_staging hm.staging, hfp, hgen, hmat] at hbound

theorem mint_unique {m m' : PendingRemoval} (hm : m ∈ w.minted)
    (hm' : m' ∈ w.minted) (hid : m.stagingId = m'.stagingId) : m = m' :=
  inj_on_of_nodup_map h.ids hm hm' hid

/-- **An identity determines its staging**, wherever a record is found. -/
theorem staging_unique (hr : Known w r) (hs : Known w s)
    (hsome : r.stagingId.isSome = true) (hid : r.stagingId = s.stagingId) :
    r.staging = s.staging := by
  obtain ⟨m, hm⟩ := hr.minted hsome
  obtain ⟨m', hm'⟩ := hs.minted (hid ▸ hsome)
  have hmid : m.stagingId = m'.stagingId :=
    (stagingId_of_staging hm.staging).trans (hid.trans (stagingId_of_staging hm'.staging).symm)
  cases h.mint_unique hm.mem hm'.mem hmid
  exact hm.staging.symm.trans hm'.staging

end

/-! ### Writes -/

section

variable (h : RemovalInv fingerprint w)
include h

theorem grow (hr : w'.removals = w.removals)
    (hm : w'.minted = w.minted) (hg : Grows w w') : RemovalInv fingerprint w' where
  ids := hm ▸ h.ids
  bound := hm ▸ h.bound
  known k row hrow := (h.known k row (hr ▸ hrow)).grow hg
  phased k row hrow := h.phased k row (hr ▸ hrow)

theorem mint (hbound : m.isBound fingerprint = true)
    (hfresh : ∀ m' ∈ w.minted, m'.stagingId ≠ m.stagingId) :
    RemovalInv fingerprint { w with minted := w.minted ++ [m] } where
  ids := by
    rw [map_append, nodup_append]
    refine ⟨h.ids, nodup_singleton _, fun id hid id' hid' => ?_⟩
    obtain ⟨m', hm', rfl⟩ := mem_map.mp hid
    cases mem_singleton.mp hid'
    exact hfresh m' hm'
  bound := by
    intro m' hm'
    rcases mem_append.mp hm' with hold | hnew
    · exact h.bound m' hold
    · rw [mem_singleton.mp hnew]; exact hbound
  known k row hrow :=
    (h.known k row hrow).grow (Grows.mint w m)
  phased := h.phased

theorem put (hr : Known w r) :
    RemovalInv fingerprint { w with removals := w.removals.put r.toStored } where
  ids := h.ids
  bound := h.bound
  known := by
    intro k row hrow
    rw [get?_put] at hrow
    split at hrow
    · cases hrow; exact hr.grow (store w _)
    · exact (h.known k row hrow).grow (store w _)
  phased := by
    intro k row hrow hsome
    rw [get?_put] at hrow
    split at hrow
    · cases hrow; rfl
    · exact h.phased k row hrow hsome

theorem erase (k : DocId × Did) :
    RemovalInv fingerprint { w with removals := w.removals.erase k } where
  ids := h.ids
  bound := h.bound
  known := by
    intro k' row hrow
    rw [get?_erase] at hrow
    split at hrow
    · cases hrow
    · exact (h.known k' row hrow).grow (store w _)
  phased := by
    intro k' row hrow hsome
    rw [get?_erase] at hrow
    split at hrow
    · cases hrow
    · exact h.phased k' row hrow hsome

end

end RemovalInv

namespace SpaceKeys

theorem generation_saveKey (k : SpaceKeys) (generation : Nat) (key : Bytes) :
    k.generation ≤ (k.saveKey generation key).generation :=
  Int.le_max_left _ _

theorem generation_importKeys (k : SpaceKeys) (keys : List (Nat × Bytes)) :
    k.generation ≤ (keys.foldl (fun k g => k.saveKey g.1 g.2) k).generation := by
  induction keys generalizing k with
  | nil => exact Int.le_refl _
  | cons g rest ih => exact Int.le_trans (k.generation_saveKey g.1 g.2) (ih _)

end SpaceKeys

/-! ## 4. Store operations -/

namespace PendingRemovals

variable {t : PendingRemovals} {spaceId : DocId} {removedDid : Did}

def confirm (row : StoredPendingRemoval) (brokerUrl : String) : StoredPendingRemoval :=
  { row with confirmedBrokerUrls := row.confirmedBrokerUrls ++ [brokerUrl] }

theorem markBrokerConfirmed_cases (t : PendingRemovals) (spaceId : DocId) (removedDid : Did)
    (brokerUrl : String) (binding : BrokerConfirmationBinding) :
    (t.markBrokerConfirmed spaceId removedDid brokerUrl (some binding)).2 = t ∧
        (t.markBrokerConfirmed spaceId removedDid brokerUrl (some binding)).1 ≠ .recorded ∨
      ∃ row, t.get? (spaceId, removedDid) = some row ∧ brokerUrl ∈ row.homeBrokerSet ∧
        matchesConfirmationBinding row (some binding) = true ∧
          (t.markBrokerConfirmed spaceId removedDid brokerUrl (some binding)).1 = .recorded ∧
            (t.markBrokerConfirmed spaceId removedDid brokerUrl (some binding)).2 =
              t.put (confirm row brokerUrl) := by
  unfold markBrokerConfirmed
  cases hrow : t.get? (spaceId, removedDid) with
  | none => exact .inl ⟨rfl, by simp [confirmationOutcome]⟩
  | some row =>
    by_cases hhome : brokerUrl ∈ row.homeBrokerSet
    · by_cases hbinding : matchesConfirmationBinding row (some binding) = true
      · by_cases hconfirmed : brokerUrl ∈ row.confirmedBrokerUrls
        · exact .inl (by simp [confirmationOutcome, hhome, hbinding, hconfirmed])
        · refine .inr ⟨row, rfl, hhome, hbinding, ?_⟩
          simp [confirmationOutcome, hhome, hbinding, hconfirmed, update, hrow, confirm]
      · exact .inl (by simp [confirmationOutcome, hhome, hbinding])
    · exact .inl (by simp [confirmationOutcome, hhome])

theorem deletePendingRemoval_cases (t : PendingRemovals) (spaceId : DocId) (removedDid : Did)
    (expect : WriteExpectation) :
    (t.deletePendingRemoval spaceId removedDid (some expect)).2 = t ∨
      matchesStagingExpectation (t.getPendingRemoval spaceId removedDid) (some expect) = true ∧
        (t.deletePendingRemoval spaceId removedDid (some expect)).2 =
          t.erase (spaceId, removedDid) := by
  unfold deletePendingRemoval
  rcases t.getPendingRemoval spaceId removedDid with _ | r
  · exact .inl rfl
  by_cases h : matchesStagingExpectation (some r) (some expect) = true
  · exact .inr (by simp [h])
  · exact .inl (by simp [h])

theorem putPendingRemoval_ok {removal : PendingRemoval} {expect : WriteExpectation}
    {t' : PendingRemovals} (h : t.putPendingRemoval removal (some expect) = .ok t') :
    matchesStagingExpectation (t.getPendingRemoval removal.spaceId removal.removedDid)
        (some expect) = true ∧ t' = t.put removal.toStored := by
  simp only [putPendingRemoval] at h
  split at h
  · next hmatch => exact ⟨hmatch, by cases h; rfl⟩
  · cases h

theorem putPendingRemoval_error {removal : PendingRemoval} {expect : WriteExpectation}
    {existing : Option PendingRemoval}
    (h : t.putPendingRemoval removal (some expect) = .error existing) :
    existing = t.getPendingRemoval removal.spaceId removal.removedDid := by
  simp only [putPendingRemoval] at h
  split at h
  · cases h
  · cases h; rfl

theorem getPendingRemoval_put (t : PendingRemovals) (row : StoredPendingRemoval)
    (spaceId : DocId) (removedDid : Did) :
    getPendingRemoval (t.put row) spaceId removedDid =
      if row.key = (spaceId, removedDid) then some row.load
      else t.getPendingRemoval spaceId removedDid := by
  unfold getPendingRemoval
  rw [get?_put]
  split <;> rfl

theorem getPendingRemoval_erase (t : PendingRemovals) (k : DocId × Did) (spaceId : DocId)
    (removedDid : Did) :
    getPendingRemoval (t.erase k) spaceId removedDid =
      if k = (spaceId, removedDid) then none else t.getPendingRemoval spaceId removedDid := by
  unfold getPendingRemoval
  rw [get?_erase]
  split <;> rfl

end PendingRemovals

/-! ## 5. Confirmations -/

theorem stagingId_of_binding {row : StoredPendingRemoval} (hid : r.stagingId.isSome = true)
    (h : matchesConfirmationBinding row (some r.binding) = true) :
    row.stagingId = r.stagingId := by
  obtain ⟨id, hsome⟩ := Option.isSome_iff_exists.mp hid
  simp only [matchesConfirmationBinding, PendingRemoval.binding, hsome, Bool.and_eq_true,
    decide_eq_true_eq] at h
  rw [h.1.1, hsome]
  rfl

section

variable (h : RemovalInv fingerprint w) (hr : Known w r) (hid : r.stagingId.isSome = true)
  {brokerUrl : String} (haccepted : (brokerUrl, r.rotateFrame) ∈ w.accepted)
include h hr hid haccepted

theorem RemovalInv.confirm {row : StoredPendingRemoval}
    {k : DocId × Did} (hrow : w.removals.get? k = some row)
    (hhome : brokerUrl ∈ row.homeBrokerSet)
    (hbinding : matchesConfirmationBinding row (some r.binding) = true) :
    Known w (PendingRemovals.confirm row brokerUrl).load := by
  have hrowid : row.load.stagingId = r.stagingId := stagingId_of_binding hid hbinding
  have hsome : row.stagingId.isSome = true := hrowid ▸ hid
  have hstaging : row.load.staging = r.staging :=
    h.staging_unique (h.known k row hrow) hr (hrowid ▸ hid) hrowid
  have hframe := rotateFrame_of_staging hstaging
  obtain ⟨phase, hphase⟩ := Option.isSome_iff_exists.mp (h.phased k row hrow hsome)
  refine (h.known k row hrow).change rfl (fun url hurl => ?_) ?_ ?_
  · rcases mem_append.mp hurl with hold | hnew
    · exact .inl hold
    · cases mem_singleton.mp hnew
      exact .inr ⟨hhome, hframe ▸ haccepted⟩
  · -- the phase of a record with an identity is stored, not inferred
    intro hpre
    simpa [StoredPendingRemoval.load, PendingRemovals.confirm, hphase] using hpre
  · intro hpost
    left
    simpa [StoredPendingRemoval.load, PendingRemovals.confirm, hphase] using hpost

theorem RemovalInv.markBrokerConfirmed : RemovalInv fingerprint { w with
      removals := (w.removals.markBrokerConfirmed r.spaceId r.removedDid brokerUrl
        (some r.binding)).2 } := by
  rcases PendingRemovals.markBrokerConfirmed_cases w.removals r.spaceId r.removedDid brokerUrl
    r.binding with ⟨hsame, -⟩ | ⟨row, hrow, hhome, hbinding, -, hput⟩
  · exact h.grow hsame rfl (store w _)
  rw [hput]
  have hsome : row.stagingId.isSome = true := stagingId_of_binding hid hbinding ▸ hid
  refine ⟨h.ids, h.bound, fun k' row' hrow' => ?_, fun k' row' hrow' hsome' => ?_⟩
  · rw [get?_put] at hrow'
    split at hrow'
    · cases hrow'
      exact (h.confirm hr hid haccepted hrow hhome hbinding).grow (store w _)
    · exact (h.known k' row' hrow').grow (store w _)
  · rw [get?_put] at hrow'
    split at hrow'
    · cases hrow'
      exact h.phased _ row hrow hsome
    · exact h.phased k' row' hrow' hsome'

end

end WebOfTrust
