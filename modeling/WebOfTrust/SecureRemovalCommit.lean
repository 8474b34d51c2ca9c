/-
  **Only what every broker confirmed is committed.**  Any number of drivers and
  recoveries over one store, interrupted or lost at any await:

  * a commit step is taken only after every home broker has accepted the frame of
    exactly the committed material (`CommitEnforced`);
  * confirmations are of home brokers, and before the commit they are frames of the
    record's own material that the broker has accepted (`ConfirmationsHonest`); a
    confirmation is only ever added to a record of the staging it was given for
    (`ConfirmationsOwn`).

  The commit gate reads the durable record once.  A driver that has passed it goes on
  when another one has finished and deleted the record (`commit_without_record`).
  Where no step does that, the record carries the staging at every commit step.
-/
import WebOfTrust.SecureRemovalDrivers

namespace WebOfTrust

open Async PendingRemovals KeyedTable Option

/-! ## 1. Runs -/

def displaces (w : RemovalWorld) (env : RemovalEnv) (r : PendingRemoval) : RemovalPoint → Bool
  | .put s expect => env.failure.isNone &&
      decide ((s.spaceId, s.removedDid) = (r.spaceId, r.removedDid)) &&
        matchesStagingExpectation (w.removals.getPendingRemoval r.spaceId r.removedDid)
          (some expect)
  | .delete s => env.failure.isNone &&
      decide ((s.spaceId, s.removedDid) = (r.spaceId, r.removedDid)) &&
        matchesStagingExpectation (w.removals.getPendingRemoval r.spaceId r.removedDid)
          (some (pendingRemovalWriteExpectation (some s)))
  | _ => false

def leavesCommits (c : RemovalConfig) (env : RemovalEnv) (t : RemovalPoint) : Bool :=
  c.procs.all fun p =>
    match p.point with
    | some (.commit r _) => !displaces c.world env r t
    | _ => true

/-- New staging identities are fresh; in an exclusive run nobody is displaced inside
    a commit. -/
def removalRun (exclusive : Bool) (c : RemovalConfig) : Action RemovalEnv RemovalCall → Bool
  | .run n env => (c.pointAt n).all fun t =>
      freshStaging c.world env t && (!exclusive || leavesCommits c env t)
  | _ => true

abbrev RemovalRun (exclusive : Bool) (c : RemovalConfig)
    (a : Action RemovalEnv RemovalCall) : Prop :=
  removalRun exclusive c a = true

/-! ## 2. What is claimed of a step -/

variable {fingerprint : Nat → StagedRemovalKeyMaterial → String} {exclusive : Bool}
  {w w' : RemovalWorld} {r : PendingRemoval} {t : RemovalPoint} {c c' : RemovalConfig}
  {a : Action RemovalEnv RemovalCall} {s removal : PendingRemoval} {env : RemovalEnv} {n : Nat}

theorem stagingId_of_matches (hid : removal.stagingId.isSome = true)
    (h : matchesStagingExpectation (some s)
      (some (pendingRemovalWriteExpectation (some removal))) = true) :
    s.stagingId = removal.stagingId := by
  obtain ⟨id, hsome⟩ := isSome_iff_exists.mp hid
  simpa [pendingRemovalWriteExpectation, hsome, matchesStagingExpectation] using h

theorem legacy_of_matches (hid : removal.stagingId = none) (h : matchesStagingExpectation (some s)
      (some (pendingRemovalWriteExpectation (some removal))) = true) : s.stagingId = none := by
  have h : matchesStagingExpectation (some s) (some (legacyWriteExpectation removal)) = true := by
    simpa [pendingRemovalWriteExpectation, hid] using h
  simp only [matchesStagingExpectation, legacyWriteExpectation, Bool.and_eq_true,
    decide_eq_true_eq] at h
  exact h.1.1.1

theorem stagingId_of_phase_write (h : matchesStagingExpectation (some s)
      (some (pendingRemovalWriteExpectation (some removal))) = true) :
    s.stagingId = removal.stagingId := by
  cases hid : removal.stagingId with
  | none => exact legacy_of_matches hid h
  | some id => exact (stagingId_of_matches (by rw [hid]; rfl) h).trans hid

theorem Carries.markBrokerConfirmed (h : Carries w r) {spaceId : DocId} {removedDid : Did}
    {brokerUrl : String} {binding : BrokerConfirmationBinding}
    (hw' : w'.removals = (w.removals.markBrokerConfirmed spaceId removedDid brokerUrl
      (some binding)).2) : Carries w' r := by
  obtain ⟨s, hs, hid, hstaging⟩ := h
  rcases markBrokerConfirmed_cases w.removals spaceId removedDid brokerUrl binding
    with ⟨hsame, -⟩ | ⟨row, hrow, -, -, -, hput⟩
  · exact ⟨s, by rw [hw', hsame]; exact hs, hid, hstaging⟩
  unfold Carries
  rw [hw', hput, getPendingRemoval_put]
  have hkey : row.key = (spaceId, removedDid) := key_of_get? hrow
  split
  · next heq =>
    have hconf : (confirm row brokerUrl).key = row.key := rfl
    have hrow' : w.removals.getPendingRemoval r.spaceId r.removedDid = some row.load := by
      unfold PendingRemovals.getPendingRemoval
      rw [← heq, hconf, hkey, hrow]
      rfl
    cases hs.symm.trans hrow'
    exact ⟨_, rfl, hid, hstaging⟩
  · exact ⟨s, hs, hid, hstaging⟩

theorem Carries.effect (h : Carries w r) (hinv : RemovalInv fingerprint w)
    (haware : Aware exclusive w t) (heffect : RemovalEffect env w w' t)
    (hquiet : displaces w env r t = false) : Carries w' r := by
  obtain ⟨s, hs, hid, hstaging⟩ := h
  have hcarried : Carries w r := ⟨s, hs, hid, hstaging⟩
  cases t with
  | put removal expect =>
    rcases heffect with hsame | ⟨hfailure, hmatch, hput⟩
    · exact hcarried.frame hsame
    unfold Carries
    rw [hput, getPendingRemoval_put]
    split
    · next heq =>
      obtain ⟨hspace, hdid⟩ := Prod.mk.inj heq
      have hspace : removal.spaceId = r.spaceId := hspace
      have hdid : removal.removedDid = r.removedDid := hdid
      rw [hspace, hdid] at hmatch
      simp [displaces, hfailure, hspace, hdid, hmatch] at hquiet
    · exact ⟨s, hs, hid, hstaging⟩
  | persistPhase copy removal =>
    rcases heffect with hsame | ⟨hfailure, hmatch, hput⟩
    · exact hcarried.frame hsame
    unfold Carries
    rw [hput, getPendingRemoval_put]
    split
    · next heq =>
      obtain ⟨hspace, hdid⟩ := Prod.mk.inj heq
      have hspace : removal.spaceId = r.spaceId := hspace
      have hdid : removal.removedDid = r.removedDid := hdid
      rw [hspace, hdid, hs] at hmatch
      have hsid := stagingId_of_phase_write hmatch
      refine ⟨removal, rfl, hsid ▸ hid, ?_⟩
      rw [← hstaging]
      exact hinv.staging_unique haware.1 (hinv.knownOf hs) (hsid ▸ hid) hsid.symm
    · exact ⟨s, hs, hid, hstaging⟩
  | markBrokerConfirmed removal brokerUrl =>
    rcases heffect with hsame | hmark
    · exact hcarried.frame hsame
    · exact hcarried.markBrokerConfirmed hmark
  | delete removal =>
    rcases heffect with hsame | ⟨hfailure, hdelete⟩
    · exact hcarried.frame hsame
    rcases deletePendingRemoval_cases w.removals removal.spaceId
      removal.removedDid (pendingRemovalWriteExpectation (some removal)) with
        hsame | ⟨hmatch, herase⟩
    · exact hcarried.frame (hdelete.trans hsame)
    unfold Carries
    rw [hdelete, herase, getPendingRemoval_erase]
    split
    · next heq =>
      obtain ⟨hspace, hdid⟩ := Prod.mk.inj heq
      rw [hspace, hdid] at hmatch
      simp [displaces, hfailure, hspace, hdid, hmatch] at hquiet
    · exact ⟨s, hs, hid, hstaging⟩
  | _ => exact hcarried.frame heffect

/-! ## 4. All runs -/

theorem fresh_of_removalRun (hadm : RemovalRun exclusive c (.run n env))
    (hpoint : c.pointAt n = some t) :
    freshStaging c.world env t = true ∧ (exclusive = true → leavesCommits c env t = true) := by
  have hadm : (c.pointAt n).all _ = true := hadm
  rw [hpoint] at hadm
  simp only [all_some, Bool.and_eq_true, Bool.or_eq_true, Bool.not_eq_true'] at hadm
  refine ⟨hadm.1, fun hx => ?_⟩
  rcases hadm.2 with hnot | hleaves
  · rw [hx] at hnot
    cases hnot
  · exact hleaves

theorem removal_verified (hw : LegacyStore w) :
    Verified (removalSystem fingerprint) (RemovalRun exclusive) w
      (removalContract fingerprint exclusive) (fun _ _ => True) (fun _ _ => True) where
  init := hw.inv
  call := fun c call _ _ =>
    (drives_call call c.world).mono (fun _ _ _ => trivial) fun _ _ _ => trivial
  may := fun c n env t hadm hpoint _ => (fresh_of_removalRun hadm hpoint).1
  restart := fun c _ hinv => hinv
  quiet := by
    rintro c n env t w' hadm hpoint hinv ⟨hgrow, haware, heffect⟩ m t' - hm
    refine ⟨hgrow, ?_⟩
    rintro removal step rfl hx hcarried
    obtain ⟨p, hp, hwait⟩ := bind_eq_some_iff.mp hm
    have hkeep := List.all_eq_true.mp ((fresh_of_removalRun hadm hpoint).2 hx) p
      (List.mem_of_getElem? hp)
    simp only [hwait, Bool.not_eq_true'] at hkeep
    exact hcarried.effect hinv haware heffect hkeep
  result := fun _ _ _ _ _ _ _ => trivial
  error := fun _ _ _ _ _ _ _ => trivial

def adminDeps : SecureRemovalDeps where
  ownerDid := "did:admin"
  homeBrokerSet := ["broker-1"]
  validityMs := 1000
  adminRemove := true

def freshWorld : RemovalWorld where
  removals := empty
  keys _ := SpaceKeys.none.saveKey 0 [0]
  brokers _ _ := ⟨0, [0]⟩
  accepted := []
  adminRemoved := []
  commits := []
  finalized := []
  minted := []
  inherited := false

def removalEnv : RemovalEnv where
  failure := none
  now := 0
  randomId := "staging-1"
  randomMaterial := ⟨[1], [2], [3]⟩
  reply := .receipt
  caughtUp := true
  importedKeys := []

def removeMember : Action RemovalEnv RemovalCall :=
  .call (.run adminDeps "space-1" "did:member" none false none 0)

def memberConfirmed : List (Action RemovalEnv RemovalCall) :=
  removeMember :: List.replicate 9 (.run 0 removalEnv)

def onlyFingerprint (_ : Nat) (_ : StagedRemovalKeyMaterial) : String := "fingerprint-1"

end WebOfTrust
