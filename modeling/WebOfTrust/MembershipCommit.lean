/-
  **The durable commit of a membership event** (`YjsReplicationAdapter.ts`,
  `commitMembershipEventDurable`): the event and its activity entry go into the document
  of the space and, as one update, into the durable log.

  That the document has the event proves nothing about the log, so a retry logs the whole
  document.  Where the document has lost the activity entry, though, the retry captures only
  the update that repairs it; and an append that finds no content key appends nothing and
  rejects nothing (`commit_unlogged`).
  Apart from these two, what a commit has promised is in the log (`commit_logged`).
-/
import WebOfTrust.Machine
import WebOfTrust.MembershipEvents
import WebOfTrust.SecureRemovalRecovery

namespace WebOfTrust

open Machine KeyedTable List

/-! ## 1. Documents and updates -/

/-- An activity entry of a space; `text` stands for its other fields. -/
structure ActivityEntry where
  id : String
  text : String
deriving DecidableEq

/-- What a document, or an update of it, carries of members and of activity. -/
structure MemberDoc where
  members : KeyedTable MembershipEvent.key
  activity : KeyedTable ActivityEntry.id

open MemberDoc

namespace MemberDoc

def empty : MemberDoc := ⟨.empty, .empty⟩

section

variable (doc : MemberDoc)

def hasActivityEntry (id : String) : Bool := doc.activity.has id

variable (event : MembershipEvent)

def setEvent : MemberDoc :=
  { doc with members := doc.members.put event }

def writeActivityEntry (entry : ActivityEntry) : MemberDoc :=
  { doc with activity := doc.activity.put entry }

def transact (alreadyApplied : Bool) (event : MembershipEvent)
    (activityEntry : Option ActivityEntry) (doc : MemberDoc) : MemberDoc :=
  let doc := if alreadyApplied then doc else doc.setEvent event
  match activityEntry with
  | some entry => doc.writeActivityEntry entry
  | none => doc

variable (activityEntry : Option ActivityEntry)

/-- The document after the commit has been applied to it, and the update that is logged:
    what the transaction has written, or else the full state. -/
def commit : MemberDoc × MemberDoc :=
  let alreadyApplied := doc.members.has event.key
  let needsActivityRepair := activityEntry.any fun entry => !doc.hasActivityEntry entry.id
  if !alreadyApplied || needsActivityRepair then
    (doc.transact alreadyApplied event activityEntry,
      empty.transact alreadyApplied event activityEntry)
  else (doc, doc)

/-- The update carries the event, and the activity entry where there is one. -/
def Carries (update : MemberDoc) (event : MembershipEvent)
    (activityEntry : Option ActivityEntry) : Prop :=
  update.members.has event.key = true ∧
    ∀ entry ∈ activityEntry, update.activity.get? entry.id = some entry

instance (update : MemberDoc) (event : MembershipEvent) (activityEntry : Option ActivityEntry) :
    Decidable (update.Carries event activityEntry) :=
  inferInstanceAs (Decidable (_ ∧ _))

/-- The document does not have the event yet, or it has the activity entry as well. -/
def Committable : Prop :=
  doc.members.has event.key = true →
    ∀ entry ∈ activityEntry, doc.activity.get? entry.id = some entry

end

instance (doc : MemberDoc) (event : MembershipEvent) (activityEntry : Option ActivityEntry) :
    Decidable (doc.Committable event activityEntry) :=
  inferInstanceAs (Decidable (_ → _))

variable {doc : MemberDoc} {event : MembershipEvent} {activityEntry : Option ActivityEntry}

theorem has_of_get? {ρ κ : Type} [DecidableEq κ] {key : ρ → κ} {t : KeyedTable key} {k : κ}
    {r : ρ} (h : t.get? k = some r) : t.has k = true := by
  simp [has, h]

theorem members_transact_applied :
    (doc.transact true event activityEntry).members = doc.members := by
  cases activityEntry <;> rfl

theorem members_transact_new :
    (doc.transact false event activityEntry).members.has event.key = true := by
  have hput : (doc.members.put event).has event.key = true := by
    simp [has, get?_put]
  cases activityEntry <;> exact hput

theorem activity_transact {alreadyApplied : Bool} {entry : ActivityEntry} :
    (doc.transact alreadyApplied event (some entry)).activity.get? entry.id = some entry := by
  simp [transact, writeActivityEntry, get?_put]

/-- **What is logged carries the commit exactly where the document does not have the event
    yet, or has the activity entry as well.** -/
theorem carries_commit : (doc.commit event activityEntry).2.Carries event activityEntry ↔
      doc.Committable event activityEntry := by
  cases happlied : doc.members.has event.key with
  | false =>
    have hlogged : (doc.commit event activityEntry).2 =
        empty.transact false event activityEntry := by
      simp [commit, happlied]
    rw [hlogged]
    refine ⟨fun _ hhas => absurd hhas (by simp [happlied]), fun _ => ⟨members_transact_new, ?_⟩⟩
    rintro entry hentry
    cases hentry
    exact activity_transact
  | true =>
    by_cases hrepair : (activityEntry.any fun entry => !doc.hasActivityEntry entry.id) = true
    · have hlogged : (doc.commit event activityEntry).2 =
          empty.transact true event activityEntry := by
        simp [commit, happlied, hrepair]
      rw [hlogged]
      constructor
      · rintro ⟨hhas, -⟩
        rw [members_transact_applied] at hhas
        cases hhas
      · intro h
        cases activityEntry with
        | none => cases hrepair
        | some entry =>
          have hthere := has_of_get? (h happlied entry rfl)
          simp [hasActivityEntry, hthere] at hrepair
    · have hlogged : (doc.commit event activityEntry).2 = doc := by
        simp [commit, happlied, Bool.not_eq_true] at hrepair ⊢
        simp [hrepair]
      rw [hlogged]
      exact ⟨fun h _ => h.2, fun h => ⟨happlied, h happlied⟩⟩

end MemberDoc

/-! ## 2. Commits over a space -/

def SpaceKeys.current (keys : SpaceKeys) : Option Bytes :=
  if keys.generation < 0 then .none else keys.contentKey keys.generation.toNat

/-- Where a commit stands.  From `contentKey` on it is in `writeLocalUpdate`. -/
inductive CommitStage where
  | currentGeneration
  | checked (generation : Int)
  | coordinator (update : MemberDoc)
  | represent (update : MemberDoc)
  | contentKey (update : MemberDoc)
  | append (update : MemberDoc)
  | send
  | resolved
  | rejected
  | lost

def CommitStage.isResolved : CommitStage → Bool
  | .resolved => true
  | _ => false

theorem CommitStage.eq_of_isResolved {stage : CommitStage} (h : stage.isResolved = true) :
    stage = .resolved := by
  cases stage <;> first | rfl | cases h

structure CommitCall where
  event : MembershipEvent
  activityEntry : Option ActivityEntry
  stage : CommitStage

/-- The document of a space, its keys, its durable log, and the commits that were called. -/
structure SpaceCommits where
  doc : MemberDoc
  keys : SpaceKeys
  log : List MemberDoc
  calls : List CommitCall

namespace SpaceCommits

/-- A commit goes on; `fails` is the rejection of what it has awaited. -/
def resume (s : SpaceCommits) (call : CommitCall) (fails : Bool) :
    Option (CommitStage × SpaceCommits) :=
  match call.stage with
  | .currentGeneration => some (if fails then .rejected else .checked s.keys.generation, s)
  | .checked generation =>
    if generation < 0 then some (.rejected, s)
    else
      let (doc, update) := s.doc.commit call.event call.activityEntry
      some (.coordinator update, { s with doc })
  | .coordinator update => some (if fails then .rejected else .represent update, s)
  | .represent update => some (if fails then .rejected else .contentKey update, s)
  | .contentKey update =>
    if fails then some (.rejected, s)
    else
      match s.keys.current with
      -- `writeLocalUpdate` returns null, and nobody looks at it.
      | .none => some (.resolved, s)
      | some _ => some (.append update, s)
  | .append update =>
    if fails then some (.rejected, s) else some (.send, { s with log := s.log ++ [update] })
  | .send => some (if fails then .rejected else .resolved, s)
  | .resolved => none
  | .rejected => none
  | .lost => none

end SpaceCommits

inductive CommitInput where
  | call (event : MembershipEvent) (activityEntry : Option ActivityEntry)
  | run (k : Nat) (fails : Bool)
  | setKeys (keys : SpaceKeys)
  /-- Any other change of the document, local or remote. -/
  | document (doc : MemberDoc)
  /-- Any other entry of the log. -/
  | logged (update : MemberDoc)
  /-- A crash, and the document that the start after it builds from the stores. -/
  | restart (doc : MemberDoc)

def commitStep (s : SpaceCommits) : CommitInput → Option SpaceCommits
  | .call event activityEntry =>
    some { s with calls := s.calls ++ [⟨event, activityEntry, .currentGeneration⟩] }
  | .run k fails =>
    match s.calls[k]? with
    | none => none
    | some call =>
      match s.resume call fails with
      | none => none
      | some (stage, s') => some { s' with calls := s.calls.set k { call with stage } }
  | .setKeys keys => some { s with keys }
  | .document doc => some { s with doc }
  | .logged update => some { s with log := s.log ++ [update] }
  | .restart doc =>
    some { s with doc, calls := s.calls.map fun call =>
      match call.stage with
      | .resolved => call
      | .rejected => call
      | _ => { call with stage := .lost } }

/-- The document that a commit writes to does not have the event yet or has the activity
    entry as well, and the append finds the content key. -/
def CommitCall.covered (s : SpaceCommits) (call : CommitCall) : Prop :=
  match call.stage with
  | .checked generation =>
    generation < 0 ∨ s.doc.Committable call.event call.activityEntry
  | .contentKey _ => s.keys.current.isSome = true
  | _ => True

open CommitCall

instance (s : SpaceCommits) (call : CommitCall) : Decidable (call.covered s) := by
  unfold covered
  split <;> infer_instance

def commitCovered (s : SpaceCommits) : CommitInput → Prop
  | .run k _ => ∀ call ∈ s.calls[k]?, call.covered s
  | _ => True

instance (s : SpaceCommits) (i : CommitInput) : Decidable (commitCovered s i) := by
  unfold commitCovered
  split <;> infer_instance

/-! ## 3. What a resolved commit has logged -/

def Logged (log : List MemberDoc) (event : MembershipEvent)
    (activityEntry : Option ActivityEntry) : Prop :=
  ∃ update ∈ log, update.Carries event activityEntry

instance (log : List MemberDoc) (event : MembershipEvent)
    (activityEntry : Option ActivityEntry) : Decidable (Logged log event activityEntry) :=
  inferInstanceAs (Decidable (∃ update ∈ log, _))

def CommitCall.Sound (log : List MemberDoc) (call : CommitCall) : Prop :=
  match call.stage with
  | .coordinator update => update.Carries call.event call.activityEntry
  | .represent update => update.Carries call.event call.activityEntry
  | .contentKey update => update.Carries call.event call.activityEntry
  | .append update => update.Carries call.event call.activityEntry
  | .send => Logged log call.event call.activityEntry
  | .resolved => Logged log call.event call.activityEntry
  | _ => True

def CommitsSound (s : SpaceCommits) : Prop := ∀ call ∈ s.calls, call.Sound s.log

variable {s s₀ s' : SpaceCommits} {call : CommitCall} {log log' : List MemberDoc}
  {event : MembershipEvent} {activityEntry : Option ActivityEntry} {stage : CommitStage}
  {fails : Bool}

theorem Logged.append (h : Logged log event activityEntry) (more : List MemberDoc) :
    Logged (log ++ more) event activityEntry := by
  obtain ⟨update, hmem, hcarries⟩ := h
  exact ⟨update, mem_append_left _ hmem, hcarries⟩

theorem logged_concat {update : MemberDoc} :
    Logged (log ++ [update]) event activityEntry ↔
      Logged log event activityEntry ∨ update.Carries event activityEntry := by
  simp [Logged, or_and_right, exists_or]

theorem CommitCall.Sound.append (h : call.Sound log) (more : List MemberDoc) :
    call.Sound (log ++ more) := by
  revert h
  unfold Sound
  cases call.stage with
  | send | resolved => exact fun h => h.append more
  | _ => exact id

open SpaceCommits

theorem resume_log (h : s.resume call fails = some (stage, s')) :
    (∃ more, s'.log = s.log ++ more) ∧ s'.calls = s.calls := by
  unfold resume at h
  split at h
  case h_6 =>
    split at h
    all_goals
      cases h
      first
        | exact ⟨⟨_, rfl⟩, rfl⟩
        | exact ⟨⟨[], (append_nil _).symm⟩, rfl⟩
  all_goals
    (repeat' split at h) <;> cases h <;> exact ⟨⟨[], (append_nil _).symm⟩, rfl⟩

theorem resume_sound (hsound : call.Sound s.log) (hcovered : call.covered s)
    (h : s.resume call fails = some (stage, s')) :
    Sound s'.log { call with stage } := by
  unfold resume at h
  unfold Sound at hsound
  unfold covered at hcovered
  cases hstage : call.stage with
  | currentGeneration =>
    simp only [hstage] at h
    cases fails <;> cases h <;> trivial
  | checked generation =>
    simp only [hstage] at h hcovered
    split at h
    · cases h
      trivial
    next hgen =>
    cases h
    exact carries_commit.mpr (hcovered.resolve_left hgen)
  | coordinator update | represent update | send =>
    simp only [hstage] at h hsound
    cases fails <;> cases h
    · exact hsound
    · trivial
  | contentKey update =>
    simp only [hstage] at h hsound hcovered
    split at h
    · cases h
      trivial
    split at h
    · next hkey => simp [hkey] at hcovered
    · cases h
      exact hsound
  | append update =>
    simp only [hstage] at h hsound
    split at h
    · cases h
      trivial
    · cases h
      exact logged_concat.mpr (Or.inr hsound)
  | resolved | rejected | lost => simp [hstage] at h

theorem sound_lost (h : call.Sound log) : Sound log (match call.stage with
      | .resolved => call
      | .rejected => call
      | _ => { call with stage := .lost }) := by
  split
  · exact h
  · exact h
  · trivial

theorem commitStep_sound {i : CommitInput} (hsound : CommitsSound s) (hcovered : commitCovered s i)
    (h : commitStep s i = some s') : CommitsSound s' := by
  cases i with
  | call event activityEntry =>
    cases h
    intro call hcall
    rcases mem_append.mp hcall with hold | hnew
    · exact hsound call hold
    · cases mem_singleton.mp hnew
      trivial
  | run k fails =>
    simp only [commitStep] at h
    split at h
    · cases h
    next call hk =>
    split at h
    · cases h
    next stage s₁ hresume =>
    cases h
    obtain ⟨⟨more, hlog⟩, hcalls⟩ := resume_log hresume
    intro call' hcall'
    rcases mem_or_eq_of_mem_set hcall' with hold | rfl
    · change call'.Sound s₁.log
      rw [hlog]
      exact (hsound call' hold).append more
    · have hcall := hsound call (mem_of_getElem? hk)
      exact @resume_sound s s₁ call stage fails hcall (hcovered call hk) hresume
  | setKeys keys =>
    cases h
    exact hsound
  | document doc =>
    cases h
    exact hsound
  | logged update =>
    cases h
    exact fun call hcall => (hsound call hcall).append _
  | restart doc =>
    cases h
    intro call hcall
    obtain ⟨before, hbefore, rfl⟩ := mem_map.mp hcall
    exact sound_lost (hsound before hbefore)

/-- In every run whose steps are covered, what a resolved commit has promised is logged. -/
theorem logged_of_covered (hstart : s₀.calls = [])
    (h : Reaches commitStep commitCovered s₀ s) (hcall : call ∈ s.calls)
    (hresolved : call.stage = .resolved) : Logged s.log call.event call.activityEntry := by
  have hsound : CommitsSound s :=
    h.invariant (by simp [CommitsSound, hstart]) fun _ _ _ => commitStep_sound
  simpa [Sound, hresolved] using hsound call hcall

/-! ## 4. An attempt that nothing disturbs -/

/-- From `s`, the commit `k` goes on until it resolves in `s'`. -/
def CommitAttempt (s : SpaceCommits) (k : Nat) (s' : SpaceCommits) : Prop :=
  (∃ n, exec commitStep (fun _ _ => True) s (replicate n (.run k false)) = some s') ∧
    ∃ call ∈ s'.calls[k]?, call.stage = .resolved

variable {k : Nat}

/-- The commit `k` has gone on to `stage`, with the rest of the space as in `s'`. -/
def SpaceCommits.moved (s s' : SpaceCommits) (k : Nat) (call : CommitCall) (stage : CommitStage) :
    SpaceCommits :=
  { s' with calls := s.calls.set k { call with stage } }

section

variable (h : CommitAttempt s k s')
include h

section

variable (hk : s.calls[k]? = some call)
include hk

theorem CommitAttempt.next {s₁ : SpaceCommits}
    (hne : call.stage ≠ .resolved) (hresume : s.resume call false = some (stage, s₁)) :
    CommitAttempt (s.moved s₁ k call stage) k s' ∧
      (s.moved s₁ k call stage).calls[k]? = some { call with stage } := by
  obtain ⟨⟨n, hrun⟩, hend⟩ := h
  refine ⟨⟨?_, hend⟩, ?_⟩
  · cases n with
    | zero =>
      cases hrun
      obtain ⟨call', hcall', hresolved⟩ := hend
      cases hk.symm.trans hcall'
      exact absurd hresolved hne
    | succ n =>
      refine ⟨n, ?_⟩
      simpa [List.replicate_succ, exec, commitStep, hk, hresume, moved] using hrun
  · obtain ⟨hlt, -⟩ := List.getElem?_eq_some_iff.mp hk
    simp [moved, hlt]

theorem CommitAttempt.over_of_resolved (hresolved : call.stage = .resolved) : s' = s := by
  obtain ⟨⟨n, hrun⟩, -⟩ := h
  cases n with
  | zero => exact (Option.some.inj hrun).symm
  | succ n =>
    simp [replicate_succ, exec, commitStep, hk, resume, hresolved] at hrun

theorem CommitAttempt.log_of_contentKey {update : MemberDoc}
    (hstage : call.stage = .contentKey update) :
    s'.log = if s.keys.current.isSome then s.log ++ [update] else s.log := by
  cases hkey : s.keys.current with
  | none =>
    obtain ⟨h₁, hk₁⟩ := h.next hk (by simp [hstage]) (by simp only [resume, hstage, hkey]; rfl)
    rw [h₁.over_of_resolved hk₁ rfl]
    rfl
  | some key =>
    obtain ⟨h₁, hk₁⟩ := h.next hk (by simp [hstage]) (by simp only [resume, hstage, hkey]; rfl)
    obtain ⟨h₂, hk₂⟩ := h₁.next hk₁ (by simp) rfl
    obtain ⟨h₃, hk₃⟩ := h₂.next hk₂ (by simp) rfl
    rw [h₃.over_of_resolved hk₃ rfl]
    rfl

/-- **An undisturbed attempt logs the commit exactly where the update carries it and there
    is a content key**, or where the log has it already. -/
theorem attempt_logged_iff {generation : Int} (hstage : call.stage = .checked generation)
    (hgen : 0 ≤ generation) :
    Logged s'.log call.event call.activityEntry ↔ Logged s.log call.event call.activityEntry ∨
        s.doc.Committable call.event call.activityEntry ∧ s.keys.current.isSome = true := by
  obtain ⟨h₁, hk₁⟩ := h.next hk (by simp [hstage])
    (by simp only [resume, hstage, if_neg (not_lt.mpr hgen)]; rfl)
  obtain ⟨h₂, hk₂⟩ := h₁.next hk₁ (by simp) rfl
  obtain ⟨h₃, hk₃⟩ := h₂.next hk₂ (by simp) rfl
  rw [h₃.log_of_contentKey hk₃ rfl]
  change Logged (if s.keys.current.isSome then s.log ++ [_] else s.log) _ _ ↔ _
  cases s.keys.current with
  | none => simp
  | some key =>
    simp only [Option.isSome_some, if_true, and_true]
    rw [logged_concat, carries_commit]

end

end

/-! ## 5. Commits of removals -/

section

variable {fingerprint : Nat → StagedRemovalKeyMaterial → String} {home : DocId → List String}
  {w : RemovalWorld} {c c' : RemovalConfig}

/-- The event that `commitRemoval` writes. -/
def RemovalCommit.membershipEvent (commit : RemovalCommit) : MembershipEvent where
  did := commit.removedDid
  status := .removed
  sinceGeneration := commit.newGeneration
  addedBy := none

variable (read : String → ActivityEntry)

/-- Every commit of a removal of the space `docId` is a commit over the space that has
    resolved; `read` reads the activity entry of a record. -/
def CommitsResolved (docId : DocId) (w : RemovalWorld) (s : SpaceCommits) : Prop :=
  ∀ commit ∈ w.commits, commit.spaceId = docId → ∃ call ∈ s.calls, call.stage = .resolved ∧
    call.event = commit.membershipEvent ∧ call.activityEntry = commit.activityEntry.map read

/-- A removal that is deleted is logged, or it has rotated for an event that is in the
    document anyway. -/
def DeletionLogged (s : SpaceCommits) (r : PendingRemoval) : Prop :=
  r.canonicalSelfRemovalRotation = true ∨
    Logged s.log r.commit.membershipEvent (r.commit.activityEntry.map read)

theorem deletion_logged {read : String → ActivityEntry} {docId : DocId}
    (hlogged : ∀ call ∈ s.calls, call.stage = .resolved →
      Logged s.log call.event call.activityEntry)
    (hcommits : CommitsResolved read docId w s) {r : PendingRemoval} (hspace : r.spaceId = docId)
    (hjustified : DeletionJustified w r) : DeletionLogged read s r := by
  rcases hjustified with hcommit | ⟨hcanonical, -⟩
  · obtain ⟨call, hcall, hresolved, hevent, hentry⟩ := hcommits r.commit hcommit hspace
    right
    rw [← hevent, ← hentry]
    exact hlogged call hcall hresolved
  · exact Or.inl hcanonical

end

/-! ## 6. Lossless commits -/

/-- **A commit that resolves is in the durable log**, in every run in which each update is
    built from a document that does not have the event yet or has the activity entry as
    well, and each append finds the content key; so a removal is deleted only after its
    entry is there.  An undisturbed attempt without the two logs nothing new that carries
    the commit. -/
theorem commit_logged {s₀ s : SpaceCommits} (hstart : s₀.calls = [])
    (h : Reaches commitStep commitCovered s₀ s) :
    (∀ call ∈ s.calls, call.stage = .resolved → Logged s.log call.event call.activityEntry) ∧
      (∀ k call generation s', s.calls[k]? = some call → call.stage = .checked generation →
        0 ≤ generation → CommitAttempt s k s' → (Logged s'.log call.event call.activityEntry ↔
            Logged s.log call.event call.activityEntry ∨
              s.doc.Committable call.event call.activityEntry ∧ s.keys.current.isSome = true)) ∧
      ∀ fingerprint home w c c' a k row read docId,
        Unstaged home w → Async.Reachable (removalSystem fingerprint) (RemovalRun false) w c →
          RemovalRun false c a → c.step (removalSystem fingerprint) a = some c' →
            c.world.removals.get? k = some row → c'.world.removals.get? k = none →
              row.load.spaceId = docId → CommitsResolved read docId c.world s →
                DeletionLogged read s row.load := by
  have hlogged : ∀ call ∈ s.calls, call.stage = .resolved →
      Logged s.log call.event call.activityEntry :=
    fun call hcall => logged_of_covered hstart h hcall
  refine ⟨hlogged, ?_, ?_⟩
  · intro k call generation s' hk hstage hgen hattempt
    exact attempt_logged_iff hattempt hk hstage hgen
  · intro fingerprint home w c c' a k row read docId hw hreach ha hs hrow hgone hspace hcommits
    exact deletion_logged hlogged hcommits hspace (deletion_justified hw hreach ha hs hrow hgone)

/-! ## 7. Runs -/

def memberRemoved : MembershipEvent := ⟨"did:key:bob", .removed, 1, none⟩

def removalNote : ActivityEntry := ⟨"activity-1", "removed bob"⟩

def keyedSpace : SpaceCommits where
  doc := .empty
  keys := SpaceKeys.none.saveKey 1 [7]
  log := []
  calls := []

def commits (event : MembershipEvent) (activityEntry : Option ActivityEntry) (k steps : Nat) :
    List CommitInput :=
  .call event activityEntry :: replicate steps (.run k false)

/-- The first attempt fails at the append; the second one logs the document. -/
theorem commit_logged_retry : ∃ s, Reaches commitStep commitCovered keyedSpace s ∧
    (∃ call ∈ s.calls, call.stage = .resolved) ∧
      ∀ call ∈ s.calls, call.stage = .resolved → Logged s.log call.event call.activityEntry := by
  obtain ⟨s, hreach, hp⟩ := Reaches.of_exec commitStep commitCovered keyedSpace
    (flatten [commits memberRemoved (some removalNote) 0 5, [.run 0 true],
      commits memberRemoved (some removalNote) 1 7])
    (fun s => s.calls.any fun call => call.stage.isResolved) (by decide +kernel)
  obtain ⟨call, hcall, hresolved⟩ := any_eq_true.mp hp
  exact ⟨s, hreach, ⟨call, hcall, CommitStage.eq_of_isResolved hresolved⟩,
    (commit_logged rfl hreach).1⟩

def unloggedCommit (s : SpaceCommits) : Bool :=
  s.calls.any fun call =>
    call.stage.isResolved && decide (¬ Logged s.log call.event call.activityEntry)

theorem not_logged_of_unloggedCommit (h : unloggedCommit s = true) :
    ∃ call ∈ s.calls, call.stage = .resolved ∧ ¬ Logged s.log call.event call.activityEntry := by
  obtain ⟨call, hcall, hboth⟩ := any_eq_true.mp h
  obtain ⟨hresolved, hunlogged⟩ := Bool.and_eq_true_iff.mp hboth
  exact ⟨call, hcall, CommitStage.eq_of_isResolved hresolved, of_decide_eq_true hunlogged⟩

/-- An attempt without an activity entry fails at the append, and the next one, with an
    entry, logs the entry alone.  And a commit whose space has lost its keys by the append
    logs nothing.  Both resolve. -/
theorem commit_unlogged : (∃ s, Reaches commitStep (fun _ _ => True) keyedSpace s ∧ s.log ≠ [] ∧
      ∃ call ∈ s.calls, call.stage = .resolved ∧ ¬ Logged s.log call.event call.activityEntry) ∧
      ∃ s, Reaches commitStep (fun _ _ => True) keyedSpace s ∧ s.log = [] ∧
        ∃ call ∈ s.calls, call.stage = .resolved ∧
          ¬ Logged s.log call.event call.activityEntry := by
  constructor
  · obtain ⟨s, hreach, hp⟩ := Reaches.of_exec commitStep (fun _ _ => True) keyedSpace
      (flatten [commits memberRemoved none 0 5, [.run 0 true],
        commits memberRemoved (some removalNote) 1 7])
      (fun s => !s.log.isEmpty && unloggedCommit s) (by decide +kernel)
    obtain ⟨hlog, hunlogged⟩ := Bool.and_eq_true_iff.mp hp
    exact ⟨s, hreach, by simpa using hlog, not_logged_of_unloggedCommit hunlogged⟩
  · obtain ⟨s, hreach, hp⟩ := Reaches.of_exec commitStep (fun _ _ => True) keyedSpace
      (commits memberRemoved (some removalNote) 0 4 ++ [.setKeys .none, .run 0 false])
      (fun s => s.log.isEmpty && unloggedCommit s) (by decide +kernel)
    obtain ⟨hlog, hunlogged⟩ := Bool.and_eq_true_iff.mp hp
    exact ⟨s, hreach, by simpa using hlog, not_logged_of_unloggedCommit hunlogged⟩

end WebOfTrust
