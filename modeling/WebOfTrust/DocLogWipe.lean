/-
  **A wipe and the nonce namespaces.**  `clear` empties the log and drops the
  device id, so the next connect mints a new one and every seq starts over in a
  namespace of its own.

  That argument has a hole.  An append in flight across the wipe lands its entry
  under the old device id, as pending; the next `resolveConnectDeviceId` takes it for
  an orphaned log and binds the old id again.  In that document the seqs go on above
  the survivor, but in every other one they start over at 0 (`wipedReuse_orphan`).

  Where every append is called under the device id that is bound, no wipe meets an append
  that has yet to reserve its seq or whose seq has been overtaken, and no connect takes the
  orphaned-log branch, no wiped coordinate is ever persisted again (`wiped_never_reused`).
  That a namespace is fresh where a seq is reserved follows from this.
-/
import WebOfTrust.DocLogAppend

namespace WebOfTrust

open Async

/-! ## 1. The runs and the property -/

/-- The operations around a wipe: local appends and their acknowledgement and
    resend, the wipe itself and the resolution of the device id. -/
def aroundWipe : DocLogCall → Bool
  | .write _ => true
  | .resendPending _ _ => true
  | .markAcked _ _ _ => true
  | .getOrCreateDeviceId => true
  | .resolveConnectDeviceId => true
  | .clear => true
  | _ => false

/-- Any interleaving of these operations, crashes and restarts. -/
abbrev AroundWipe (_ : DocLogConfig) (a : Action Env DocLogCall) : Prop :=
  (match a with
    | .call k => aroundWipe k
    | _ => true) = true

section

variable (c : DocLogConfig)

/-- No coordinate that was persisted before a wipe is persisted again with a
    different build. -/
def WipedNotReused : Prop :=
  ∀ e ∈ c.world.wiped, ∀ e' ∈ c.world.store.entries.rows, e'.key = e.key → e'.entryJws = e.entryJws

instance (c : DocLogConfig) : Decidable (WipedNotReused c) :=
  inferInstanceAs (Decidable (∀ e ∈ c.world.wiped, ∀ e' ∈ c.world.store.entries.rows, _ → _))

def DocLogPoint.reserved : DocLogPoint → Option (DocId × DeviceId × Nat)
  | .build p seq => some (p.docId, p.deviceId, seq)
  | .add docId deviceId seq => some (docId, deviceId, seq)
  | _ => none

/-- Whether a wipe may meet an append at this point: it has reserved its seq, and no other
    append has persisted one from there on. -/
def outlivesWipe (s : DocLogStore) : DocLogPoint → Bool
  | .readMaxSeq _ _ => false
  | t => t.reserved.all fun k => decide (s.readMaxSeq k.1 k.2.1 < k.2.2)

/-- The branch of `resolveConnectDeviceId` that binds the device of pending entries. -/
def orphanedLog (kind : StoreKind) (s : DocLogStore) : Bool :=
  (presentDeviceId kind s.deviceId).isNone && decide (s.pendingDevices.length = 1)

variable (kind : StoreKind)

/-- When a run is safe.  A minted device id, as `randomUUID` draws it, is none that a wiped
    entry was written under. -/
def wipeSafe : Action Env DocLogCall → Bool
  | .call (.write lw) => decide (c.world.store.deviceId = some lw.deviceId)
  | .call k => aroundWipe k
  | .run n env =>
    (c.world.wiped.all fun e => decide (e.deviceId ≠ env.uuid)) &&
      match c.pointAt n with
      | some .clear => c.procs.all fun p => p.point.all (outlivesWipe c.world.store)
      | some .resolveDevice => !orphanedLog kind c.world.store
      | _ => true
  | _ => true

abbrev WipeSafe (a : Action Env DocLogCall) : Prop := wipeSafe c kind a = true

end

/-! ## 2. The contract -/

/-- The wiped seqs of a namespace go no further than `bound`. -/
def WipedUpTo (w : DocLogWorld) (docId : DocId) (deviceId : DeviceId) (bound : Int) : Prop :=
  ∀ e ∈ w.wiped, e.docId = docId → e.deviceId = deviceId → (e.seq : Int) ≤ bound

/-- What an append relies on where it is suspended: its seq, or the one that it is about to
    reserve, is beyond the wiped ones. -/
def Beyond (t : DocLogPoint) (w : DocLogWorld) : Prop :=
  match t with
  | .readMaxSeq docId deviceId => WipedUpTo w docId deviceId (w.store.readMaxSeq docId deviceId)
  | t => ∀ k, t.reserved = some k → WipedUpTo w k.1 k.2.1 (k.2.2 - 1)

def EntriesKept (s s' : DocLogStore) : Prop :=
  ∀ e ∈ s.entries.rows, ∃ e' ∈ s'.entries.rows, e'.key = e.key

def wipeContract (kind : StoreKind) : Contract DocLogPoint Env DocLogWorld where
  inv w := ∀ e ∈ w.wiped, w.store.entries.get? e.key = none ∧ w.store.deviceId ≠ some e.deviceId
  rely t w w' := Beyond t w → Beyond t w'
  may t env w := (∀ e ∈ w.wiped, e.deviceId ≠ env.uuid) ∧
    (t = .resolveDevice → orphanedLog kind w.store = false)
  guar t _ w w' := w'.wiped = w.wiped ∧ EntriesKept w.store w'.store ∨ t = .clear ∧ w' = w.wipe

variable {sha256 : String → Bytes} {kind : StoreKind} {w w' : DocLogWorld} {s s' : DocLogStore}
  {docId : DocId} {deviceId : DeviceId} {seq : Nat}

theorem beyond_relies {t : DocLogPoint}
    (h : Relation.ReflTransGen ((wipeContract kind).rely t) w w') (ht : Beyond t w) : Beyond t w' :=
  kept_of_star (fun _ _ h => h) h ht

theorem EntriesKept.refl (s : DocLogStore) : EntriesKept s s := fun e he => ⟨e, he, rfl⟩

theorem entriesKept_of_get? (h : ∀ k, (s.entries.get? k).isSome → (s'.entries.get? k).isSome) :
    EntriesKept s s' := by
  intro e he
  obtain ⟨e', he'⟩ := Option.isSome_iff_exists.mp
    (h e.key (by rw [KeyedTable.mem_rows_iff.mp he]; rfl))
  exact ⟨e', KeyedTable.mem_of_get? he', KeyedTable.key_of_get? he'⟩

theorem EntriesKept.readMaxSeq_le (h : EntriesKept s s') :
    s.readMaxSeq docId deviceId ≤ s'.readMaxSeq docId deviceId := by
  refine DocLogStore.readMaxSeq_le_iff.mpr ⟨s'.neg_one_le_readMaxSeq docId deviceId, ?_⟩
  intro e he hdoc hdev
  obtain ⟨e', he', hkey⟩ := h e he
  simp only [LocalLogEntry.key, Prod.mk.injEq] at hkey
  rw [← hkey.2.2]
  exact (DocLogStore.readMaxSeq_le_iff.mp (Int.le_refl _)).2 e' he' (hkey.1.trans hdoc)
    (hkey.2.1.trans hdev)

theorem WipedUpTo.reserve (h : WipedUpTo w docId deviceId (w.store.readMaxSeq docId deviceId)) :
    WipedUpTo w docId deviceId (((w.store.readMaxSeq docId deviceId + 1).toNat : Int) - 1) := by
  intro e he hdoc hdev
  have hle := h e he hdoc hdev
  omega

theorem Beyond.step {t : DocLogPoint} (h : Beyond t w) (hwiped : w'.wiped = w.wiped)
    (hkeys : EntriesKept w.store w'.store) : Beyond t w' := by
  unfold Beyond WipedUpTo at h ⊢
  rw [hwiped]
  split at h
  · exact fun e he hdoc hdev => (h e he hdoc hdev).trans hkeys.readMaxSeq_le
  · exact h

theorem Beyond.wipe {t : DocLogPoint} (h : Beyond t w) (ht : outlivesWipe w.store t = true) :
    Beyond t w.wipe := by
  cases t with
  | readMaxSeq docId deviceId => cases ht
  | build | add =>
    rintro k ⟨⟩ e he hdoc hdev
    simp only [outlivesWipe, DocLogPoint.reserved, Option.all_some, decide_eq_true_eq] at ht
    rcases List.mem_append.mp he with he | he
    · exact h _ rfl e he hdoc hdev
    · have hle := (DocLogStore.readMaxSeq_le_iff.mp (Int.le_refl _)).2 e he hdoc hdev
      exact Int.le_sub_one_of_lt (Int.lt_of_le_of_lt hle ht)
  | send | clear | resolveDevice | access => exact fun _ h => by cases h

abbrev Unconcerned : DocLogResult → DocLogWorld → Prop := fun _ _ => True

theorem insertEntry_wipe {e : LocalLogEntry} (hinv : (wipeContract kind).inv w)
    (hbeyond : WipedUpTo w e.docId e.deviceId (e.seq - 1)) :
    (wipeContract kind).inv (insertEntry w e).2 ∧ (insertEntry w e).2.wiped = w.wiped ∧
      EntriesKept w.store (insertEntry w e).2.store ∧
      ((insertEntry w e).1 = none →
        Beyond (.readMaxSeq e.docId e.deviceId) (insertEntry w e).2) := by
  rcases hadd : w.store.addEntry e with _ | s
  · simp only [insertEntry, hadd]
    refine ⟨hinv, trivial, .refl _, fun _ e₀ he₀ hdoc hdev => ?_⟩
    have htaken : w.store.entries.has e.key = true := by
      by_contra hfree
      simp [DocLogStore.addEntry, hfree] at hadd
    obtain ⟨e', he', hkey⟩ := KeyedTable.has_iff.mp htaken
    simp only [LocalLogEntry.key, Prod.mk.injEq] at hkey
    have hmax := (DocLogStore.readMaxSeq_le_iff.mp (Int.le_refl _)).2 e' he' hkey.1 hkey.2.1
    have hle := hbeyond e₀ he₀ hdoc hdev
    omega
  obtain ⟨-, rfl, hget⟩ := DocLogStore.addEntry_eq_some hadd
  simp only [insertEntry, hadd]
  refine ⟨fun e₀ he₀ => ⟨?_, (hinv e₀ he₀).2⟩, trivial, entriesKept_of_get? fun k hk => ?_,
    fun hnone => by cases hnone⟩
  · rw [hget, if_neg, (hinv e₀ he₀).1]
    intro hkey
    simp only [LocalLogEntry.key, Prod.mk.injEq] at hkey
    have hle := hbeyond e₀ he₀ hkey.1.symm hkey.2.1.symm
    omega
  · rw [hget]
    split
    · rfl
    · exact hk

theorem meets_storeTxn_wipe {f : Env → DocLogStore → DocLogStore}
    (hf : ∀ env s k, ((f env s).entries.get? k).isSome = (s.entries.get? k).isSome)
    (hdev : ∀ env s, (f env s).deviceId = s.deviceId) :
    Meets (wipeContract kind) (fun _ _ => True) (fun _ _ => True) (storeTxn f) w := by
  refine meets_atomic fun w' _ hinv env _ => ?_
  cases env.failure with
  | some e => exact ⟨hinv, .inl ⟨rfl, .refl _⟩, fun _ _ => trivial, fun _ _ => trivial⟩
  | none =>
    refine ⟨fun e he => ⟨?_, ?_⟩, .inl ⟨rfl, entriesKept_of_get? fun k hk => ?_⟩,
      fun _ _ => trivial, fun _ _ => trivial⟩
    · have hnone := hf env w'.store e.key
      rw [(hinv e he).1] at hnone
      simpa using hnone
    · show (f env w'.store).deviceId ≠ _
      rw [hdev]
      exact (hinv e he).2
    · show ((f env w'.store).entries.get? k).isSome
      rwa [hf]

theorem meets_append_indexedDb_wipe (p : AppendLocalEntryParams) (attempts : Nat)
    (hw : Beyond (.readMaxSeq p.docId p.deviceId) w) :
    Meets (wipeContract kind) (fun _ _ => True) (fun _ _ => True)
      (IndexedDBDocLogStore.appendLocalEntry p attempts) w := by
  induction attempts generalizing w with
  | zero => trivial
  | succ attempts ih =>
    refine meets_bind (meets_atomic fun w₁ hrely₁ hinv₁ env₁ _ =>
      ⟨hinv₁, .inl ⟨rfl, .refl _⟩, fun maxSeq hmax => ?_, fun _ _ => trivial⟩)
    -- the reserved seq is beyond the wiped ones, and stays so across both awaits
    have hbeyond₁ : WipedUpTo w₁ p.docId p.deviceId (((maxSeq + 1).toNat : Int) - 1) := by
      obtain rfl : w₁.store.readMaxSeq p.docId p.deviceId = maxSeq := by
        simp only [Env.attempt] at hmax
        split at hmax <;> cases hmax
        rfl
      exact (beyond_relies hrely₁ hw : WipedUpTo ..).reserve
    refine meets_bind (meets_atomic fun w₂ hrely₂ hinv₂ env₂ _ =>
      ⟨hinv₂, .inl ⟨rfl, .refl _⟩, fun jws _ => ?_, fun _ _ => trivial⟩)
    have hbeyond₂ := beyond_relies hrely₂ (fun k hk => by cases hk; exact hbeyond₁)
    refine meets_bind (meets_atomic fun w₃ hrely₃ hinv₃ env₃ _ => ?_)
    have hbeyond₃ := beyond_relies hrely₃ (fun k hk => by cases hk; exact hbeyond₂ _ rfl)
    cases env₃.failure with
    | some e => exact ⟨hinv₃, .inl ⟨rfl, .refl _⟩, by simp, fun _ _ => trivial⟩
    | none =>
      obtain ⟨hinv₄, hwiped, hkeys, hretry⟩ :=
        insertEntry_wipe (e := p.entry (maxSeq + 1).toNat jws env₃.now) hinv₃ (hbeyond₃ _ rfl)
      refine ⟨hinv₄, .inl ⟨hwiped, hkeys⟩, fun added hadded => ?_, fun _ _ => trivial⟩
      cases added with
      | some entry => trivial
      | none => exact ih (hretry (Except.ok.inj hadded))

theorem meets_append_inMemory_wipe (p : AppendLocalEntryParams) (attempts : Nat)
    (hw : Beyond (.readMaxSeq p.docId p.deviceId) w) :
    Meets (wipeContract kind) (fun _ _ => True) (fun _ _ => True)
      (InMemoryDocLogStore.appendLocalEntry p attempts) w := by
  induction attempts generalizing w with
  | zero => trivial
  | succ attempts ih =>
    refine meets_bind (meets_atomic fun w₁ hrely₁ hinv₁ env₁ _ =>
      ⟨hinv₁, .inl ⟨rfl, .refl _⟩, fun maxSeq hmax => ?_, fun _ _ => trivial⟩)
    have hbeyond₁ : WipedUpTo w₁ p.docId p.deviceId (((maxSeq + 1).toNat : Int) - 1) := by
      cases hmax
      exact (beyond_relies hrely₁ hw : WipedUpTo ..).reserve
    refine meets_bind (meets_atomic fun w₂ hrely₂ hinv₂ env₂ _ => ?_)
    have hbeyond₂ := beyond_relies hrely₂ (fun k hk => by cases hk; exact hbeyond₁)
    rcases p.build (maxSeq + 1).toNat env₂ with e | jws
    · exact ⟨hinv₂, .inl ⟨rfl, .refl _⟩, by simp, fun _ _ => trivial⟩
    obtain ⟨hinv₃, hwiped, hkeys, hretry⟩ :=
      insertEntry_wipe (e := p.entry (maxSeq + 1).toNat jws env₂.now) hinv₂ (hbeyond₂ _ rfl)
    refine ⟨hinv₃, .inl ⟨hwiped, hkeys⟩, fun added hadded => ?_, fun _ _ => trivial⟩
    cases added with
    | some entry => trivial
    | none => exact ih (hretry (Except.ok.inj hadded))

theorem meets_sendEntry_wipe (e : LocalLogEntry) (w : DocLogWorld) :
    Meets (wipeContract kind) (fun _ _ => True) (fun _ _ => True) (sendEntry e) w :=
  meets_mutate fun _ _ hinv _ _ => ⟨hinv, .inl ⟨rfl, .refl _⟩, trivial⟩

theorem beyond_of_bound (hinv : (wipeContract kind).inv w)
    (hbound : w.store.deviceId = some deviceId) : Beyond (.readMaxSeq docId deviceId) w :=
  fun e he _ hdev => absurd (hdev ▸ hbound) (hinv e he).2

theorem resolveConnectDeviceId_wipe {minted d : DeviceId}
    (horphan : orphanedLog kind s = false)
    (h : s.resolveConnectDeviceId (presentDeviceId kind s.deviceId) minted = .ok (d, s')) :
    s' = s ∨ s' = s.setDeviceId minted := by
  simp only [DocLogStore.resolveConnectDeviceId] at h
  split at h
  · split at h <;> cases h
    · exact .inl rfl
    · exact .inr rfl
  next hnone =>
  split at h <;> cases h
  · exact .inr rfl
  · next hone => simp [orphanedLog, hnone, hone] at horphan

theorem wipe_setDeviceId {env : Env} (hinv : (wipeContract kind).inv w)
    (hminted : ∀ e ∈ w.wiped, e.deviceId ≠ env.uuid) :
    (wipeContract kind).inv { w with store := w.store.setDeviceId env.uuid } :=
  fun e he => ⟨(hinv e he).1, fun heq => hminted e he (Option.some.inj heq).symm⟩

theorem meets_program_wipe (call : DocLogCall) (hcall : aroundWipe call = true)
    (hbound : ∀ lw, call = .write lw → Beyond (.readMaxSeq lw.docId lw.deviceId) w) :
    Meets (wipeContract kind) Unconcerned (fun _ _ => True) (call.program sha256 kind) w := by
  cases call with
  | write lw =>
    have happend : Meets (wipeContract kind) (fun _ _ => True) (fun _ _ => True)
        (appendLocalEntry kind (lw.params sha256)) w := by
      unfold appendLocalEntry
      split
      · exact meets_append_inMemory_wipe _ _ (hbound lw rfl)
      · exact meets_append_indexedDb_wipe _ _ (hbound lw rfl)
    refine meets_bind (meets_tryCatch (happend.mono (fun e w₁ _ => ?_) fun _ _ _ => trivial))
    exact meets_bind ((meets_sendEntry_wipe e w₁).mono (fun _ _ _ => trivial) fun _ _ _ => trivial)
  | resendPending docId deviceId =>
    refine meets_bind (meets_query fun w₁ _ _ env _ => ⟨.inl ⟨rfl, .refl _⟩, ?_⟩)
    refine meets_bind ((meets_forEach (J := fun _ => True) (E := fun _ _ => True)
      (fun e _ w₂ _ => meets_sendEntry_wipe e w₂) trivial).mono (fun _ _ _ => trivial)
      fun _ _ _ => trivial)
  | markAcked docId deviceId seq =>
    have hack : Meets (wipeContract kind) (fun _ _ => True) (fun _ _ => True)
        (storeTxn fun _ s => s.markAcked docId deviceId seq) w :=
      meets_storeTxn_wipe (fun env s k => ?_) fun _ _ => rfl
    · exact meets_bind (hack.mono (fun _ _ _ => trivial) fun _ _ _ => trivial)
    rw [DocLogStore.get?_markAcked]
    split
    · next heq => rw [heq, Option.isSome_map]
    · rfl
  | getOrCreateDeviceId =>
    refine meets_atomic fun w' _ hinv env hmay => ?_
    cases presentDeviceId kind w'.store.deviceId with
    | some d => exact ⟨hinv, .inl ⟨rfl, .refl _⟩, fun _ _ => trivial, fun _ _ => trivial⟩
    | none => exact ⟨wipe_setDeviceId hinv hmay.1, .inl ⟨rfl, .refl _⟩, fun _ _ => trivial,
        fun _ _ => trivial⟩
  | resolveConnectDeviceId =>
    refine meets_atomic fun w' _ hinv env hmay => ?_
    cases hres : w'.store.resolveConnectDeviceId (presentDeviceId kind w'.store.deviceId)
        env.uuid with
    | error devices =>
      exact ⟨hinv, .inl ⟨rfl, .refl _⟩, fun _ _ => trivial, fun _ _ => trivial⟩
    | ok r =>
      obtain ⟨d, s'⟩ := r
      rcases resolveConnectDeviceId_wipe (hmay.2 rfl) hres with rfl | rfl
      · exact ⟨hinv, .inl ⟨rfl, .refl _⟩, fun _ _ => trivial, fun _ _ => trivial⟩
      · exact ⟨wipe_setDeviceId hinv hmay.1, .inl ⟨rfl, .refl _⟩, fun _ _ => trivial,
          fun _ _ => trivial⟩
  | clear =>
    exact meets_bind (meets_mutate fun w' _ _ env _ =>
      ⟨fun e _ => ⟨rfl, fun hdev => by cases hdev⟩, .inr ⟨rfl, rfl⟩, trivial⟩)
  | recordRemoteApplied e | recordRemoteAppliedBatch es
  | recordGapObservation docId device firstMissing observedMax epoch
  | markGapSoftSkipped docId device firstMissing
  | markGapRepairAttempt docId device firstMissing due
  | deleteGapRepair docId device firstMissing | setDeviceId deviceId => cases hcall

/-! ## 3. Every safe run -/

theorem wipe_verified (kind : StoreKind) :
    Verified (docLogSystem sha256 kind) (fun c => WipeSafe c kind) .fresh (wipeContract kind)
      Unconcerned (fun _ _ => True) where
  init := fun e he => by cases he
  call := by
    intro c call hadm hinv
    have hadm : wipeSafe c kind (.call call) = true := hadm
    refine meets_program_wipe call ?_ ?_
    · cases call <;> first | rfl | exact hadm
    · rintro lw rfl
      exact beyond_of_bound hinv (by simpa [wipeSafe] using hadm)
  may := by
    intro c n env t hadm hpoint _
    have hadm : wipeSafe c kind (.run n env) = true := hadm
    simp only [wipeSafe, hpoint, Bool.and_eq_true, List.all_eq_true, decide_eq_true_eq] at hadm
    refine ⟨hadm.1, ?_⟩
    rintro rfl
    simpa using hadm.2
  restart := by
    intro c _ hinv
    cases kind with
    | inMemory => exact fun e _ => ⟨rfl, fun hdev => by cases hdev⟩
    | indexedDb => exact hinv
  quiet := by
    intro c n env t w' hadm hpoint _ hguar m t' _ hm hbeyond
    rcases hguar with ⟨hwiped, hkeys⟩ | ⟨rfl, rfl⟩
    · exact hbeyond.step hwiped hkeys
    have hadm : wipeSafe c kind (.run n env) = true := hadm
    simp only [wipeSafe, hpoint, Bool.and_eq_true, List.all_eq_true] at hadm
    obtain ⟨p, hp, ht'⟩ := Option.bind_eq_some_iff.mp hm
    have houtlives := hadm.2 p (List.mem_of_getElem? hp)
    rw [ht', Option.all_some] at houtlives
    exact hbeyond.wipe houtlives
  result := fun _ _ _ _ _ _ _ => trivial
  error := fun _ _ _ _ _ _ _ => trivial

/-- **A wiped coordinate is not persisted again** in any safe run. -/
theorem wiped_never_reused {c : DocLogConfig}
    (h : Reachable (docLogSystem sha256 kind) (fun c => WipeSafe c kind) .fresh c) :
    WipedNotReused c := by
  intro e he e' he' hkey
  have hnone := ((wipe_verified kind).inv h e he).1
  rw [← hkey, KeyedTable.mem_rows_iff.mp he'] at hnone
  cases hnone

/-- A wipe with an append to `doc-2` in flight: it lands after the next connect has minted
    `device-2`, and a write under that id starts a namespace of its own. -/
theorem wiped_never_reused_rotated : ∃ c,
    Reachable (docLogSystem sampleSha256 .indexedDb) (fun c => WipeSafe c .indexedDb) .fresh c ∧
      c.world.wiped.map (·.key) = [("doc-1", "device-1", 0)] ∧
      c.world.store.entries.rows.map (·.key) =
        [("doc-2", "device-1", 0), ("doc-1", "device-2", 0)] ∧ WipedNotReused c := by
  obtain ⟨c, hreach, htest⟩ := Reachable.of_exec (docLogSystem sampleSha256 .indexedDb)
    (fun c => WipeSafe c .indexedDb) .fresh
    [.call .resolveConnectDeviceId, .run 0 { sampleEnv with uuid := "device-1" },
      .call (.write (sampleWrite 1)), .run 1 sampleEnv, .run 1 sampleEnv, .run 1 sampleEnv,
      .call (.write { sampleWrite 2 with docId := "doc-2" }), .run 2 sampleEnv,
      .call .clear, .run 3 sampleEnv, .call .resolveConnectDeviceId, .run 4 sampleEnv,
      .run 2 sampleEnv, .run 2 sampleEnv,
      .call (.write { sampleWrite 3 with deviceId := "device-2" }), .run 5 sampleEnv,
      .run 5 sampleEnv, .run 5 sampleEnv]
    (fun c => decide (c.world.wiped.map (·.key) = [("doc-1", "device-1", 0)]) &&
      decide (c.world.store.entries.rows.map (·.key) =
        [("doc-2", "device-1", 0), ("doc-1", "device-2", 0)])) (by decide)
  simp only [Bool.and_eq_true, decide_eq_true_eq] at htest
  exact ⟨c, hreach, htest.1, htest.2, wiped_never_reused hreach⟩

/-- **The orphaned-log branch re-opens a wiped namespace.**  An append to `doc-1`
    lands after the wipe; after a restart the connect binds `device-1` again; seq 0
    of `doc-2`, persisted before the wipe, is persisted again with another build. -/
theorem wipedReuse_orphan :
    ¬ ∀ c, Reachable (docLogSystem sampleSha256 .indexedDb) AroundWipe .fresh c →
      WipedNotReused c := by
  intro hclaim
  obtain ⟨c, hreach, htest⟩ := Reachable.of_exec (docLogSystem sampleSha256 .indexedDb)
    AroundWipe .fresh
    [.call .resolveConnectDeviceId, .run 0 { sampleEnv with uuid := "device-1" },
      .call (.write { sampleWrite 1 with docId := "doc-2" }), .run 1 sampleEnv, .run 1 sampleEnv,
      .run 1 sampleEnv, .run 1 sampleEnv,
      .call (.write (sampleWrite 2)), .run 2 sampleEnv, .run 2 sampleEnv,
      .call .clear, .run 3 sampleEnv, .run 2 sampleEnv, .restart,
      .call .resolveConnectDeviceId, .run 0 sampleEnv,
      .call (.write { sampleWrite 3 with docId := "doc-2" }), .run 1 sampleEnv, .run 1 sampleEnv,
      .run 1 sampleEnv]
    (fun c => decide (c.world.store.deviceId = some "device-1") &&
      decide (¬ WipedNotReused c)) (by decide)
  simp only [Bool.and_eq_true, decide_eq_true_eq] at htest
  exact htest.2 (hclaim c hreach)

end WebOfTrust
