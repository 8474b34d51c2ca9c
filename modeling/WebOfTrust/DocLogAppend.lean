/-
  **No sequence number and no nonce is used twice** as long as nothing wipes the
  log: any number of users append to one store without a lock, builds fail,
  tabs die, entries are sent and re-sent in any order.

  An append reads the maximum, builds for the next seq and only then inserts.
  Nothing holds the seq in between.  The invariant is carried by two facts about
  every atomic section: a stored JWS never changes (`Carries`), and whatever
  leaves an append or is sent had been stored before (`Stored`).
-/
import WebOfTrust.DocLogPrograms

namespace WebOfTrust

open Async KeyedTable

/-! ## 1. What every section preserves -/

/-- Stored entries keep their JWS, and a pending entry of the later store is
    one of the earlier store. -/
structure DocLogStore.Carries (s s' : DocLogStore) : Prop where
  jws : ∀ k e, s.entries.get? k = some e →
    ∃ e', s'.entries.get? k = some e' ∧ e'.entryJws = e.entryJws
  pending : ∀ k e, s'.entries.get? k = some e → e.status = .pending → s.entries.get? k = some e

namespace DocLogStore

theorem carries_of_entries_eq {s s' : DocLogStore} (h : s'.entries = s.entries) : s.Carries s' where
  jws := fun _ e he => ⟨e, h ▸ he, rfl⟩
  pending := fun _ _ he _ => h ▸ he

theorem Carries.trans {s₁ s₂ s₃ : DocLogStore} (h₁ : s₁.Carries s₂) (h₂ : s₂.Carries s₃) :
    s₁.Carries s₃ where
  jws := by
    intro k e he
    obtain ⟨e₂, he₂, hj₂⟩ := h₁.jws k e he
    obtain ⟨e₃, he₃, hj₃⟩ := h₂.jws k e₂ he₂
    exact ⟨e₃, he₃, hj₃.trans hj₂⟩
  pending := fun k e he hp => h₁.pending k e (h₂.pending k e he hp) hp

theorem carries_markAcked (s : DocLogStore) (docId : DocId) (deviceId : DeviceId) (seq : Nat) :
    s.Carries (s.markAcked docId deviceId seq) where
  jws := by
    intro k e he
    rw [get?_markAcked]
    by_cases hk : (docId, deviceId, seq) = k
    · subst hk
      exact ⟨e.ack, by simp [he], rfl⟩
    · exact ⟨e, by simp [hk, he], rfl⟩
  pending := by
    intro k e he hp
    rw [get?_markAcked] at he
    by_cases hk : (docId, deviceId, seq) = k
    · simp only [hk, if_true, Option.map_eq_some_iff] at he
      obtain ⟨e₀, _, rfl⟩ := he
      cases hp
    · simpa [hk] using he

theorem carries_putRemoteApplied (s : DocLogStore) (entry : RecordRemoteAppliedEntry)
    (now : Nat) : s.Carries (s.putRemoteApplied entry now) where
  jws := fun k e he => ⟨e, get?_putRemoteApplied_of_some he, rfl⟩
  pending := by
    intro k e he hp
    -- a row that `add` really inserts is acked; an occupied key changes nothing
    simp only [putRemoteApplied] at he
    by_cases hhas : s.entries.has (entry.docId, entry.deviceId, entry.seq) = true
    · rwa [add_of_has hhas] at he
    rw [get?_add_of_free (by simpa [LocalLogEntry.key] using hhas)] at he
    split at he
    · cases he; cases hp
    · exact he

theorem carries_putRemoteAppliedAll (es : List RecordRemoteAppliedEntry) (now : Nat)
    (s : DocLogStore) : s.Carries (es.foldl (fun s e => s.putRemoteApplied e now) s) :=
  List.foldlRecOn es _ (carries_of_entries_eq rfl) fun s' hcarries e _ =>
    hcarries.trans (s'.carries_putRemoteApplied e now)

end DocLogStore

def Stored (w : DocLogWorld) (m : SentEntry) : Prop :=
  ∃ e, w.store.getEntry m.docId m.deviceId m.seq = some e ∧ e.entryJws = m.entryJws

def Authored (sha256 : String → Bytes) (m : SentEntry) : Prop :=
  ∃ lw env, lw.docId = m.docId ∧ lw.deviceId = m.deviceId ∧
    buildEntryJws sha256 lw m.seq env = .ok m.entryJws

def LocalLogEntry.envelope (e : LocalLogEntry) : SentEntry where
  docId := e.docId
  deviceId := e.deviceId
  seq := e.seq
  entryJws := e.entryJws

def Keeps (w w' : DocLogWorld) : Prop :=
  ∀ k e, w.store.entries.get? k = some e →
    ∃ e', w'.store.entries.get? k = some e' ∧ e'.entryJws = e.entryJws

theorem Keeps.refl (w : DocLogWorld) : Keeps w w := fun _ e he => ⟨e, he, rfl⟩

theorem Keeps.trans {w₁ w₂ w₃ : DocLogWorld} (h₁ : Keeps w₁ w₂) (h₂ : Keeps w₂ w₃) :
    Keeps w₁ w₃ := by
  intro k e he
  obtain ⟨e₂, he₂, hj₂⟩ := h₁ k e he
  obtain ⟨e₃, he₃, hj₃⟩ := h₂ k e₂ he₂
  exact ⟨e₃, he₃, hj₃.trans hj₂⟩

theorem Stored.keep {w w' : DocLogWorld} {m : SentEntry} (h : Stored w m) (hk : Keeps w w') :
    Stored w' m := by
  obtain ⟨e, he, hj⟩ := h
  obtain ⟨e', he', hj'⟩ := hk _ e he
  exact ⟨e', he', hj'.trans hj⟩

open DocLogStore Keeps

section

variable (sha256 : String → Bytes)

/-- The invariant of the shared state: what was sent is stored and was built for
    its coordinate, and so was every pending entry. -/
structure LogInv (w : DocLogWorld) : Prop where
  sent : ∀ m ∈ w.sent, Stored w m ∧ Authored sha256 m
  pending : ∀ k e, w.store.entries.get? k = some e → e.status = .pending →
    Authored sha256 e.envelope

def logContract : Contract DocLogPoint Env DocLogWorld where
  inv := LogInv sha256
  rely _ := Keeps
  may _ _ _ := True
  guar _ _ := Keeps

def ResultStored (r : DocLogResult) (w : DocLogWorld) : Prop :=
  ∀ e, r = .entry e → Stored w e.envelope ∧ Authored sha256 e.envelope

variable {sha256}

theorem keeps_of_relies {t : DocLogPoint} {w w' : DocLogWorld}
    (h : Relation.ReflTransGen ((logContract sha256).rely t) w w') : Keeps w w' :=
  relies_of_star refl (fun _ _ _ => trans) h

theorem LogInv.carry {w : DocLogWorld} (h : LogInv sha256 w) {s : DocLogStore}
    (hc : w.store.Carries s) : LogInv sha256 { w with store := s } where
  sent := by
    intro m hm
    obtain ⟨hstored, hauth⟩ := h.sent m hm
    exact ⟨hstored.keep hc.jws, hauth⟩
  pending := fun k e he hp => h.pending k e (hc.pending k e he hp) hp

/-! ## 2. The sections meet the contract -/

variable {α : Type} {Q : α → DocLogWorld → Prop} {w : DocLogWorld}

theorem meets_storeTxn {f : Env → DocLogStore → DocLogStore} (hf : ∀ env s, Carries s (f env s)) :
    Meets (logContract sha256) (fun _ _ => True) (fun _ _ => True) (storeTxn f) w := by
  refine meets_atomic fun w' _ hinv env _ => ?_
  cases env.failure with
  | some e => exact ⟨hinv, refl w', fun _ _ => trivial, fun _ _ => trivial⟩
  | none =>
    exact ⟨LogInv.carry hinv (hf env w'.store), (hf env w'.store).jws,
      fun _ _ => trivial, fun _ _ => trivial⟩

theorem insertEntry_spec (w : DocLogWorld) (e : LocalLogEntry) (hinv : LogInv sha256 w)
    (hauth : Authored sha256 e.envelope) :
    LogInv sha256 (insertEntry w e).2 ∧ Keeps w (insertEntry w e).2 ∧
      ∀ e', (insertEntry w e).1 = some e' → e' = e ∧ Stored (insertEntry w e).2 e.envelope := by
  rcases hadd : w.store.addEntry e with _ | s
  · simp only [insertEntry, hadd]
    exact ⟨hinv, refl w, fun e' he' => by cases he'⟩
  obtain ⟨hfree, -, hget⟩ := addEntry_eq_some hadd
  have hkeep : Keeps w { w with store := s } := by
    intro k e₀ he₀
    refine ⟨e₀, ?_, rfl⟩
    rw [hget, if_neg, he₀]
    rintro rfl
    rw [hfree] at he₀
    cases he₀
  simp only [insertEntry, hadd]
  refine ⟨⟨fun m hm => ?_, fun k e₀ he₀ hp => ?_⟩, hkeep, fun e' he' => ?_⟩
  · obtain ⟨hstored, hm'⟩ := hinv.sent m hm
    exact ⟨hstored.keep hkeep, hm'⟩
  · rw [hget] at he₀
    split at he₀
    · cases he₀; exact hauth
    · exact hinv.pending k e₀ he₀ hp
  · cases he'
    have hself : s.entries.get? e.key = some e := by rw [hget, if_pos rfl]
    exact ⟨rfl, e, hself, rfl⟩

def AppendPost (sha256 : String → Bytes) (e : LocalLogEntry) (w : DocLogWorld) : Prop :=
  Stored w e.envelope ∧ Authored sha256 e.envelope

/-- The part that follows the build, in both adapters: whatever `insertEntry`
    answers, the append goes on correctly. -/
theorem meets_inserted (next : Option LocalLogEntry → DocLogProgram LocalLogEntry)
    {e : LocalLogEntry} (hauth : Authored sha256 e.envelope) (hinv : LogInv sha256 w)
    (hsome : ∀ w', Stored w' e.envelope →
      Meets (logContract sha256) (AppendPost sha256) (fun _ _ => True) (next (some e)) w')
    (hnone : ∀ w',
      Meets (logContract sha256) (AppendPost sha256) (fun _ _ => True) (next none) w') :
    LogInv sha256 (insertEntry w e).2 ∧ Keeps w (insertEntry w e).2 ∧
      ∀ a, (insertEntry w e).1 = a → Meets (logContract sha256) (AppendPost sha256)
        (fun _ _ => True) (next a) (insertEntry w e).2 := by
  obtain ⟨hinv', hkeep, hres⟩ := insertEntry_spec w e hinv hauth
  refine ⟨hinv', hkeep, fun a ha => ?_⟩
  cases a with
  | none => exact hnone _
  | some e' =>
    obtain ⟨rfl, hstored⟩ := hres e' ha
    exact hsome _ hstored

theorem authored_params {lw : LogWrite} {seq : Nat} (now : Nat) {env : Env} {jws : EntryJws}
    (h : (lw.params sha256).build seq env = .ok jws) :
    Authored sha256 ((lw.params sha256).entry seq jws now).envelope :=
  ⟨lw, env, rfl, rfl, h⟩

/-- How an append goes on after its insert. -/
def addedOr (retry : DocLogProgram LocalLogEntry) :
    Option LocalLogEntry → DocLogProgram LocalLogEntry
  | some entry => pure entry
  | none => retry

theorem meets_append_indexedDb (lw : LogWrite) (attempts : Nat) (w : DocLogWorld) :
    Meets (logContract sha256) (AppendPost sha256) (fun _ _ => True)
      (IndexedDBDocLogStore.appendLocalEntry (lw.params sha256) attempts) w := by
  induction attempts generalizing w with
  | zero => trivial
  | succ attempts ih =>
    refine meets_bind (meets_atomic fun w₁ _ hinv₁ env₁ _ =>
      ⟨hinv₁, refl w₁, fun maxSeq _ => ?_, fun _ _ => trivial⟩)
    refine meets_bind (meets_atomic fun w₂ _ hinv₂ env₂ _ =>
      ⟨hinv₂, refl w₂, fun jws hjws => ?_, fun _ _ => trivial⟩)
    have hbuilt : (lw.params sha256).build (maxSeq + 1).toNat env₂ = .ok jws := by
      cases hb : (lw.params sha256).build (maxSeq + 1).toNat env₂ with
      | error e => rw [hb] at hjws; cases hjws
      | ok jws' => rw [hb] at hjws; cases hjws; rfl
    refine meets_bind (meets_atomic fun w₃ _ hinv₃ env₃ _ => ?_)
    cases env₃.failure with
    | some e =>
      refine ⟨hinv₃, refl w₃, ?_, fun _ _ => trivial⟩
      intro a ha
      cases ha
    | none =>
      obtain ⟨hinv₄, hkeep, hnext⟩ := meets_inserted
        (addedOr (IndexedDBDocLogStore.appendLocalEntry (lw.params sha256) attempts))
        (authored_params env₃.now hbuilt) hinv₃
        (fun w' hw' => ⟨hw', authored_params _ hbuilt⟩) (fun w' => ih w')
      refine ⟨hinv₄, hkeep, fun a ha => ?_, fun _ ha => by cases ha⟩
      cases ha
      exact hnext _ rfl

theorem meets_append_inMemory (lw : LogWrite) (attempts : Nat) (w : DocLogWorld) :
    Meets (logContract sha256) (AppendPost sha256) (fun _ _ => True)
      (InMemoryDocLogStore.appendLocalEntry (lw.params sha256) attempts) w := by
  induction attempts generalizing w with
  | zero => trivial
  | succ attempts ih =>
    refine meets_bind (meets_atomic fun w₁ _ hinv₁ env₁ _ =>
      ⟨hinv₁, refl w₁, fun maxSeq _ => ?_, fun _ _ => trivial⟩)
    refine meets_bind (meets_atomic fun w₂ _ hinv₂ env₂ _ => ?_)
    cases hb : (lw.params sha256).build (maxSeq + 1).toNat env₂ with
    | error e =>
      refine ⟨hinv₂, refl w₂, ?_, fun _ _ => trivial⟩
      intro a ha
      cases ha
    | ok jws =>
      obtain ⟨hinv₃, hkeep, hnext⟩ := meets_inserted
        (addedOr (InMemoryDocLogStore.appendLocalEntry (lw.params sha256) attempts))
        (authored_params env₂.now hb) hinv₂
        (fun w' hw' => ⟨hw', authored_params _ hb⟩) (fun w' => ih w')
      refine ⟨hinv₃, hkeep, fun a ha => ?_, fun _ ha => by cases ha⟩
      cases ha
      exact hnext _ rfl

variable (kind : StoreKind)

theorem meets_append (lw : LogWrite) (w : DocLogWorld) :
    Meets (logContract sha256) (AppendPost sha256) (fun _ _ => True)
      (appendLocalEntry kind (lw.params sha256)) w := by
  cases kind with
  | inMemory => exact meets_append_inMemory lw _ w
  | indexedDb => exact meets_append_indexedDb lw _ w

theorem meets_sendEntry {e : LocalLogEntry} (hauth : Authored sha256 e.envelope)
    (hstored : Stored w e.envelope) :
    Meets (logContract sha256) (fun _ w' => Keeps w w') (fun _ _ => True) (sendEntry e) w := by
  refine meets_mutate fun w' hrely hinv env _ => ?_
  have hkeep : Keeps w w' := keeps_of_relies hrely
  have hstored' : Stored w' e.envelope := hstored.keep hkeep
  refine ⟨⟨fun m hm => ?_, hinv.pending⟩, refl w', hkeep⟩
  rcases List.mem_append.mp hm with hm | hm
  · exact hinv.sent m hm
  · rw [List.mem_singleton.mp hm]
    exact ⟨hstored', hauth⟩

theorem meets_appendAndSend (lw : LogWrite) (w : DocLogWorld) :
    Meets (logContract sha256) (ResultStored sha256) (fun _ _ => True)
      (appendAndSend kind (lw.params sha256)) w := by
  refine meets_bind (meets_tryCatch ((meets_append kind lw w).mono ?_ fun _ _ _ => trivial))
  intro e w₁ ⟨hstored, hauth⟩
  refine meets_bind ((meets_sendEntry hauth hstored).mono ?_ fun _ _ _ => trivial)
  intro _ w₂ hkeep e' he'
  cases he'
  exact ⟨hstored.keep hkeep, hauth⟩

theorem meets_resendPending (docId : DocId) (deviceId : DeviceId) (w : DocLogWorld) :
    Meets (logContract sha256) (ResultStored sha256) (fun _ _ => True)
      (resendPending docId deviceId) w := by
  refine meets_bind (meets_query fun w₁ _ hinv₁ env _ => ⟨refl w₁, ?_⟩)
  -- the snapshot: every pending entry is stored and was built for its coordinate
  have hsnap : ∀ e ∈ w₁.store.getPending, Stored w₁ e.envelope ∧ Authored sha256 e.envelope := by
    intro e he
    rw [getPending, List.mem_insertionSort, List.mem_filter] at he
    have hget : w₁.store.entries.get? e.key = some e := mem_rows_iff.mp he.1
    exact ⟨⟨e, hget, rfl⟩, hinv₁.pending _ e hget (by simpa using he.2)⟩
  have hloop : Meets (logContract sha256) (fun _ w' => Keeps w₁ w') (fun _ _ => True)
      (forEach (w₁.store.getPending.filter fun e =>
        decide (e.docId = docId) && decide (e.deviceId = deviceId)) sendEntry) w₁ := by
    refine meets_forEach (fun e he w₂ hkeep => ?_) (refl w₁)
    obtain ⟨hstored, hauth⟩ := hsnap e (List.mem_filter.mp he).1
    exact (meets_sendEntry hauth (hstored.keep hkeep)).mono
      (fun _ w₃ hkeep' => hkeep.trans hkeep') fun _ _ _ => trivial
  refine meets_bind (hloop.mono (fun _ w₂ _ => ?_) fun _ _ _ => trivial)
  intro e he
  cases he

theorem meets_effect {p : DocLogProgram Unit}
    (hp : Meets (logContract sha256) (fun _ _ => True) (fun _ _ => True) p w) :
    Meets (logContract sha256) (ResultStored sha256) (fun _ _ => True) (effect p) w :=
  meets_bind (hp.mono (fun _ _ _ e he => by cases he) fun _ _ _ => trivial)

theorem meets_autoResolve (docId : DocId) (device : DeviceId) (w : DocLogWorld) :
    Meets (logContract sha256) (fun _ _ => True) (fun _ _ => True)
      (recordRemoteApplied.autoResolve docId device) w := by
  refine meets_bind (meets_query fun w₁ _ _ env _ => ⟨refl w₁, ?_⟩)
  cases w₁.store.sortedSeqs docId device with
  | nil => trivial
  | cons seq rest =>
    exact meets_storeTxn fun _ s => carries_of_entries_eq rfl

theorem meets_recordRemoteApplied (e : RecordRemoteAppliedEntry) (w : DocLogWorld) :
    Meets (logContract sha256) (fun _ _ => True) (fun _ _ => True)
      (recordRemoteApplied kind e) w := by
  cases kind with
  | inMemory =>
    refine meets_mutate fun w₁ _ hinv env _ => ?_
    split
    · exact ⟨hinv, refl w₁, trivial⟩
    have hcarry : w₁.store.Carries
        ((w₁.store.putRemoteApplied e env.now).autoResolveGaps e.docId e.deviceId) :=
      (w₁.store.carries_putRemoteApplied e env.now).trans
        (carries_of_entries_eq (entries_autoResolveGaps ..))
    exact ⟨LogInv.carry hinv hcarry, hcarry.jws, trivial⟩
  | indexedDb =>
    refine meets_bind ((meets_storeTxn fun env s => s.carries_putRemoteApplied e env.now).mono
      (fun _ w₁ _ => ?_) fun _ _ _ => trivial)
    exact meets_autoResolve _ _ w₁

theorem meets_recordRemoteAppliedBatch (es : List RecordRemoteAppliedEntry) (w : DocLogWorld) :
    Meets (logContract sha256) (fun _ _ => True) (fun _ _ => True)
      (recordRemoteAppliedBatch kind es) w := by
  cases kind with
  | inMemory =>
    exact meets_forEach (J := fun _ => True)
      (fun e _ w₁ _ => meets_recordRemoteApplied .inMemory e w₁) trivial
  | indexedDb =>
    refine meets_bind ((meets_storeTxn fun env s =>
      carries_putRemoteAppliedAll es env.now s).mono (fun _ w₁ _ => ?_)
      fun _ _ _ => trivial)
    exact meets_forEach (J := fun _ => True) (fun e _ w₂ _ => meets_autoResolve _ _ w₂) trivial

/-! ## 3. A failing build ends its append -/

def BuildFails : DocLogPoint → Env → Prop
  | .build p seq, env => ∃ e, p.build seq env = .error e
  | _, _ => False

section

variable (p : AppendLocalEntryParams)

theorem failsAt_append_indexedDb (attempts : Nat) :
    FailsAt BuildFails (IndexedDBDocLogStore.appendLocalEntry p attempts) := by
  induction attempts with
  | zero => trivial
  | succ attempts ih =>
    refine failsAt_bind (failsAt_atomic_of_not fun _ h => h) fun maxSeq => ?_
    refine failsAt_bind (failsAt_atomic fun env h w => ?_) fun jws => ?_
    · obtain ⟨e, he⟩ := h
      exact ⟨rfl, .message e, by simp [he, Except.mapError]⟩
    refine failsAt_bind (failsAt_atomic_of_not fun _ h => h) fun added => ?_
    cases added with
    | none => exact ih
    | some entry => trivial

theorem failsAt_append_inMemory (attempts : Nat) :
    FailsAt BuildFails (InMemoryDocLogStore.appendLocalEntry p attempts) := by
  induction attempts with
  | zero => trivial
  | succ attempts ih =>
    refine failsAt_bind (failsAt_atomic_of_not fun _ h => h) fun maxSeq => ?_
    refine failsAt_bind (failsAt_atomic fun env h w => ?_) fun added => ?_
    · obtain ⟨e, he⟩ := h
      exact ⟨by simp [he], .message e, by simp [he]⟩
    cases added with
    | none => exact ih
    | some entry => trivial

theorem failsAt_appendAndSend : FailsAt BuildFails (appendAndSend kind p) := by
  refine failsAt_bind (failsAt_tryCatch ?_ fun e => trivial) fun entry => ?_
  · cases kind with
    | inMemory => exact failsAt_append_inMemory p _
    | indexedDb => exact failsAt_append_indexedDb p _
  · exact failsAt_bind (failsAt_atomic_of_not fun _ h => h) fun _ => trivial

end

theorem failsAt_storeTxn (f : Env → DocLogStore → DocLogStore) : FailsAt BuildFails (storeTxn f) :=
  failsAt_atomic_of_not fun _ h => h

theorem failsAt_autoResolve (docId : DocId) (device : DeviceId) :
    FailsAt BuildFails (recordRemoteApplied.autoResolve docId device) := by
  refine failsAt_bind (failsAt_atomic_of_not fun _ h => h) fun seqs => ?_
  cases seqs with
  | nil => trivial
  | cons seq rest => exact failsAt_storeTxn _

theorem failsAt_recordRemoteApplied (e : RecordRemoteAppliedEntry) :
    FailsAt BuildFails (recordRemoteApplied kind e) := by
  cases kind with
  | inMemory => exact failsAt_atomic_of_not fun _ h => h
  | indexedDb => exact failsAt_bind (failsAt_storeTxn _) fun _ => failsAt_autoResolve _ _

theorem failsAt_effect {p : DocLogProgram Unit} (hp : FailsAt BuildFails p) :
    FailsAt BuildFails (effect p) :=
  failsAt_bind hp fun _ => trivial

theorem failsAt_program (call : DocLogCall) : FailsAt BuildFails (call.program sha256 kind) := by
  cases call with
  | write lw => exact failsAt_appendAndSend kind _
  | resendPending docId deviceId =>
    refine failsAt_bind (failsAt_atomic_of_not fun _ h => h) fun pending => ?_
    exact failsAt_bind (failsAt_forEach fun e => failsAt_atomic_of_not fun _ h => h)
      fun _ => trivial
  | recordRemoteApplied e => exact failsAt_effect (failsAt_recordRemoteApplied kind e)
  | recordRemoteAppliedBatch es =>
    refine failsAt_effect ?_
    cases kind with
    | inMemory => exact failsAt_forEach fun e => failsAt_recordRemoteApplied .inMemory e
    | indexedDb =>
      exact failsAt_bind (failsAt_storeTxn _) fun _ =>
        failsAt_forEach fun e => failsAt_autoResolve _ _
  | getOrCreateDeviceId | resolveConnectDeviceId => exact failsAt_atomic_of_not fun _ h => h
  | clear => exact failsAt_effect (failsAt_atomic_of_not fun _ h => h)
  | markAcked docId deviceId seq | markGapSoftSkipped docId device firstMissing
  | recordGapObservation docId device firstMissing observedMax epoch
  | markGapRepairAttempt docId device firstMissing due
  | deleteGapRepair docId device firstMissing | setDeviceId deviceId =>
    exact failsAt_effect (failsAt_storeTxn _)

/-! ## 4. Every run without a wipe -/

/-- The runs in which the log is never wiped: nobody calls `clear`, and only a
    durable store is restarted. -/
def withoutWipe : Action Env DocLogCall → Bool
  | .call .clear => false
  | .restart => decide (kind = .indexedDb)
  | _ => true

abbrev WithoutWipe (_ : DocLogConfig) (a : Action Env DocLogCall) : Prop :=
  withoutWipe kind a = true

theorem meets_program (call : DocLogCall) (hcall : call ≠ .clear) (w : DocLogWorld) :
    Meets (logContract sha256) (ResultStored sha256) (fun _ _ => True)
      (call.program sha256 kind) w := by
  have htxn (f : Env → DocLogStore → DocLogStore) (hf : ∀ env s, Carries s (f env s)) :
      Meets (logContract sha256) (ResultStored sha256) (fun _ _ => True)
        (effect (storeTxn f)) w := meets_effect (meets_storeTxn hf)
  cases call with
  | write lw => exact meets_appendAndSend kind lw w
  | resendPending docId deviceId => exact meets_resendPending docId deviceId w
  | recordRemoteApplied e => exact meets_effect (meets_recordRemoteApplied kind e w)
  | recordRemoteAppliedBatch es => exact meets_effect (meets_recordRemoteAppliedBatch kind es w)
  | markAcked docId deviceId seq => exact htxn _ fun _ s => s.carries_markAcked _ _ _
  | recordGapObservation docId device firstMissing observedMax epoch
  | markGapSoftSkipped docId device firstMissing
  | markGapRepairAttempt docId device firstMissing due
  | deleteGapRepair docId device firstMissing =>
    exact htxn _ fun _ s => carries_of_entries_eq rfl
  | setDeviceId deviceId => exact htxn _ fun _ s => carries_of_entries_eq rfl
  | getOrCreateDeviceId =>
    refine meets_atomic fun w' _ hinv' env _ => ?_
    cases presentDeviceId kind w'.store.deviceId with
    | some d => exact ⟨hinv', refl w', by simp [ResultStored], fun _ _ => trivial⟩
    | none =>
      have hcarry : w'.store.Carries (w'.store.setDeviceId env.uuid) :=
        carries_of_entries_eq rfl
      exact ⟨LogInv.carry hinv' hcarry, hcarry.jws, by simp [ResultStored], fun _ _ => trivial⟩
  | resolveConnectDeviceId =>
    refine meets_atomic fun w' _ hinv' env _ => ?_
    cases hres : w'.store.resolveConnectDeviceId (presentDeviceId kind w'.store.deviceId)
        env.uuid with
    | error devices =>
      exact ⟨hinv', refl w', by simp, fun _ _ => trivial⟩
    | ok r =>
      have hcarry : w'.store.Carries r.2 :=
        carries_of_entries_eq (entries_resolveConnectDeviceId hres)
      exact ⟨LogInv.carry hinv' hcarry, hcarry.jws, by simp [ResultStored], fun _ _ => trivial⟩
  | clear => exact absurd rfl hcall

theorem logInv_fresh : LogInv sha256 .fresh where
  sent := fun m hm => by cases hm
  pending := fun k e he => by simp [DocLogWorld.fresh, fresh] at he

theorem docLog_verified :
    Verified (docLogSystem sha256 kind) (WithoutWipe kind) .fresh (logContract sha256)
      (ResultStored sha256) (fun _ _ => True) where
  init := logInv_fresh
  call := by
    intro c call hadm _
    refine meets_program kind call ?_ c.world
    rintro rfl
    cases hadm
  restart := by
    intro c hadm hinv
    obtain rfl : kind = .indexedDb := of_decide_eq_true hadm
    exact hinv
  may := fun _ _ _ _ _ _ _ => trivial
  quiet := fun c n i t s' _ _ _ hguar m t' _ _ => hguar
  result := by
    intro r t i w w' hkeep hr e he
    obtain ⟨hstored, hauth⟩ := hr e he
    exact ⟨hstored.keep hkeep, hauth⟩
  error := fun _ _ _ _ _ _ _ => trivial

/-- What has left the store in a configuration: sent envelopes and entries
    returned to a caller. -/
def Released (c : DocLogConfig) (m : SentEntry) : Prop :=
  m ∈ c.world.sent ∨ ∃ (n : Nat) (e : LocalLogEntry), c.procs[n]? = some (.ret (.entry e)) ∧
    m = e.envelope

/-- No two different coordinates in use have the same truncated hash. -/
def CollisionFree (sha256 : String → Bytes) (w : DocLogWorld) : Prop :=
  ∀ e ∈ w.store.entries.rows, ∀ e' ∈ w.store.entries.rows,
    (sha256 (nonceInput e.deviceId e.seq)).take nonceLength =
        (sha256 (nonceInput e'.deviceId e'.seq)).take nonceLength →
      nonceInput e.deviceId e.seq = nonceInput e'.deviceId e'.seq

instance (sha256 : String → Bytes) (w : DocLogWorld) : Decidable (CollisionFree sha256 w) :=
  inferInstanceAs (Decidable (∀ e ∈ w.store.entries.rows, ∀ e' ∈ w.store.entries.rows, _ → _))

/-- What holds of the log in a configuration that a run without a wipe reaches. -/
structure LogSafe (sha256 : String → Bytes) (kind : StoreKind) (c : DocLogConfig) : Prop where
  /-- No two persisted entries share a coordinate. -/
  unique : ∀ e ∈ c.world.store.entries.rows, ∀ e' ∈ c.world.store.entries.rows,
    e.docId = e'.docId → e.deviceId = e'.deviceId → e.seq = e'.seq → e = e'
  /-- A failing build leaves store and wire alone, so its seq stays free, and its
      append is over. -/
  failedBuild : ∀ n env p seq e c', c.pointAt n = some (.build p seq) →
    p.build seq env = .error e → c.step (docLogSystem sha256 kind) (.run n env) = some c' →
      c'.world = c.world ∧ ∃ q, c'.procs[n]? = some q ∧ q.Failed
  /-- Whatever is returned, sent or re-sent is exactly what is persisted. -/
  stored : ∀ m, Released c m → Stored c.world m
  /-- Within a document no nonce seals two different plaintexts. -/
  nonce : ∀ m m' b b', Released c m → Released c m' → m.docId = m'.docId →
    m.entryJws.data? = some b → m'.entryJws.data? = some b' → b.nonce = b'.nonce →
      m = m' ∧ b.plaintext = b'.plaintext

theorem Authored.nonce_eq {m : SentEntry} (h : Authored sha256 m) {b : SealedBlob}
    (hb : m.entryJws.data? = some b) :
    b.nonce = (sha256 (nonceInput m.deviceId m.seq)).take nonceLength := by
  obtain ⟨lw, env, -, hdev, hbuild⟩ := h
  obtain ⟨p, hjws, -, -, -, -, -, -, hnonce⟩ := buildEntryJws_ok hbuild
  rw [hjws] at hb
  cases hb
  rw [hnonce, hdev]

theorem released_stored {kind : StoreKind} {c : DocLogConfig}
    (h : Reachable (docLogSystem sha256 kind) (WithoutWipe kind) .fresh c) {m : SentEntry}
    (hm : Released c m) : Stored c.world m ∧ Authored sha256 m := by
  rcases hm with hsent | ⟨n, e, hret, rfl⟩
  · exact ((docLog_verified kind).inv h).sent m hsent
  · exact (docLog_verified kind).returned h hret e rfl

/-- **Sequence numbers and nonces of the client log are used once**, in every
    run without a wipe. -/
theorem appendLocalEntry_safe {kind : StoreKind} {c : DocLogConfig}
    (h : Reachable (docLogSystem sha256 kind) (WithoutWipe kind) .fresh c)
    (hcollision : CollisionFree sha256 c.world) : LogSafe sha256 kind c where
  unique := by
    intro e he e' he' hdoc hdev hseq
    exact eq_of_key_eq he he' (by simp [LocalLogEntry.key, hdoc, hdev, hseq])
  failedBuild := by
    intro n env p seq e c' hpoint hbuild hstep
    exact h.run_fails (failsAt_program kind) hpoint ⟨e, hbuild⟩ hstep
  stored := fun m hm => (released_stored h hm).1
  nonce := by
    intro m m' b b' hm hm' hdoc hb hb' hnonce
    obtain ⟨⟨e, he, hj⟩, hauth⟩ := released_stored h hm
    obtain ⟨⟨e', he', hj'⟩, hauth'⟩ := released_stored h hm'
    have hk := key_of_get? he
    have hk' := key_of_get? he'
    simp only [LocalLogEntry.key, Prod.mk.injEq] at hk hk'
    obtain ⟨-, hdev, hseq⟩ := hk
    obtain ⟨-, hdev', hseq'⟩ := hk'
    -- equal nonces come from one hashed text, and that text is the coordinate
    have hinput : nonceInput m.deviceId m.seq = nonceInput m'.deviceId m'.seq := by
      rw [← hdev, ← hseq, ← hdev', ← hseq']
      apply hcollision e (mem_of_get? he) e' (mem_of_get? he')
      rw [hdev, hseq, hdev', hseq', ← hauth.nonce_eq hb, ← hauth'.nonce_eq hb', hnonce]
    obtain ⟨hd, hs⟩ := nonceInput_inj hinput
    have hjws : m.entryJws = m'.entryJws := by
      rw [hdoc, hd, hs] at he
      have : e = e' := Option.some.inj (he.symm.trans he')
      rw [← hj, ← hj', this]
    have hmm : m = m' := by
      cases m; cases m'
      simp_all
    refine ⟨hmm, ?_⟩
    rw [hmm, hb'] at hb
    cases hb
    rfl

end

def sampleSha256 (text : String) : Bytes :=
  if text = "device-1|0" then
    [200, 30, 231, 34, 115, 97, 16, 99, 140, 42, 101, 97, 224, 111, 121, 188,
     213, 203, 234, 190, 66, 254, 231, 125, 20, 68, 15, 82, 36, 117, 203, 229]
  else if text = "device-1|1" then
    [106, 150, 30, 14, 167, 97, 90, 209, 244, 2, 125, 70, 47, 133, 108, 6,
     221, 245, 108, 247, 4, 202, 88, 20, 250, 133, 30, 58, 2, 237, 181, 167]
  else []

def sampleWrite (byte : UInt8) : LogWrite where
  docId := "doc-1"
  deviceId := "device-1"
  authorKid := "did:key:z6Mk#sig-0"
  content := { key := List.replicate 32 7, generation := 0 }
  encoded := [byte]

def sampleEnv : Env where
  failure := none
  now := 0
  uuid := "device-2"

/-- Two tabs read the same maximum; the second loses the insert of seq 0 and
    persists its update under seq 1. -/
theorem appendLocalEntry_safe_race : ∃ c,
    Reachable (docLogSystem sampleSha256 .indexedDb) (WithoutWipe .indexedDb) .fresh c ∧
      c.world.sent.map (·.seq) = [0, 1] ∧ LogSafe sampleSha256 .indexedDb c := by
  obtain ⟨c, hreach, htest⟩ := Reachable.of_exec (docLogSystem sampleSha256 .indexedDb)
    (WithoutWipe .indexedDb) .fresh
    [.call (.write (sampleWrite 1)), .call (.write (sampleWrite 2)),
      .run 0 sampleEnv, .run 1 sampleEnv, .run 0 sampleEnv, .run 1 sampleEnv, .run 0 sampleEnv,
      .run 1 sampleEnv, .run 1 sampleEnv, .run 1 sampleEnv, .run 1 sampleEnv, .run 0 sampleEnv,
      .run 1 sampleEnv]
    (fun c => decide (c.world.sent.map (·.seq) = [0, 1]) &&
      decide (CollisionFree sampleSha256 c.world)) (by decide)
  simp only [Bool.and_eq_true, decide_eq_true_eq] at htest
  exact ⟨c, hreach, htest.1, appendLocalEntry_safe hreach htest.2⟩

end WebOfTrust
