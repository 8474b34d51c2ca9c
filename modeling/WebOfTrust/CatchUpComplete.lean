/-
  **Catch-up against an honest broker ends, and says what it has.**

  Every page the loop goes on after has stored a missing entry of the broker, or has
  skipped a hole: both are finite, so `catchUpInternal` ends (`catchUp_ends`).  When it
  reports `complete: true`, an entry of the broker is in the store, or the engine has
  refused it, or it lies in a soft-skipped hole.  The last two are by design, and an entry
  is missing in each (`complete_is_not_gapless`).
-/
import WebOfTrust.CatchUpCursor

namespace WebOfTrust

open Async DocLogStore SyncWorld Retains List

/-! ## 1. Pages of an honest broker -/

section

variable {b : BrokerStore} {docId : DocId} {heads : List (DeviceId × Nat)} {limit : Nat}

def BrokerStore.Holds (b : BrokerStore) (docId : DocId) (p : LogEntryPayload) : Prop :=
  ∃ r ∈ b.docLog.rows, r.docId = docId ∧ r.entryJws = .compact p

theorem mem_missing {r : DocLogRow} :
    r ∈ (((b.docLog.rows.filter fun r => decide (r.docId = docId)).insertionSort
      fun a b => a.deviceId < b.deviceId ∨ a.deviceId = b.deviceId ∧ a.seq ≤ b.seq).filter
        fun r => (heads.lookup r.deviceId).all (· < r.seq)) ↔ r ∈ b.docLog.rows ∧ r.docId = docId ∧
        (heads.lookup r.deviceId).all (fun head => decide (head < r.seq)) = true := by
  rw [mem_filter, mem_insertionSort, mem_filter, decide_eq_true_eq, and_assoc]

theorem mem_page (hb : b.Honest) {entryJws : EntryJws}
    (h : entryJws ∈ (b.syncResponse docId heads limit).entries) :
    ∃ p, entryJws = .compact p ∧ p.docId = docId ∧ b.Holds docId p ∧
      (heads.lookup p.deviceId).all (fun head => decide (head < p.seq)) = true := by
  obtain ⟨r, hr, rfl⟩ := mem_map.mp h
  obtain ⟨hmem, hdoc, habove⟩ := mem_missing.mp (mem_of_mem_take hr)
  obtain ⟨p, hp, hpdoc, hpdev, hpseq⟩ := hb r hmem
  refine ⟨p, hp, hpdoc.trans hdoc, ⟨r, hmem, hdoc, hp⟩, ?_⟩
  rw [hpdev, hpseq]
  exact habove

theorem page_of_not_truncated (hb : b.Honest)
    (htrunc : (b.syncResponse docId heads limit).truncated = false) {p : LogEntryPayload}
    (hp : b.Holds docId p)
    (habove : (heads.lookup p.deviceId).all (fun head => decide (head < p.seq)) = true) :
    .compact p ∈ (b.syncResponse docId heads limit).entries := by
  obtain ⟨r, hmem, hdoc, hjws⟩ := hp
  obtain ⟨p', hp', -, hpdev, hpseq⟩ := hb r hmem
  rw [hjws] at hp'
  cases hp'
  rw [hpdev, hpseq] at habove
  have hr := mem_missing.mpr ⟨hmem, hdoc, habove⟩
  have hlen := of_decide_eq_false htrunc
  refine mem_map.mpr ⟨r, ?_, hjws⟩
  rw [take_of_length_le (by omega)]
  exact hr

end

/-! ## 2. One page -/

section

variable {cfg : SyncConfig} {w w₀ : SyncWorld} {α : Type} {Q : α → SyncWorld → Prop}
  {E : SyncError → SyncWorld → Prop}

theorem ends_syncCall {t : SyncPoint} {f : Env → SyncWorld → SyncWorld} {g : Env → SyncWorld → α}
    (herr : ∀ text, E (.rejected text) w) (hok : ∀ env, Q (g env w) (f env w)) :
    Ends Q E (atomic t fun (env : Env) w => env.syncCall w (f env w) (g env w)) w := by
  apply ends_atomic
  intro env
  unfold Env.syncCall
  cases env.failure with
  | some text =>
    refine ⟨fun _ h => (by cases h), fun e h => ?_⟩
    cases h
    exact herr text
  | none =>
    refine ⟨fun a h => ?_, fun _ h => by cases h⟩
    cases h
    exact hok env

def SyncConfig.foreign (cfg : SyncConfig) (p : LogEntryPayload) : Bool :=
  (cfg.decrypt p).any fun plaintext => !cfg.applyRemoteUpdate plaintext

/-- An entry of this document that the content keys at hand open. -/
def SyncConfig.Readable (cfg : SyncConfig) (entryJws : EntryJws) : Prop :=
  ∃ p, entryJws = .compact p ∧ p.docId = cfg.docId ∧ (cfg.decrypt p).isSome = true

/-- The marks in memory follow the commits. -/
def AppliedStored (cfg : SyncConfig) (w : SyncWorld) : Prop :=
  ∀ key ∈ w.applied, Present w.store cfg.docId key.1 key.2

theorem processPayload_cases (w : SyncWorld) (known : DeviceId → Nat → Bool) {p : LogEntryPayload}
    (hdoc : p.docId = cfg.docId) (hkey : (cfg.decrypt p).isSome = true) :
    (((p.deviceId, p.seq) ∈ w.applied ∨ known p.deviceId p.seq = true) ∧
      processPayload cfg known p w = (.idempotentSkip p.deviceId p.seq, w)) ∨
    ((p.deviceId, p.seq) ∉ w.applied ∧ known p.deviceId p.seq = false ∧
      ∃ plaintext, processPayload cfg known p w =
        (.appliedUnrecorded p, { w with updates := w.updates ++ [plaintext] })) ∨
    (cfg.foreign p = true ∧
      processPayload cfg known p w = (.engineForeignSkip "apply-failed", w)) := by
  obtain ⟨plaintext, hplain⟩ := Option.isSome_iff_exists.mp hkey
  unfold processPayload SyncConfig.foreign
  rw [if_neg (not_not.mpr hdoc), hplain]
  by_cases happlied : (p.deviceId, p.seq) ∈ w.applied
  · left
    exact ⟨.inl happlied, if_pos happlied⟩
  rw [if_neg happlied]
  cases hknown : known p.deviceId p.seq with
  | true =>
    left
    exact ⟨.inr rfl, rfl⟩
  | false =>
    right
    rw [if_neg Bool.false_ne_true]
    dsimp only
    split
    · left
      exact ⟨happlied, rfl, plaintext, rfl⟩
    · next hrefused =>
      simp [hrefused]

/-- The state of a page after the entries `done`. -/
structure Computed (cfg : SyncConfig) (w₀ : SyncWorld) (done : List EntryJws)
    (page : PageProgress) (w : SyncWorld) : Prop where
  gap : w.gap = w₀.gap
  applied : AppliedStored cfg w
  grows : ∀ key ∈ w₀.applied, key ∈ w.applied
  fresh : ∀ e ∈ page.toPersist, e.docId = cfg.docId ∧
    ¬ Present w₀.store cfg.docId e.deviceId e.seq ∧
      ∃ p, .compact p ∈ done ∧ p.deviceId = e.deviceId ∧ p.seq = e.seq
  covered : ∀ p, .compact p ∈ done → Present w₀.store cfg.docId p.deviceId p.seq ∨
    (p.deviceId, p.seq) ∈ page.pendingKeys ∨ cfg.foreign p = true
  buffered : page.buffered = 0
  silent : page.toPersist = [] → page.idempotentSkips = 0 →
    ∀ p, .compact p ∈ done → cfg.foreign p = true

theorem computed_init (h : AppliedStored cfg w) : Computed cfg w [] .init w where
  gap := rfl
  applied := h
  grows _ hkey := hkey
  fresh e he := by cases he
  covered p hp := by cases hp
  buffered := rfl
  silent _ _ p hp := by cases hp

theorem mem_done {done : List EntryJws} {p p' : LogEntryPayload}
    (h : .compact p' ∈ done ++ [.compact p]) : .compact p' ∈ done ∨ p' = p := by
  rcases mem_append.mp h with hold | hnew
  · exact .inl hold
  · exact .inr (EntryJws.compact.inj (mem_singleton.mp hnew))

variable {done : List EntryJws} {page : PageProgress} {p : LogEntryPayload} {w' : SyncWorld}

section

variable (h : Computed cfg w₀ done page w)
include h

theorem Computed.skip
    (hknown : Present w₀.store cfg.docId p.deviceId p.seq ∨ (p.deviceId, p.seq) ∈ page.pendingKeys)
    (hgap : w'.gap = w.gap) (happlied : AppliedStored cfg w')
    (hgrows : ∀ key ∈ w.applied, key ∈ w'.applied) : Computed cfg w₀ (done ++ [.compact p])
      (page.add (.compact p) (.idempotentSkip p.deviceId p.seq)) w' where
  gap := hgap.trans h.gap
  applied := happlied
  grows key hkey := hgrows key (h.grows key hkey)
  fresh e he := by
    obtain ⟨hdoc, hnew, p', hp', hp''⟩ := h.fresh e he
    exact ⟨hdoc, hnew, p', mem_append_left _ hp', hp''⟩
  covered p' hp' := by
    rcases mem_done hp' with hold | rfl
    · exact h.covered p' hold
    rcases hknown with hstored | hpending
    · exact .inl hstored
    · exact .inr (.inl hpending)
  buffered := h.buffered
  silent _ hskips := absurd hskips (Nat.succ_ne_zero _)

theorem Computed.apply (hdoc : p.docId = cfg.docId)
    (hnew : ¬ Present w₀.store cfg.docId p.deviceId p.seq) (hgap : w'.gap = w.gap)
    (happlied : w'.applied = w.applied) :
    Computed cfg w₀ (done ++ [.compact p]) (page.add (.compact p) (.appliedUnrecorded p)) w' where
  gap := hgap.trans h.gap
  applied key hkey := by
    rw [happlied] at hkey
    have hstored := h.applied key hkey
    unfold store at hstored ⊢
    rwa [hgap]
  grows key hkey := by
    rw [happlied]
    exact h.grows key hkey
  fresh e he := by
    rcases mem_append.mp he with hold | hself
    · obtain ⟨hdoc', hnew', p', hp', hp''⟩ := h.fresh e hold
      exact ⟨hdoc', hnew', p', mem_append_left _ hp', hp''⟩
    · cases mem_singleton.mp hself
      exact ⟨hdoc, hnew, p, mem_append_right _ mem_cons_self, rfl, rfl⟩
  covered p' hp' := by
    have hpending : (page.add (.compact p) (.appliedUnrecorded p)).pendingKeys =
        page.pendingKeys ++ [(p.deviceId, p.seq)] := map_append ..
    rw [hpending]
    rcases mem_done hp' with hold | rfl
    · rcases h.covered p' hold with hstored | hkey | hforeign
      · exact .inl hstored
      · exact .inr (.inl (mem_append_left _ hkey))
      · exact .inr (.inr hforeign)
    · exact .inr (.inl (mem_append_right _ mem_cons_self))
  buffered := h.buffered
  silent hnone := absurd hnone (append_ne_nil_of_right_ne_nil _ (cons_ne_nil _ _))

theorem Computed.pass (hforeign : cfg.foreign p = true) (reason : String) :
    Computed cfg w₀ (done ++ [.compact p])
      (page.add (.compact p) (.engineForeignSkip reason)) w where
  gap := h.gap
  applied := h.applied
  grows := h.grows
  fresh e he := by
    obtain ⟨hdoc, hnew, p', hp', hp''⟩ := h.fresh e he
    exact ⟨hdoc, hnew, p', mem_append_left _ hp', hp''⟩
  covered p' hp' := by
    rcases mem_done hp' with hold | rfl
    · exact h.covered p' hold
    · exact .inr (.inr hforeign)
  buffered := h.buffered
  silent hnone hskips p' hp' := by
    rcases mem_done hp' with hold | rfl
    · exact h.silent hnone hskips p' hold
    · exact hforeign

end

/-- A rejected call: nothing that was stored is lost. -/
def Rejected (cfg : SyncConfig) (w₀ : SyncWorld) (e : SyncError) (w : SyncWorld) : Prop :=
  (∃ text, e = .rejected text) ∧ Retains w₀.store w.store ∧ AppliedStored cfg w

theorem Computed.rejected (h : Computed cfg w₀ done page w) (text : String) :
    Rejected cfg w₀ (.rejected text) w := by
  refine ⟨⟨text, rfl⟩, ?_, h.applied⟩
  unfold store
  rw [h.gap]
  exact refl _

theorem ends_readStore {t : SyncPoint} {f : DocLogStore → α} (herr : ∀ text, E (.rejected text) w)
    (hok : Q (f w.store) w) : Ends Q E (readStore t f) w :=
  ends_syncCall herr fun _ => hok

theorem autoResolveGaps_ends (e : RecordRemoteAppliedEntry)
    (herr : ∀ text, E (.rejected text) w) :
    Ends (fun _ w' => w' = w.setStore (w.store.autoResolveGaps e.docId e.deviceId)) E
      (SyncWorld.autoResolveGaps e) w := by
  apply ends_bind
  apply ends_readStore herr
  unfold DocLogStore.autoResolveGaps
  cases w.store.sortedSeqs e.docId e.deviceId with
  | nil => rfl
  | cons seq rest => exact ends_syncCall herr fun _ => rfl

theorem recordRemoteAppliedBatch_ends (h : Computed cfg w₀ done page w)
    (es : List RecordRemoteAppliedEntry) :
    Ends (fun _ w' => ∃ now, w' = w.setStore (w.store.recordAppliedBatch es now)) (Rejected cfg w₀)
      (SyncWorld.recordRemoteAppliedBatch es) w := by
  apply ends_bind
  apply ends_syncCall h.rejected
  intro env
  -- what the store holds once the gaps of some of the entries are dropped
  let resolved (before : List RecordRemoteAppliedEntry) : DocLogStore :=
    before.foldl (fun s e => s.autoResolveGaps e.docId e.deviceId)
      (es.foldl (fun s e => s.putRemoteApplied e env.now) w.store)
  have hretains (before : List RecordRemoteAppliedEntry) : Retains w.store (resolved before) := by
    intro k e he
    rw [(foldl_autoResolveGaps before).1, ← entries_recordAppliedBatch]
    exact retains_recordAppliedBatch es env.now k e he
  have hrejected (before : List RecordRemoteAppliedEntry) (text : String) :
      Rejected cfg w₀ (.rejected text) (w.setStore (resolved before)) := by
    refine ⟨⟨text, rfl⟩, ?_, fun key hkey => (hretains before).present (h.applied key hkey)⟩
    have hstore : w.store = w₀.store := by
      unfold store
      rw [h.gap]
    rw [← hstore]
    exact hretains before
  have hloop : Ends (fun _ w' => ∃ before, before ++ [] = es ∧ w' = w.setStore (resolved before))
      (Rejected cfg w₀) (forEach es SyncWorld.autoResolveGaps) (w.setStore (resolved [])) := by
    refine ends_forEach (J := fun rest w' => ∃ before, before ++ rest = es ∧
      w' = w.setStore (resolved before)) ?_ ⟨[], rfl, rfl⟩
    rintro e rest _ ⟨before, hes, rfl⟩
    refine (autoResolveGaps_ends e (hrejected before)).mono ?_ fun _ _ he => he
    rintro - _ rfl
    refine ⟨before ++ [e], (append_assoc ..).trans hes, ?_⟩
    simp only [resolved, foldl_append]
    rfl
  refine hloop.mono ?_ fun _ _ he => he
  rintro - _ ⟨before, hes, rfl⟩
  rw [append_nil] at hes
  refine ⟨env.now, ?_⟩
  rw [hes]
  rfl

variable {durablyKnown : List (DeviceId × Nat)}

theorem computeEntry_ends (h : Computed cfg w₀ done page w)
    (hknown : ∀ key ∈ durablyKnown, Present w₀.store cfg.docId key.1 key.2)
    (hprobe : Present w₀.store cfg.docId p.deviceId p.seq →
      (p.deviceId, p.seq) ∈ w₀.applied ∨ (p.deviceId, p.seq) ∈ durablyKnown)
    (hdoc : p.docId = cfg.docId) (hkey : (cfg.decrypt p).isSome = true) :
    Ends (fun page' w' => Computed cfg w₀ (done ++ [.compact p]) page' w') (Rejected cfg w₀)
      (computeEntry cfg durablyKnown page (.compact p)) w := by
  let known (deviceId : DeviceId) (seq : Nat) : Bool :=
    durablyKnown.contains (deviceId, seq) || page.pendingKeys.contains (deviceId, seq)
  have hcases := processPayload_cases w known hdoc hkey
  apply ends_bind
  apply ends_syncCall (f := fun _ w => (processPayload cfg known p w).2)
    (g := fun _ w => (processPayload cfg known p w).1)
  · intro text
    exact h.rejected text
  intro _
  rcases hcases with ⟨hin, heq⟩ | ⟨hnot, hnew, plaintext, heq⟩ | ⟨hforeign, heq⟩
  · rw [heq]
    have hstored : Present w₀.store cfg.docId p.deviceId p.seq ∨
        (p.deviceId, p.seq) ∈ page.pendingKeys := by
      rcases hin with happlied | hin
      · have := h.applied _ happlied
        unfold store at this ⊢
        rw [h.gap] at this
        exact .inl this
      rcases Bool.or_eq_true_iff.mp hin with hdurable | hpending
      · exact .inl (hknown _ (contains_iff_mem.mp hdurable))
      · exact .inr (contains_iff_mem.mp hpending)
    dsimp only
    split
    · next hdurable =>
      -- mirror the durable hit
      apply ends_bind
      apply ends_mutate
      intro _
      refine h.skip hstored rfl ?_ ?_
      · intro key hkey'
        rcases mem_cons.mp hkey' with rfl | hold
        · have hthere := hknown _ (contains_iff_mem.mp hdurable)
          unfold markApplied store
          rw [h.gap]
          exact hthere
        · exact h.applied key hold
      · intro key hkey'
        exact mem_cons_of_mem _ hkey'
    · exact h.skip hstored rfl h.applied fun _ hkey' => hkey'
  · rw [heq]
    rw [Bool.or_eq_false_iff] at hnew
    refine h.apply hdoc (fun hthere => ?_) rfl rfl
    rcases hprobe hthere with happlied | hdurable
    · exact hnot (h.grows _ happlied)
    · rw [contains_iff_mem.mpr hdurable] at hnew
      cases hnew.1
  · rw [heq]
    exact h.pass hforeign _

/-- What a page has done once it is committed. -/
structure PageApplied (cfg : SyncConfig) (w₀ : SyncWorld) (entries : List EntryJws)
    (page : PageProgress) (w : SyncWorld) : Prop where
  retains : Retains w₀.store w.store
  applied : AppliedStored cfg w
  present : ∀ p, .compact p ∈ entries →
    Present w.store cfg.docId p.deviceId p.seq ∨ cfg.foreign p = true
  buffered : page.buffered = 0
  quiet : page.toPersist = [] → w.store = w₀.store
  grown : page.toPersist ≠ [] → ∃ p, .compact p ∈ entries ∧
    ¬ Present w₀.store cfg.docId p.deviceId p.seq ∧ Present w.store cfg.docId p.deviceId p.seq
  silent : page.toPersist = [] → page.idempotentSkips = 0 →
    ∀ p, .compact p ∈ entries → cfg.foreign p = true
  holes : ∀ d q, SkippedHole w₀.store cfg.docId d q →
    (∀ p, .compact p ∈ entries → p.deviceId = d → q < p.seq) → SkippedHole w.store cfg.docId d q

variable {entries : List EntryJws}

theorem Computed.settle (h : Computed cfg w₀ entries page w) (hnone : page.toPersist = []) :
    PageApplied cfg w₀ entries page w := by
  have hstore : w.store = w₀.store := by
    unfold store
    rw [h.gap]
  constructor
  · rw [hstore]
    exact refl _
  · exact h.applied
  · intro p hp
    rw [hstore]
    rcases h.covered p hp with hstored | hpending | hforeign
    · exact .inl hstored
    · unfold PageProgress.pendingKeys at hpending
      rw [hnone] at hpending
      cases hpending
    · exact .inr hforeign
  · exact h.buffered
  · intro _
    exact hstore
  · intro hsome
    exact absurd hnone hsome
  · exact h.silent
  · intro d q hhole _
    rw [hstore]
    exact hhole

theorem foldl_markRemoteApplied (es : List RecordRemoteAppliedEntry) (w : SyncWorld) :
    (es.foldl (fun w e => w.markRemoteApplied e.deviceId e.seq) w).gap = w.gap ∧
      ∀ key, key ∈ (es.foldl (fun w e => w.markRemoteApplied e.deviceId e.seq) w).applied ↔
        key ∈ w.applied ∨ ∃ e ∈ es, key = (e.deviceId, e.seq) := by
  induction es generalizing w with
  | nil => exact ⟨rfl, fun key => by simp⟩
  | cons e rest ih =>
    obtain ⟨hgap, hmem⟩ := ih (w.markRemoteApplied e.deviceId e.seq)
    refine ⟨hgap, fun key => ?_⟩
    rw [foldl_cons, hmem]
    unfold markRemoteApplied markApplied
    simp only [mem_cons, exists_eq_or_imp]
    tauto

theorem Computed.commit (h : Computed cfg w₀ entries page w) (hsome : page.toPersist ≠ [])
    (now : Nat) (hw' : w' = page.toPersist.foldl (fun w e => w.markRemoteApplied e.deviceId e.seq)
      (w.setStore (w.store.recordAppliedBatch page.toPersist now))) :
    PageApplied cfg w₀ entries page w' := by
  have hstore₀ : w.store = w₀.store := by
    unfold store
    rw [h.gap]
  obtain ⟨hgap, hmarks⟩ := foldl_markRemoteApplied page.toPersist
    (w.setStore (w.store.recordAppliedBatch page.toPersist now))
  have hstore : w'.store = w₀.store.recordAppliedBatch page.toPersist now := by
    rw [hw', ← hstore₀]
    unfold store
    rw [hgap]
    rfl
  have hkept : ∀ d q, Present w₀.store cfg.docId d q → Present w'.store cfg.docId d q := by
    intro d q hthere
    rw [hstore]
    exact (retains_recordAppliedBatch _ _).present hthere
  have hthere : ∀ e ∈ page.toPersist, Present w'.store cfg.docId e.deviceId e.seq := by
    intro e he
    rw [hstore]
    unfold Present
    rw [has_recordAppliedBatch, Bool.or_eq_true_iff]
    refine .inr (any_eq_true.mpr ⟨e, he, decide_eq_true ?_⟩)
    unfold RecordRemoteAppliedEntry.key
    rw [(h.fresh e he).1]
  constructor
  · rw [hstore]
    exact retains_recordAppliedBatch _ _
  · intro key hkey
    rw [hw', hmarks] at hkey
    rcases hkey with hold | ⟨e, he, rfl⟩
    · apply hkept
      rw [← hstore₀]
      exact h.applied key hold
    · exact hthere e he
  · intro p hp
    rcases h.covered p hp with hstored | hpending | hforeign
    · exact .inl (hkept _ _ hstored)
    · obtain ⟨e, he, hkey⟩ := mem_map.mp hpending
      simp only [Prod.mk.injEq] at hkey
      rw [← hkey.1, ← hkey.2]
      exact .inl (hthere e he)
    · exact .inr hforeign
  · exact h.buffered
  · intro hnone
    exact absurd hnone hsome
  · intro _
    obtain ⟨e, he⟩ := exists_mem_of_ne_nil _ hsome
    obtain ⟨-, hnew, p, hp, hdev, hseq⟩ := h.fresh e he
    refine ⟨p, hp, ?_, ?_⟩
    · rw [hdev, hseq]
      exact hnew
    · rw [hdev, hseq]
      exact hthere e he
  · exact h.silent
  · intro d q hhole habove
    rw [hstore]
    apply hhole.recordAppliedBatch
    intro e he _ hdev
    obtain ⟨-, -, p, hp, hpdev, hpseq⟩ := h.fresh e he
    rw [← hpseq]
    exact habove p hp (hpdev.trans hdev)

theorem computed_ends (happlied : AppliedStored cfg w)
    (hentries : ∀ entryJws ∈ entries, cfg.Readable entryJws)
    (hknown : ∀ key ∈ durablyKnown, Present w.store cfg.docId key.1 key.2)
    (hprobe : ∀ p, .compact p ∈ entries → Present w.store cfg.docId p.deviceId p.seq →
      (p.deviceId, p.seq) ∈ w.applied ∨ (p.deviceId, p.seq) ∈ durablyKnown) :
    Ends (fun page w' => Computed cfg w entries page w') (Rejected cfg w)
      (foldEach (computeEntry cfg durablyKnown) .init entries) w := by
  apply ends_foldEach (J := fun done page w' => Computed cfg w done page w')
  · intro done entryJws rest page w' hlist hJ
    have hmem : entryJws ∈ entries := by
      rw [← hlist]
      exact mem_append_right _ mem_cons_self
    obtain ⟨p, rfl, hdoc, hkey⟩ := hentries entryJws hmem
    exact computeEntry_ends hJ hknown (hprobe p hmem) hdoc hkey
  · exact computed_init happlied

theorem probePage_ends (hentries : ∀ entryJws ∈ entries, cfg.Readable entryJws) :
    Ends (fun durablyKnown w' => w' = w ∧
        (∀ key ∈ durablyKnown, Present w.store cfg.docId key.1 key.2) ∧
        ∀ p, .compact p ∈ entries → Present w.store cfg.docId p.deviceId p.seq →
          (p.deviceId, p.seq) ∈ w.applied ∨ (p.deviceId, p.seq) ∈ durablyKnown)
      (fun e w' => (∃ text, e = .rejected text) ∧ w' = w) (probePage cfg entries) w := by
  have hclaimed : ∀ p, .compact p ∈ entries → (p.deviceId, p.seq) ∉ w.applied →
      (p.deviceId, p.seq) ∈ ((entries.filterMap (claimLogEntryKey cfg)).filter fun key =>
        decide (key ∉ w.applied)).dedup := by
    intro p hp hnot
    obtain ⟨p', hp', hdoc, -⟩ := hentries _ hp
    cases hp'
    rw [mem_dedup, mem_filter, decide_eq_true_eq]
    exact ⟨mem_filterMap.mpr ⟨_, hp, if_pos hdoc⟩, hnot⟩
  apply ends_bind
  apply ends_query
  intro _
  split
  · next hempty =>
    refine ⟨rfl, fun key hkey => (by cases hkey), fun p hp _ => ?_⟩
    by_contra hnot
    have hmem := hclaimed p hp fun happlied => hnot (.inl happlied)
    rw [isEmpty_iff.mp hempty] at hmem
    cases hmem
  · apply ends_syncCall
    · intro text
      exact ⟨⟨text, rfl⟩, rfl⟩
    intro _
    refine ⟨rfl, fun key hkey => (mem_filter.mp hkey).2, fun p hp hthere => ?_⟩
    by_cases happlied : (p.deviceId, p.seq) ∈ w.applied
    · exact .inl happlied
    · exact .inr (mem_filter.mpr ⟨hclaimed p hp happlied, hthere⟩)

theorem applySyncResponsePage_ends (happlied : AppliedStored cfg w)
    (hentries : ∀ entryJws ∈ entries, cfg.Readable entryJws) :
    Ends (fun page w' => PageApplied cfg w entries page w') (Rejected cfg w)
      (applySyncResponsePage cfg entries) w := by
  apply ends_bind
  apply (probePage_ends hentries).mono
  · rintro durablyKnown w' ⟨rfl, hknown, hprobe⟩
    apply ends_bind
    refine (computed_ends happlied hentries hknown hprobe).mono (fun page w'' h => ?_)
      fun _ _ h => h
    unfold commitPage
    split
    · next hnone => exact h.settle (isEmpty_iff.mp hnone)
    next hsome =>
    have hsome : page.toPersist ≠ [] := fun hnil => hsome (isEmpty_iff.mpr hnil)
    apply ends_bind
    refine (recordRemoteAppliedBatch_ends h page.toPersist).mono ?_ fun _ _ he => he
    rintro - w' ⟨now, rfl⟩
    apply ends_bind
    apply ends_mutate
    intro _
    exact h.commit hsome now rfl
  · rintro e w' ⟨htext, rfl⟩
    exact ⟨htext, refl _, happlied⟩

end

/-! ## 3. What is left to do -/

theorem length_filter_lt {α : Type} {l : List α} {p q : α → Bool}
    (h : ∀ a, p a = true → q a = true) {a : α} (ha : a ∈ l) (hq : q a = true) (hp : p a = false) :
    (l.filter p).length < (l.filter q).length := by
  have hsub : (l.filter p).Sublist (l.filter q) := monotone_filter_right l fun a => h a
  apply Nat.lt_of_le_of_ne hsub.length_le
  intro hlen
  have hmem : a ∈ l.filter p := by
    rw [hsub.eq_of_length hlen]
    exact mem_filter.mpr ⟨ha, hq⟩
  rw [(mem_filter.mp hmem).2] at hp
  cases hp

section

variable (cfg : SyncConfig) (b : BrokerStore)

def unstored (s : DocLogStore) : Nat :=
  (b.docLog.rows.filter fun r =>
    decide (r.docId = cfg.docId) && !s.entries.has (cfg.docId, r.deviceId, r.seq)).length

def confirmable : List String := pageHoles cfg.docId (b.getHeads cfg.docId)

def openHoles (s : DocLogStore) : Nat :=
  ((confirmable cfg b).filter fun key => !softAt s key).length

def remaining (s : DocLogStore) : Nat :=
  unstored cfg b s * ((confirmable cfg b).length + 1) + openHoles cfg b s

variable {cfg b} {s s' : DocLogStore}

theorem unstored_congr (h : s'.entries = s.entries) : unstored cfg b s' = unstored cfg b s := by
  unfold unstored
  rw [h]

theorem unstored_lt (hb : b.Honest) (h : Retains s s') {p : LogEntryPayload}
    (hp : b.Holds cfg.docId p) (hbefore : ¬ Present s cfg.docId p.deviceId p.seq)
    (hafter : Present s' cfg.docId p.deviceId p.seq) : unstored cfg b s' < unstored cfg b s := by
  obtain ⟨r, hr, hdoc, hjws⟩ := hp
  obtain ⟨p', hp', -, hdev, hseq⟩ := hb r hr
  rw [hjws] at hp'
  cases hp'
  rw [hdev, hseq] at hbefore hafter
  apply length_filter_lt _ hr
  · simp only [hdoc, decide_true, Bool.true_and, Bool.not_eq_true']
    exact Bool.not_eq_true _ ▸ hbefore
  · rw [hafter]
    simp
  intro r' hr'
  rw [Bool.and_eq_true, Bool.not_eq_true'] at hr' ⊢
  refine ⟨hr'.1, ?_⟩
  by_contra hthere
  rw [Bool.not_eq_false] at hthere
  exact absurd (h.present hthere) (Bool.eq_false_iff.mp hr'.2)

theorem openHoles_le (cfg : SyncConfig) (b : BrokerStore) (s : DocLogStore) :
    openHoles cfg b s ≤ (confirmable cfg b).length :=
  length_filter_le _ _

theorem openHoles_lt (hn : Noted cfg.docId (confirmable cfg b) s s') {key : String}
    (hkey : key ∈ confirmable cfg b) (hbefore : softAt s key = false)
    (hafter : softAt s' key = true) : openHoles cfg b s' < openHoles cfg b s := by
  apply length_filter_lt _ hkey
  · rw [hbefore]
    rfl
  · rw [hafter]
    rfl
  intro key' hkey'
  rw [Bool.not_eq_true'] at hkey' ⊢
  by_contra hsoft
  rw [Bool.not_eq_false] at hsoft
  rw [hn.soft key' hsoft] at hkey'
  cases hkey'

theorem remaining_lt_of_unstored (h : unstored cfg b s' < unstored cfg b s) :
    remaining cfg b s' < remaining cfg b s := by
  have hholes := openHoles_le cfg b s'
  calc unstored cfg b s' * ((confirmable cfg b).length + 1) + openHoles cfg b s'
      < unstored cfg b s' * ((confirmable cfg b).length + 1) +
        ((confirmable cfg b).length + 1) := by
        omega
    _ = (unstored cfg b s' + 1) * ((confirmable cfg b).length + 1) := (Nat.succ_mul ..).symm
    _ ≤ unstored cfg b s * ((confirmable cfg b).length + 1) := Nat.mul_le_mul_right _ h
    _ ≤ _ := Nat.le_add_right _ _

theorem remaining_lt_of_openHoles (hentries : s'.entries = s.entries)
    (h : openHoles cfg b s' < openHoles cfg b s) : remaining cfg b s' < remaining cfg b s := by
  unfold remaining
  rw [unstored_congr hentries]
  omega

theorem headsRecord_congr (h : s'.entries = s.entries) (docId : DocId) (heads : Heads) :
    s'.headsRecord docId heads = s.headsRecord docId heads := by
  unfold DocLogStore.headsRecord DocLogStore.devices
  rw [h]

/-- **A page that lets the loop go on leaves less to do.** -/
theorem remaining_lt {entries : List EntryJws} {page : PageProgress} {w w₁ : SyncWorld}
    {s₂ : DocLogStore} (hb : b.Honest) (hpage : PageApplied cfg w entries page w₁)
    (hentries : ∀ p, .compact p ∈ entries → b.Holds cfg.docId p)
    (hnoted : Noted cfg.docId (confirmable cfg b) w₁.store s₂) (hmoved : headsAdvanced
          (w.store.headsRecord cfg.docId (w.store.getStrictContiguousHeads cfg.docId))
          (w₁.store.headsRecord cfg.docId (w₁.store.getStrictContiguousHeads cfg.docId)) = true ∨
        headsAdvanced (w.store.headsRecord cfg.docId (w.store.getSyncRequestHeads cfg.docId))
          (s₂.headsRecord cfg.docId (s₂.getSyncRequestHeads cfg.docId)) = true) :
    remaining cfg b s₂ < remaining cfg b w.store := by
  by_cases hnone : page.toPersist = []
  · have hstore := hpage.quiet hnone
    rw [hstore] at hnoted hmoved
    rcases hmoved with hstrict | hcursor
    · rw [headsAdvanced_self] at hstrict
      cases hstrict
    rcases hnoted.view with hsame | ⟨key, hkey, hbefore, hafter⟩
    · rw [getSyncRequestHeads_congr hnoted.entries hsame, headsRecord_congr hnoted.entries,
        headsAdvanced_self] at hcursor
      cases hcursor
    · exact remaining_lt_of_openHoles hnoted.entries (openHoles_lt hnoted hkey hbefore hafter)
  · obtain ⟨p, hp, hbefore, hafter⟩ := hpage.grown hnone
    apply remaining_lt_of_unstored
    rw [unstored_congr hnoted.entries]
    exact unstored_lt hb hpage.retains (hentries p hp) hbefore hafter

end

/-! ## 4. The loop -/

section

variable (cfg : SyncConfig) (b : BrokerStore)

/-- What a catch-up reports, against what it has. -/
structure CatchUpOutcome (w₀ : SyncWorld) (r : CatchUpResult) (w : SyncWorld) : Prop where
  retains : Retains w₀.store w.store
  complete : r.complete = true → r.incomplete = none ∧ ∀ p, b.Holds cfg.docId p →
    Present w.store cfg.docId p.deviceId p.seq ∨ cfg.foreign p = true ∨
      SkippedHole w.store cfg.docId p.deviceId p.seq
  incomplete : r.complete = false → r.incomplete = some .timeout ∨ r.incomplete = some .gapPending

/-- How a catch-up throws: a call rejected, or a truncated page held nothing but entries that
    the engine refuses. -/
structure CatchUpFailure (w₀ : SyncWorld) (e : SyncError) (w : SyncWorld) : Prop where
  retains : Retains w₀.store w.store
  error : (∃ text, e = .rejected text) ∨ e = .syncNoProgress cfg.docId ∧
    ∃ heads, (b.syncResponse cfg.docId heads cfg.limit).truncated = true ∧
      ∀ p, .compact p ∈ (b.syncResponse cfg.docId heads cfg.limit).entries → cfg.foreign p = true

variable {cfg b} {w w₁ w₂ : SyncWorld} {α : Type} {Q : α → SyncWorld → Prop}
  {E : SyncError → SyncWorld → Prop}

theorem CatchUpOutcome.before {r : CatchUpResult} (h : CatchUpOutcome cfg b w₁ r w)
    (hkeep : Retains w₂.store w₁.store) : CatchUpOutcome cfg b w₂ r w :=
  ⟨hkeep.trans h.retains, h.complete, h.incomplete⟩

theorem CatchUpFailure.before {e : SyncError} (h : CatchUpFailure cfg b w₁ e w)
    (hkeep : Retains w₂.store w₁.store) : CatchUpFailure cfg b w₂ e w :=
  ⟨hkeep.trans h.retains, h.error⟩

theorem CatchUpFailure.rejected (h : Retains w₁.store w.store) (text : String) :
    CatchUpFailure cfg b w₁ (.rejected text) w :=
  ⟨h, .inl ⟨text, rfl⟩⟩

abbrev wireOf (cfg : SyncConfig) (s : DocLogStore) : List (DeviceId × Nat) :=
  sanitizeWireHeads (s.headsRecord cfg.docId (s.getSyncRequestHeads cfg.docId))

abbrev answerTo (cfg : SyncConfig) (b : BrokerStore) (s : DocLogStore) : SyncResponse :=
  b.syncResponse cfg.docId (wireOf cfg s) cfg.limit

/-- **The last page leaves nothing out** but what the engine refuses and what a skipped hole
    hides. -/
theorem lastPage_complete {page : PageProgress} {s₂ : DocLogStore} (hb : b.Honest)
    (htrunc : (answerTo cfg b w.store).truncated = false)
    (hpage : PageApplied cfg w (answerTo cfg b w.store).entries page w₁)
    (hnoted : Noted cfg.docId (confirmable cfg b) w₁.store s₂) {p : LogEntryPayload}
    (hp : b.Holds cfg.docId p) : Present s₂ cfg.docId p.deviceId p.seq ∨ cfg.foreign p = true ∨
      SkippedHole s₂ cfg.docId p.deviceId p.seq := by
  have hkept : Present w₁.store cfg.docId p.deviceId p.seq →
      Present s₂ cfg.docId p.deviceId p.seq := (retains_of_entries hnoted.entries).present
  by_cases habove : ((wireOf cfg w.store).lookup p.deviceId).all
      (fun head => decide (head < p.seq)) = true
  · rcases hpage.present p (page_of_not_truncated hb htrunc hp habove) with hthere | hforeign
    · exact .inl (hkept hthere)
    · exact .inr (.inl hforeign)
  by_cases hthere : Present w.store cfg.docId p.deviceId p.seq
  · exact .inl (hkept (hpage.retains.present hthere))
  -- at or below the cursor, and missing
  right
  right
  have hcursor : ∃ head, w.store.getSyncRequestHeads cfg.docId p.deviceId = some head ∧
      (p.seq : Int) ≤ head := by
    rw [lookup_sanitize requestHeads_none] at habove
    push Not at habove
    exact habove
  obtain ⟨head, hhead, hle⟩ := hcursor
  have hhole := skippedHole_of_le_cursor hhead hle (getEntry_none_iff_not_present.mpr hthere)
  refine (hpage.holes _ _ hhole fun p' hp' hdev => ?_).noted hnoted
  obtain ⟨p'', hp'', -, -, habove'⟩ := mem_page hb hp'
  cases hp''
  rw [lookup_sanitize requestHeads_none] at habove'
  have := habove' head (hdev ▸ hhead)
  omega

theorem classifyPage_ends {page : PageProgress} {truncated strict cursor required : Bool}
    {continuePagination : SyncProgram CatchUpResult}
    (herr : ∀ text, E (.rejected text) w) {Q : CatchUpResult → SyncWorld → Prop}
    (hlast : truncated = false → ∀ gaps, Q ⟨required, true, none, some gaps⟩ w)
    (hgo : truncated = true → strict = true ∨ cursor = true → Ends Q E continuePagination w)
    (hgap : ∀ gaps, Q ⟨required, false, some .gapPending, some gaps⟩ w)
    (hbuffered : page.buffered = 0)
    (hstuck : truncated = true → page.toPersist = [] → page.idempotentSkips = 0 →
      E (.syncNoProgress cfg.docId) w) :
    Ends Q E (classifyPage cfg truncated strict cursor page required continuePagination) w := by
  unfold classifyPage
  split
  · next htrunc =>
    rw [Bool.not_eq_true'] at htrunc
    apply ends_bind
    exact ends_readStore herr (hlast htrunc _)
  next htrunc =>
  have htrunc : truncated = true := by simpa using htrunc
  split
  · next hmoved => exact hgo htrunc (Bool.or_eq_true_iff.mp hmoved)
  split
  · apply ends_bind
    exact ends_readStore herr (hgap _)
  next hevidence =>
  rw [if_neg (by omega)]
  exact hstuck htrunc (length_eq_zero_iff.mp (by omega)) (by omega)

/-- **The loop**, with enough fuel for what is left to do. -/
theorem catchUpPages_ends (hb : b.Honest)
    (hkeys : ∀ p, b.Holds cfg.docId p → (cfg.decrypt p).isSome = true) (fuel : Nat)
    (firstPage required : Bool) (happlied : AppliedStored cfg w)
    (hfuel : remaining cfg b w.store < fuel) :
    Ends (CatchUpOutcome cfg b w) (CatchUpFailure cfg b w)
      (catchUpPages cfg (b.syncResponse cfg.docId) fuel firstPage required) w := by
  induction fuel generalizing w firstPage required with
  | zero => omega
  | succ fuel ih =>
    have hreject : ∀ text, CatchUpFailure cfg b w (.rejected text) w :=
      .rejected (refl _)
    apply ends_bind
    apply ends_readStore hreject
    apply ends_bind
    apply ends_readStore hreject
    apply ends_bind
    apply ends_query
    intro env
    cases env.failure with
    | some text =>
      -- no answer in time
      exact ⟨refl _, fun h => (by cases h), fun _ => .inl rfl⟩
    | none =>
      have hentries : ∀ p, .compact p ∈ (answerTo cfg b w.store).entries → b.Holds cfg.docId p := by
        intro p hp
        obtain ⟨p', hp', -, hheld, -⟩ := mem_page hb hp
        cases hp'
        exact hheld
      have hreadable : ∀ entryJws ∈ (answerTo cfg b w.store).entries, cfg.Readable entryJws := by
        intro entryJws hin
        obtain ⟨p, rfl, hdoc, hheld, -⟩ := mem_page hb hin
        exact ⟨p, rfl, hdoc, hkeys p hheld⟩
      -- whatever the first page says of the own device, the page is applied
      have hpages : ∀ required, Ends (CatchUpOutcome cfg b w) (CatchUpFailure cfg b w)
            ((applySyncResponsePage cfg (answerTo cfg b w.store).entries).bind fun page =>
              (strictHeads cfg).bind fun strictAfter =>
              (recordGaps cfg (answerTo cfg b w.store) page
                (w.store.headsRecord cfg.docId (w.store.getSyncRequestHeads cfg.docId))).bind
                  fun _ =>
              (requestHeads cfg).bind fun wireAfter =>
              classifyPage cfg (answerTo cfg b w.store).truncated
                (headsAdvanced (w.store.headsRecord cfg.docId
                  (w.store.getStrictContiguousHeads cfg.docId)) strictAfter)
                (headsAdvanced (w.store.headsRecord cfg.docId
                  (w.store.getSyncRequestHeads cfg.docId)) wireAfter) page required
                (catchUpPages cfg (b.syncResponse cfg.docId) fuel false required)) w := by
        intro required
        apply ends_bind
        apply (applySyncResponsePage_ends happlied hreadable).mono
        · intro page w₁ hpage
          apply ends_bind
          apply ends_readStore (.rejected hpage.retains)
          apply ends_bind
          apply (ends_zoom recordGapsFromPage_ends).mono
          · rintro _ w₂ ⟨g, rfl, hnoted⟩
            have hkeep : Retains w.store g.store :=
              hpage.retains.trans (retains_of_entries hnoted.entries)
            have happlied₂ : AppliedStored cfg (gapPart.set g w₁) := by
              intro key hkey
              exact (retains_of_entries hnoted.entries).present (hpage.applied key hkey)
            apply ends_bind
            apply ends_readStore (.rejected hkeep)
            apply classifyPage_ends (.rejected hkeep)
            · intro htrunc gaps
              exact ⟨hkeep, fun _ => ⟨rfl, fun p hp => lastPage_complete hb htrunc hpage hnoted hp⟩,
                fun h => by cases h⟩
            · intro _ hmoved
              have hless := remaining_lt hb hpage hentries hnoted hmoved
              apply (ih false required happlied₂
                (by exact Nat.lt_of_lt_of_le hless (by omega))).mono
              · intro _ _ h
                exact h.before hkeep
              · intro _ _ h
                exact h.before hkeep
            · intro gaps
              exact ⟨hkeep, fun h => (by cases h), fun _ => .inr rfl⟩
            · exact hpage.buffered
            · intro htrunc hnone hskips
              exact ⟨hkeep, .inr ⟨rfl, _, htrunc, hpage.silent hnone hskips⟩⟩
          · rintro e w₂ ⟨text, g, rfl, rfl, hnoted⟩
            exact .rejected (hpage.retains.trans (retains_of_entries hnoted.entries)) text
        · rintro e w₁ ⟨⟨text, rfl⟩, hkeep, -⟩
          exact .rejected hkeep text
      apply ends_bind
      unfold computeRestoreDisposition
      split
      · apply ends_syncCall hreject
        intro _
        exact hpages _
      · exact hpages required

/-- **Catch-up ends**, against an honest broker and with every content key at hand: with a
    result that accounts for all the broker holds, with a timeout, before a hole that is not
    skipped yet, or with a call that rejects.  It gives up for lack of progress only where a
    truncated page holds nothing the engine takes, and nothing that was stored is lost. -/
theorem catchUp_ends (hb : b.Honest)
    (hkeys : ∀ p, b.Holds cfg.docId p → (cfg.decrypt p).isSome = true)
    (happlied : AppliedStored cfg w) (presentCapabilityFirst : Bool) :
    ∃ bound, ∀ fuel, bound ≤ fuel → Ends (CatchUpOutcome cfg b w) (CatchUpFailure cfg b w)
      (catchUpInternal cfg (b.syncResponse cfg.docId) presentCapabilityFirst fuel) w := by
  refine ⟨remaining cfg b w.store + 1, fun fuel hfuel => ?_⟩
  have hloop := catchUpPages_ends hb hkeys fuel true false happlied (by omega)
  unfold catchUpInternal
  split
  · apply ends_bind
    apply ends_syncCall (.rejected (refl _))
    intro _
    exact hloop
  · exact hloop

end

/-! ## 5. Runs -/

def pagePayload (deviceId : DeviceId) (seq : Nat) (update : UInt8) : LogEntryPayload where
  seq := seq
  deviceId := deviceId
  docId := "doc-1"
  authorKid := "did:example:author#sig"
  keyGeneration := 0
  data := ⟨replicate 32 7, [], [update]⟩
  timestamp := 0

variable (payloads : List LogEntryPayload)

def pageBroker : BrokerStore :=
  payloads.foldl (fun b p => (b.appendEntry p (.compact p) 0).2) .fresh

theorem pageBroker_honest : (pageBroker payloads).Honest :=
  foldlRecOn payloads _ BrokerStore.honest_fresh fun _ h p _ => h.appendEntry p 0

def pageConfig (size : Int) : SyncConfig where
  docId := "doc-1"
  catchUpPageSize := some size
  getContentKeyByGeneration _ := some (replicate 32 7)
  applyRemoteUpdate update := update.all (· < 100)

def answered (_ : SyncPoint) (_ : SyncWorld) : Env := ⟨none, 0, "id"⟩

theorem readable_of_rows {cfg : SyncConfig} {b : BrokerStore}
    (h : (b.docLog.rows.all fun r => match r.entryJws with
      | .compact p => (cfg.decrypt p).isSome
      | .blank => true) = true) : ∀ p, b.Holds cfg.docId p → (cfg.decrypt p).isSome = true := by
  rintro p ⟨r, hr, -, hjws⟩
  have hrow := all_eq_true.mp h r hr
  rw [hjws] at hrow
  exact hrow

def threePages : List LogEntryPayload :=
  [pagePayload "device-a" 0 1, pagePayload "device-a" 1 2, pagePayload "device-b" 0 3]

theorem catchUp_ends_three_pages : (∃ bound, ∀ fuel, bound ≤ fuel →
      Ends (CatchUpOutcome (pageConfig 1) (pageBroker threePages) (.start .fresh "device-c"))
        (CatchUpFailure (pageConfig 1) (pageBroker threePages) (.start .fresh "device-c"))
        (catchUpInternal (pageConfig 1) ((pageBroker threePages).syncResponse "doc-1") true fuel)
        (.start .fresh "device-c")) ∧
      ((catchUpInternal (pageConfig 1)
        ((pageBroker threePages).syncResponse "doc-1") true 3).outcome
        answered (.start .fresh "device-c")).1 = .ok ⟨false, true, none, some []⟩ :=
  ⟨catchUp_ends (pageBroker_honest _) (readable_of_rows (by decide +kernel))
    (fun key hkey => by cases hkey) true, by decide +kernel⟩

abbrev answeredRun (cfg : SyncConfig) (b : BrokerStore) (s : DocLogStore) :
    Except SyncError CatchUpResult × SyncWorld :=
  (catchUpInternal cfg (b.syncResponse cfg.docId) false 3).outcome answered (.start s "device-c")

def lateBroker : BrokerStore := pageBroker [pagePayload "device-1" 3 1]

/-- **`complete: true` is not gapless**, and not every end is typed.  An entry of the broker
    may lie in a skipped hole; an entry of the other engine is not stored, even into an empty
    store, and a page of such ends the loop for lack of progress; and a call that rejects is
    passed on. -/
theorem complete_is_not_gapless :
    (¬ ∀ (cfg : SyncConfig) (b : BrokerStore) (w : SyncWorld), b.Honest →
      (∀ p, b.Holds cfg.docId p → (cfg.decrypt p).isSome = true) → AppliedStored cfg w →
      (∀ p, b.Holds cfg.docId p → cfg.foreign p = false) → ∀ fuel,
      Ends (fun r w' => r.complete = true → ∀ p, b.Holds cfg.docId p →
          Present w'.store cfg.docId p.deviceId p.seq) (fun _ _ => True)
        (catchUpInternal cfg (b.syncResponse cfg.docId) false fuel) w) ∧
    (¬ ∀ (cfg : SyncConfig) (b : BrokerStore) (deviceId : DeviceId), b.Honest →
      (∀ p, b.Holds cfg.docId p → (cfg.decrypt p).isSome = true) → ∀ fuel,
      Ends (fun r w' => r.complete = true → ∀ p, b.Holds cfg.docId p →
          Present w'.store cfg.docId p.deviceId p.seq) (fun _ _ => True)
        (catchUpInternal cfg (b.syncResponse cfg.docId) false fuel) (.start .fresh deviceId)) ∧
    (¬ ∀ (cfg : SyncConfig) (b : BrokerStore) (deviceId : DeviceId), b.Honest →
      (∀ p, b.Holds cfg.docId p → (cfg.decrypt p).isSome = true) → ∀ fuel,
      Ends (fun _ _ => True) (fun e _ => e ≠ .syncNoProgress cfg.docId)
        (catchUpInternal cfg (b.syncResponse cfg.docId) false fuel) (.start .fresh deviceId)) ∧
    (¬ ∀ (cfg : SyncConfig) (b : BrokerStore) (deviceId : DeviceId), b.Honest →
      (∀ p, b.Holds cfg.docId p → (cfg.decrypt p).isSome = true) → ∀ fuel,
      Ends (fun _ _ => True) (fun e _ => ∀ text, e ≠ .rejected text)
        (catchUpInternal cfg (b.syncResponse cfg.docId) false fuel) (.start .fresh deviceId)) := by
  refine ⟨fun h => ?_, fun h => ?_, fun h => ?_, fun h => ?_⟩
  · -- the hole 2..4 is skipped, and seq 3 is at the broker
    have hends := h (pageConfig 1) lateBroker (.start holeStore "device-c") (pageBroker_honest _)
      (readable_of_rows (by decide +kernel)) (fun key hkey => by cases hkey) ?_ 3
    · have hrun : (answeredRun (pageConfig 1) lateBroker holeStore).1 =
          .ok ⟨false, true, none, some []⟩ := by decide +kernel
      have hthere := (hends.outcome answered).1 _ hrun rfl (pagePayload "device-1" 3 1)
        ⟨_, mem_cons_self, rfl, rfl⟩
      have hmissing : ¬ Present (answeredRun (pageConfig 1) lateBroker holeStore).2.store "doc-1"
          "device-1" 3 := by decide +kernel
      exact hmissing hthere
    · rintro p ⟨r, hr, -, hjws⟩
      cases mem_singleton.mp hr
      cases hjws
      decide +kernel
  · -- an entry of the other engine
    have hends := h (pageConfig 1) (pageBroker [pagePayload "device-a" 0 200]) "device-c"
      (pageBroker_honest _) (readable_of_rows (by decide +kernel)) 3
    have hrun : (answeredRun (pageConfig 1) (pageBroker [pagePayload "device-a" 0 200]) .fresh).1 =
        .ok ⟨false, true, none, some []⟩ := by decide +kernel
    have hthere := (hends.outcome answered).1 _ hrun rfl (pagePayload "device-a" 0 200)
      ⟨_, mem_cons_self, rfl, rfl⟩
    have hmissing : ¬ Present (answeredRun (pageConfig 1)
        (pageBroker [pagePayload "device-a" 0 200]) .fresh).2.store "doc-1" "device-a" 0 := by
      decide +kernel
    exact hmissing hthere
  · -- a page of it, and an own entry behind
    have hends := h (pageConfig 1)
      (pageBroker [pagePayload "device-a" 0 200, pagePayload "device-b" 0 1]) "device-c"
      (pageBroker_honest _) (readable_of_rows (by decide +kernel)) 3
    have hrun : (answeredRun (pageConfig 1)
        (pageBroker [pagePayload "device-a" 0 200, pagePayload "device-b" 0 1]) .fresh).1 =
        .error (.syncNoProgress "doc-1") := by decide +kernel
    exact (hends.outcome answered).2 _ hrun rfl
  · -- the store rejects the first read
    have hends := h (pageConfig 1) .fresh "device-c" BrokerStore.honest_fresh
      (fun p hp => by obtain ⟨r, hr, -⟩ := hp; cases hr) 3
    have hrun : ((catchUpInternal (pageConfig 1) (BrokerStore.fresh.syncResponse "doc-1") false
        3).outcome (fun _ _ => ⟨some "aborted", 0, "id"⟩) (.start .fresh "device-c")).1 =
          .error (.rejected "aborted") := by decide +kernel
    exact (hends.outcome _).2 _ hrun _ rfl

end WebOfTrust
