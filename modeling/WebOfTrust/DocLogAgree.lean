/-
  **The two adapters of the document log agree**, where they do.  The in-memory adapter
  differs from the durable one in four ways that a caller can see:

    * an entry that is there already ends `recordRemoteApplied`, so a gap that lies
      behind the head stays, which IndexedDB drops (`stale_gap_differs`);
    * a removal record without a phase gets one when it is written, not when it is read;
    * an entry is found under a joined string, so two coordinates can be one;
    * the empty string is a device id.

  In every sequence of calls that stays clear of these, the results are the same up to
  the order of lists (`stores_agree`).
-/
import Mathlib.Data.List.Dedup
import WebOfTrust.DocLogPort

namespace WebOfTrust

open DocLogStore KeyedTable List

/-! ## 1. Calls that both adapters answer alike -/

section

variable (s : DocLogStore)

def unambiguous (docId : DocId) (deviceId : DeviceId) (seq : Nat) : Bool :=
  s.entries.rows.all fun e => decide (e.joinedKey = joinedKey docId deviceId seq →
    e.key = (docId, deviceId, seq))

/-- The highest seq of a device without a gap below it, `-1` for an unknown device. -/
def strictHead (docId : DocId) (device : DeviceId) : Int :=
  strictContiguousHead (s.sortedSeqs docId device)

def noStaleGap (docId : DocId) (device : DeviceId) : Bool :=
  s.gapState.rows.all fun g =>
    !(decide (g.docId = docId) && decide (g.device = device) &&
      decide ((g.firstMissing : Int) ≤ strictHead s docId device))

def RecordRemoteAppliedEntry.key (e : RecordRemoteAppliedEntry) : DocId × DeviceId × Nat :=
  (e.docId, e.deviceId, e.seq)

def RecordRemoteAppliedEntry.joinedKey (e : RecordRemoteAppliedEntry) : String :=
  WebOfTrust.joinedKey e.docId e.deviceId e.seq

def bringsNew (entries : List RecordRemoteAppliedEntry) (docId : DocId)
    (device : DeviceId) : Bool :=
  entries.any fun e =>
    decide (e.docId = docId) && decide (e.deviceId = device) && !s.entries.has e.key

def regular : PortOp → Bool
  | .appendLocalEntry docId deviceId _ _ =>
    unambiguous s docId deviceId (s.readMaxSeq docId deviceId + 1).toNat
  | .getOrCreateDeviceId _ => decide (s.deviceId ≠ some "")
  | .resolveConnectDeviceId _ =>
    decide (s.deviceId ≠ some "") ||
      decide (s.pendingDevices = if s.hasOwnEntries "" then [""] else [])
  | .recordRemoteApplied entry _ =>
    unambiguous s entry.docId entry.deviceId entry.seq &&
      (bringsNew s [entry] entry.docId entry.deviceId || noStaleGap s entry.docId entry.deviceId)
  | .recordRemoteAppliedBatch entries _ =>
    entries.all fun e =>
      unambiguous s e.docId e.deviceId e.seq &&
        (entries.all fun e' => decide (e.joinedKey = e'.joinedKey → e.key = e'.key)) &&
        (bringsNew s entries e.docId e.deviceId || noStaleGap s e.docId e.deviceId)
  | .hasEntriesBatch docId keys => keys.all fun k => unambiguous s docId k.deviceId k.seq
  | .getEntry docId deviceId seq => unambiguous s docId deviceId seq
  | .markAcked docId deviceId seq => unambiguous s docId deviceId seq
  | .markBrokerConfirmed spaceId removedDid brokerUrl binding =>
    (s.pendingRemovals.get? (spaceId, removedDid)).all fun r =>
      r.phase.isSome || decide (r.committed = some true) || !r.confirmedBrokerUrls.isEmpty ||
        !r.homeBrokerSet.contains brokerUrl || !matchesConfirmationBinding r binding
  | _ => true

end

/-! ## 2. The two stores -/

/-- The same rows; a removal record is read alike. -/
structure Agree (m : InMemoryLog) (s : DocLogStore) : Prop where
  entries : m.entries.rows = s.entries.rows
  deviceId : m.deviceId = s.deviceId
  gapState : m.gapState = s.gapState
  pendingRemovals : m.pendingRemovals.rows = s.pendingRemovals.rows.map StoredPendingRemoval.load

theorem agree_fresh : Agree .fresh .fresh := ⟨rfl, rfl, rfl, rfl⟩

variable {m : InMemoryLog} {s : DocLogStore} {docId : DocId} {device deviceId : DeviceId}
  {seq : Nat} {now : Nat} {s' : DocLogStore} {e : RecordRemoteAppliedEntry}

section

variable (h : Agree m s)
include h

theorem Agree.maxSeq : m.maxSeq docId deviceId = s.readMaxSeq docId deviceId := by
  unfold InMemoryLog.maxSeq readMaxSeq namespaceRows
  rw [h.entries]

theorem Agree.seqsByDevice : m.seqsByDevice docId device = s.sortedSeqs docId device := by
  unfold InMemoryLog.seqsByDevice sortedSeqs namespaceRows
  rw [h.entries]

theorem Agree.getEntry (hkey : unambiguous s docId deviceId seq = true) :
    m.entries.get? (joinedKey docId deviceId seq) = s.entries.get? (docId, deviceId, seq) := by
  apply Option.ext
  intro e
  rw [get?_eq_some_iff, get?_eq_some_iff, h.entries]
  constructor
  · rintro ⟨hmem, hjoined⟩
    have hall := all_eq_true.mp hkey e hmem
    exact ⟨hmem, of_decide_eq_true hall hjoined⟩
  · rintro ⟨hmem, hcoord⟩
    simp only [LocalLogEntry.key, Prod.mk.injEq] at hcoord
    obtain ⟨rfl, rfl, rfl⟩ := hcoord
    exact ⟨hmem, rfl⟩

theorem Agree.has (hkey : unambiguous s docId deviceId seq = true) :
    m.entries.has (joinedKey docId deviceId seq) = s.entries.has (docId, deviceId, seq) := by
  unfold KeyedTable.has
  rw [h.getEntry hkey]

theorem Agree.getPendingRemoval (spaceId : DocId) (removedDid : Did) :
    m.getPendingRemoval spaceId removedDid =
      s.pendingRemovals.getPendingRemoval spaceId removedDid := by
  unfold InMemoryLog.getPendingRemoval PendingRemovals.getPendingRemoval get?
  rw [h.pendingRemovals, find?_map]
  rfl

/-! ## 3. Entries -/

theorem Agree.add {e : LocalLogEntry}
    (hjoined : m.entries.has e.joinedKey = false) (hfree : s.entries.has e.key = false) :
    Agree { m with entries := m.entries.put e } { s with entries := s.entries.add e } where
  entries := by
    show (m.entries.put e).rows = (s.entries.add e).rows
    rw [rows_put, if_neg (by rw [hjoined]; decide), rows_add_of_free hfree, h.entries]
  deviceId := h.deviceId
  gapState := h.gapState
  pendingRemovals := h.pendingRemovals

theorem Agree.appendLocalEntry {build : Nat → Except String EntryJws}
    (hkey : unambiguous s docId deviceId (s.readMaxSeq docId deviceId + 1).toNat = true)
    (attempts : Nat) : (m.appendLocalEntry docId deviceId build now attempts).1 =
        (s.appendEntry docId deviceId build now attempts).1 ∧
      Agree (m.appendLocalEntry docId deviceId build now attempts).2
        (s.appendEntry docId deviceId build now attempts).2 := by
  induction attempts with
  | zero => exact ⟨rfl, h⟩
  | succ attempts ih =>
    unfold InMemoryLog.appendLocalEntry appendEntry
    rw [h.maxSeq]
    dsimp only
    rcases hbuild : build (s.readMaxSeq docId deviceId + 1).toNat with text | entryJws
    · exact ⟨rfl, h⟩
    have hhas := h.has hkey
    dsimp only
    unfold addEntry
    by_cases htaken : s.entries.has
        (docId, deviceId, (s.readMaxSeq docId deviceId + 1).toNat) = true
    · rw [htaken] at hhas
      simp only [LocalLogEntry.key, htaken, hhas, if_true]
      exact ih
    have hfree := Bool.eq_false_iff.mpr htaken
    rw [hfree] at hhas
    simp only [LocalLogEntry.key, hfree, hhas]
    exact ⟨rfl, h.add hhas hfree⟩

theorem Agree.markAcked (hkey : unambiguous s docId deviceId seq = true) : Agree { m with
      entries := m.entries.update (joinedKey docId deviceId seq) LocalLogEntry.ack }
      (s.markAcked docId deviceId seq) where
  entries := by
    show (m.entries.update _ _).rows = (s.entries.update _ _).rows
    rw [rows_update _ _ LocalLogEntry.ack fun _ => rfl,
      rows_update _ _ LocalLogEntry.ack fun _ => rfl, h.entries]
    apply map_congr_left
    intro e he
    have hall := all_eq_true.mp hkey e he
    by_cases hcoord : e.key = (docId, deviceId, seq)
    · have hjoined : e.joinedKey = joinedKey docId deviceId seq := by
        simp only [LocalLogEntry.key, Prod.mk.injEq] at hcoord
        obtain ⟨rfl, rfl, rfl⟩ := hcoord
        rfl
      rw [if_pos hcoord, if_pos hjoined]
    · rw [if_neg hcoord, if_neg fun hjoined => hcoord (of_decide_eq_true hall hjoined)]
  deviceId := h.deviceId
  gapState := h.gapState
  pendingRemovals := h.pendingRemovals

/-! ## 4. Gaps -/

theorem Agree.getStrictContiguousHeads :
    m.getStrictContiguousHeads docId = s.getStrictContiguousHeads docId := by
  funext device
  unfold InMemoryLog.getStrictContiguousHeads DocLogStore.getStrictContiguousHeads
  cases hseqs : s.sortedSeqs docId device <;> simp only [h.seqsByDevice, hseqs]

theorem Agree.advancePastGap : m.advancePastGap docId = s.advancePastGap docId := by
  funext heads gap
  unfold InMemoryLog.advancePastGap DocLogStore.advancePastGap
  cases hseqs : s.sortedSeqs docId gap.device <;> simp only [h.seqsByDevice, hseqs]

end

theorem advancePastGap_congr {heads heads' : Heads} {gap : GapRepair}
    (h : heads device = heads' device) :
    s.advancePastGap docId heads gap device = s.advancePastGap docId heads' gap device := by
  unfold advancePastGap
  rcases s.sortedSeqs docId gap.device with _ | ⟨seq, rest⟩
  · exact h
  by_cases hdev : device = gap.device
  · subst hdev
    dsimp only
    rw [h]
    split
    · exact h
    · simp
  · dsimp only
    split
    · split
      · exact h
      · simp [hdev, h]
    split
    · simp [hdev, h]
    · simp [hdev, h]

theorem foldl_advance_filter (gaps : List GapRepair) {heads heads' : Heads}
    (h : heads device = heads' device) :
    gaps.foldl (s.advancePastGap docId) heads device =
      (gaps.filter fun g => decide (g.device = device)).foldl (s.advancePastGap docId) heads'
        device := by
  induction gaps generalizing heads heads' with
  | nil => exact h
  | cons g rest ih =>
    rw [foldl_cons, filter_cons]
    by_cases hdev : g.device = device
    · rw [if_pos (by simpa using hdev), foldl_cons]
      exact ih (advancePastGap_congr h)
    rw [if_neg (by simpa using hdev)]
    apply ih
    rcases s.advancePastGap_cases docId heads g device with hsame | ⟨hdev', -, -⟩
    · exact hsame.trans h
    · exact absurd hdev'.symm hdev

section

variable (L : Listing)

/-- **The cursor does not depend on the order in which the gaps are listed.** -/
theorem listedSyncRequestHeads_eq (s : DocLogStore) (docId : DocId) :
    s.listedSyncRequestHeads L docId = s.getSyncRequestHeads docId := by
  funext device
  unfold listedSyncRequestHeads getSyncRequestHeads
  rw [foldl_advance_filter _ rfl, foldl_advance_filter (s.softGaps docId) rfl]
  have hperm : (((L.list s.gapState.rows).filter fun g =>
      decide (g.docId = docId) && g.softSkipped).insertionSort
        (fun a b => a.firstMissing ≤ b.firstMissing)).Perm (s.softGaps docId) :=
    (perm_insertionSort _ _).trans (((L.perm _).filter _).trans (perm_insertionSort _ _).symm)
  have hsame : (((L.list s.gapState.rows).filter fun g =>
      decide (g.docId = docId) && g.softSkipped).insertionSort
        (fun a b => a.firstMissing ≤ b.firstMissing)).filter (fun g => decide (g.device = device)) =
      (s.softGaps docId).filter fun g => decide (g.device = device) := by
    refine @Perm.eq_of_pairwise _ (fun a b : GapRepair => a.firstMissing ≤ b.firstMissing)
      _ _ ?_ ?_ ?_ ?_
    · -- two gaps of one device that start at the same seq are one row
      intro a b ha hb hab hba
      obtain ⟨ha, hadev⟩ := mem_filter.mp ha
      obtain ⟨hb, hbdev⟩ := mem_filter.mp hb
      obtain ⟨harow, hadoc, -⟩ := mem_softGaps.mp (hperm.mem_iff.mp ha)
      obtain ⟨hbrow, hbdoc, -⟩ := mem_softGaps.mp hb
      apply eq_of_key_eq harow hbrow
      simp only [decide_eq_true_eq] at hadev hbdev
      simp only [GapRepair.key, hadoc, hbdoc, hadev, hbdev, Nat.le_antisymm hab hba]
    · exact (pairwise_insertionSort _ _).filter _
    · exact (pairwise_insertionSort _ _).filter _
    · exact hperm.filter _
  rw [hsame]

theorem Agree.getSyncRequestHeads (h : Agree m s) :
    m.getSyncRequestHeads docId = s.getSyncRequestHeads docId := by
  unfold InMemoryLog.getSyncRequestHeads DocLogStore.getSyncRequestHeads softGaps
  rw [h.gapState, h.advancePastGap, h.getStrictContiguousHeads]

/-! ## 5. Applied entries -/

theorem strictHead_spec (s : DocLogStore) (docId : DocId) (device : DeviceId) :
    (∀ q : Nat, (q : Int) ≤ strictHead s docId device → q ∈ s.sortedSeqs docId device) ∧
      ∀ q : Nat, (q : Int) = strictHead s docId device + 1 → q ∉ s.sortedSeqs docId device := by
  obtain ⟨hle, hpresent, hstop⟩ :=
    strictContiguousHead_go_spec (s.sortedSeqs docId device) (-1)
      (s.sortedSeqs_pairwise docId device)
  unfold strictHead strictContiguousHead
  constructor
  · intro q hq
    exact hpresent q (by omega) hq
  · intro q hq hmem
    rcases hstop q hmem with hne | hlow
    · exact hne hq
    · omega

theorem strictHead_mono (h : ∀ q, q ∈ s.sortedSeqs docId device → q ∈ s'.sortedSeqs docId device) :
    strictHead s docId device ≤ strictHead s' docId device := by
  by_contra hlt
  obtain ⟨hpresent, -⟩ := strictHead_spec s docId device
  obtain ⟨-, habsent⟩ := strictHead_spec s' docId device
  have hlow : -1 ≤ strictHead s' docId device :=
    (strictContiguousHead_go_spec (s'.sortedSeqs docId device) (-1)
      (s'.sortedSeqs_pairwise docId device)).1
  obtain ⟨q, hq⟩ : ∃ q : Nat, (q : Int) = strictHead s' docId device + 1 :=
    ⟨(strictHead s' docId device + 1).toNat, by omega⟩
  exact habsent q hq (h q (hpresent q (by omega)))

theorem sortedSeqs_congr (h : s'.entries = s.entries) :
    s'.sortedSeqs docId device = s.sortedSeqs docId device := by
  unfold sortedSeqs namespaceRows
  rw [h]

theorem strictHead_congr (h : s'.entries = s.entries) :
    strictHead s' docId device = strictHead s docId device := by
  unfold strictHead
  rw [sortedSeqs_congr h]

/-- `autoResolveGaps` without the case of an unknown device, whose head is below every
    gap. -/
theorem autoResolveGaps_eq (s : DocLogStore) (docId : DocId) (device : DeviceId) :
    s.autoResolveGaps docId device = s.dropGapsUpTo docId device (strictHead s docId device) := by
  unfold autoResolveGaps strictHead
  cases hseqs : s.sortedSeqs docId device with
  | nil =>
    have hkept : s.gapState.filter (fun g => !(decide (g.docId = docId) &&
        decide (g.device = device) &&
        decide ((g.firstMissing : Int) ≤ strictContiguousHead []))) = s.gapState := by
      apply eq_of_rows
      apply filter_eq_self.mpr
      intro g _
      have hlow : ¬ (g.firstMissing : Int) ≤ strictContiguousHead [] := by
        show ¬ (g.firstMissing : Int) ≤ -1
        omega
      simp [hlow]
    unfold dropGapsUpTo
    rw [hkept]
  | cons seq rest => rfl

def applyNew (now : Nat) (s : DocLogStore) (e : RecordRemoteAppliedEntry) : DocLogStore :=
  if s.entries.has e.key = true then s
  else (s.putRemoteApplied e now).autoResolveGaps e.docId e.deviceId

def RecordRemoteAppliedEntry.row (e : RecordRemoteAppliedEntry) (now : Nat) : LocalLogEntry where
  docId := e.docId
  deviceId := e.deviceId
  seq := e.seq
  entryJws := e.entryJws.getD .blank
  status := .acked
  createdAt := now

theorem putRemoteApplied_of_has (h : s.entries.has e.key = true) :
    s.putRemoteApplied e now = s := by
  unfold putRemoteApplied
  rw [add_of_has h]

theorem entries_applyNew (now : Nat) (s : DocLogStore) (e : RecordRemoteAppliedEntry) :
    (applyNew now s e).entries = (s.putRemoteApplied e now).entries := by
  unfold applyNew
  split
  · next h => rw [putRemoteApplied_of_has h]
  · exact entries_autoResolveGaps _ _ _

theorem entries_putRemoteApplied_congr (h : s'.entries = s.entries)
    (e : RecordRemoteAppliedEntry) :
    (s'.putRemoteApplied e now).entries = (s.putRemoteApplied e now).entries := by
  unfold putRemoteApplied
  rw [h]

theorem entries_foldl_applyNew (now : Nat) (es : List RecordRemoteAppliedEntry)
    (h : s'.entries = s.entries) : (es.foldl (applyNew now) s').entries =
      (es.foldl (fun s e => s.putRemoteApplied e now) s).entries := by
  induction es generalizing s s' with
  | nil => exact h
  | cons e rest ih =>
    apply ih
    rw [entries_applyNew]
    exact entries_putRemoteApplied_congr h e

theorem Agree.autoResolveGaps (h : Agree m s) :
    Agree (m.autoResolveGaps docId device) (s.autoResolveGaps docId device) := by
  unfold InMemoryLog.autoResolveGaps DocLogStore.autoResolveGaps
  rw [h.seqsByDevice]
  rcases s.sortedSeqs docId device with _ | ⟨seq, rest⟩
  · exact h
  refine ⟨h.entries, h.deviceId, ?_, h.pendingRemovals⟩
  show m.gapState.filter _ = s.gapState.filter _
  rw [h.gapState]

theorem Agree.recordRemoteApplied (h : Agree m s) (now : Nat)
    (hkey : unambiguous s e.docId e.deviceId e.seq = true) :
    Agree (m.recordRemoteApplied e now) (applyNew now s e) := by
  have hhas := h.has hkey
  unfold InMemoryLog.recordRemoteApplied applyNew
  by_cases hstored : s.entries.has e.key = true
  · rw [if_pos hstored, if_pos (hhas.trans hstored)]
    exact h
  have hfree := Bool.eq_false_iff.mpr hstored
  have hjoined : m.entries.has (e.row now).joinedKey = false := hhas.trans hfree
  rw [if_neg hstored, if_neg (by rw [hhas]; exact hstored)]
  exact (h.add (e := e.row now) hjoined hfree).autoResolveGaps

theorem mem_rows_putRemoteApplied {r : LocalLogEntry}
    (h : r ∈ (s.putRemoteApplied e now).entries.rows) : r ∈ s.entries.rows ∨ r = e.row now := by
  cases hhas : s.entries.has e.key with
  | true =>
    rw [putRemoteApplied_of_has hhas] at h
    exact .inl h
  | false =>
    have hrows : (s.putRemoteApplied e now).entries.rows = s.entries.rows ++ [e.row now] :=
      rows_add_of_free hhas
    rw [hrows] at h
    simpa using h

theorem unambiguous_putRemoteApplied {e' : RecordRemoteAppliedEntry}
    (h : unambiguous s e'.docId e'.deviceId e'.seq = true)
    (hpair : e.joinedKey = e'.joinedKey → e.key = e'.key) :
    unambiguous (applyNew now s e) e'.docId e'.deviceId e'.seq = true := by
  apply all_eq_true.mpr
  intro r hr
  rw [entries_applyNew] at hr
  apply decide_eq_true
  intro hjoined
  rcases mem_rows_putRemoteApplied hr with hold | rfl
  · exact of_decide_eq_true (all_eq_true.mp h r hold) hjoined
  · exact hpair hjoined

theorem Agree.applyAll (now : Nat) (es : List RecordRemoteAppliedEntry) (h : Agree m s)
    (hkeys : ∀ e ∈ es, unambiguous s e.docId e.deviceId e.seq = true)
    (hpairs : ∀ e ∈ es, ∀ e' ∈ es, e.joinedKey = e'.joinedKey → e.key = e'.key) :
    Agree (es.foldl (fun m e => m.recordRemoteApplied e now) m) (es.foldl (applyNew now) s) := by
  induction es generalizing m s with
  | nil => exact h
  | cons e rest ih =>
    apply ih (h.recordRemoteApplied now (hkeys e mem_cons_self))
    · intro e' he'
      apply unambiguous_putRemoteApplied (hkeys e' (mem_cons_of_mem _ he'))
      exact hpairs e mem_cons_self e' (mem_cons_of_mem _ he')
    · intro e₁ h₁ e₂ h₂
      exact hpairs e₁ (mem_cons_of_mem _ h₁) e₂ (mem_cons_of_mem _ h₂)

def passed (head : Int) (docId : DocId) (device : DeviceId) (g : GapRepair) : Bool :=
  decide (g.docId = docId) && decide (g.device = device) && decide ((g.firstMissing : Int) ≤ head)

theorem gapRows_autoResolveGaps (s : DocLogStore) (docId : DocId) (device : DeviceId) :
    (s.autoResolveGaps docId device).gapState.rows =
      s.gapState.rows.filter fun g => !passed (strictHead s docId device) docId device g := by
  rw [autoResolveGaps_eq]
  rfl

theorem sortedSeqs_putRemoteApplied {q : Nat} (h : q ∈ s.sortedSeqs docId device) :
    q ∈ (s.putRemoteApplied e now).sortedSeqs docId device := by
  obtain ⟨e', he'⟩ := mem_sortedSeqs.mp h
  exact mem_sortedSeqs.mpr ⟨e', get?_putRemoteApplied_of_some he'⟩

open RecordRemoteAppliedEntry

theorem sortedSeqs_putRemoteApplied_of
    (h : e.docId = docId → e.deviceId = device → s.entries.has e.key = true) :
    (s.putRemoteApplied e now).sortedSeqs docId device = s.sortedSeqs docId device := by
  cases hhas : s.entries.has e.key with
  | true => rw [putRemoteApplied_of_has hhas]
  | false =>
    have hrows : (s.putRemoteApplied e now).entries.rows = s.entries.rows ++ [e.row now] :=
      rows_add_of_free hhas
    unfold sortedSeqs namespaceRows
    rw [hrows, filter_append]
    have hother : ¬ (e.docId = docId ∧ e.deviceId = device) := by
      rintro ⟨hdoc, hdev⟩
      rw [h hdoc hdev] at hhas
      cases hhas
    have hnone : [e.row now].filter (fun r => decide (r.docId = docId) &&
        decide (r.deviceId = device)) = [] := by
      simpa [row] using hother
    rw [hnone, append_nil]

theorem strictHead_foldl_of (now : Nat) (es : List RecordRemoteAppliedEntry)
    (h : bringsNew s es docId device = false) :
    strictHead (es.foldl (fun s e => s.putRemoteApplied e now) s) docId device =
      strictHead s docId device := by
  induction es generalizing s with
  | nil => rfl
  | cons e rest ih =>
    unfold bringsNew at h
    rw [any_cons, Bool.or_eq_false_iff] at h
    obtain ⟨hhead, hrest⟩ := h
    have hstored : e.docId = docId → e.deviceId = device → s.entries.has e.key = true := by
      intro hdoc hdev
      simpa [hdoc, hdev] using hhead
    have hrest' : bringsNew (s.putRemoteApplied e now) rest docId device = false := by
      unfold bringsNew
      apply any_eq_false.mpr
      intro e' he'
      have hold := any_eq_false.mp hrest e' he'
      intro hnew
      apply hold
      simp only [Bool.and_eq_true, Bool.not_eq_true', decide_eq_true_eq] at hnew ⊢
      refine ⟨hnew.1, ?_⟩
      have hfree := hnew.2
      unfold putRemoteApplied at hfree
      rw [has_add, Bool.or_eq_false_iff] at hfree
      exact hfree.1
    rw [foldl_cons, ih hrest']
    unfold strictHead
    rw [sortedSeqs_putRemoteApplied_of hstored]

theorem strictHead_foldl_mono (now : Nat) (es : List RecordRemoteAppliedEntry) :
    strictHead s docId device ≤
      strictHead (es.foldl (fun s e => s.putRemoteApplied e now) s) docId device := by
  induction es generalizing s with
  | nil => exact Int.le_refl _
  | cons e rest ih =>
    have hone : strictHead s docId device ≤ strictHead (s.putRemoteApplied e now) docId device :=
      strictHead_mono fun q hq => sortedSeqs_putRemoteApplied hq
    exact Int.le_trans hone ih

theorem bringsNew_congr (h : s'.entries = s.entries)
    (es : List RecordRemoteAppliedEntry) :
    bringsNew s' es docId device = bringsNew s es docId device := by
  unfold bringsNew
  rw [h]

theorem bringsNew_putRemoteApplied (h : ¬ (e.docId = docId ∧ e.deviceId = device))
    (es : List RecordRemoteAppliedEntry) :
    bringsNew (s.putRemoteApplied e now) es docId device = bringsNew s es docId device := by
  have hone : ∀ e' : RecordRemoteAppliedEntry,
      (decide (e'.docId = docId) && decide (e'.deviceId = device) &&
          !(s.putRemoteApplied e now).entries.has e'.key) =
        (decide (e'.docId = docId) && decide (e'.deviceId = device) && !s.entries.has e'.key) := by
    intro e'
    by_cases hns : e'.docId = docId ∧ e'.deviceId = device
    · have hne : (e.row now).key ≠ e'.key := by
        intro heq
        apply h
        simp only [row, LocalLogEntry.key, key, Prod.mk.injEq] at heq
        exact ⟨heq.1.trans hns.1, heq.2.1.trans hns.2⟩
      have hhas : (s.putRemoteApplied e now).entries.has e'.key = s.entries.has e'.key := by
        show (s.entries.add (e.row now)).has e'.key = _
        rw [has_add]
        simp [hne]
      rw [hhas]
    · rcases not_and_or.mp hns with hdoc | hdev
      · simp [hdoc]
      · simp [hdev]
  unfold bringsNew
  exact congrArg (fun p => es.any p) (funext hone)

/-- **Entry by entry**: a gap goes if its device got something new and ends up past it. -/
theorem gapRows_foldl_applyNew (now : Nat) (es : List RecordRemoteAppliedEntry) :
    (es.foldl (applyNew now) s).gapState.rows = s.gapState.rows.filter fun g =>
      !(bringsNew s es g.docId g.device &&
        passed (strictHead (es.foldl (fun s e => s.putRemoteApplied e now) s) g.docId g.device)
          g.docId g.device g) := by
  induction es generalizing s with
  | nil =>
    apply Eq.symm
    apply filter_eq_self.mpr
    intro g _
    simp [bringsNew]
  | cons e rest ih =>
    rw [foldl_cons, ih]
    by_cases hstored : s.entries.has e.key = true
    · -- nothing happens for an entry that is there
      have hsame : applyNew now s e = s := by
        unfold applyNew
        rw [if_pos hstored]
      rw [hsame, foldl_cons, putRemoteApplied_of_has hstored]
      apply filter_congr
      intro g _
      unfold bringsNew
      rw [any_cons, hstored]
      simp
    · have hnew :
          applyNew now s e = (s.putRemoteApplied e now).autoResolveGaps e.docId e.deviceId := by
        unfold applyNew
        rw [if_neg hstored]
      have hentries : (applyNew now s e).entries = (s.putRemoteApplied e now).entries :=
        entries_applyNew now s e
      have hfinal : ∀ docId device,
          strictHead (rest.foldl (fun s e => s.putRemoteApplied e now) (applyNew now s e))
              docId device =
            strictHead
              ((e :: rest).foldl (fun s e => s.putRemoteApplied e now) s) docId device := by
        intro docId device
        apply strictHead_congr
        rw [← entries_foldl_applyNew now rest rfl, entries_foldl_applyNew now rest hentries]
        rfl
      have hgaps : (applyNew now s e).gapState.rows = s.gapState.rows.filter fun g =>
          !passed (strictHead (s.putRemoteApplied e now) e.docId e.deviceId) e.docId
            e.deviceId g := by
        rw [hnew, gapRows_autoResolveGaps]
        rfl
      rw [hgaps, List.filter_filter]
      apply filter_congr
      intro g _
      simp only [hfinal]
      rw [bringsNew_congr hentries]
      by_cases hns : e.docId = g.docId ∧ e.deviceId = g.device
      · -- the entry is new for the device of the gap
        have hbrings : bringsNew s (e :: rest) g.docId g.device = true := by
          unfold bringsNew
          rw [any_cons]
          simp [hns.1, hns.2, Bool.eq_false_iff.mpr hstored]
        rw [hbrings, hns.1, hns.2, Bool.true_and, foldl_cons]
        rcases hmore : bringsNew (s.putRemoteApplied e now) rest g.docId g.device with _ | _
        · rw [strictHead_foldl_of now rest hmore]
          simp
        have hle : strictHead (s.putRemoteApplied e now) g.docId g.device ≤
            strictHead (rest.foldl (fun s e => s.putRemoteApplied e now)
              (s.putRemoteApplied e now)) g.docId g.device :=
          strictHead_foldl_mono now rest
        unfold passed
        simp only [decide_true, Bool.true_and]
        by_cases hpast : (g.firstMissing : Int) ≤
            strictHead (s.putRemoteApplied e now) g.docId g.device
        · have hpast' := Int.le_trans hpast hle
          simp [hpast, hpast']
        · simp [hpast]
      · -- a gap of another device
        have hother : passed (strictHead (s.putRemoteApplied e now) e.docId e.deviceId) e.docId
            e.deviceId g = false := by
          unfold passed
          rcases not_and_or.mp hns with hdoc | hdev
          · simp [Ne.symm hdoc]
          · simp [Ne.symm hdev]
        have hbrings : bringsNew s (e :: rest) g.docId g.device =
            bringsNew s rest g.docId g.device := by
          unfold bringsNew
          rw [any_cons]
          rcases not_and_or.mp hns with hdoc | hdev
          · simp [hdoc]
          · simp [hdev]
        rw [hother, hbrings, bringsNew_putRemoteApplied hns]
        simp

/-- **All entries first**: a gap goes if its device was in the batch and ends up past it. -/
theorem foldl_autoResolveGaps (es : List RecordRemoteAppliedEntry) :
    (es.foldl (fun s e => s.autoResolveGaps e.docId e.deviceId) s).entries = s.entries ∧
      (es.foldl (fun s e => s.autoResolveGaps e.docId e.deviceId) s).gapState.rows =
        s.gapState.rows.filter fun g =>
          es.all fun e => !passed (strictHead s e.docId e.deviceId) e.docId e.deviceId g := by
  induction es generalizing s with
  | nil =>
    constructor
    · rfl
    · apply Eq.symm
      apply filter_eq_self.mpr
      intro g _
      rfl
  | cons e rest ih =>
    have hentries : (s.autoResolveGaps e.docId e.deviceId).entries = s.entries :=
      entries_autoResolveGaps _ _ _
    obtain ⟨hrest, hgaps⟩ := ih (s := s.autoResolveGaps e.docId e.deviceId)
    constructor
    · exact hrest.trans hentries
    · rw [List.foldl_cons, hgaps, gapRows_autoResolveGaps, List.filter_filter]
      apply filter_congr
      intro g _
      rw [all_cons, Bool.and_comm]
      simp only [strictHead_congr hentries]

theorem foldl_putRemoteApplied_gapState (now : Nat) (es : List RecordRemoteAppliedEntry) :
    (es.foldl (fun s e => s.putRemoteApplied e now) s).gapState = s.gapState := by
  induction es generalizing s with
  | nil => rfl
  | cons e rest ih => exact ih

/-- **The two ways come to the same**, for a batch that brings something new for each of
    its devices, or meets no gap that its device has passed. -/
theorem applyNew_eq_recordAppliedBatch (now : Nat) (es : List RecordRemoteAppliedEntry)
    (h : ∀ e ∈ es, bringsNew s es e.docId e.deviceId = true ∨
      noStaleGap s e.docId e.deviceId = true) :
    (es.foldl (applyNew now) s).entries = (s.recordAppliedBatch es now).entries ∧
      (es.foldl (applyNew now) s).gapState = (s.recordAppliedBatch es now).gapState := by
  obtain ⟨hentries, hgaps⟩ := foldl_autoResolveGaps es
    (s := es.foldl (fun s e => s.putRemoteApplied e now) s)
  constructor
  · rw [entries_foldl_applyNew now es rfl]
    exact hentries.symm
  · apply eq_of_rows
    rw [gapRows_foldl_applyNew]
    unfold recordAppliedBatch
    rw [hgaps, foldl_putRemoteApplied_gapState]
    apply filter_congr
    intro g hg
    rw [Bool.eq_iff_iff, Bool.not_eq_true', Bool.and_eq_false_iff, all_eq_true]
    constructor
    · rintro hkept e he
      rw [Bool.not_eq_true', Bool.eq_false_iff]
      intro hpassed
      have hns : g.docId = e.docId ∧ g.device = e.deviceId := by
        unfold passed at hpassed
        simp only [Bool.and_eq_true, decide_eq_true_eq] at hpassed
        exact hpassed.1
      rw [← hns.1, ← hns.2] at hpassed
      rcases hkept with hnothing | hbelow
      · -- nothing new for the device: its head is the old one
        rcases h e he with hbrings | hstale
        · rw [← hns.1, ← hns.2, hnothing] at hbrings
          cases hbrings
        rw [strictHead_foldl_of now es hnothing] at hpassed
        have hclean := all_eq_true.mp hstale g hg
        rw [← hns.1, ← hns.2] at hclean
        unfold passed at hpassed
        rw [hpassed] at hclean
        cases hclean
      · rw [hbelow] at hpassed
        cases hpassed
    · intro hall
      rcases hbrings : bringsNew s es g.docId g.device with _ | _
      · exact .inl rfl
      right
      unfold bringsNew at hbrings
      obtain ⟨e, he, hnew⟩ := any_eq_true.mp hbrings
      simp only [Bool.and_eq_true, decide_eq_true_eq] at hnew
      have hkept := hall e he
      rw [hnew.1.1, hnew.1.2] at hkept
      simpa using hkept

/-- What the section on applied entries does not touch. -/
structure Kept (s s' : DocLogStore) : Prop where
  deviceId : s'.deviceId = s.deviceId
  pendingRemovals : s'.pendingRemovals = s.pendingRemovals

theorem kept_autoResolveGaps (s : DocLogStore) (docId : DocId) (device : DeviceId) :
    Kept s (s.autoResolveGaps docId device) := by
  rw [autoResolveGaps_eq]
  exact ⟨rfl, rfl⟩

theorem kept_foldl {f : DocLogStore → RecordRemoteAppliedEntry → DocLogStore}
    (h : ∀ s e, Kept s (f s e)) (es : List RecordRemoteAppliedEntry) :
    Kept s (es.foldl f s) := by
  refine foldlRecOn es f ⟨rfl, rfl⟩ fun s' hkept e _ => ?_
  have hone := h s' e
  exact ⟨hone.deviceId.trans hkept.deviceId, hone.pendingRemovals.trans hkept.pendingRemovals⟩

theorem kept_applyNew (now : Nat) (s : DocLogStore) (e : RecordRemoteAppliedEntry) :
    Kept s (applyNew now s e) := by
  unfold applyNew
  split
  · exact ⟨rfl, rfl⟩
  obtain ⟨hdevice, hremovals⟩ :=
    kept_autoResolveGaps (s.putRemoteApplied e now) e.docId e.deviceId
  exact ⟨hdevice, hremovals⟩

theorem kept_recordAppliedBatch (s : DocLogStore) (es : List RecordRemoteAppliedEntry)
    (now : Nat) : Kept s (s.recordAppliedBatch es now) := by
  have hput : Kept s (es.foldl (fun s e => s.putRemoteApplied e now) s) :=
    kept_foldl (f := fun s e => s.putRemoteApplied e now) (fun _ _ => ⟨rfl, rfl⟩) es
  have hgaps := kept_foldl (fun s e => kept_autoResolveGaps s e.docId e.deviceId) es
    (s := es.foldl (fun s e => s.putRemoteApplied e now) s)
  exact ⟨hgaps.deviceId.trans hput.deviceId, hgaps.pendingRemovals.trans hput.pendingRemovals⟩

section

variable (h : Agree m s)
include h

theorem Agree.recordAppliedBatch {es : List RecordRemoteAppliedEntry}
    (hregular : regular s (.recordRemoteAppliedBatch es now) = true) :
    Agree (es.foldl (fun m e => m.recordRemoteApplied e now) m) (s.recordAppliedBatch es now) := by
  have hall : ∀ e ∈ es, unambiguous s e.docId e.deviceId e.seq = true ∧
      (∀ e' ∈ es, e.joinedKey = e'.joinedKey → e.key = e'.key) ∧
      (bringsNew s es e.docId e.deviceId = true ∨ noStaleGap s e.docId e.deviceId = true) := by
    intro e he
    have hone := all_eq_true.mp hregular e he
    simp only [Bool.and_eq_true, Bool.or_eq_true, all_eq_true, decide_eq_true_eq] at hone
    exact ⟨hone.1.1, hone.1.2, hone.2⟩
  have happly := h.applyAll now es (fun e he => (hall e he).1) (fun e he => (hall e he).2.1)
  obtain ⟨hentries, hgaps⟩ := applyNew_eq_recordAppliedBatch now es fun e he => (hall e he).2.2
  have hnew := kept_foldl (kept_applyNew now) es (s := s)
  have hbatch := kept_recordAppliedBatch s es now
  constructor
  · rw [happly.entries, hentries]
  · rw [happly.deviceId, hnew.deviceId, hbatch.deviceId]
  · rw [happly.gapState, hgaps]
  · rw [happly.pendingRemovals, hnew.pendingRemovals, hbatch.pendingRemovals]

theorem Agree.recordApplied (hregular : regular s (.recordRemoteApplied e now) = true) :
    Agree (m.recordRemoteApplied e now) (s.recordApplied e now) := by
  have hbatch : regular s (.recordRemoteAppliedBatch [e] now) = true := by
    simp only [regular, Bool.and_eq_true] at hregular ⊢
    rw [all_cons, all_cons, hregular.1, hregular.2]
    simp
  exact h.recordAppliedBatch hbatch

/-! ## 6. Removals -/

theorem Agree.has_pendingRemoval (k : DocId × Did) :
    m.pendingRemovals.has k = s.pendingRemovals.has k := by
  unfold KeyedTable.has KeyedTable.get?
  rw [h.pendingRemovals, find?_map, Option.isSome_map]
  rfl

theorem Agree.putPendingRemoval (removal : StoredPendingRemoval)
    (expect : Option WriteExpectation) :
    (m.putPendingRemoval removal expect).1 = (s.putStoredRemoval removal expect).1 ∧
      Agree (m.putPendingRemoval removal expect).2 (s.putStoredRemoval removal expect).2 := by
  unfold InMemoryLog.putPendingRemoval putStoredRemoval
  rw [h.getPendingRemoval]
  dsimp only
  split
  · constructor
    · rfl
    refine ⟨h.entries, h.deviceId, h.gapState, ?_⟩
    show (m.pendingRemovals.put removal.load).rows = _
    rw [rows_put, rows_put, h.has_pendingRemoval, h.pendingRemovals]
    have hkey : PendingRemoval.key removal.load = removal.key := rfl
    rw [hkey]
    split
    · rw [map_map, map_map]
      apply map_congr_left
      intro r _
      have hread : PendingRemoval.key r.load = r.key := rfl
      simp only [Function.comp_apply, hread]
      split
      · rfl
      · rfl
    · rw [map_append]
      rfl
  · exact ⟨rfl, h⟩

omit h in
theorem load_confirm {r : StoredPendingRemoval} (brokerUrl : String)
    (h : (r.phase.isSome || decide (r.committed = some true) ||
      !r.confirmedBrokerUrls.isEmpty) = true) :
    StoredPendingRemoval.load
      { r with confirmedBrokerUrls := r.confirmedBrokerUrls ++ [brokerUrl] } =
      { r.load with confirmedBrokerUrls := r.confirmedBrokerUrls ++ [brokerUrl] } := by
  unfold StoredPendingRemoval.load
  simp only [Bool.or_eq_true, decide_eq_true_eq, Bool.not_eq_true', isEmpty_eq_false_iff,
    Option.isSome_iff_exists] at h
  rcases h with (⟨phase, hphase⟩ | hcommitted) | hconfirmed
  · simp [hphase]
  · simp [hcommitted]
  · simp [length_pos_iff.mpr hconfirmed]

theorem Agree.markBrokerConfirmed {spaceId : DocId} {removedDid : Did}
    {brokerUrl : String} {binding : Option BrokerConfirmationBinding}
    (hregular : regular s (.markBrokerConfirmed spaceId removedDid brokerUrl binding) = true) :
    (m.markBrokerConfirmed spaceId removedDid brokerUrl binding).1 =
        (s.pendingRemovals.markBrokerConfirmed spaceId removedDid brokerUrl binding).1 ∧
      Agree (m.markBrokerConfirmed spaceId removedDid brokerUrl binding).2
        { s with pendingRemovals :=
          (s.pendingRemovals.markBrokerConfirmed spaceId removedDid brokerUrl binding).2 } := by
  simp only [regular] at hregular
  unfold InMemoryLog.markBrokerConfirmed PendingRemovals.markBrokerConfirmed
  rw [h.getPendingRemoval]
  unfold PendingRemovals.getPendingRemoval PendingRemovals.confirmationOutcome
  cases hget : s.pendingRemovals.get? (spaceId, removedDid) with
  | none => exact ⟨rfl, h⟩
  | some r =>
    have hbinding : matchesConfirmationBinding r.load.toStored binding =
        matchesConfirmationBinding r binding := by
      cases binding <;> rfl
    have hhome : r.load.homeBrokerSet = r.homeBrokerSet := rfl
    have hconfirmed : r.load.confirmedBrokerUrls = r.confirmedBrokerUrls := rfl
    simp only [Option.map_some, hbinding, hhome, hconfirmed]
    rw [hget, Option.all_some] at hregular
    split
    · exact ⟨rfl, h⟩
    next hours =>
    split
    · exact ⟨rfl, h⟩
    next hbound =>
    split
    · exact ⟨rfl, h⟩
    constructor
    · rfl
    refine ⟨h.entries, h.deviceId, h.gapState, ?_⟩
    have hmemory := m.pendingRemovals.rows_update (spaceId, removedDid)
      (fun r => { r with confirmedBrokerUrls := r.confirmedBrokerUrls ++ [brokerUrl] })
      fun _ => rfl
    have hdurable := rows_update s.pendingRemovals (spaceId, removedDid)
      (fun r => { r with confirmedBrokerUrls := r.confirmedBrokerUrls ++ [brokerUrl] })
      fun _ => rfl
    show (m.pendingRemovals.update _ _).rows = map _ (s.pendingRemovals.update _ _).rows
    rw [hmemory, hdurable, h.pendingRemovals, map_map, map_map]
    apply map_congr_left
    intro x hx
    simp only [Function.comp_apply]
    by_cases hkey : x.key = (spaceId, removedDid)
    · have hxr : x = r := by
        have hx' := mem_rows_iff.mp hx
        rw [hkey, hget] at hx'
        exact (Option.some.inj hx').symm
      have hload : PendingRemoval.key x.load = (spaceId, removedDid) := hkey
      rw [if_pos hkey, if_pos hload, hxr]
      apply Eq.symm
      apply load_confirm
      rw [Bool.not_eq_true', Bool.not_eq_false] at hours hbound
      rw [hours, hbound] at hregular
      simpa using hregular
    · have hload : ¬ PendingRemoval.key x.load = (spaceId, removedDid) := hkey
      rw [if_neg hkey, if_neg hload]

theorem Agree.deletePendingRemoval (spaceId : DocId) (removedDid : Did)
    (expect : Option WriteExpectation) :
    (m.deletePendingRemoval spaceId removedDid expect).1 =
        (s.pendingRemovals.deletePendingRemoval spaceId removedDid expect).1 ∧
      Agree (m.deletePendingRemoval spaceId removedDid expect).2 { s with pendingRemovals :=
          (s.pendingRemovals.deletePendingRemoval spaceId removedDid expect).2 } := by
  unfold InMemoryLog.deletePendingRemoval PendingRemovals.deletePendingRemoval
  rw [h.getPendingRemoval]
  rcases s.pendingRemovals.getPendingRemoval spaceId removedDid with _ | r
  · exact ⟨rfl, h⟩
  dsimp only
  split
  · constructor
    · rfl
    refine ⟨h.entries, h.deviceId, h.gapState, ?_⟩
    show m.pendingRemovals.rows.filter _ = map _ (s.pendingRemovals.rows.filter _)
    rw [h.pendingRemovals, filter_map]
    rfl
  · exact ⟨rfl, h⟩

/-! ## 7. The device id -/

theorem Agree.setDeviceId (deviceId : DeviceId) :
    Agree (m.setDeviceId deviceId) (s.setDeviceId deviceId) :=
  ⟨h.entries, rfl, h.gapState, h.pendingRemovals⟩

end

theorem storedDeviceId_of_ne {existing : DeviceId} (hsome : s.deviceId = some existing)
    (hne : existing ≠ "") : s.storedDeviceId = some existing := by
  unfold storedDeviceId
  rw [hsome, Option.filter_some, if_pos (by simpa using hne)]

theorem storedDeviceId_none (h : s.deviceId = none) : s.storedDeviceId = none := by
  unfold storedDeviceId
  rw [h]
  rfl

theorem storedDeviceId_empty (h : s.deviceId = some "") : s.storedDeviceId = none := by
  unfold storedDeviceId
  rw [h]
  rfl

theorem Agree.getOrCreateDeviceId (h : Agree m s) (L : Listing) {uuid : String}
    (hregular : regular s (.getOrCreateDeviceId uuid) = true) :
    (m.perform (.getOrCreateDeviceId uuid)).1 = (s.perform L (.getOrCreateDeviceId uuid)).1 ∧
      Agree (m.perform (.getOrCreateDeviceId uuid)).2
        (s.perform L (.getOrCreateDeviceId uuid)).2 := by
  have hne : s.deviceId ≠ some "" := of_decide_eq_true hregular
  simp only [InMemoryLog.perform, perform, h.deviceId]
  cases hdevice : s.deviceId with
  | none =>
    rw [storedDeviceId_none hdevice]
    exact ⟨rfl, h.setDeviceId uuid⟩
  | some existing =>
    rw [storedDeviceId_of_ne hdevice fun hempty => hne (hempty ▸ hdevice)]
    exact ⟨rfl, h⟩

theorem Agree.pendingDevices (h : Agree m s) (L : Listing) :
    (((L.list (s.entries.rows.filter fun e => decide (e.status = .pending))).map
      (·.deviceId)).dedup).Perm m.pendingDevices := by
  unfold InMemoryLog.pendingDevices
  rw [h.entries]
  exact ((L.perm _).map _).dedup

theorem perm_cases {α : Type} {l l' : List α} (h : l.Perm l') :
    (l = [] ∧ l' = []) ∨ (∃ a, l = [a] ∧ l' = [a]) ∨
      ∃ a b rest a' b' rest', l = a :: b :: rest ∧ l' = a' :: b' :: rest' := by
  rcases l' with _ | ⟨a', _ | ⟨b', rest'⟩⟩
  · exact .inl ⟨perm_nil.mp h, rfl⟩
  · exact .inr (.inl ⟨a', perm_singleton.mp h, rfl⟩)
  have hlength := h.length_eq
  rcases l with _ | ⟨a, _ | ⟨b, rest⟩⟩
  · simp at hlength
  · simp at hlength
  · exact .inr (.inr ⟨a, b, rest, a', b', rest', rfl, rfl⟩)

section

variable (h : Agree m s)
include h

theorem Agree.hasOwnEntries (deviceId : DeviceId) :
    (m.entries.rows.any fun e => decide (e.deviceId = deviceId)) = s.hasOwnEntries deviceId := by
  unfold DocLogStore.hasOwnEntries
  rw [h.entries]

theorem Agree.resolveConnectDeviceId (L : Listing) {uuid : String}
    (hregular : regular s (.resolveConnectDeviceId uuid) = true) :
    (m.perform (.resolveConnectDeviceId uuid)).1.Same
        (s.perform L (.resolveConnectDeviceId uuid)).1 ∧
      Agree (m.perform (.resolveConnectDeviceId uuid)).2
        (s.perform L (.resolveConnectDeviceId uuid)).2 := by
  have hperm := h.pendingDevices L
  simp only [InMemoryLog.perform, perform, h.deviceId, h.hasOwnEntries]
  cases hdevice : s.deviceId with
  | none =>
    rw [storedDeviceId_none hdevice]
    dsimp only
    rcases perm_cases hperm with ⟨hlisted, hdevices⟩ | ⟨d, hlisted, hdevices⟩ |
      ⟨a, b, rest, a', b', rest', hlisted, hdevices⟩
    · rw [hlisted, hdevices]
      exact ⟨rfl, h.setDeviceId uuid⟩
    · rw [hlisted, hdevices]
      exact ⟨rfl, h.setDeviceId d⟩
    · rw [hlisted, hdevices] at hperm ⊢
      exact ⟨hperm.symm, h⟩
  | some existing =>
    by_cases hempty : existing = ""
    · -- the empty string: a device id in memory, none in IndexedDB
      subst hempty
      have hdevices : s.pendingDevices = if s.hasOwnEntries "" then [""] else [] := by
        simp only [regular, hdevice, ne_eq, not_true_eq_false, decide_false, Bool.false_or,
          decide_eq_true_eq] at hregular
        exact hregular
      have hsame : m.pendingDevices = s.pendingDevices := by
        unfold InMemoryLog.pendingDevices DocLogStore.pendingDevices
        rw [h.entries]
      rw [hsame, hdevices] at hperm
      rw [storedDeviceId_empty hdevice]
      dsimp only
      cases hown : s.hasOwnEntries "" with
      | true =>
        rw [hown, if_pos rfl] at hperm
        rw [perm_singleton.mp hperm]
        refine ⟨rfl, h.entries, ?_, h.gapState, h.pendingRemovals⟩
        show m.deviceId = some ""
        rw [h.deviceId, hdevice]
      | false =>
        rw [hown, if_neg (by decide)] at hperm
        rw [perm_nil.mp hperm]
        exact ⟨rfl, h.setDeviceId uuid⟩
    · rw [storedDeviceId_of_ne hdevice hempty]
      dsimp only
      split
      · exact ⟨rfl, h⟩
      · exact ⟨rfl, h.setDeviceId uuid⟩

/-! ## 8. One call, and every sequence of calls -/

theorem Agree.recordGapObservation (firstMissing observedMax : Nat)
    (connectionEpoch : Int) (now : Nat) :
    Agree (m.recordGapObservation docId device firstMissing observedMax connectionEpoch now)
      (s.recordGapObservation docId device firstMissing observedMax connectionEpoch now) := by
  unfold InMemoryLog.recordGapObservation DocLogStore.recordGapObservation
  rw [h.gapState]
  exact ⟨h.entries, h.deviceId, rfl, h.pendingRemovals⟩

theorem Agree.knownHead : knownHead m.entries.rows docId = knownHead s.entries.rows docId := by
  rw [h.entries]

theorem Agree.hasEntriesBatch {keys : List DocLogEntryKey}
    (hkeys : ∀ k ∈ keys, unambiguous s docId k.deviceId k.seq = true) :
    (keys.filter fun k => m.entries.has (joinedKey docId k.deviceId k.seq)) =
      keys.filter fun k => s.entries.has (docId, k.deviceId, k.seq) := by
  apply filter_congr
  intro k hk
  exact h.has (hkeys k hk)

end

/-- **One call**: the same result, up to the order of a list, and stores that agree. -/
theorem perform_agrees (h : Agree m s) {op : PortOp} (hregular : regular s op = true) :
    (m.perform op).1.Same (s.perform L op).1 ∧ Agree (m.perform op).2 (s.perform L op).2 := by
  cases op with
  | appendLocalEntry docId deviceId build now =>
    obtain ⟨hresult, hstores⟩ := h.appendLocalEntry hregular maxSeqRetries
    exact ⟨hresult ▸ PortResult.same_refl _, hstores⟩
  | getOrCreateDeviceId uuid =>
    obtain ⟨hresult, hstores⟩ := h.getOrCreateDeviceId L hregular
    exact ⟨hresult ▸ PortResult.same_refl _, hstores⟩
  | setDeviceId deviceId => exact ⟨rfl, h.setDeviceId deviceId⟩
  | resolveConnectDeviceId uuid => exact h.resolveConnectDeviceId L hregular
  | recordRemoteApplied entry now => exact ⟨rfl, h.recordApplied hregular⟩
  | hasEntriesBatch docId keys =>
    have hfound := h.hasEntriesBatch (all_eq_true.mp hregular)
    refine ⟨?_, h⟩
    show Perm _ (L.list _)
    rw [hfound]
    exact (L.perm _).symm
  | recordRemoteAppliedBatch entries now => exact ⟨rfl, h.recordAppliedBatch hregular⟩
  | getKnownHeads docId => exact ⟨congrArg PortResult.heads h.knownHead, h⟩
  | getStrictContiguousHeads docId =>
    exact ⟨congrArg PortResult.heads h.getStrictContiguousHeads, h⟩
  | getSyncRequestHeads docId =>
    refine ⟨congrArg PortResult.heads ?_, h⟩
    rw [h.getSyncRequestHeads, listedSyncRequestHeads_eq]
  | recordGapObservation docId device firstMissing observedMax connectionEpoch now =>
    exact ⟨rfl, h.recordGapObservation firstMissing observedMax connectionEpoch now⟩
  | markGapSoftSkipped docId device firstMissing
  | markGapRepairAttempt docId device firstMissing nextDueAt =>
    refine ⟨rfl, h.entries, h.deviceId, ?_, h.pendingRemovals⟩
    show m.gapState.update _ _ = s.gapState.update _ _
    rw [h.gapState]
  | listDueGapRepairs now =>
    refine ⟨?_, h⟩
    show Perm _ (L.list (s.listDueGapRepairs now))
    rw [h.gapState]
    exact (L.perm _).symm
  | deleteGapRepair docId device firstMissing =>
    refine ⟨rfl, h.entries, h.deviceId, ?_, h.pendingRemovals⟩
    exact congrArg (fun t => t.erase (gapKey docId device firstMissing)) h.gapState
  | getEntry docId deviceId seq => exact ⟨congrArg PortResult.found (h.getEntry hregular), h⟩
  | getPending =>
    refine ⟨?_, h⟩
    show Perm (insertionSort _ _) (insertionSort _ _)
    rw [h.entries]
    exact (perm_insertionSort _ _).trans ((L.perm _).symm.trans (perm_insertionSort _ _).symm)
  | markAcked docId deviceId seq => exact ⟨rfl, h.markAcked hregular⟩
  | putPendingRemoval removal expect =>
    obtain ⟨hresult, hstores⟩ := h.putPendingRemoval removal expect
    exact ⟨hresult ▸ PortResult.same_refl _, hstores⟩
  | getPendingRemoval spaceId removedDid =>
    exact ⟨congrArg PortResult.removal (h.getPendingRemoval spaceId removedDid), h⟩
  | markBrokerConfirmed spaceId removedDid brokerUrl binding =>
    obtain ⟨hresult, hstores⟩ := h.markBrokerConfirmed hregular
    exact ⟨congrArg PortResult.confirmation hresult, hstores⟩
  | deletePendingRemoval spaceId removedDid expect =>
    obtain ⟨hresult, hstores⟩ := h.deletePendingRemoval spaceId removedDid expect
    exact ⟨congrArg PortResult.deletion hresult, hstores⟩
  | listPendingRemovals =>
    refine ⟨?_, h⟩
    show Perm _ (L.list _)
    rw [h.pendingRemovals]
    exact (L.perm _).symm
  | clear => exact ⟨rfl, agree_fresh⟩

def regularRun (L : Listing) (s : DocLogStore) : List PortOp → Bool
  | [] => true
  | op :: rest => regular s op && regularRun L (s.perform L op).2 rest

theorem performAll_agree (h : Agree m s) {ops : List PortOp}
    (hregular : regularRun L s ops = true) :
    Forall₂ PortResult.Same (m.performAll ops).1 (s.performAll L ops).1 ∧
      Agree (m.performAll ops).2 (s.performAll L ops).2 := by
  induction ops generalizing m s with
  | nil => exact ⟨.nil, h⟩
  | cons op rest ih =>
    unfold regularRun at hregular
    rw [Bool.and_eq_true] at hregular
    obtain ⟨hsame, hstores⟩ := perform_agrees L h hregular.1
    obtain ⟨hresults, hend⟩ := ih hstores hregular.2
    exact ⟨.cons hsame hresults, hend⟩

/-- **The adapters agree** on every sequence of calls in which each is regular. -/
theorem stores_agree (ops : List PortOp) (h : regularRun L .fresh ops = true) :
    Forall₂ PortResult.Same (InMemoryLog.fresh.performAll ops).1 (fresh.performAll L ops).1 :=
  (performAll_agree L agree_fresh h).1

end

def Listing.inOrder : Listing := ⟨fun rows => rows, fun rows => .refl rows⟩

theorem stores_agree_gap : Forall₂ PortResult.Same (InMemoryLog.fresh.performAll
      [.recordRemoteApplied ⟨"doc", "dev", 0, none⟩ 0, .recordGapObservation "doc" "dev" 2 3 1 0,
        .getSyncRequestHeads "doc", .listDueGapRepairs 0]).1
    (fresh.performAll .inOrder
      [.recordRemoteApplied ⟨"doc", "dev", 0, none⟩ 0, .recordGapObservation "doc" "dev" 2 3 1 0,
        .getSyncRequestHeads "doc", .listDueGapRepairs 0]).1 :=
  stores_agree .inOrder _ (by decide)

def staleGapOps : List PortOp :=
  [.recordRemoteApplied ⟨"doc", "dev", 0, none⟩ 0, .recordGapObservation "doc" "dev" 0 0 1 0,
    .recordRemoteApplied ⟨"doc", "dev", 0, none⟩ 0, .listDueGapRepairs 0]

/-- In memory the gap stays due; IndexedDB has dropped it. -/
theorem stale_gap_differs : ¬ ∀ (L : Listing) (ops : List PortOp),
    Forall₂ PortResult.Same (InMemoryLog.fresh.performAll ops).1 (fresh.performAll L ops).1 := by
  intro hall
  have hrun := hall .inOrder staleGapOps
  have hmemory : (InMemoryLog.fresh.performAll staleGapOps).1 =
      [.done, .done, .done, .gaps [⟨"doc", "dev", 0, 0, 1, [1], 1, 0, false, 0, 0⟩]] := rfl
  have hdurable : (fresh.performAll .inOrder staleGapOps).1 = [.done, .done, .done, .gaps []] := rfl
  rw [hmemory, hdurable] at hrun
  simp only [forall₂_cons] at hrun
  have hperm : Perm _ [] := hrun.2.2.2.1
  exact cons_ne_nil _ _ (perm_nil.mp hperm)

end WebOfTrust
