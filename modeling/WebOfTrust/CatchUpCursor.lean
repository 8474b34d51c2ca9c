/-
  **What one page does to the store.**  The facts the pagination rests on: the heads record
  names every device with an entry, a missing seq at or below the wire cursor lies in a hole
  whose first seq is missing and soft-skipped, a batch adds its entries and drops no such
  record, and the gap bookkeeping of a page either leaves the cursor where it is or skips a
  hole that was not skipped before (`Noted`).
-/
import WebOfTrust.CatchUp
import WebOfTrust.SoftSkipGate

namespace WebOfTrust

open Async DocLogStore KeyedTable List

/-! ## 1. Heads records -/

theorem lookup_filterMap {β : Type} (devices : List DeviceId) (f : DeviceId → Option β)
    (d : DeviceId) :
    (devices.filterMap fun device => (f device).map fun b => (device, b)).lookup d =
      if d ∈ devices then f d else none := by
  induction devices with
  | nil => rfl
  | cons device rest ih =>
    by_cases hd : d = device
    · subst hd
      cases hf : f d with
      | none =>
        rw [filterMap_cons_none (by rw [hf]; rfl), ih, hf]
        simp
      | some b =>
        rw [filterMap_cons_some (by rw [hf]; rfl), lookup_cons_self]
        simp
    · have hmem : (if d ∈ device :: rest then f d else none) =
          if d ∈ rest then f d else none := by simp [hd]
      rw [hmem, ← ih]
      cases hf : f device with
      | none => rw [filterMap_cons_none (by rw [hf]; rfl)]
      | some b =>
        have hne : (d == device) = false := beq_eq_false_iff_ne.mpr hd
        rw [filterMap_cons_some (by rw [hf]; rfl), lookup_cons, hne]

variable {s s' : DocLogStore} {docId : DocId} {d : DeviceId} {heads : Heads}
  {firstMissing q now : Nat} {g : GapRepair} {w : GapWorld} {brokerHeads : List (DeviceId × Nat)}

theorem mem_devices : d ∈ s.devices docId ↔ s.sortedSeqs docId d ≠ [] := by
  unfold devices
  rw [mem_dedup, mem_map]
  constructor
  · rintro ⟨e, he, rfl⟩
    obtain ⟨hmem, hdoc⟩ := mem_filter.mp he
    rw [decide_eq_true_eq] at hdoc
    have hseq : e.seq ∈ s.sortedSeqs docId e.deviceId := by
      apply mem_sortedSeqs.mpr
      subst hdoc
      exact ⟨e, mem_rows_iff.mp hmem⟩
    exact ne_nil_of_mem hseq
  · intro hne
    obtain ⟨q, hq⟩ := exists_mem_of_ne_nil _ hne
    obtain ⟨e, he⟩ := mem_sortedSeqs.mp hq
    obtain ⟨hmem, hkey⟩ := get?_eq_some_iff.mp he
    simp only [LocalLogEntry.key, Prod.mk.injEq] at hkey
    exact ⟨e, mem_filter.mpr ⟨hmem, decide_eq_true hkey.1⟩, hkey.2.1⟩

theorem strictHeads_none (h : s.sortedSeqs docId d = []) :
    s.getStrictContiguousHeads docId d = none := by
  unfold getStrictContiguousHeads
  rw [h]

theorem foldl_advance_none (gaps : List GapRepair) (h : s.sortedSeqs docId d = [])
    (hheads : heads d = none) : gaps.foldl (s.advancePastGap docId) heads d = none := by
  induction gaps generalizing heads with
  | nil => exact hheads
  | cons g rest ih =>
    apply ih
    rcases s.advancePastGap_cases docId heads g d with hsame | ⟨rfl, hne, -⟩
    · exact hsame.trans hheads
    · exact absurd h hne

theorem requestHeads_none (h : s.sortedSeqs docId d = []) : s.getSyncRequestHeads docId d = none :=
  foldl_advance_none _ h (strictHeads_none h)

theorem lookup_sanitize (h : s.sortedSeqs docId d = [] → heads d = none) (q : Nat) :
    ((sanitizeWireHeads (s.headsRecord docId heads)).lookup d).all (fun head => decide (head < q)) =
      true ↔ ∀ head, heads d = some head → head < q := by
  have hwire : sanitizeWireHeads (s.headsRecord docId heads) =
      (s.devices docId).filterMap fun device =>
        ((heads device).bind fun seq => if 0 ≤ seq then some seq.toNat else none).map
          fun n => (device, n) := by
    unfold sanitizeWireHeads headsRecord
    rw [filterMap_filterMap]
    apply filterMap_congr
    intro device _
    rcases heads device with _ | seq
    · rfl
    by_cases hpos : 0 ≤ seq
    · simp [hpos]
    · simp [hpos]
  rw [hwire, lookup_filterMap]
  by_cases hd : d ∈ s.devices docId
  · rw [if_pos hd]
    rcases heads d with _ | seq
    · simp
    by_cases hpos : 0 ≤ seq
    · simp [hpos]
    · have hneg : seq < q := by omega
      simp [hpos, hneg]
  · have hnil : s.sortedSeqs docId d = [] := by
      by_contra hne
      exact hd (mem_devices.mpr hne)
    rw [if_neg hd, h hnil]
    simp

section

variable (s : DocLogStore) (docId : DocId)

theorem headsAdvanced_self (heads : Heads) :
    headsAdvanced (s.headsRecord docId heads) (s.headsRecord docId heads) = false := by
  unfold headsAdvanced
  rw [any_eq_false]
  rintro ⟨device, seq⟩ hmem
  obtain ⟨device', hdevice, hsome⟩ := mem_filterMap.mp hmem
  obtain ⟨seq', hseq, hpair⟩ := Option.map_eq_some_iff.mp hsome
  cases hpair
  have hlookup : (s.headsRecord docId heads).lookup device = some seq := by
    unfold headsRecord
    rw [lookup_filterMap, if_pos hdevice, hseq]
  dsimp only
  rw [hlookup]
  simp

/-! ## 2. The holes below the cursor -/

theorem contiguousHeadAbove_go_some (seqs : List Nat) (firstMissing h : Nat)
    (hsorted : seqs.Pairwise (· ≤ ·)) (hle : ∀ q ∈ seqs, h ≤ q) (hfirst : firstMissing ≤ h) :
    (h : Int) ≤ contiguousHeadAbove.go firstMissing (some h) seqs ∧
      ∀ q ∈ seqs, (q : Int) ≠ contiguousHeadAbove.go firstMissing (some h) seqs + 1 := by
  induction seqs generalizing h with
  | nil => exact ⟨Int.le_refl _, fun q hq => by cases hq⟩
  | cons seq rest ih =>
    obtain ⟨hseq, hrest⟩ := pairwise_cons.mp hsorted
    have hlow : h ≤ seq := hle seq mem_cons_self
    have hnot : ¬ seq < firstMissing := by omega
    unfold contiguousHeadAbove.go
    rw [if_neg hnot]
    dsimp only
    by_cases hnext : seq = h + 1
    · rw [if_pos hnext]
      obtain ⟨hmono, hstop⟩ := ih seq hrest hseq (by omega)
      refine ⟨by omega, fun q hq => ?_⟩
      rcases mem_cons.mp hq with rfl | hq
      · omega
      · exact hstop q hq
    · rw [if_neg hnext]
      by_cases hgap : seq > h + 1
      · rw [if_pos hgap]
        refine ⟨Int.le_refl _, fun q hq => ?_⟩
        rcases mem_cons.mp hq with rfl | hq
        · omega
        · have := hseq q hq
          omega
      · rw [if_neg hgap]
        obtain ⟨hmono, hstop⟩ := ih h hrest (fun q hq => hle q (mem_cons_of_mem _ hq)) hfirst
        refine ⟨hmono, fun q hq => ?_⟩
        rcases mem_cons.mp hq with rfl | hq
        · omega
        · exact hstop q hq

theorem le_contiguousHeadAbove (seqs : List Nat) (firstMissing : Nat)
    (hsorted : seqs.Pairwise (· ≤ ·)) :
    (firstMissing : Int) - 1 ≤ contiguousHeadAbove.go firstMissing none seqs := by
  induction seqs with
  | nil => exact Int.le_refl _
  | cons seq rest ih =>
    obtain ⟨hseq, hrest⟩ := pairwise_cons.mp hsorted
    unfold contiguousHeadAbove.go
    by_cases hlow : seq < firstMissing
    · rw [if_pos hlow]
      exact ih hrest
    rw [if_neg hlow]
    dsimp only
    have := (contiguousHeadAbove_go_some rest firstMissing seq hrest hseq (by omega)).1
    omega

theorem contiguousHeadAbove_spec {seqs : List Nat} (hsorted : seqs.Pairwise (· ≤ ·))
    (habsent : firstMissing ∉ seqs) :
    ∀ q ∈ seqs, (q : Int) ≠ contiguousHeadAbove seqs firstMissing + 1 := by
  unfold contiguousHeadAbove
  induction seqs with
  | nil =>
    intro q hq
    cases hq
  | cons seq rest ih =>
    obtain ⟨hseq, hrest⟩ := pairwise_cons.mp hsorted
    unfold contiguousHeadAbove.go
    by_cases hlow : seq < firstMissing
    · -- below the hole
      rw [if_pos hlow]
      have hrest' := ih hrest fun h => habsent (mem_cons_of_mem _ h)
      have hhigh := le_contiguousHeadAbove rest firstMissing hrest
      intro q hq
      rcases mem_cons.mp hq with rfl | hq
      · omega
      · exact hrest' q hq
    · -- the first seq above it
      rw [if_neg hlow]
      dsimp only
      obtain ⟨hmono, hstop⟩ :=
        contiguousHeadAbove_go_some rest firstMissing seq hrest hseq (by omega)
      intro q hq
      rcases mem_cons.mp hq with rfl | hq
      · omega
      · exact hstop q hq

/-- A hole that was soft-skipped: its first seq is missing. -/
def SkippedHole (d : DeviceId) (q : Nat) : Prop :=
  ∃ g ∈ s.gapState.rows, g.docId = docId ∧ g.device = d ∧ g.softSkipped = true ∧
    g.firstMissing ≤ q ∧ s.getEntry docId d g.firstMissing = none

/-- Every missing seq at or below the heads lies in a skipped hole, and the seq after each
    head is missing. -/
def HeadsAtHoles (heads : Heads) : Prop :=
  ∀ d head, heads d = some head →
    (∀ q : Nat, (q : Int) ≤ head → s.getEntry docId d q = none → SkippedHole s docId d q) ∧
      ∀ q : Nat, (q : Int) = head + 1 → s.getEntry docId d q = none

theorem headsAtHoles_strict : HeadsAtHoles s docId (s.getStrictContiguousHeads docId) := by
  intro d head hhead
  obtain ⟨hpresent, hnext⟩ := getStrictContiguousHeads_spec hhead
  exact ⟨fun q hq hmissing => absurd hmissing (hpresent q hq), hnext⟩

end

theorem getEntry_none_iff : s.getEntry docId d q = none ↔ q ∉ s.sortedSeqs docId d := by
  rw [mem_sortedSeqs, ← not_iff_not, not_not, ← Option.isSome_iff_exists, Option.isSome_iff_ne_none]

theorem advancePastGap_ne_none (h : heads d ≠ none) : s.advancePastGap docId heads g d ≠ none := by
  unfold advancePastGap
  rcases s.sortedSeqs docId g.device with _ | ⟨seq, rest⟩
  · exact h
  dsimp only
  split
  · exact h
  dsimp only
  split
  · exact Option.some_ne_none _
  · exact h

theorem HeadsAtHoles.advance (h : HeadsAtHoles s docId heads) (hstrict : ∀ d,
      s.sortedSeqs docId d ≠ [] → heads d ≠ none) (hg : g ∈ s.gapState.rows)
    (hdoc : g.docId = docId) (hsoft : g.softSkipped = true) :
    HeadsAtHoles s docId (s.advancePastGap docId heads g) := by
  intro d head hhead
  rcases s.advancePastGap_cases docId heads g d with hsame | ⟨rfl, hseqs, hnext⟩
  · exact h d head (hsame ▸ hhead)
  obtain ⟨old, hold⟩ := Option.ne_none_iff_exists'.mp (hstrict g.device hseqs)
  obtain ⟨hcovered, hmissing⟩ := h g.device old hold
  rw [hold, Option.getD_some] at hnext
  have habsent : s.getEntry docId g.device g.firstMissing = none := hmissing _ hnext
  have hnew : head = contiguousHeadAbove (s.sortedSeqs docId g.device) g.firstMissing := by
    unfold advancePastGap at hhead
    rcases hlist : s.sortedSeqs docId g.device with _ | ⟨seq, rest⟩
    · exact absurd hlist hseqs
    rw [hlist] at hhead
    dsimp only at hhead
    rw [hold, Option.getD_some, if_neg (by simp [hnext]), if_pos rfl] at hhead
    exact (Option.some.inj hhead).symm
  constructor
  · intro q hq hq'
    rcases Nat.lt_or_ge q g.firstMissing with hlt | hge
    · exact hcovered q (by omega) hq'
    · exact ⟨g, hg, hdoc, rfl, hsoft, hge, habsent⟩
  · intro q hq
    rw [getEntry_none_iff]
    intro hmem
    rw [hnew] at hq
    exact contiguousHeadAbove_spec (s.sortedSeqs_pairwise docId g.device)
      (getEntry_none_iff.mp habsent) q hmem hq

/-- **Where the cursor hides something**: a missing seq at or below it lies in a hole that
    was soft-skipped and has not been filled from below. -/
theorem skippedHole_of_le_cursor {head : Int} (h : s.getSyncRequestHeads docId d = some head)
    (hq : (q : Int) ≤ head) (hmissing : s.getEntry docId d q = none) : SkippedHole s docId d q := by
  have hloop : ∀ (gaps : List GapRepair) (heads : Heads),
      (∀ g ∈ gaps, g ∈ s.gapState.rows ∧ g.docId = docId ∧ g.softSkipped = true) →
      (∀ d, s.sortedSeqs docId d ≠ [] → heads d ≠ none) → HeadsAtHoles s docId heads →
      HeadsAtHoles s docId (gaps.foldl (s.advancePastGap docId) heads) := by
    intro gaps
    induction gaps with
    | nil =>
      intro heads _ _ h
      exact h
    | cons g rest ih =>
      intro heads hgaps hstrict h
      obtain ⟨hg, hdoc, hsoft⟩ := hgaps g mem_cons_self
      apply ih _ (fun g' hg' => hgaps g' (mem_cons_of_mem _ hg')) ?_
        (h.advance hstrict hg hdoc hsoft)
      intro d hd
      exact advancePastGap_ne_none (hstrict d hd)
  have hstrict : ∀ d, s.sortedSeqs docId d ≠ [] → s.getStrictContiguousHeads docId d ≠ none := by
    intro d hd
    unfold getStrictContiguousHeads
    split
    · next hnil => exact absurd hnil hd
    · exact Option.some_ne_none _
  exact (hloop (s.softGaps docId) _ (fun g hg => mem_softGaps.mp hg) hstrict
    (headsAtHoles_strict s docId) d head h).1 q hq hmissing

/-! ## 3. The batch of a page -/

abbrev Present (s : DocLogStore) (docId : DocId) (d : DeviceId) (q : Nat) : Prop :=
  s.entries.has (docId, d, q) = true

theorem getEntry_none_iff_not_present : s.getEntry docId d q = none ↔ ¬ Present s docId d q := by
  unfold Present getEntry has
  cases s.entries.get? (docId, d, q) with
  | none | some e => simp

variable (es : List RecordRemoteAppliedEntry)

theorem entries_recordAppliedBatch (now : Nat) : (s.recordAppliedBatch es now).entries =
      (es.foldl (fun s e => s.putRemoteApplied e now) s).entries :=
  (foldl_autoResolveGaps es).1

theorem has_foldl_putRemoteApplied (now : Nat) (k : DocId × DeviceId × Nat) :
    (es.foldl (fun s e => s.putRemoteApplied e now) s).entries.has k =
      (s.entries.has k || es.any fun e => decide (e.key = k)) := by
  induction es generalizing s with
  | nil => simp
  | cons e rest ih =>
    have hput : (s.putRemoteApplied e now).entries.has k =
        (s.entries.has k || decide (e.key = k)) := has_add _ _ _
    rw [foldl_cons, ih, hput, any_cons, Bool.or_assoc]

theorem has_recordAppliedBatch (now : Nat) (k : DocId × DeviceId × Nat) :
    (s.recordAppliedBatch es now).entries.has k =
      (s.entries.has k || es.any fun e => decide (e.key = k)) := by
  rw [entries_recordAppliedBatch]
  exact has_foldl_putRemoteApplied es now k

/-- What is stored stays as it is. -/
def Retains (s s' : DocLogStore) : Prop :=
  ∀ k e, s.entries.get? k = some e → s'.entries.get? k = some e

theorem Retains.refl (s : DocLogStore) : Retains s s := fun _ _ h => h

theorem Retains.trans {s₁ s₂ s₃ : DocLogStore} (h : Retains s₁ s₂) (h' : Retains s₂ s₃) :
    Retains s₁ s₃ := fun k e he => h' k e (h k e he)

theorem Retains.present (h : Retains s s') (hq : Present s docId d q) : Present s' docId d q := by
  obtain ⟨e, he⟩ := Option.isSome_iff_exists.mp hq
  exact Option.isSome_iff_exists.mpr ⟨e, h _ e he⟩

theorem retains_of_entries (h : s'.entries = s.entries) : Retains s s' := by
  intro k e he
  rwa [h]

theorem retains_recordAppliedBatch (now : Nat) : Retains s (s.recordAppliedBatch es now) := by
  intro k e he
  rw [entries_recordAppliedBatch]
  induction es generalizing s with
  | nil => exact he
  | cons e' rest ih => exact ih (get?_putRemoteApplied_of_some he)

theorem SkippedHole.recordAppliedBatch {es : List RecordRemoteAppliedEntry}
    (h : SkippedHole s docId d q) (hes : ∀ e ∈ es, e.docId = docId → e.deviceId = d → q < e.seq) :
    SkippedHole (s.recordAppliedBatch es now) docId d q := by
  obtain ⟨g, hg, hdoc, hdev, hsoft, hle, hmissing⟩ := h
  have habsent : (s.recordAppliedBatch es now).getEntry docId d g.firstMissing = none := by
    rw [getEntry_none_iff_not_present] at hmissing ⊢
    unfold Present at hmissing ⊢
    rw [has_recordAppliedBatch]
    intro hor
    rcases Bool.or_eq_true_iff.mp hor with hold | hnew
    · exact hmissing hold
    obtain ⟨e, he, hkey⟩ := any_eq_true.mp hnew
    rw [decide_eq_true_eq] at hkey
    simp only [RecordRemoteAppliedEntry.key, Prod.mk.injEq] at hkey
    have := hes e he hkey.1 hkey.2.1
    omega
  refine ⟨g, ?_, hdoc, hdev, hsoft, hle, habsent⟩
  unfold DocLogStore.recordAppliedBatch
  rw [(foldl_autoResolveGaps es).2, foldl_putRemoteApplied_gapState]
  refine mem_filter.mpr ⟨hg, all_eq_true.mpr fun e he => ?_⟩
  rw [Bool.not_eq_true']
  unfold passed
  by_contra hpassed
  rw [Bool.not_eq_false, Bool.and_eq_true, Bool.and_eq_true, decide_eq_true_eq,
    decide_eq_true_eq, decide_eq_true_eq] at hpassed
  obtain ⟨⟨hdoc', hdev'⟩, hhead⟩ := hpassed
  have hpresent := (strictHead_spec _ e.docId e.deviceId).1 g.firstMissing hhead
  rw [← hdoc', ← hdev', hdoc, hdev] at hpresent
  rw [getEntry_none_iff] at habsent
  apply habsent
  rwa [sortedSeqs_congr (entries_recordAppliedBatch es now)]

/-! ## 4. The gap bookkeeping of a page -/

def softHoles (s : DocLogStore) (docId : DocId) : List (DeviceId × Nat) :=
  (s.gapState.rows.filter fun g => decide (g.docId = docId) && g.softSkipped).map fun g =>
    (g.device, g.firstMissing)

def softAt (s : DocLogStore) (key : String) : Bool :=
  (s.gapState.get? key).any (·.softSkipped)

/-- A gap moves a head by its device and its first seq alone. -/
def advancePastHole (s : DocLogStore) (docId : DocId) (heads : Heads) (hole : DeviceId × Nat) :
    Heads :=
  match s.sortedSeqs docId hole.1 with
  | [] => heads
  | seqs =>
    if (hole.2 : Int) ≠ (heads hole.1).getD (strictContiguousHead seqs) + 1 then heads
    else fun device =>
      if device = hole.1 then some (contiguousHeadAbove seqs hole.2) else heads device

theorem getSyncRequestHeads_congr (hentries : s'.entries = s.entries)
    (hholes : softHoles s' docId = softHoles s docId) :
    s'.getSyncRequestHeads docId = s.getSyncRequestHeads docId := by
  have hstrict : s'.getStrictContiguousHeads docId = s.getStrictContiguousHeads docId := by
    funext d
    unfold getStrictContiguousHeads
    rw [sortedSeqs_congr hentries]
  have hadvance : s'.advancePastGap docId = s.advancePastGap docId := by
    funext heads g
    unfold advancePastGap
    rw [sortedSeqs_congr hentries]
  have hfold : ∀ (gaps : List GapRepair) (heads : Heads),
      gaps.foldl (s.advancePastGap docId) heads =
        (gaps.map fun g => (g.device, g.firstMissing)).foldl (advancePastHole s docId) heads := by
    intro gaps heads
    rw [foldl_map]
    rfl
  have hsort : ∀ t : DocLogStore, (t.softGaps docId).map (fun g => (g.device, g.firstMissing)) =
      (softHoles t docId).insertionSort fun a b => a.2 ≤ b.2 := by
    intro t
    exact map_insertionSort _ _ _ _ fun a _ b _ => Iff.rfl
  unfold getSyncRequestHeads
  rw [hadvance, hstrict, hfold, hfold, hsort, hsort, hholes]

/-- What the bookkeeping of one page leaves: the entries, the skipped holes, and the cursor
    where no hole of `holes` was newly skipped. -/
structure Noted (docId : DocId) (holes : List String) (s s' : DocLogStore) : Prop where
  entries : s'.entries = s.entries
  rows : ∀ g ∈ s.gapState.rows, g.softSkipped = true → ∃ g' ∈ s'.gapState.rows,
    g'.docId = g.docId ∧ g'.device = g.device ∧ g'.firstMissing = g.firstMissing ∧
      g'.softSkipped = true
  soft : ∀ key, softAt s key = true → softAt s' key = true
  view : softHoles s' docId = softHoles s docId ∨
    ∃ key ∈ holes, softAt s key = false ∧ softAt s' key = true

variable {holes : List String}

theorem Noted.refl (s : DocLogStore) : Noted docId holes s s where
  entries := rfl
  rows g hg hsoft := ⟨g, hg, rfl, rfl, rfl, hsoft⟩
  soft _ h := h
  view := .inl rfl

theorem Noted.trans {s₁ s₂ s₃ : DocLogStore} (h : Noted docId holes s₁ s₂)
    (h' : Noted docId holes s₂ s₃) : Noted docId holes s₁ s₃ := by
  constructor
  · exact h'.entries.trans h.entries
  · intro g hg hsoft
    obtain ⟨g₂, hg₂, hdoc₂, hdev₂, hfirst₂, hsoft₂⟩ := h.rows g hg hsoft
    obtain ⟨g₃, hg₃, hdoc₃, hdev₃, hfirst₃, hsoft₃⟩ := h'.rows g₂ hg₂ hsoft₂
    exact ⟨g₃, hg₃, hdoc₃.trans hdoc₂, hdev₃.trans hdev₂, hfirst₃.trans hfirst₂, hsoft₃⟩
  · intro key hkey
    exact h'.soft key (h.soft key hkey)
  · rcases h.view with hsame | ⟨key, hkey, hbefore, hafter⟩
    · rcases h'.view with hsame' | ⟨key, hkey, hbefore, hafter⟩
      · exact .inl (hsame'.trans hsame)
      refine .inr ⟨key, hkey, ?_, hafter⟩
      by_contra hsoft
      rw [Bool.not_eq_false] at hsoft
      rw [h.soft key hsoft] at hbefore
      cases hbefore
    · exact .inr ⟨key, hkey, hbefore, h'.soft key hafter⟩

theorem SkippedHole.noted (hn : Noted docId holes s s') (h : SkippedHole s docId d q) :
    SkippedHole s' docId d q := by
  obtain ⟨g, hg, hdoc, hdev, hsoft, hle, hmissing⟩ := h
  obtain ⟨g', hg', hdoc', hdev', hfirst', hsoft'⟩ := hn.rows g hg hsoft
  refine ⟨g', hg', hdoc'.trans hdoc, hdev'.trans hdev, hsoft', hfirst' ▸ hle, ?_⟩
  unfold getEntry at hmissing ⊢
  rw [hfirst', hn.entries]
  exact hmissing

theorem notedGap_of_some (docId : DocId) (device : DeviceId) (firstMissing brokerMax : Nat)
    (epoch : Int) (now : Nat) :
    let g' := notedGap (some g) docId device firstMissing brokerMax epoch now
    g'.docId = g.docId ∧ g'.device = g.device ∧ g'.firstMissing = g.firstMissing ∧
      g'.softSkipped = g.softSkipped := by
  unfold notedGap
  simp only [Option.getD_some]
  split
  · exact ⟨rfl, rfl, rfl, rfl⟩
  · exact ⟨rfl, rfl, rfl, rfl⟩

theorem notedGap_of_none (docId : DocId) (device : DeviceId) (firstMissing brokerMax : Nat)
    (epoch : Int) (now : Nat) :
    let g' := notedGap none docId device firstMissing brokerMax epoch now
    g'.docId = docId ∧ g'.device = device ∧ g'.firstMissing = firstMissing ∧
      g'.softSkipped = false := by
  unfold notedGap
  simp only [Option.getD_none]
  split
  · exact ⟨rfl, rfl, rfl, rfl⟩
  · exact ⟨rfl, rfl, rfl, rfl⟩

theorem noted_recordGapObservation (s : DocLogStore) (device : DeviceId)
    (firstMissing brokerMax : Nat) (epoch : Int) (now : Nat) :
    Noted docId holes s (s.recordGapObservation docId device firstMissing brokerMax epoch now) := by
  rw [recordGapObservation_eq]
  cases hold : s.gapState.get? (gapKey docId device firstMissing) with
  | none =>
    have hnew := notedGap_of_none docId device firstMissing brokerMax epoch now
    generalize notedGap none docId device firstMissing brokerMax epoch now = r at hnew ⊢
    obtain ⟨hdoc, hdev, hfirst, hsoft⟩ := hnew
    have hkey : r.key = gapKey docId device firstMissing := by
      unfold GapRepair.key
      rw [hdoc, hdev, hfirst]
    have hfree : s.gapState.has r.key = false := by
      rw [has, hkey, hold]
      rfl
    have hrows : (s.gapState.put r).rows = s.gapState.rows ++ [r] := by
      rw [rows_put, hfree]
      rfl
    constructor
    · rfl
    · intro g hg hsoft'
      refine ⟨g, ?_, rfl, rfl, rfl, hsoft'⟩
      rw [hrows]
      exact mem_append_left _ hg
    · intro key hkey'
      unfold softAt at hkey' ⊢
      rw [get?_put]
      split
      · next h => rw [← h, hkey, hold] at hkey'; cases hkey'
      · exact hkey'
    · left
      unfold softHoles
      rw [hrows, filter_append]
      simp [hsoft]
  | some g₀ =>
    have hnew := notedGap_of_some docId (g := g₀) device firstMissing brokerMax epoch now
    generalize notedGap (some g₀) docId device firstMissing brokerMax epoch now = r at hnew ⊢
    obtain ⟨hdoc, hdev, hfirst, hsoft⟩ := hnew
    obtain ⟨hmem₀, hkey₀⟩ := get?_eq_some_iff.mp hold
    have hkey : r.key = g₀.key := by
      unfold GapRepair.key
      rw [hdoc, hdev, hfirst]
    have hhas : s.gapState.has r.key = true := by
      rw [hkey]
      exact has_iff.mpr ⟨g₀, hmem₀, rfl⟩
    have hrows : (s.gapState.put r).rows =
        s.gapState.rows.map fun x => if x.key = r.key then r else x := by
      rw [rows_put, if_pos hhas]
    have hrow : ∀ x ∈ s.gapState.rows, x.key = r.key → x = g₀ := fun x hx h =>
      eq_of_key_eq hx hmem₀ (h.trans hkey)
    constructor
    · rfl
    · intro g hg hsoft'
      rw [hrows]
      by_cases hg' : g.key = r.key
      · refine ⟨r, mem_map.mpr ⟨g, hg, if_pos hg'⟩, ?_⟩
        rw [hrow g hg hg'] at hsoft' ⊢
        exact ⟨hdoc, hdev, hfirst, hsoft.trans hsoft'⟩
      · exact ⟨g, mem_map.mpr ⟨g, hg, if_neg hg'⟩, rfl, rfl, rfl, hsoft'⟩
    · intro key hkey'
      unfold softAt at hkey' ⊢
      rw [get?_put]
      split
      · next h =>
        rw [← h, hkey, mem_rows_iff.mp hmem₀] at hkey'
        rw [Option.any_some, hsoft]
        exact hkey'
      · exact hkey'
    · left
      unfold softHoles
      rw [hrows, filter_map, map_map]
      have hsame : ∀ x ∈ s.gapState.rows, ((fun g : GapRepair =>
          decide (g.docId = docId) && g.softSkipped) ∘ fun x => if x.key = r.key then r else x) x =
            (decide (x.docId = docId) && x.softSkipped) := by
        intro x hx
        by_cases hx' : x.key = r.key
        · simp only [Function.comp, hrow x hx hx', hkey, if_true, hdoc, hsoft]
        · simp only [Function.comp, if_neg hx']
      rw [filter_congr hsame]
      apply map_congr_left
      intro x hx
      have hx := (mem_filter.mp hx).1
      by_cases hx' : x.key = r.key
      · simp only [Function.comp, hrow x hx hx', hkey, if_true, hdev, hfirst]
      · simp only [Function.comp, if_neg hx']

theorem noted_markGapSoftSkipped {device : DeviceId}
    (hg : findGap docId s device firstMissing = some g) (hsoft : g.softSkipped = false)
    (hhole : gapKey docId device firstMissing ∈ holes) :
    Noted docId holes s (s.markGapSoftSkipped docId device firstMissing) := by
  obtain ⟨hmem, hdev, hfirst⟩ := mem_of_findGap hg
  have hdoc : g.docId = docId := by
    have hsame := find?_some hg
    simp only [Bool.and_eq_true, decide_eq_true_eq] at hsame
    exact hsame.1.1
  have hkey : g.key = gapKey docId device firstMissing := by
    unfold GapRepair.key
    rw [hdoc, hdev, hfirst]
  have hget : s.gapState.get? (gapKey docId device firstMissing) = some g :=
    get?_eq_some_iff.mpr ⟨hmem, hkey⟩
  have hrows : (s.markGapSoftSkipped docId device firstMissing).gapState.rows =
      s.gapState.rows.map fun x =>
        if x.key = gapKey docId device firstMissing then { x with softSkipped := true } else x :=
    rows_update _ _ _ fun _ => rfl
  have hat : ∀ key, softAt (s.markGapSoftSkipped docId device firstMissing) key =
      if gapKey docId device firstMissing = key then true else softAt s key := by
    intro key
    have hupdate : (s.markGapSoftSkipped docId device firstMissing).gapState.get? key =
        if gapKey docId device firstMissing = key then
          (s.gapState.get? (gapKey docId device firstMissing)).map fun g =>
            { g with softSkipped := true }
        else s.gapState.get? key :=
      get?_update _ _ (fun g : GapRepair => { g with softSkipped := true }) (fun _ => rfl) key
    unfold softAt
    rw [hupdate]
    split
    · rw [hget]
      rfl
    · rfl
  constructor
  · rfl
  · intro g' hg' hsoft'
    rw [hrows]
    by_cases hg'' : g'.key = gapKey docId device firstMissing
    · exact ⟨_, mem_map.mpr ⟨g', hg', if_pos hg''⟩, rfl, rfl, rfl, rfl⟩
    · exact ⟨g', mem_map.mpr ⟨g', hg', if_neg hg''⟩, rfl, rfl, rfl, hsoft'⟩
  · intro key hkey'
    rw [hat]
    split
    · rfl
    · exact hkey'
  · right
    refine ⟨gapKey docId device firstMissing, hhole, ?_, ?_⟩
    · unfold softAt
      rw [hget, Option.any_some, hsoft]
    · rw [hat, if_pos rfl]

theorem ends_storeCall {α : Type} {Q : α → GapWorld → Prop} {E : String → GapWorld → Prop}
    {t : GapPoint} {f : Env → GapWorld → GapWorld} {g : Env → GapWorld → α}
    (herr : ∀ text, E text w) (hok : ∀ env, Q (g env w) (f env w)) :
    Ends Q E (atomic t fun (env : Env) w => env.storeCall w (f env w) (g env w)) w := by
  apply ends_atomic
  intro env
  unfold Env.storeCall
  cases env.failure with
  | some text =>
    refine ⟨fun _ h => (by cases h), fun e h => ?_⟩
    cases h
    exact herr text
  | none =>
    refine ⟨fun a h => ?_, fun _ h => by cases h⟩
    cases h
    exact hok env

open Noted

theorem maybeSoftSkipGap_ends {device : DeviceId}
    (hhole : gapKey docId device firstMissing ∈ holes) :
    Ends (fun _ w' => Noted docId holes w.store w'.store)
      (fun _ w' => Noted docId holes w.store w'.store)
      (maybeSoftSkipGap docId device firstMissing now) w := by
  apply ends_bind
  apply ends_storeCall
  · intro _
    exact refl _
  intro _
  rcases hfind : findGap docId w.store device firstMissing with _ | g
  · exact refl _
  simp only [Option.any_some]
  split
  · next hskips =>
    have hsoft : g.softSkipped = false := by
      unfold GapRepair.skipsAt at hskips
      simp only [Bool.and_eq_true, Bool.not_eq_true'] at hskips
      exact hskips.1.1
    apply ends_storeCall
    · intro _
      exact refl _
    · intro _
      exact noted_markGapSoftSkipped hfind hsoft hhole
  · exact refl _

def pageHoles (docId : DocId) (brokerHeads : List (DeviceId × Nat)) : List String :=
  brokerHeads.flatMap fun head =>
    (range (head.2 + 1)).map fun firstMissing => gapKey docId head.1 firstMissing

theorem mem_pageHoles {head : DeviceId × Nat} (hhead : head ∈ brokerHeads)
    (hle : firstMissing ≤ head.2) :
    gapKey docId head.1 firstMissing ∈ pageHoles docId brokerHeads :=
  mem_flatMap.mpr ⟨head, hhead, mem_map.mpr ⟨firstMissing, mem_range.mpr (by omega), rfl⟩⟩

theorem recordGapOfDevice_ends {head : DeviceId × Nat} (hhead : head ∈ brokerHeads)
    {receivedOn : Nat} {known requestCursor : Heads} {lowestSeqByDevice : DeviceId → Option Nat} :
    Ends (fun _ w' => Noted docId (pageHoles docId brokerHeads) w.store w'.store)
      (fun _ w' => Noted docId (pageHoles docId brokerHeads) w.store w'.store)
      (recordGapOfDevice docId receivedOn now known lowestSeqByDevice requestCursor head) w := by
  unfold recordGapOfDevice
  dsimp only
  split
  · exact refl _
  split
  · exact refl _
  next hbelow =>
  split
  · exact refl _
  split
  · exact refl _
  have hhole : gapKey docId head.1 ((requestCursor head.1).getD (-1) + 1).toNat ∈
      pageHoles docId brokerHeads := mem_pageHoles hhead (by omega)
  apply ends_bind
  apply ends_query
  intro _
  apply ends_bind
  apply ends_storeCall
  · intro _
    exact refl _
  intro _
  have hnoted : Noted docId (pageHoles docId brokerHeads) w.store _ :=
    noted_recordGapObservation w.store head.1
      ((requestCursor head.1).getD (-1) + 1).toNat head.2 w.connectionEpoch now
  exact (maybeSoftSkipGap_ends hhole).mono (fun _ _ h => hnoted.trans h)
    fun _ _ h => hnoted.trans h

theorem recordGapsFromPage_ends {lowestSeqByDevice : DeviceId → Option Nat}
    {requestCursor : Heads} :
    Ends (fun _ w' => Noted docId (pageHoles docId brokerHeads) w.store w'.store)
      (fun _ w' => Noted docId (pageHoles docId brokerHeads) w.store w'.store)
      (recordGapsFromPage docId brokerHeads lowestSeqByDevice requestCursor) w := by
  apply ends_bind
  apply ends_query
  intro _
  apply ends_bind
  apply ends_storeCall
  · intro _
    exact refl _
  intro env
  let J (rest : List (DeviceId × Nat)) (w' : GapWorld) : Prop :=
    (∀ head ∈ rest, head ∈ brokerHeads) ∧
      Noted docId (pageHoles docId brokerHeads) w.store w'.store
  have hloop : Ends (fun _ w' => J [] w')
      (fun (_ : String) w' => Noted docId (pageHoles docId brokerHeads) w.store w'.store)
      (forEach brokerHeads (recordGapOfDevice docId w.connection env.now
        (knownHead w.store.entries.rows docId) lowestSeqByDevice requestCursor)) w := by
    apply ends_forEach (J := J)
    · rintro head rest w' ⟨hrest, hnoted⟩
      apply (recordGapOfDevice_ends (hrest head mem_cons_self)).mono
      · intro _ _ h
        exact ⟨fun x hx => hrest x (mem_cons_of_mem _ hx), hnoted.trans h⟩
      · intro _ _ h
        exact hnoted.trans h
    · exact ⟨fun _ h => h, refl _⟩
  exact hloop.mono (fun _ _ h => h.2) fun _ _ h => h

end WebOfTrust
