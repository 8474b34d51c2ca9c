/-
  **The wire cursor hides no hole.**  A catch-up asks the broker for everything
  above `getSyncRequestHeads`, and never again for what is at or below that head.

  The head of a device starts at its strict contiguous head, below which nothing
  is missing, and each soft-skipped gap may push it over one hole.  So every missing
  seq at or below it lies at or above the start of a hole that is recorded as
  soft-skipped (`Covered`), and the repair schedule of that record asks for it.

  IndexedDB reads the entries in one transaction and the gaps in a later one, so
  the fold is treated with the two stores apart; entries read earlier are still
  there later (`DocLogStore.Carries`).
-/
import WebOfTrust.DocLogAppend

namespace WebOfTrust

open List

namespace DocLogStore

/-! ## 1. The strict contiguous head -/

/-- The walk never falls back, passes only seqs that are there, and stops where
    the next one is missing. -/
theorem strictContiguousHead_go_spec (seqs : List Nat) (head : Int)
    (hsorted : seqs.Pairwise (· ≤ ·)) :
    head ≤ strictContiguousHead.go head seqs ∧
      (∀ q : Nat, head < q → (q : Int) ≤ strictContiguousHead.go head seqs → q ∈ seqs) ∧
      ∀ q ∈ seqs, (q : Int) ≠ strictContiguousHead.go head seqs + 1 ∨ (q : Int) ≤ head := by
  induction seqs generalizing head with
  | nil =>
    refine ⟨Int.le_refl _, ?_, fun q hq => by cases hq⟩
    intro q hlt hle
    simp only [strictContiguousHead.go] at hle
    omega
  | cons x rest ih =>
    obtain ⟨hx, hrest⟩ := pairwise_cons.mp hsorted
    simp only [strictContiguousHead.go]
    by_cases hnext : (x : Int) = head + 1
    · -- the next seq is there: go on from it
      rw [if_pos hnext]
      obtain ⟨hmono, hpresent, hstop⟩ := ih x hrest
      refine ⟨by omega, ?_, ?_⟩
      · intro q hlt hle
        rcases Nat.lt_or_ge x q with hq | hq
        · exact mem_cons_of_mem _ (hpresent q (by omega) hle)
        · have : q = x := by omega
          exact this ▸ mem_cons_self
      · intro q hq
        rcases mem_cons.mp hq with rfl | hq
        · left; omega
        rcases hstop q hq with h | h
        · exact .inl h
        · left; omega
    · rw [if_neg hnext]
      by_cases hgap : (x : Int) > head + 1
      · -- a gap: everything that follows lies beyond it
        rw [if_pos hgap]
        refine ⟨Int.le_refl _, fun q hlt hle => by omega, ?_⟩
        intro q hq
        left
        rcases mem_cons.mp hq with rfl | hq
        · omega
        · have := hx q hq
          omega
      · -- at or below the head: nothing new
        rw [if_neg hgap]
        obtain ⟨hmono, hpresent, hstop⟩ := ih head hrest
        refine ⟨hmono, fun q hlt hle => mem_cons_of_mem _ (hpresent q hlt hle), ?_⟩
        intro q hq
        rcases mem_cons.mp hq with rfl | hq
        · right; omega
        · exact hstop q hq

variable {s : DocLogStore} {docId : DocId} {device : DeviceId} {rows gaps : DocLogStore}

theorem sortedSeqs_pairwise (s : DocLogStore) (docId : DocId) (device : DeviceId) :
    (s.sortedSeqs docId device).Pairwise (· ≤ ·) :=
  pairwise_insertionSort (· ≤ ·) _

theorem mem_sortedSeqs {q : Nat} :
    q ∈ s.sortedSeqs docId device ↔ ∃ e, s.getEntry docId device q = some e := by
  rw [sortedSeqs, mem_insertionSort, mem_map]
  constructor
  · rintro ⟨e, he, rfl⟩
    obtain ⟨hmem, rfl, rfl⟩ := mem_namespaceRows.mp he
    exact ⟨e, KeyedTable.mem_rows_iff.mp hmem⟩
  · rintro ⟨e, he⟩
    have hkey := KeyedTable.key_of_get? he
    simp only [LocalLogEntry.key, Prod.mk.injEq] at hkey
    exact ⟨e, mem_namespaceRows.mpr ⟨KeyedTable.mem_of_get? he, hkey.1, hkey.2.1⟩, hkey.2.2⟩

/-- **The strict contiguous head is what its name says**: nothing is missing up
    to it, and the seq after it is missing. -/
theorem getStrictContiguousHeads_spec {h : Int}
    (hh : s.getStrictContiguousHeads docId device = some h) :
    (∀ q : Nat, (q : Int) ≤ h → s.getEntry docId device q ≠ none) ∧
      ∀ q : Nat, (q : Int) = h + 1 → s.getEntry docId device q = none := by
  have hhead : h = strictContiguousHead (s.sortedSeqs docId device) := by
    simp only [getStrictContiguousHeads] at hh
    split at hh
    · cases hh
    · cases hh; rfl
  obtain ⟨-, hpresent, hstop⟩ :=
    strictContiguousHead_go_spec _ (-1) (s.sortedSeqs_pairwise docId device)
  rw [← strictContiguousHead, ← hhead] at hpresent hstop
  constructor
  · intro q hq
    obtain ⟨e, he⟩ := mem_sortedSeqs.mp (hpresent q (by omega) hq)
    rw [he]
    exact Option.some_ne_none e
  · intro q hq
    by_contra hne
    obtain ⟨e, he⟩ := Option.ne_none_iff_exists'.mp hne
    rcases hstop q (mem_sortedSeqs.mpr ⟨e, he⟩) with h' | h'
    · exact h' hq
    · omega

/-! ## 2. The fold over the soft-skipped gaps -/

/-- A missing seq that a soft-skipped gap record of its device accounts for. -/
def Covered (gaps : DocLogStore) (docId : DocId) (device : DeviceId) (q : Nat) : Prop :=
  ∃ g ∈ gaps.gapState.rows,
    g.docId = docId ∧ g.device = device ∧ g.softSkipped = true ∧ g.firstMissing ≤ q

/-- Every seq at or below the heads is there or covered. -/
def HeadsCovered (rows gaps : DocLogStore) (docId : DocId) (heads : Heads) : Prop :=
  ∀ device h, heads device = some h → ∀ q : Nat, (q : Int) ≤ h →
    rows.getEntry docId device q = none → Covered gaps docId device q

theorem headsCovered_strict (rows gaps : DocLogStore) (docId : DocId) :
    HeadsCovered rows gaps docId (rows.getStrictContiguousHeads docId) := by
  intro device h hh q hq hmissing
  exact absurd hmissing ((getStrictContiguousHeads_spec hh).1 q hq)

/-- What a gap does to the head of a device: it moves over the hole of a gap of
    this device that starts right after it, and otherwise stays. -/
theorem advancePastGap_cases (s : DocLogStore) (docId : DocId) (heads : Heads) (gap : GapRepair)
    (device : DeviceId) :
    s.advancePastGap docId heads gap device = heads device ∨
      device = gap.device ∧ s.sortedSeqs docId gap.device ≠ [] ∧ (gap.firstMissing : Int) =
          (heads gap.device).getD (strictContiguousHead (s.sortedSeqs docId gap.device)) + 1 := by
  rw [advancePastGap]
  rcases hseqs : s.sortedSeqs docId gap.device with _ | ⟨seq, rest⟩
  · exact .inl rfl
  by_cases hnext : (gap.firstMissing : Int) =
      (heads gap.device).getD (strictContiguousHead (seq :: rest)) + 1
  · by_cases hdev : device = gap.device
    · exact .inr ⟨hdev, cons_ne_nil _ _, hnext⟩
    · left
      simp [hnext, hdev]
  · left
    simp [hnext]

/-- One soft-skipped gap: at or above its hole the gap itself covers what is
    missing, below it the old head did. -/
theorem headsCovered_advance {heads : Heads} {gap : GapRepair}
    (hheads : HeadsCovered rows gaps docId heads) (hgap : gap ∈ gaps.gapState.rows)
    (hdoc : gap.docId = docId) (hsoft : gap.softSkipped = true) :
    HeadsCovered rows gaps docId (rows.advancePastGap docId heads gap) := by
  intro device h hh q hq hmissing
  rcases rows.advancePastGap_cases docId heads gap device with hsame | ⟨rfl, hseqs, hnext⟩
  · exact hheads device h (hsame ▸ hh) q hq hmissing
  rcases Nat.lt_or_ge q gap.firstMissing with hlt | hge
  · cases hold : heads gap.device with
    | some h₀ =>
      rw [hold, Option.getD_some] at hnext
      exact hheads gap.device h₀ hold q (by omega) hmissing
    | none =>
      rw [hold, Option.getD_none] at hnext
      have hstrict : rows.getStrictContiguousHeads docId gap.device =
          some (strictContiguousHead (rows.sortedSeqs docId gap.device)) := by
        rw [getStrictContiguousHeads]
        split
        · next hnil => exact absurd hnil hseqs
        · rfl
      exact absurd hmissing ((getStrictContiguousHeads_spec hstrict).1 q (by omega))
  · exact ⟨gap, hgap, hdoc, rfl, hsoft, hge⟩

theorem headsCovered_foldl (pending : List GapRepair)
    (hpending : ∀ g ∈ pending, g ∈ gaps.gapState.rows ∧ g.docId = docId ∧ g.softSkipped = true)
    {heads : Heads} (hheads : HeadsCovered rows gaps docId heads) :
    HeadsCovered rows gaps docId (pending.foldl (rows.advancePastGap docId) heads) := by
  induction pending generalizing heads with
  | nil => exact hheads
  | cons g rest ih =>
    obtain ⟨hmem, hdoc, hsoft⟩ := hpending g mem_cons_self
    exact ih (fun g' hg' => hpending g' (mem_cons_of_mem _ hg'))
      (headsCovered_advance hheads hmem hdoc hsoft)

theorem mem_softGaps {g : GapRepair} :
    g ∈ s.softGaps docId ↔ g ∈ s.gapState.rows ∧ g.docId = docId ∧ g.softSkipped = true := by
  simp [softGaps, mem_insertionSort]

theorem foldl_advance_of_ne (pending : List GapRepair) (hpending : ∀ g ∈ pending, g.device ≠ device)
    (heads : Heads) : pending.foldl (s.advancePastGap docId) heads device = heads device := by
  induction pending generalizing heads with
  | nil => rfl
  | cons g rest ih =>
    rw [foldl_cons, ih (fun g' hg' => hpending g' (mem_cons_of_mem _ hg'))]
    rcases s.advancePastGap_cases docId heads g device with hsame | ⟨hdev, -, -⟩
    · exact hsame
    · exact absurd hdev.symm (hpending g mem_cons_self)

/-! ## 3. The cursor -/

/-- The cursor as IndexedDB computes it: the entries of an earlier moment and
    the gaps of a later one. -/
def syncRequestHeads (rows gaps : DocLogStore) (docId : DocId) : Heads :=
  (gaps.softGaps docId).foldl (rows.advancePastGap docId) (rows.getStrictContiguousHeads docId)

theorem syncRequestHeads_covered (hlater : rows.Carries gaps) {h : Int}
    (hh : syncRequestHeads rows gaps docId device = some h) {q : Nat} (hq : (q : Int) ≤ h)
    (hmissing : gaps.getEntry docId device q = none) : Covered gaps docId device q := by
  have hrows : rows.getEntry docId device q = none := by
    by_contra hne
    obtain ⟨e, he⟩ := Option.ne_none_iff_exists'.mp hne
    obtain ⟨e', he', -⟩ := hlater.jws _ e he
    rw [getEntry, he'] at hmissing
    cases hmissing
  exact headsCovered_foldl (gaps.softGaps docId) (fun g hg => mem_softGaps.mp hg)
    (headsCovered_strict rows gaps docId) device h hh q hq hrows

/-- **Cursor safety**, in every state of the store: whatever is missing at or
    below the cursor lies behind a soft-skipped gap record of its device, and
    without such a record the cursor is the strict contiguous head. -/
theorem getSyncRequestHeads_safe (s : DocLogStore) (docId : DocId) (device : DeviceId) :
    (∀ h, s.getSyncRequestHeads docId device = some h → ∀ q : Nat, (q : Int) ≤ h →
      s.getEntry docId device q = none → Covered s docId device q) ∧
    ((∀ g ∈ s.gapState.rows, g.docId = docId → g.device = device → g.softSkipped = false) →
      s.getSyncRequestHeads docId device = s.getStrictContiguousHeads docId device) := by
  constructor
  · intro h hh q hq hmissing
    exact syncRequestHeads_covered (carries_of_entries_eq rfl) hh hq hmissing
  · intro hnone
    refine foldl_advance_of_ne _ (fun g hg hdev => ?_) _
    obtain ⟨hmem, hdoc, hsoft⟩ := mem_softGaps.mp hg
    rw [hnone g hmem hdoc hdev] at hsoft
    cases hsoft

def holeStore : DocLogStore :=
  let applied (s : DocLogStore) (seq : Nat) : DocLogStore :=
    s.putRemoteApplied { docId := "doc-1", deviceId := "device-1", seq := seq, entryJws := none } 0
  let stored := applied (applied (applied fresh 0) 1) 5
  (stored.recordGapObservation "doc-1" "device-1" 2 5 1 0).markGapSoftSkipped "doc-1" "device-1" 2

/-- The cursor stands at 5, and the missing seq 3 below it is covered. -/
theorem getSyncRequestHeads_safe_hole : holeStore.getSyncRequestHeads "doc-1" "device-1" = some 5 ∧
      Covered holeStore "doc-1" "device-1" 3 :=
  have hcursor : holeStore.getSyncRequestHeads "doc-1" "device-1" = some 5 := by decide
  ⟨hcursor, (getSyncRequestHeads_safe holeStore "doc-1" "device-1").1 5 hcursor 3 (by decide)
    (by decide)⟩

end DocLogStore

end WebOfTrust
