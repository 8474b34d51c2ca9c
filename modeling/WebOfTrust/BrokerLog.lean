/-
  **The broker's log over whole runs, and its pages** (`wot-relay/src/log-store.ts`).

  No transaction of the store changes or removes a row of the log (`run_keeps_row`).  A
  client that asks again and again with the heads of what it has received gets the rows
  above its first heads, each once and in order (`log_append_only_and_paged`).
-/
import WebOfTrust.CatchUpCursor
import WebOfTrust.CursorPaging

namespace WebOfTrust

open DocLogRow List

/-! ## 1. Runs of the store -/

inductive LogStoreCall where
  | appendEntry (p : LogEntryPayload) (entryJws : EntryJws) (now : Nat)
  | registerDevice (did : Did) (deviceId : DeviceId) (now : Nat)
  | revokeDevice (did : Did) (deviceId : DeviceId) (revokedAt : String) (now : Nat)
  | registerSpace (spaceId : DocId) (verificationKey : String) (adminDids : List Did)
      (signerDid : Did) (now : Nat)
  | claimPersonalDocOwner (docId : DocId) (did : Did) (now : Nat)
  | rotateSpace (spaceId : DocId) (newVerificationKey : String) (newGeneration : Nat)
  | addAdmin (spaceId : DocId) (adminDid : Did)
  | removeAdmin (spaceId : DocId) (adminDid : Did)

/-- A page as the client gets it, with the rows it was made from. -/
structure SincePage where
  rows : List DocLogRow
  entries : List EntryJws
  truncated : Bool

def CursorPage.since (page : CursorPage DocLogRow) : SincePage :=
  ⟨page.rows, page.rows.map (·.entryJws), page.more⟩

open BrokerStore

namespace BrokerStore

def step (s : BrokerStore) : LogStoreCall → BrokerStore
  | .appendEntry p entryJws now => (s.appendEntry p entryJws now).2
  | .registerDevice did deviceId now => (s.registerDevice did deviceId now).2
  | .revokeDevice did deviceId revokedAt now => (s.revokeDevice did deviceId revokedAt now).2
  | .registerSpace spaceId verificationKey adminDids signerDid now =>
    (s.registerSpace spaceId verificationKey adminDids signerDid now).2
  | .claimPersonalDocOwner docId did now => (s.claimPersonalDocOwner docId did now).2
  | .rotateSpace spaceId newVerificationKey newGeneration =>
    s.rotateSpace spaceId newVerificationKey newGeneration
  | .addAdmin spaceId adminDid => s.addAdmin spaceId adminDid
  | .removeAdmin spaceId adminDid => s.removeAdmin spaceId adminDid

def run (s : BrokerStore) (calls : List LogStoreCall) : BrokerStore := calls.foldl step s

variable {s : BrokerStore}

theorem step_frame (call : LogStoreCall) :
    (∃ p entryJws now, call = .appendEntry p entryJws now) ∨ (s.step call).docLog = s.docLog ∧
      ((∃ did deviceId now, call = .registerDevice did deviceId now) ∨
        (∃ did deviceId revokedAt now, call = .revokeDevice did deviceId revokedAt now) ∨
        (s.step call).devices = s.devices) := by
  cases call with
  | appendEntry p entryJws now => exact .inl ⟨p, entryJws, now, rfl⟩
  | registerDevice did deviceId now =>
    obtain ⟨devices, hframe⟩ := registerDevice_frame (s := s) did deviceId now
    exact .inr ⟨(congrArg docLog hframe).trans rfl, .inl ⟨did, deviceId, now, rfl⟩⟩
  | revokeDevice did deviceId revokedAt now =>
    obtain ⟨devices, hframe⟩ := revokeDevice_frame (s := s) did deviceId revokedAt now
    exact .inr ⟨(congrArg docLog hframe).trans rfl,
      .inr (.inl ⟨did, deviceId, revokedAt, now, rfl⟩)⟩
  | registerSpace spaceId key adminDids signerDid now =>
    obtain ⟨spaces, admins, owners, hframe⟩ :=
      registerSpace_frame (s := s) spaceId key adminDids signerDid now
    exact .inr ⟨(congrArg docLog hframe).trans rfl,
      .inr (.inr ((congrArg devices hframe).trans rfl))⟩
  | claimPersonalDocOwner docId did now =>
    obtain ⟨owners, hframe⟩ := claimPersonalDocOwner_frame (s := s) docId did now
    exact .inr ⟨(congrArg docLog hframe).trans rfl,
      .inr (.inr ((congrArg devices hframe).trans rfl))⟩
  | rotateSpace | addAdmin | removeAdmin => exact .inr ⟨rfl, .inr (.inr rfl)⟩

theorem step_keeps_row {k : DocId × DeviceId × Nat} {r : DocLogRow} (h : s.docLog.get? k = some r)
    (call : LogStoreCall) : (s.step call).docLog.get? k = some r := by
  rcases step_frame (s := s) call with ⟨p, entryJws, now, rfl⟩ | ⟨hsame, -⟩
  · show (s.appendEntry p entryJws now).2.docLog.get? k = some r
    by_cases haccept : (s.appendEntry p entryJws now).1 = .acceptNewEntry
    · rw [(appendEntry_accept haccept).2.2]
      exact KeyedTable.get?_add_of_some h
    · rw [appendEntry_other haccept]
      exact h
  · rw [hsame]
    exact h

theorem run_keeps_row {k : DocId × DeviceId × Nat} {r : DocLogRow} (h : s.docLog.get? k = some r)
    (calls : List LogStoreCall) : (s.run calls).docLog.get? k = some r :=
  foldlRecOn (motive := fun s => s.docLog.get? k = some r) calls step h
    fun _ hs call _ => step_keeps_row hs call

/-- The relay hands on the entry that it has verified, with its own payload. -/
def Verified (calls : List LogStoreCall) : Prop :=
  ∀ p entryJws now, .appendEntry p entryJws now ∈ calls → entryJws = .compact p

theorem run_rows {P : DocLogRow → Prop} {calls : List LogStoreCall} (h : ∀ r ∈ s.docLog.rows, P r)
    (hcalls : ∀ p entryJws now, .appendEntry p entryJws now ∈ calls →
      P ⟨p.docId, p.deviceId, p.seq, p, entryJws, now⟩) : ∀ r ∈ (s.run calls).docLog.rows, P r := by
  refine foldlRecOn (motive := fun s => ∀ r ∈ s.docLog.rows, P r) calls step h ?_
  intro s h call hmem r hr
  rcases step_frame (s := s) call with ⟨p, jws, now, rfl⟩ | ⟨hsame, -⟩
  · change r ∈ (s.appendEntry p jws now).2.docLog.rows at hr
    by_cases haccept : (s.appendEntry p jws now).1 = .acceptNewEntry
    · rw [(appendEntry_accept haccept).2.2] at hr
      rcases KeyedTable.mem_rows_add hr with hold | rfl
      · exact h r hold
      · exact hcalls p jws now hmem
    · exact h r (appendEntry_other haccept ▸ hr)
  · exact h r (hsame ▸ hr)

theorem run_honest (h : s.Honest) {calls : List LogStoreCall} (hv : Verified calls) :
    (s.run calls).Honest :=
  run_rows h fun p entryJws now hmem => ⟨p, hv p entryJws now hmem, rfl, rfl, rfl⟩

/-! ## 2. The rows above the heads -/

/-- `ORDER BY device_id ASC, seq ASC`. -/
def Before (a b : DocLogRow) : Prop :=
  a.deviceId < b.deviceId ∨ a.deviceId = b.deviceId ∧ a.seq < b.seq

/-- The `rows` of `getSinceWithTruncation`. -/
def docRows (s : BrokerStore) (docId : DocId) : List DocLogRow :=
  (s.docLog.rows.filter fun r => decide (r.docId = docId)).insertionSort
    fun a b => a.deviceId < b.deviceId ∨ a.deviceId = b.deviceId ∧ a.seq ≤ b.seq

/-- The row is above the heads of a sync-request; a device that they lack has none. -/
def AboveHeads (heads : List (DeviceId × Nat)) (r : DocLogRow) : Prop :=
  ∀ head, heads.lookup r.deviceId = some head → head < r.seq

theorem mem_docRows {docId : DocId} {r : DocLogRow} :
    r ∈ s.docRows docId ↔ r ∈ s.docLog.rows ∧ r.docId = docId := by
  simp [docRows]

theorem docRows_pairwise (s : BrokerStore) (docId : DocId) : (s.docRows docId).Pairwise Before := by
  let le (a b : DocLogRow) : Prop :=
    a.deviceId < b.deviceId ∨ a.deviceId = b.deviceId ∧ a.seq ≤ b.seq
  have hlt : ∀ d d' : DeviceId, d ≤ d' → d ≠ d' → d < d' := by
    intro d d' hle hne
    by_contra hnot
    exact hne (String.le_antisymm hle (String.not_lt.mp hnot))
  have htotal : Std.Total le := by
    constructor
    intro a b
    by_cases heq : a.deviceId = b.deviceId
    · rcases Nat.le_total a.seq b.seq with hle | hle
      · exact .inl (.inr ⟨heq, hle⟩)
      · exact .inr (.inr ⟨heq.symm, hle⟩)
    rcases String.le_total a.deviceId b.deviceId with hle | hle
    · exact .inl (.inl (hlt _ _ hle heq))
    · exact .inr (.inl (hlt _ _ hle (Ne.symm heq)))
  have htrans : IsTrans DocLogRow le := by
    constructor
    rintro a b c (hab | ⟨hab, hab'⟩) (hbc | ⟨hbc, hbc'⟩)
    · exact .inl (String.lt_trans hab hbc)
    · exact .inl (hbc ▸ hab)
    · exact .inl (hab ▸ hbc)
    · exact .inr ⟨hab.trans hbc, hab'.trans hbc'⟩
  have hle : (s.docRows docId).Pairwise le := pairwise_insertionSort le _
  have hkey : (s.docRows docId).Pairwise fun a b => a.key ≠ b.key := by
    have hnodup := (s.docLog.keys_nodup.sublist
      ((filter_sublist (p := fun r => decide (r.docId = docId))).map key))
    have hperm := (perm_insertionSort le
      (s.docLog.rows.filter fun r => decide (r.docId = docId))).map key
    exact pairwise_map.mp (hperm.nodup_iff.mpr hnodup)
  refine (hle.and hkey).imp_of_mem ?_
  rintro a b ha hb ⟨hlt | ⟨hdevice, hseq⟩, hne⟩
  · exact .inl hlt
  refine .inr ⟨hdevice, Nat.lt_of_le_of_ne hseq ?_⟩
  intro hsame
  apply hne
  have hdoc : a.docId = b.docId := (mem_docRows.mp ha).2.trans (mem_docRows.mp hb).2.symm
  simp [key, hdoc, hdevice, hsame]

theorem docRows_ascending (s : BrokerStore) (docId : DocId) :
    Ascending deviceId seq (s.docRows docId) := by
  apply (s.docRows_pairwise docId).imp
  rintro a b (hlt | ⟨-, hseq⟩) hdevice
  · rw [hdevice] at hlt
    exact absurd hlt (String.lt_irrefl _)
  · exact hseq

/-- The `missing` of `getSinceWithTruncation`. -/
def missingSince (s : BrokerStore) (docId : DocId) (heads : List (DeviceId × Nat)) :
    List DocLogRow :=
  (s.docRows docId).filter (Cursor.above deviceId seq fun d => heads.lookup d)

theorem mem_missingSince {docId : DocId} {heads : List (DeviceId × Nat)} {r : DocLogRow} :
    r ∈ s.missingSince docId heads ↔ r ∈ s.docLog.rows ∧ r.docId = docId ∧ AboveHeads heads r := by
  rw [missingSince, mem_filter, mem_docRows, and_assoc]
  simp [Cursor.above, AboveHeads, Option.all_eq_true]

/-! ## 3. A client that pages -/

section

variable (heads : List (DeviceId × Nat))
include heads

/-- `heads[deviceId] = seq`. -/
def setHead (deviceId : DeviceId) (seq : Nat) : List (DeviceId × Nat) :=
  (deviceId, seq) :: heads.filter fun h => decide (h.1 ≠ deviceId)

def advanceHeads (delivered : List DocLogRow) : List (DeviceId × Nat) :=
  delivered.foldl (fun heads r => setHead heads r.deviceId r.seq) heads

def readHeads (entries : List EntryJws) : List (DeviceId × Nat) :=
  entries.foldl (fun heads entry =>
    match entry with
    | .compact p => setHead heads p.deviceId p.seq
    | .blank => heads) heads

end

/-- Repeated calls of `getSinceWithTruncation`, until a page is not truncated. -/
def pagesSince (s : BrokerStore) (docId : DocId) (limit : Nat) :
    Nat → List (DeviceId × Nat) → List SincePage
  | 0, _ => []
  | fuel + 1, heads =>
    let delivered := (s.missingSince docId heads).take limit
    let (entries, truncated) := s.getSinceWithTruncation docId heads limit
    ⟨delivered, entries, truncated⟩ ::
      if truncated then pagesSince s docId limit fuel (advanceHeads heads delivered) else []

theorem lookup_setHead (heads : List (DeviceId × Nat)) (deviceId : DeviceId) (seq : Nat) :
    (fun d => (setHead heads deviceId seq).lookup d) =
      Function.update (fun d => heads.lookup d) deviceId (some seq) := by
  funext d
  by_cases hd : d = deviceId
  · subst hd
    rw [Function.update_self]
    exact lookup_cons_self
  have hne : (d == deviceId) = false := beq_eq_false_iff_ne.mpr hd
  rw [Function.update_of_ne hd, setHead, lookup_cons, hne]
  show (heads.filter fun h => decide (h.1 ≠ deviceId)).lookup d = heads.lookup d
  induction heads with
  | nil => rfl
  | cons h rest ih =>
    obtain ⟨device, head⟩ := h
    by_cases hdevice : device = deviceId
    · subst hdevice
      rw [filter_cons_of_neg (by simp), lookup_cons, hne]
      exact ih
    · rw [filter_cons_of_pos (by simpa using hdevice), lookup_cons, lookup_cons, ih]

theorem lookup_advanceHeads (heads : List (DeviceId × Nat)) (delivered : List DocLogRow) :
    (fun d => (advanceHeads heads delivered).lookup d) =
      Cursor.advance deviceId seq (fun d => heads.lookup d) delivered := by
  induction delivered generalizing heads with
  | nil => rfl
  | cons r rest ih =>
    rw [advance_cons, ← lookup_setHead]
    exact ih (setHead heads r.deviceId r.seq)

section

variable (docId : DocId)

theorem pagesSince_succ (limit fuel : Nat) (heads : List (DeviceId × Nat)) :
    s.pagesSince docId limit (fuel + 1) heads = ⟨(s.missingSince docId heads).take limit,
        ((s.missingSince docId heads).take limit).map (·.entryJws),
        decide (limit < (s.missingSince docId heads).length)⟩ ::
      if decide (limit < (s.missingSince docId heads).length) then
        s.pagesSince docId limit fuel (advanceHeads heads ((s.missingSince docId heads).take limit))
      else [] := rfl

theorem pagesSince_eq (limit fuel : Nat) (heads : List (DeviceId × Nat)) :
    s.pagesSince docId limit fuel heads = (cursorPages deviceId seq (s.docRows docId) limit fuel
        fun d => heads.lookup d).map (·.since) := by
  induction fuel generalizing heads with
  | zero => rfl
  | succ fuel ih =>
    have hrest := ih (advanceHeads heads ((s.missingSince docId heads).take limit))
    rw [lookup_advanceHeads] at hrest
    rw [pagesSince_succ, hrest]
    simp only [cursorPages, missingSince]
    by_cases hmore : limit < ((s.docRows docId).filter
        (Cursor.above deviceId seq fun d => heads.lookup d)).length
    · simp only [hmore, decide_true, if_true]
      rfl
    · simp only [hmore, decide_false, Bool.false_eq_true, if_false]
      rfl

/-- **A client that reads the heads off the entries** gets the same, when every row holds the
    entry it is filed under. -/
theorem readHeads_eq (hs : s.Honest) {heads : List (DeviceId × Nat)} {delivered : List DocLogRow}
    (h : ∀ r ∈ delivered, r ∈ s.docLog.rows) :
    readHeads heads (delivered.map (·.entryJws)) = advanceHeads heads delivered := by
  induction delivered generalizing heads with
  | nil => rfl
  | cons r rest ih =>
    obtain ⟨p, hp, -, hdevice, hseq⟩ := hs r (h r mem_cons_self)
    have hread : readHeads heads ((r :: rest).map (·.entryJws)) =
        readHeads (setHead heads r.deviceId r.seq) (rest.map (·.entryJws)) := by
      simp only [readHeads, map_cons, foldl_cons, hp, hdevice, hseq]
    rw [hread]
    exact ih fun r' hr' => h r' (mem_cons_of_mem _ hr')

/-- **The pages of a fixed store** deliver what is above the heads, each row once and in
    order, and all but the last are truncated. -/
theorem pagesSince_exact (heads : List (DeviceId × Nat)) {limit : Nat} (hlimit : 1 ≤ limit) :
    ∃ pages, (∃ enough, ∀ fuel, enough ≤ fuel → s.pagesSince docId limit fuel heads = pages) ∧
      (∀ page ∈ pages, page.entries = page.rows.map (·.entryJws)) ∧
      pages.flatMap (·.rows) = s.missingSince docId heads ∧
      ∃ n, pages.map (·.truncated) = replicate n true ++ [false] := by
  have hasc := s.docRows_ascending docId
  have hlt := Nat.lt_succ_self (s.missingSince docId heads).length
  refine ⟨(cursorPages deviceId seq (s.docRows docId) limit
    ((s.missingSince docId heads).length + 1) fun d => heads.lookup d).map (·.since),
    ⟨(s.missingSince docId heads).length + 1, fun fuel hfuel => ?_⟩, ?_, ?_, ?_⟩
  · rw [pagesSince_eq, pages_fuel hasc hlimit hfuel hlt]
  · intro page hpage
    obtain ⟨page, -, rfl⟩ := mem_map.mp hpage
    rfl
  · rw [flatMap_map]
    exact pages_rows hasc hlimit hlt
  · rw [map_map]
    exact pages_more hasc hlimit hlt

/-! ## 4. The heads of the broker -/

theorem foldl_max_eq_iff {seqs : List Nat} (h : seqs ≠ []) (m : Nat) :
    seqs.foldl max 0 = m ↔ m ∈ seqs ∧ ∀ q ∈ seqs, q ≤ m := by
  obtain ⟨hmem, hle⟩ := max?_eq_some_iff.mp (max?_cons' (x := 0))
  have hupper : ∀ q ∈ seqs, q ≤ seqs.foldl max 0 := fun q hq => hle q (mem_cons_of_mem _ hq)
  have hin : seqs.foldl max 0 ∈ seqs := by
    rcases mem_cons.mp hmem with hzero | hmem
    · -- the maximum is 0: then every element is 0
      obtain ⟨q, hq⟩ := exists_mem_of_ne_nil seqs h
      have hq0 : q = seqs.foldl max 0 := by
        have := hupper q hq
        omega
      exact hq0 ▸ hq
    · exact hmem
  constructor
  · rintro rfl
    exact ⟨hin, hupper⟩
  · rintro ⟨hm, hbound⟩
    exact Nat.le_antisymm (hbound _ hin) (hupper m hm)

/-- **The heads of the broker** are the maxima of its devices. -/
theorem lookup_getHeads (d : DeviceId) (m : Nat) : (s.getHeads docId).lookup d = some m ↔
      (∃ r ∈ s.docLog.rows, r.docId = docId ∧ r.deviceId = d ∧ r.seq = m) ∧
        ∀ r ∈ s.docLog.rows, r.docId = docId → r.deviceId = d → r.seq ≤ m := by
  let seqs (d : DeviceId) : List Nat := ((s.docLog.rows.filter fun r =>
    decide (r.docId = docId)).filter fun r => decide (r.deviceId = d)).map (·.seq)
  have hseqs : ∀ q, q ∈ seqs d ↔
      ∃ r ∈ s.docLog.rows, r.docId = docId ∧ r.deviceId = d ∧ r.seq = q := by
    intro q
    simp only [seqs, mem_map, mem_filter, decide_eq_true_eq, and_assoc]
  have hlookup := lookup_filterMap (((s.docLog.rows.filter fun r =>
    decide (r.docId = docId)).map (·.deviceId)).dedup) (fun d => some ((seqs d).foldl max 0)) d
  simp only [Option.map_some, filterMap_eq_map'] at hlookup
  have hdevice : d ∈ ((s.docLog.rows.filter fun r => decide (r.docId = docId)).map
      (·.deviceId)).dedup ↔ seqs d ≠ [] := by
    rw [Ne, map_eq_nil_iff, filter_eq_nil_iff]
    simp [and_assoc]
  show lookup d (((s.docLog.rows.filter fun r => decide (r.docId = docId)).map
    (·.deviceId)).dedup.map fun d => (d, (seqs d).foldl max 0)) = some m ↔ _
  rw [hlookup]
  by_cases hd : d ∈ ((s.docLog.rows.filter fun r => decide (r.docId = docId)).map
      (·.deviceId)).dedup
  · rw [if_pos hd, Option.some_inj, foldl_max_eq_iff (hdevice.mp hd), hseqs]
    constructor
    · exact fun ⟨hr, hupper⟩ => ⟨hr, fun r hmem hdoc hdev => hupper _ ((hseqs _).mpr
        ⟨r, hmem, hdoc, hdev, rfl⟩)⟩
    · rintro ⟨hr, hupper⟩
      refine ⟨hr, fun q hq => ?_⟩
      obtain ⟨r, hmem, hdoc, hdev, rfl⟩ := (hseqs q).mp hq
      exact hupper r hmem hdoc hdev
  · rw [if_neg hd]
    constructor
    · intro h
      cases h
    · rintro ⟨hr, -⟩
      exact absurd (hdevice.mpr (ne_nil_of_mem ((hseqs m).mpr hr))) hd

end

/-! ## 5. Append-only, and paged exactly -/

/-- **The broker's log.**  In every run of the store a row that is there stays as it is.  A
    client that advances its heads page by page gets, after finitely many pages, all rows
    above its first heads, each once and in the order of device and seq, every page but the
    last being truncated; the heads it advances to are those in the entries.  And the heads
    of the broker are the maxima of its devices. -/
theorem log_append_only_and_paged (calls : List LogStoreCall) :
    (∀ more k r, (fresh.run calls).docLog.get? k = some r →
      (fresh.run (calls ++ more)).docLog.get? k = some r) ∧
    (∀ docId heads limit, 1 ≤ limit → ∃ pages, (∃ enough, ∀ fuel, enough ≤ fuel →
        (fresh.run calls).pagesSince docId limit fuel heads = pages) ∧
      (∀ page ∈ pages, page.entries = page.rows.map (·.entryJws)) ∧
      (∀ r, r ∈ pages.flatMap (·.rows) ↔
        r ∈ (fresh.run calls).docLog.rows ∧ r.docId = docId ∧ AboveHeads heads r) ∧
      (pages.flatMap (·.rows)).Pairwise Before ∧
      (∃ n, pages.map (·.truncated) = replicate n true ++ [false]) ∧
      (Verified calls → ∀ page ∈ pages, ∀ heads',
        readHeads heads' page.entries = advanceHeads heads' page.rows)) ∧
    ∀ docId d m, ((fresh.run calls).getHeads docId).lookup d = some m ↔
      (∃ r ∈ (fresh.run calls).docLog.rows, r.docId = docId ∧ r.deviceId = d ∧ r.seq = m) ∧
        ∀ r ∈ (fresh.run calls).docLog.rows, r.docId = docId → r.deviceId = d → r.seq ≤ m := by
  refine ⟨fun more k r h => ?_, fun docId heads limit hlimit => ?_, fun docId d m =>
    lookup_getHeads docId d m⟩
  · rw [run, foldl_append]
    exact run_keeps_row h more
  obtain ⟨pages, hpages, hentries, hrows, hmore⟩ :=
    (fresh.run calls).pagesSince_exact docId heads hlimit
  have hmem : ∀ r, r ∈ pages.flatMap (·.rows) ↔
      r ∈ (fresh.run calls).docLog.rows ∧ r.docId = docId ∧ AboveHeads heads r := by
    intro r
    rw [hrows]
    exact mem_missingSince
  refine ⟨pages, hpages, hentries, hmem, ?_, hmore, ?_⟩
  · rw [hrows]
    exact ((fresh.run calls).docRows_pairwise docId).filter _
  intro hv page hpage heads'
  rw [hentries page hpage]
  apply readHeads_eq (run_honest honest_fresh hv)
  exact fun r hr => ((hmem r).mp (mem_flatMap.mpr ⟨page, hpage, hr⟩)).1

def threeAppends : List LogStoreCall :=
  [("device-1", 0), ("device-2", 0), ("device-1", 1)].map fun (deviceId, seq) =>
    let p : LogEntryPayload := ⟨seq, deviceId, "doc", "did:a#0", 0, ⟨[], [], []⟩, 0⟩
    .appendEntry p (.compact p) 0

theorem log_paged_three :
    (fresh.run threeAppends).docLog.rows.length = 3 ∧ ∃ pages, (∃ enough, ∀ fuel, enough ≤ fuel →
          (fresh.run threeAppends).pagesSince "doc" 2 fuel [] = pages) ∧
        ∃ n, pages.map (·.truncated) = replicate n true ++ [false] := by
  obtain ⟨pages, hpages, -, -, -, hmore, -⟩ :=
    (log_append_only_and_paged threeAppends).2.1 "doc" [] 2 (by decide)
  exact ⟨by decide, pages, hpages, hmore⟩

end BrokerStore

end WebOfTrust
