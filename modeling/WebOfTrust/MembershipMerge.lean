/-
  **What the members of a space depend on** (`protocol/sync/membership-events.ts`,
  `application/spaces/admission.ts`).

  Peers see the events of a space in different orders.  The winner of a DID is a maximum:
  by generation, and within one the removal is the greater.  The active events above every
  removal of a DID are the current run of its membership, and the admission is where this
  run begins.  Both are read from the keys of the events alone.
-/
import WebOfTrust.ConfirmedRemovals
import Mathlib.Data.List.Dedup
import Mathlib.Data.List.MinMax
import Mathlib.Data.Prod.Lex
import Mathlib.Order.Bounds.Basic

namespace WebOfTrust

open MembershipEvent List

/-! ## 1. The winner is a maximum -/

def MembershipEventKey.rank (k : MembershipEventKey) : Nat ×ₗ Bool :=
  toLex (k.sinceGeneration, decide (k.status = .removed))

theorem rank_le_rank {k k' : MembershipEventKey} :
    k.rank ≤ k'.rank ↔ k.sinceGeneration < k'.sinceGeneration ∨
      k.sinceGeneration = k'.sinceGeneration ∧ (k.status = .removed → k'.status = .removed) := by
  rw [MembershipEventKey.rank, MembershipEventKey.rank, Prod.Lex.toLex_le_toLex]
  simp [Bool.le_iff_imp]

theorem membershipEventWins_iff {candidate incumbent : MembershipEvent} :
    membershipEventWins candidate incumbent = true ↔ incumbent.key.rank < candidate.key.rank := by
  rw [← not_le, rank_le_rank, membershipEventWins]
  rcases lt_trichotomy candidate.sinceGeneration incumbent.sinceGeneration with h | h | h
  · simp [key, h, h.ne, h.le]
  · cases hc : candidate.status <;> cases hi : incumbent.status <;> simp [key, h, hc, hi]
  · simp [key, h, h.ne', h.le]

theorem resolveMembershipWinner_eq_argmax (events : List MembershipEvent) (did : Did) :
    resolveMembershipWinner events did =
      (events.filter fun e => decide (e.did = did)).argmax fun e => e.key.rank := by
  rw [resolveMembershipWinner, argmax, foldl_filter]
  congr 1
  funext winner event
  by_cases hdid : event.did = did
  · cases winner with
    | none => simp [hdid, membershipChallenge, argAux]
    | some incumbent =>
      simp [hdid, membershipChallenge, argAux, membershipEventWins_iff]
  · simp [hdid]

section

variable {events : List MembershipEvent} {did : Did} {winner : MembershipEvent}

section

variable (h : resolveMembershipWinner events did = some winner)
include h

theorem did_of_winner : winner.did = did := by
  rw [resolveMembershipWinner_eq_argmax] at h
  simpa using (mem_filter.mp (argmax_mem h)).2

theorem mem_of_winner : winner ∈ events := by
  rw [resolveMembershipWinner_eq_argmax] at h
  exact mem_of_mem_filter (argmax_mem h)

theorem le_of_winner {e : MembershipEvent} (he : e ∈ events) (hdid : e.did = did) :
    e.key.rank ≤ winner.key.rank := by
  rw [resolveMembershipWinner_eq_argmax] at h
  have hmem : e ∈ events.filter fun e => decide (e.did = did) :=
    mem_filter.mpr ⟨he, decide_eq_true hdid⟩
  exact le_of_mem_argmax (f := fun e : MembershipEvent => e.key.rank) hmem h

end

theorem winner_eq_none_iff :
    resolveMembershipWinner events did = none ↔ ∀ e ∈ events, e.did ≠ did := by
  rw [resolveMembershipWinner_eq_argmax, argmax_eq_none, filter_eq_nil_iff]
  simp

theorem key_eq_of_rank_eq {k k' : MembershipEventKey} (hdid : k.did = k'.did)
    (h : k.rank = k'.rank) : k = k' := by
  have hle := rank_le_rank.mp h.le
  have hge := rank_le_rank.mp h.ge
  obtain ⟨did, generation, status⟩ := k
  obtain ⟨did', generation', status'⟩ := k'
  cases status <;> cases status' <;> grind

theorem winner_key_eq_some_iff {k : MembershipEventKey} :
    (resolveMembershipWinner events did).map (·.key) = some k ↔
      k ∈ events.map (·.key) ∧ k.did = did ∧
        ∀ k' ∈ events.map (·.key), k'.did = did → k'.rank ≤ k.rank := by
  rw [Option.map_eq_some_iff]
  constructor
  · rintro ⟨winner, hwinner, rfl⟩
    refine ⟨mem_map_of_mem (mem_of_winner hwinner), did_of_winner hwinner, ?_⟩
    intro k' hk' hdid
    obtain ⟨e, he, rfl⟩ := mem_map.mp hk'
    exact le_of_winner hwinner he hdid
  · rintro ⟨hk, hdid, hmax⟩
    obtain ⟨e, he, rfl⟩ := mem_map.mp hk
    rcases hwinner : resolveMembershipWinner events did with _ | winner
    · exact absurd hdid (winner_eq_none_iff.mp hwinner e he)
    refine ⟨winner, rfl, key_eq_of_rank_eq ((did_of_winner hwinner).trans hdid.symm) ?_⟩
    have hle := hmax winner.key (mem_map_of_mem (mem_of_winner hwinner)) (did_of_winner hwinner)
    exact le_antisymm hle (le_of_winner hwinner he hdid)

end

/-! ## 2. Event sets with the same keys -/

/-- The events have been seen in another order, some of them twice, or with another
    `addedBy`. -/
def SameKeys (events events' : List MembershipEvent) : Prop :=
  ∀ k, k ∈ events.map (·.key) ↔ k ∈ events'.map (·.key)

variable {events events' : List MembershipEvent} {n : Nat} {did : Did}

theorem SameKeys.of_mem_iff (h : ∀ e, e ∈ events ↔ e ∈ events') : SameKeys events events' := by
  intro k
  simp only [mem_map, h]

theorem SameKeys.winner_key (h : SameKeys events events') (did : Did) :
    (resolveMembershipWinner events did).map (·.key) =
      (resolveMembershipWinner events' did).map (·.key) := by
  apply Option.ext
  intro k
  rw [winner_key_eq_some_iff, winner_key_eq_some_iff, h k]
  simp only [h _]

theorem winner_congr (h : ∀ e, e ∈ events ↔ e ∈ events')
    (hkeys : ∀ e ∈ events, ∀ e' ∈ events, e.key = e'.key → e = e') (did : Did) :
    resolveMembershipWinner events did = resolveMembershipWinner events' did := by
  have hkey := (SameKeys.of_mem_iff h).winner_key did
  rcases hw : resolveMembershipWinner events did with _ | winner
  · rw [hw] at hkey
    exact (Option.map_eq_none_iff.mp hkey.symm).symm
  rw [hw] at hkey
  obtain ⟨winner', hw', hsame⟩ := Option.map_eq_some_iff.mp hkey.symm
  have hmem' := (h winner').mpr (mem_of_winner hw')
  rw [hw', hkeys winner' hmem' winner (mem_of_winner hw) hsame]

/-! ## 3. The admission of a member -/

structure SpaceAdmission where
  keyGeneration : Nat
deriving DecidableEq

def compareAdmission (a b : SpaceAdmission) : Int :=
  if a.keyGeneration = b.keyGeneration then 0
  else if a.keyGeneration < b.keyGeneration then -1
  else 1

/-- The first loop of `resolveAdmission`. -/
def lastRemoved (own : List MembershipEvent) : Int :=
  own.foldl (fun last event =>
      if event.status = .removed ∧ last < event.sinceGeneration then event.sinceGeneration
      else last)
    (-1)

/-- The second loop of `resolveAdmission`. -/
def admittedSince (own : List MembershipEvent) (last : Int) (generation : Nat) : Nat :=
  own.foldl (fun admitted event =>
      if event.status = .active ∧ last < event.sinceGeneration ∧
          event.sinceGeneration < admitted then event.sinceGeneration
      else admitted)
    generation

def resolveAdmission (events : List MembershipEvent) (did : Did) : Option SpaceAdmission :=
  let own := events.filter fun e => decide (e.did = did)
  match resolveMembershipWinner own did with
  | none => none
  | some winner =>
    if winner.status = .active then
      some ⟨admittedSince own (lastRemoved own) winner.sinceGeneration⟩
    else none

theorem compareAdmission_eq_neg_one_iff {a b : SpaceAdmission} :
    compareAdmission a b = -1 ↔ a.keyGeneration < b.keyGeneration := by
  rw [compareAdmission]
  split_ifs <;> simp <;> omega

theorem lastRemoved_lt_iff {own : List MembershipEvent} :
    lastRemoved own < n ↔ ∀ e ∈ own, e.status = .removed → e.sinceGeneration < n := by
  have hfold : ∀ (own : List MembershipEvent) (last : Int), own.foldl (fun last event =>
        if event.status = .removed ∧ last < event.sinceGeneration then
          (event.sinceGeneration : Int) else last) last < n ↔
      last < n ∧ ∀ e ∈ own, e.status = .removed → e.sinceGeneration < n := by
    intro own
    induction own with
    | nil => simp
    | cons event rest ih =>
      intro last
      rw [foldl_cons, ih, forall_mem_cons, ← and_assoc]
      apply and_congr_left'
      split_ifs with h
      · obtain ⟨hremoved, hlt⟩ := h
        simp only [hremoved, true_imp_iff]
        omega
      constructor
      · intro hlast
        refine ⟨hlast, fun hremoved => ?_⟩
        have := not_and.mp h hremoved
        omega
      · exact And.left
  rw [lastRemoved, hfold]
  constructor
  · exact And.right
  · exact fun h => ⟨by omega, h⟩

theorem le_admittedSince_iff {own : List MembershipEvent} {last : Int} {generation : Nat} :
    n ≤ admittedSince own last generation ↔ n ≤ generation ∧
      ∀ e ∈ own, e.status = .active → last < e.sinceGeneration → n ≤ e.sinceGeneration := by
  induction own generalizing generation with
  | nil => simp [admittedSince]
  | cons event rest ih =>
    rw [admittedSince, foldl_cons]
    change n ≤ admittedSince rest last _ ↔ _
    rw [ih, forall_mem_cons]
    refine Iff.trans (and_congr_left' ?_) and_assoc
    split_ifs with h
    · obtain ⟨hactive, hlast, hlt⟩ := h
      simp only [hactive, hlast, true_imp_iff]
      omega
    constructor
    · intro hn
      refine ⟨hn, fun hactive hlast => ?_⟩
      have hle : ¬ event.sinceGeneration < generation := fun hlt => h ⟨hactive, hlast, hlt⟩
      omega
    · exact And.left

/-- The generations of the run that a DID is in: it is active there, above all its
    removals. -/
def ActiveRun (events : List MembershipEvent) (did : Did) : Set Nat :=
  {n | (⟨did, n, .active⟩ : MembershipEventKey) ∈ events.map (·.key) ∧
    ∀ r, (⟨did, r, .removed⟩ : MembershipEventKey) ∈ events.map (·.key) → r < n}

theorem SameKeys.activeRun (h : SameKeys events events') (did : Did) :
    ActiveRun events did = ActiveRun events' did := by
  ext n
  simp only [ActiveRun, Set.mem_ofPred_eq, h _]

theorem mem_map_key_iff {status : MembershipStatus} :
    (⟨did, n, status⟩ : MembershipEventKey) ∈ events.map (·.key) ↔
      ∃ e ∈ events, e.did = did ∧ e.sinceGeneration = n ∧ e.status = status := by
  rw [mem_map]
  simp only [key, MembershipEventKey.mk.injEq]

theorem winner_mem_activeRun {winner : MembershipEvent}
    (hwinner : resolveMembershipWinner events did = some winner) (hactive : winner.status = .active) :
    winner.sinceGeneration ∈ ActiveRun events did := by
  refine ⟨mem_map_key_iff.mpr
    ⟨winner, mem_of_winner hwinner, did_of_winner hwinner, rfl, hactive⟩, ?_⟩
  intro r hr
  obtain ⟨e, he, hdid, rfl, hremoved⟩ := mem_map_key_iff.mp hr
  rcases rank_le_rank.mp (le_of_winner hwinner he hdid) with hlt | ⟨heq, himp⟩
  · exact hlt
  have hw : winner.status = .removed := himp hremoved
  rw [hactive] at hw
  cases hw

theorem winner_of_mem_activeRun (hn : n ∈ ActiveRun events did) :
    ∃ winner, resolveMembershipWinner events did = some winner ∧ winner.status = .active := by
  obtain ⟨hmem, habove⟩ := hn
  obtain ⟨e, he, hdid, rfl, hactive⟩ := mem_map_key_iff.mp hmem
  rcases hwinner : resolveMembershipWinner events did with _ | winner
  · exact absurd hdid (winner_eq_none_iff.mp hwinner e he)
  refine ⟨winner, rfl, ?_⟩
  cases hstatus : winner.status with
  | active => rfl
  | removed =>
    have hlt := habove winner.sinceGeneration (mem_map_key_iff.mpr
      ⟨winner, mem_of_winner hwinner, did_of_winner hwinner, rfl, hstatus⟩)
    rcases rank_le_rank.mp (le_of_winner hwinner he hdid) with hle | ⟨heq, -⟩
    · exact absurd hle hlt.asymm
    · exact absurd heq hlt.ne'

theorem resolveMembershipWinner_filter (events : List MembershipEvent) (did : Did) :
    resolveMembershipWinner (events.filter fun e => decide (e.did = did)) did =
      resolveMembershipWinner events did := by
  rw [resolveMembershipWinner_eq_argmax, resolveMembershipWinner_eq_argmax, filter_filter]
  simp only [Bool.and_self]

theorem mem_activeRun_iff : n ∈ ActiveRun events did ↔
      ∃ e ∈ events.filter (fun e => decide (e.did = did)), e.status = .active ∧
        lastRemoved (events.filter fun e => decide (e.did = did)) < e.sinceGeneration ∧
        e.sinceGeneration = n := by
  rw [ActiveRun, Set.mem_ofPred_eq, mem_map_key_iff]
  simp only [mem_map_key_iff, lastRemoved_lt_iff, mem_filter, decide_eq_true_eq]
  constructor
  · rintro ⟨⟨e, he, hdid, rfl, hactive⟩, habove⟩
    exact ⟨e, ⟨he, hdid⟩, hactive,
      fun e' he' hremoved => habove _ ⟨e', he'.1, he'.2, rfl, hremoved⟩, rfl⟩
  · rintro ⟨e, ⟨he, hdid⟩, hactive, habove, rfl⟩
    refine ⟨⟨e, he, hdid, rfl, hactive⟩, ?_⟩
    rintro r ⟨e', he', hdid', rfl, hremoved⟩
    exact habove e' ⟨he', hdid'⟩ hremoved

theorem isLeast_admittedSince (hn : n ∈ ActiveRun events did) : IsLeast (ActiveRun events did)
      (admittedSince (events.filter fun e => decide (e.did = did))
        (lastRemoved (events.filter fun e => decide (e.did = did))) n) := by
  generalize hown : events.filter (fun e => decide (e.did = did)) = own
  have hle : ∀ m, m ≤ admittedSince own (lastRemoved own) n ↔ _ := fun m =>
    le_admittedSince_iff
  constructor
  · by_contra hnot
    -- Otherwise the loop would stop one generation above.
    have habove := (hle (admittedSince own (lastRemoved own) n + 1)).mpr ?_
    · omega
    obtain ⟨hfrom, hall⟩ := (hle _).mp (le_refl _)
    refine ⟨Nat.lt_of_le_of_ne hfrom ?_, ?_⟩
    · intro heq
      rw [heq] at hnot
      exact hnot hn
    · intro e he hactive hlast
      refine Nat.lt_of_le_of_ne (hall e he hactive hlast) ?_
      intro heq
      exact hnot (mem_activeRun_iff.mpr ⟨e, hown ▸ he, hactive, hown ▸ hlast, heq.symm⟩)
  · intro m hm
    obtain ⟨e, he, hactive, hlast, rfl⟩ := mem_activeRun_iff.mp hm
    rw [hown] at he hlast
    exact ((hle _).mp (le_refl _)).2 e he hactive hlast

/-- **What the two loops compute**: the admission is the beginning of the run. -/
theorem resolveAdmission_eq_some_iff {admission : SpaceAdmission} :
    resolveAdmission events did = some admission ↔
      IsLeast (ActiveRun events did) admission.keyGeneration := by
  rw [resolveAdmission]
  simp only [resolveMembershipWinner_filter]
  constructor
  · intro h
    split at h
    · cases h
    next winner hwinner =>
    split_ifs at h with hactive
    obtain rfl := Option.some.inj h
    exact isLeast_admittedSince (winner_mem_activeRun hwinner hactive)
  · intro h
    obtain ⟨winner, hwinner, hactive⟩ := winner_of_mem_activeRun h.1
    have hleast := isLeast_admittedSince (winner_mem_activeRun hwinner hactive)
    rw [hwinner]
    simp only [hactive, if_true, Option.some.injEq]
    rw [hleast.unique h]

theorem SameKeys.resolveAdmission (h : SameKeys events events') (did : Did) :
    resolveAdmission events did = resolveAdmission events' did := by
  apply Option.ext
  intro admission
  rw [resolveAdmission_eq_some_iff, resolveAdmission_eq_some_iff, h.activeRun did]

theorem isSome_resolveAdmission_iff :
    (resolveAdmission events did).isSome ↔ (ActiveRun events did).Nonempty := by
  rw [Option.isSome_iff_exists]
  simp only [resolveAdmission_eq_some_iff]
  constructor
  · rintro ⟨admission, h⟩
    exact h.nonempty
  · rintro ⟨n, hn⟩
    exact ⟨⟨_⟩, isLeast_admittedSince hn⟩

/-! ## 4. One result for all peers -/

theorem membershipStatus_eq_active_iff : membershipStatus events did = some .active ↔
      ∃ winner, resolveMembershipWinner events did = some winner ∧ winner.status = .active := by
  rw [membershipStatus, Option.map_eq_some_iff]

theorem mem_resolveActiveMembers_iff_run :
    did ∈ resolveActiveMembers events ↔ (ActiveRun events did).Nonempty := by
  rw [mem_resolveActiveMembers, membershipStatus_eq_active_iff]
  constructor
  · rintro ⟨winner, hwinner, hactive⟩
    exact ⟨_, winner_mem_activeRun hwinner hactive⟩
  · rintro ⟨n, hn⟩
    exact winner_of_mem_activeRun hn

theorem sortDids_congr {dids dids' : List Did} (hnodup : dids.Nodup) (hnodup' : dids'.Nodup)
    (h : ∀ did, did ∈ dids ↔ did ∈ dids') : sortDids dids = sortDids dids' := by
  have hperm : dids.Perm dids' := (perm_ext_iff_of_nodup hnodup hnodup').mpr h
  have hsorted : (sortDids dids).Perm (sortDids dids') :=
    (perm_insertionSort _ dids).trans (hperm.trans (perm_insertionSort _ dids').symm)
  let below : Did → Did → Prop := fun did did' => utf16 did ≤ utf16 did'
  have : Std.Total below := ⟨fun did did' => le_total (utf16 did) (utf16 did')⟩
  have : IsTrans Did below := ⟨fun _ _ _ hle hle' => hle.trans hle'⟩
  exact hsorted.eq_of_pairwise (fun _ _ _ _ hle hle' => utf16_injective (le_antisymm hle hle'))
    (pairwise_insertionSort below dids) (pairwise_insertionSort below dids')

theorem SameKeys.resolveActiveMembers (h : SameKeys events events') :
    resolveActiveMembers events = resolveActiveMembers events' := by
  have hnodup : ∀ events : List MembershipEvent,
      (((membershipWinners events).rows.filter fun e => decide (e.status = .active)).map
        (·.did)).Nodup := fun events =>
    ((filter_sublist).map _).nodup (membershipWinners events).keys_nodup
  have hmem : ∀ did, did ∈ WebOfTrust.resolveActiveMembers events ↔
      did ∈ WebOfTrust.resolveActiveMembers events' := by
    intro did
    rw [mem_resolveActiveMembers_iff_run, mem_resolveActiveMembers_iff_run, h.activeRun did]
  simp only [WebOfTrust.resolveActiveMembers, mem_sortDids] at hmem
  exact sortDids_congr (hnodup events) (hnodup events') hmem

theorem resolveActiveAdmins_congr {entries entries' activeMembers : List Did}
    (h : ∀ did, did ∈ entries ↔ did ∈ entries') :
    resolveActiveAdmins entries activeMembers = resolveActiveAdmins entries' activeMembers := by
  have hadmins : resolveAdmins entries = resolveAdmins entries' := by
    refine sortDids_congr (nodup_dedup _) (nodup_dedup _) ?_
    intro did
    rw [mem_dedup, mem_dedup, h did]
  rw [resolveActiveAdmins, resolveActiveAdmins, hadmins]

theorem mem_resolveActiveAdmins {entries activeMembers : List Did} :
    did ∈ resolveActiveAdmins entries activeMembers ↔ did ∈ entries ∧ did ∈ activeMembers := by
  simp [resolveActiveAdmins, resolveAdmins]

/-- **Membership is a merge**: two peers that have seen the same events, in whatever order and
    however often, read the same members, admins and admissions and the same DID, generation
    and status of each winner, and the same winner where every key has one event.  The readings
    agree with one another, and an active admin is an active member. -/
theorem membership_merge (events events' : List MembershipEvent) (entries entries' : List Did)
    (h : ∀ e, e ∈ events ↔ e ∈ events') (hentries : ∀ did, did ∈ entries ↔ did ∈ entries') :
    resolveActiveMembers events = resolveActiveMembers events' ∧
    resolveActiveAdmins entries (resolveActiveMembers events) =
      resolveActiveAdmins entries' (resolveActiveMembers events') ∧
    (∀ did ∈ resolveActiveAdmins entries (resolveActiveMembers events),
      did ∈ resolveActiveMembers events) ∧
    ((∀ e ∈ events, ∀ e' ∈ events, e.key = e'.key → e = e') →
      ∀ did, resolveMembershipWinner events did = resolveMembershipWinner events' did) ∧
    ∀ did, (resolveMembershipWinner events did).map (·.key) =
        (resolveMembershipWinner events' did).map (·.key) ∧
      resolveAdmission events did = resolveAdmission events' did ∧
      (did ∈ resolveActiveMembers events ↔
        ∃ winner, resolveMembershipWinner events did = some winner ∧ winner.status = .active) ∧
      (did ∈ resolveActiveMembers events ↔ (resolveAdmission events did).isSome) := by
  have hkeys := SameKeys.of_mem_iff h
  refine ⟨hkeys.resolveActiveMembers, ?_, ?_, winner_congr h, ?_⟩
  · rw [hkeys.resolveActiveMembers]
    exact resolveActiveAdmins_congr hentries
  · intro did hdid
    exact (mem_resolveActiveAdmins.mp hdid).2
  intro did
  refine ⟨hkeys.winner_key did, hkeys.resolveAdmission did, ?_, ?_⟩
  · rw [mem_resolveActiveMembers, membershipStatus_eq_active_iff]
  · rw [mem_resolveActiveMembers_iff_run, isSome_resolveAdmission_iff]

/-- A member who was removed and came back, seen by a peer that got the removal last. -/
theorem membership_merge_reversed :
    resolveActiveMembers [⟨"did:a", .active, 0, none⟩, ⟨"did:a", .active, 2, none⟩,
      ⟨"did:a", .removed, 1, none⟩] =
    resolveActiveMembers [⟨"did:a", .removed, 1, none⟩, ⟨"did:a", .active, 2, none⟩,
      ⟨"did:a", .active, 2, none⟩, ⟨"did:a", .active, 0, none⟩] :=
  (membership_merge _ _ [] [] (by simp; tauto) (by simp)).1

/-- Who has added the member is informative only: the winner carries what has come first. -/
theorem winner_addedBy_differs :
    ¬ ∀ (events events' : List MembershipEvent) (did : Did), events.Perm events' →
      resolveMembershipWinner events did = resolveMembershipWinner events' did := by
  intro h
  have hswap := h [⟨"did:a", .active, 0, some "did:b"⟩, ⟨"did:a", .active, 0, some "did:c"⟩]
    [⟨"did:a", .active, 0, some "did:c"⟩, ⟨"did:a", .active, 0, some "did:b"⟩] "did:a"
    (Perm.swap _ _ _)
  revert hswap
  decide

/-! ## 5. Stability of the admission -/

theorem isLeast_activeRun_of_active {further : List MembershipEvent}
    (h : IsLeast (ActiveRun events did) n) (hevents' : ∀ e, e ∈ events' ↔ e ∈ events ∨ e ∈ further)
    (hfurther : ∀ e ∈ further, e.did = did → e.status = .active ∧ n < e.sinceGeneration) :
    IsLeast (ActiveRun events' did) n := by
  obtain ⟨⟨hmem, habove⟩, hleast⟩ := h
  simp only [mem_map_key_iff] at hmem habove
  obtain ⟨e, he, hdid, hn, hactive⟩ := hmem
  constructor
  · refine ⟨mem_map_key_iff.mpr ⟨e, (hevents' e).mpr (.inl he), hdid, hn, hactive⟩, ?_⟩
    intro r hr
    obtain ⟨removal, hremoval, hdid', hr', hremoved⟩ := mem_map_key_iff.mp hr
    rcases (hevents' removal).mp hremoval with hold | hnew
    · exact habove r ⟨removal, hold, hdid', hr', hremoved⟩
    · rw [(hfurther removal hnew hdid').1] at hremoved
      cases hremoved
  · rintro m ⟨hm, habove'⟩
    obtain ⟨e', he', hdid', rfl, hactive'⟩ := mem_map_key_iff.mp hm
    rcases (hevents' e').mp he' with hold | hnew
    · refine hleast ⟨mem_map_key_iff.mpr ⟨e', hold, hdid', rfl, hactive'⟩, ?_⟩
      intro r hr
      obtain ⟨removal, hremoval, hrest⟩ := mem_map_key_iff.mp hr
      exact habove' r (mem_map_key_iff.mpr ⟨removal, (hevents' _).mpr (.inl hremoval), hrest⟩)
    · exact (hfurther e' hnew hdid').2.le

/-- A removal at or above the beginning of the run ends it: the next run begins above. -/
theorem exists_isLeast_activeRun_of_readmission (h : IsLeast (ActiveRun events did) n)
    {removal readmission : MembershipEvent} (hremoval : removal.did = did)
    (hremoved : removal.status = .removed) (hbelow : n ≤ removal.sinceGeneration)
    (hreadmission : readmission.did = did) (hactive : readmission.status = .active)
    (habove : removal.sinceGeneration < readmission.sinceGeneration)
    (hevents' : ∀ e, e ∈ events' ↔ e ∈ events ∨ e = removal ∨ e = readmission) :
    ∃ m, IsLeast (ActiveRun events' did) m ∧ n < m := by
  have hrun : readmission.sinceGeneration ∈ ActiveRun events' did := by
    refine ⟨mem_map_key_iff.mpr ⟨readmission, (hevents' _).mpr (.inr (.inr rfl)),
      hreadmission, rfl, hactive⟩, ?_⟩
    intro r hr
    obtain ⟨e, he, hdid, rfl, hstatus⟩ := mem_map_key_iff.mp hr
    rcases (hevents' e).mp he with hold | rfl | rfl
    · have hlt := h.1.2 _ (mem_map_key_iff.mpr ⟨e, hold, hdid, rfl, hstatus⟩)
      omega
    · exact habove
    · rw [hactive] at hstatus
      cases hstatus
  refine ⟨_, isLeast_admittedSince hrun, ?_⟩
  have hr := (isLeast_admittedSince hrun).1.2 removal.sinceGeneration (mem_map_key_iff.mpr
    ⟨removal, (hevents' _).mpr (.inr (.inl rfl)), hremoval, rfl, hremoved⟩)
  omega

/-- **Admissions are stable**: the admission of a member lies above every removal, further
    active events above it do not move it, and a removal from there on followed by a
    re-admission makes it grow. -/
theorem admission_stable (events : List MembershipEvent) (did : Did)
    (h : did ∈ resolveActiveMembers events) :
    ∃ admission, resolveAdmission events did = some admission ∧
      (∀ e ∈ events, e.did = did → e.status = .removed →
        e.sinceGeneration < admission.keyGeneration) ∧
      (∀ events' further : List MembershipEvent, (∀ e, e ∈ events' ↔ e ∈ events ∨ e ∈ further) →
        (∀ e ∈ further, e.did = did →
          e.status = .active ∧ admission.keyGeneration < e.sinceGeneration) →
        resolveAdmission events' did = some admission) ∧
      ∀ (events' : List MembershipEvent) (removal readmission : MembershipEvent),
        (∀ e, e ∈ events' ↔ e ∈ events ∨ e = removal ∨ e = readmission) →
        removal.did = did → removal.status = .removed →
        admission.keyGeneration ≤ removal.sinceGeneration →
        readmission.did = did → readmission.status = .active →
        removal.sinceGeneration < readmission.sinceGeneration →
        ∃ admission', resolveAdmission events' did = some admission' ∧
          admission.keyGeneration < admission'.keyGeneration ∧
          compareAdmission admission admission' = -1 := by
  rw [mem_resolveActiveMembers_iff_run, ← isSome_resolveAdmission_iff,
    Option.isSome_iff_exists] at h
  obtain ⟨admission, hadmission⟩ := h
  have hleast := resolveAdmission_eq_some_iff.mp hadmission
  refine ⟨admission, hadmission, ?_, ?_, ?_⟩
  · intro e he hdid hremoved
    exact hleast.1.2 _ (mem_map_key_iff.mpr ⟨e, he, hdid, rfl, hremoved⟩)
  · intro events' further hevents' hfurther
    exact resolveAdmission_eq_some_iff.mpr (isLeast_activeRun_of_active hleast hevents' hfurther)
  intro events' removal readmission hevents' hremoval hremoved hbelow hreadmission hactive habove
  obtain ⟨m, hm, hlt⟩ := exists_isLeast_activeRun_of_readmission hleast hremoval hremoved
    hbelow hreadmission hactive habove hevents'
  exact ⟨⟨m⟩, resolveAdmission_eq_some_iff.mpr hm, hlt, compareAdmission_eq_neg_one_iff.mpr hlt⟩

/-- A member who has come back once is removed and comes back again. -/
theorem admission_stable_twice :
    ∃ admission, resolveAdmission [⟨"did:a", .active, 0, none⟩, ⟨"did:a", .removed, 1, none⟩,
      ⟨"did:a", .active, 2, none⟩] "did:a" = some admission ∧
      resolveAdmission [⟨"did:a", .active, 0, none⟩, ⟨"did:a", .removed, 1, none⟩,
        ⟨"did:a", .active, 2, none⟩, ⟨"did:a", .active, 5, none⟩] "did:a" = some admission ∧
      ∃ admission', resolveAdmission [⟨"did:a", .active, 0, none⟩,
        ⟨"did:a", .removed, 1, none⟩, ⟨"did:a", .active, 2, none⟩,
        ⟨"did:a", .removed, 2, none⟩, ⟨"did:a", .active, 3, none⟩] "did:a" = some admission' ∧
        admission.keyGeneration < admission'.keyGeneration ∧
        compareAdmission admission admission' = -1 := by
  obtain ⟨admission, hadmission, -, hfurther, hagain⟩ := admission_stable
    [⟨"did:a", .active, 0, none⟩, ⟨"did:a", .removed, 1, none⟩, ⟨"did:a", .active, 2, none⟩]
    "did:a" (by decide)
  obtain rfl : admission = ⟨2⟩ := by
    have heq : resolveAdmission [⟨"did:a", .active, 0, none⟩, ⟨"did:a", .removed, 1, none⟩,
        ⟨"did:a", .active, 2, none⟩] "did:a" = some ⟨2⟩ := by decide
    exact Option.some.inj (hadmission.symm.trans heq)
  exact ⟨⟨2⟩, hadmission, hfurther _ [⟨"did:a", .active, 5, none⟩] (by simp [or_assoc]) (by simp),
    hagain _ ⟨"did:a", .removed, 2, none⟩ ⟨"did:a", .active, 3, none⟩ (by simp [or_assoc])
      rfl rfl (by decide) rfl rfl (by decide)⟩

/-! ## 6. Pending signals and the canonical events -/

def MemberUpdateSignal.eventKey (signal : MemberUpdateSignal) : MembershipEventKey where
  did := signal.memberDid
  sinceGeneration := signal.effectiveKeyGeneration
  status :=
    match signal.action with
    | .added => .active
    | .removed => .removed

theorem canonicalEventSetAnswersPending_iff_rank {signal : MemberUpdateSignal} :
    canonicalEventSetAnswersPending events signal = true ↔
      ∃ winner, resolveMembershipWinner events signal.memberDid = some winner ∧
        signal.eventKey.rank ≤ winner.key.rank := by
  rw [canonicalEventSetAnswersPending]
  rcases hwinner : resolveMembershipWinner events signal.memberDid with _ | winner
  · simp
  simp only [Option.some.injEq, exists_eq_left', rank_le_rank, MemberUpdateSignal.eventKey, key]
  split_ifs with hlt hgt
  · simp [hlt]
  · simp [hgt.asymm, hgt.ne']
  · have heq : signal.effectiveKeyGeneration = winner.sinceGeneration := by omega
    cases signal.action <;> cases winner.status <;> simp [heq]

/-- **The canonical answer**: a signal counts as answered exactly when its DID has a winner and
    the announced event, entered into the set under its key, leaves generation and status of
    the winner as they are. -/
theorem canonicalEventSetAnswersPending_iff (events events' : List MembershipEvent)
    (signal : MemberUpdateSignal)
    (hinsert : ∀ k, k ∈ events'.map (·.key) ↔ k = signal.eventKey ∨ k ∈ events.map (·.key)) :
    canonicalEventSetAnswersPending events signal = true ↔
      ∃ winner, resolveMembershipWinner events signal.memberDid = some winner ∧
        ∃ winner', resolveMembershipWinner events' signal.memberDid = some winner' ∧
          winner'.sinceGeneration = winner.sinceGeneration ∧ winner'.status = winner.status := by
  rw [canonicalEventSetAnswersPending_iff_rank]
  apply exists_congr
  intro winner
  apply and_congr_right
  intro hwinner
  constructor
  · intro hle
    have hkey : (resolveMembershipWinner events' signal.memberDid).map (·.key) =
        some winner.key := by
      obtain ⟨hmem, hdid, hmax⟩ := winner_key_eq_some_iff.mp
        (Option.map_eq_some_iff.mpr ⟨winner, hwinner, rfl⟩)
      refine winner_key_eq_some_iff.mpr ⟨(hinsert _).mpr (.inr hmem), hdid, ?_⟩
      intro k hk hkdid
      rcases (hinsert k).mp hk with rfl | hold
      · exact hle
      · exact hmax k hold hkdid
    obtain ⟨winner', hwinner', hsame⟩ := Option.map_eq_some_iff.mp hkey
    simp only [key, MembershipEventKey.mk.injEq] at hsame
    exact ⟨winner', hwinner', hsame.2⟩
  · rintro ⟨winner', hwinner', hgeneration, hstatus⟩
    have hown := (hinsert signal.eventKey).mpr (.inl rfl)
    obtain ⟨own, hmem, hown⟩ := mem_map.mp hown
    have hdid : own.did = signal.memberDid := congrArg MembershipEventKey.did hown
    have hle := le_of_winner hwinner' hmem hdid
    rw [hown, rank_le_rank] at hle
    rw [rank_le_rank]
    simpa only [key, hgeneration, hstatus] using hle

/-- At one generation the removal would still flip the active member. -/
theorem canonicalEventSetAnswersPending_tie :
    canonicalEventSetAnswersPending [⟨"did:a", .active, 4, none⟩]
      ⟨"space", .removed, "did:a", 4, "did:b", none, none⟩ = true ↔
    ∃ winner, resolveMembershipWinner [⟨"did:a", .active, 4, none⟩] "did:a" = some winner ∧
      ∃ winner', resolveMembershipWinner
        [⟨"did:a", .active, 4, none⟩, ⟨"did:a", .removed, 4, none⟩] "did:a" = some winner' ∧
        winner'.sinceGeneration = winner.sinceGeneration ∧ winner'.status = winner.status :=
  canonicalEventSetAnswersPending_iff _ _ _ (by simp [MemberUpdateSignal.eventKey, key, or_comm])

end WebOfTrust
