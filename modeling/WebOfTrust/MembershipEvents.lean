/-
  **The members of a space** (`protocol/sync/membership-events.ts`,
  `protocol/sync/admin-set.ts`): a grow-only set of events in the document of the space.

  For each DID the event of the highest generation wins, and of two events of one
  generation the removal.  Who is a member and who is an admin are both read from the
  winners.
-/
import WebOfTrust.KeyedTable
import WebOfTrust.LogEntry
import Mathlib.Data.List.Lex
import Mathlib.Data.List.Sort

namespace WebOfTrust

open KeyedTable

/-! ## 1. Events -/

inductive MembershipStatus where
  | active
  | removed
deriving DecidableEq

/-- `MembershipEventKeyParts`, which `formatMembershipEventKey` writes down one way only. -/
structure MembershipEventKey where
  did : Did
  sinceGeneration : Nat
  status : MembershipStatus
deriving DecidableEq

structure MembershipEvent where
  did : Did
  status : MembershipStatus
  sinceGeneration : Nat
  addedBy : Option Did
deriving DecidableEq

def MembershipEvent.key (e : MembershipEvent) : MembershipEventKey :=
  ⟨e.did, e.sinceGeneration, e.status⟩

def membershipEventWins (candidate incumbent : MembershipEvent) : Bool :=
  if candidate.sinceGeneration ≠ incumbent.sinceGeneration then
    decide (incumbent.sinceGeneration < candidate.sinceGeneration)
  else decide (candidate.status = .removed ∧ incumbent.status = .active)

def membershipChallenge (winner : Option MembershipEvent) (event : MembershipEvent) :
    Option MembershipEvent :=
  match winner with
  | none => some event
  | some incumbent => if membershipEventWins event incumbent then some event else some incumbent

variable (events : List MembershipEvent)

def resolveMembershipWinner (did : Did) : Option MembershipEvent :=
  events.foldl
    (fun winner event => if event.did = did then membershipChallenge winner event else winner) none

def membershipStatus (did : Did) : Option MembershipStatus :=
  (resolveMembershipWinner events did).map (·.status)

/-! ## 2. Members and admins -/

/-- The UTF-16 code units of a character: one below 2^16, otherwise a pair of surrogates. -/
def utf16Units (c : Char) : List Nat :=
  if c.toNat < 0x10000 then [c.toNat]
  else [0xD800 + (c.toNat - 0x10000) / 0x400, 0xDC00 + (c.toNat - 0x10000) % 0x400]

def utf16 (s : String) : List Nat := s.toList.flatMap utf16Units

/-- No character is a surrogate, so the first unit says how many units belong to it. -/
theorem utf16Units_append_inj {c c' : Char} {rest rest' : List Nat}
    (h : utf16Units c ++ rest = utf16Units c' ++ rest') : c = c' ∧ rest = rest' := by
  have hvalid : c.toNat < 0xD800 ∨ 0xDFFF < c.toNat ∧ c.toNat < 0x110000 := c.valid
  have hvalid' : c'.toNat < 0xD800 ∨ 0xDFFF < c'.toNat ∧ c'.toNat < 0x110000 := c'.valid
  suffices hnat : c.toNat = c'.toNat by
    have hc := Char.toNat_inj.mp hnat
    subst hc
    exact ⟨rfl, List.append_cancel_left h⟩
  unfold utf16Units at h
  split_ifs at h <;> simp only [List.cons_append, List.nil_append, List.cons.injEq] at h <;> omega

theorem utf16_injective : Function.Injective utf16 := by
  intro s s' heq
  refine String.toList_injective ?_
  have key : ∀ cs cs' : List Char, cs.flatMap utf16Units = cs'.flatMap utf16Units → cs = cs' := by
    have hne : ∀ c, utf16Units c ≠ [] := fun c => by unfold utf16Units; split <;> simp
    intro cs
    induction cs with
    | nil =>
      intro cs' h
      cases cs' with
      | nil => rfl
      | cons c' _ => simp [hne c'] at h
    | cons c cs ih =>
      intro cs' h
      cases cs' with
      | nil => simp [hne c] at h
      | cons c' cs' =>
        obtain ⟨rfl, hrest⟩ := utf16Units_append_inj h
        rw [ih cs' hrest]
  exact key _ _ heq

/-- `.sort()`, which compares the code units. -/
def sortDids (dids : List Did) : List Did :=
  dids.insertionSort fun did did' => utf16 did ≤ utf16 did'

/-- U+FFFD stands behind a character beyond the first plane, though its number is lower. -/
example : sortDids ["did:\uFFFD", "did:😀"] = ["did:😀", "did:\uFFFD"] := by decide

@[simp] theorem mem_sortDids {dids : List Did} {did : Did} : did ∈ sortDids dids ↔ did ∈ dids :=
  List.mem_insertionSort _

/-- The `winners` map of `resolveActiveMembers`. -/
def membershipWinners : KeyedTable MembershipEvent.did :=
  events.foldl (fun winners event =>
      match winners.get? event.did with
      | some incumbent =>
        if membershipEventWins event incumbent then winners.put event else winners
      | none => winners.put event)
    .empty

def resolveActiveMembers : List Did :=
  sortDids (((membershipWinners events).rows.filter fun e => decide (e.status = .active)).map
    (·.did))

/-- `resolveAdmins`, for the DIDs of the admin entries. -/
def resolveAdmins (entries : List Did) : List Did := sortDids entries.dedup

def resolveActiveAdmins (entries activeMembers : List Did) : List Did :=
  sortDids ((resolveAdmins entries).filter fun did => decide (did ∈ activeMembers))

theorem get?_winners_step {winners : KeyedTable MembershipEvent.did} (event : MembershipEvent)
    (did : Did) :
    (match winners.get? event.did with
      | some incumbent =>
        if membershipEventWins event incumbent then winners.put event else winners
      | none => winners.put event).get? did =
      if event.did = did then membershipChallenge (winners.get? did) event
      else winners.get? did := by
  by_cases hdid : event.did = did
  · rw [if_pos hdid]
    subst hdid
    rcases hget : winners.get? event.did with _ | incumbent
    · simp [get?_put, membershipChallenge]
    by_cases hwins : membershipEventWins event incumbent = true
    · simp [get?_put, membershipChallenge, hwins]
    · simp [membershipChallenge, hwins, hget]
  · rw [if_neg hdid]
    split
    · split_ifs
      · rw [get?_put, if_neg hdid]
      · rfl
    · rw [get?_put, if_neg hdid]

/-- **Both readings of the events agree**: the map holds the winner of each DID. -/
theorem get?_membershipWinners (did : Did) :
    (membershipWinners events).get? did = resolveMembershipWinner events did := by
  have hfold : ∀ (events : List MembershipEvent) (winners : KeyedTable MembershipEvent.did)
      (winner : Option MembershipEvent), winners.get? did = winner →
      (events.foldl (fun winners event =>
        match winners.get? event.did with
        | some incumbent =>
          if membershipEventWins event incumbent then winners.put event else winners
        | none => winners.put event) winners).get? did =
      events.foldl (fun winner event =>
        if event.did = did then membershipChallenge winner event else winner) winner := by
    intro events
    induction events with
    | nil =>
      intro winners winner h
      exact h
    | cons event rest ih =>
      intro winners winner h
      rw [List.foldl_cons, List.foldl_cons]
      apply ih
      rw [get?_winners_step, h]
  exact hfold events .empty none rfl

theorem mem_resolveActiveMembers {events : List MembershipEvent} {did : Did} :
    did ∈ resolveActiveMembers events ↔ membershipStatus events did = some .active := by
  rw [resolveActiveMembers, mem_sortDids, List.mem_map, membershipStatus,
    ← get?_membershipWinners, Option.map_eq_some_iff]
  constructor
  · rintro ⟨e, he, rfl⟩
    obtain ⟨hmem, hactive⟩ := List.mem_filter.mp he
    exact ⟨e, mem_rows_iff.mp hmem, by simpa using hactive⟩
  · rintro ⟨e, hget, hactive⟩
    refine ⟨e, List.mem_filter.mpr ⟨mem_of_get? hget, by simpa using hactive⟩, ?_⟩
    exact key_of_get? hget

/-! ## 3. The event set of a document -/

/-- An entry of the top-level map `_members`.  A value that is no membership event, as a
    faulty peer may have written it, is left open. -/
structure MembersEntry where
  key : MembershipEventKey
  value : Option MembershipEvent
deriving DecidableEq

def MembershipEvent.entry (e : MembershipEvent) : MembersEntry := ⟨e.key, some e⟩

/-- `_members`; an entry whose key is no event key is read by nobody. -/
abbrev MembersMap := KeyedTable MembersEntry.key

/-- `readMembershipEvents`: invalid values, and values under a foreign key, are skipped. -/
def readMembershipEvents (members : MembersMap) : List MembershipEvent :=
  members.rows.filterMap fun entry => entry.value.filter fun e => decide (e.key = entry.key)

end WebOfTrust
