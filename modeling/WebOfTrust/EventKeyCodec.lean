/-
  **The key of a membership event** (`membership-events.ts`: `formatMembershipEventKey`,
  `parseMembershipEventKey`).

  The DID may hold any number of colons.  The generation and the status hold none, so that the
  last two colons are those that were written between the parts, and the generation is written
  in its decimal form only.
-/
import WebOfTrust.MembershipEvents
import Mathlib.Data.List.Induction

namespace WebOfTrust

open List

/-! ## 1. The parts -/

def isLineTerminator (c : Char) : Bool :=
  c = '\n' || c = '\r' || c = '\u2028' || c = '\u2029'

def isMethodChar (c : Char) : Bool := c.isLower || c.isDigit

/-- `DID_PATTERN`: `/^did:[a-z0-9]+:.+/`, which is not bound to the end of the text. -/
def isMembershipDid (did : List Char) : Bool :=
  match did with
  | 'd' :: 'i' :: 'd' :: ':' :: rest =>
    !(rest.takeWhile isMethodChar).isEmpty &&
      match rest.dropWhile isMethodChar with
      | ':' :: c :: _ => !isLineTerminator c
      | _ => false
  | _ => false

/-- `CANONICAL_GENERATION_PATTERN`: `/^(0|[1-9][0-9]*)$/`. -/
def isCanonicalGeneration : List Char → Bool
  | [] => false
  | c :: rest => if c = '0' then rest.isEmpty else c.isDigit && rest.all (·.isDigit)

def MembershipStatus.text : MembershipStatus → List Char
  | .active => "active".toList
  | .removed => "removed".toList

/-- `assertMembershipStatus` of a segment. -/
def membershipStatusOf (segment : List Char) : Option MembershipStatus :=
  if segment = MembershipStatus.active.text then some .active
  else if segment = MembershipStatus.removed.text then some .removed
  else none

/-! ## 2. The codec -/

def formatMembershipEventKey (parts : MembershipEventKey) : Except String String :=
  if isMembershipDid parts.did.toList = false then .error "Invalid membership-event did"
  else if maxSafeInteger < parts.sinceGeneration then
    .error "Invalid membership-event sinceGeneration"
  else
    .ok (.ofList (parts.did.toList ++ ':' :: ((Nat.toDigits 10 parts.sinceGeneration) ++
      ':' :: parts.status.text)))

/-- `lastIndexOf(':', fromIndex)`.  A `fromIndex` below 0 counts as 0. -/
def lastIndexOf (text : List Char) : Nat → Option Nat
  | 0 => if text[0]? = some ':' then some 0 else none
  | n + 1 => if text[n + 1]? = some ':' then some (n + 1) else lastIndexOf text n

def parseMembershipEventKey (key : String) : Except String MembershipEventKey :=
  let text := key.toList
  match lastIndexOf text (text.length - 1) with
  | none => .error "Invalid membership-event key"
  | some lastSeparator =>
    match lastIndexOf text (lastSeparator - 1) with
    | none => .error "Invalid membership-event key"
    | some secondLastSeparator =>
      let did := text.take secondLastSeparator
      let generationSegment := (text.take lastSeparator).drop (secondLastSeparator + 1)
      if isMembershipDid did = false then .error "Invalid membership-event key did"
      else if isCanonicalGeneration generationSegment = false then
        .error "Invalid membership-event key generation"
      else
        match membershipStatusOf (text.drop (lastSeparator + 1)) with
        | none => .error "Invalid membership-event status"
        | some status =>
          -- `Number` rounds what is not safe to what is not safe either.
          let sinceGeneration := Nat.ofDigitChars 10 generationSegment 0
          if maxSafeInteger < sinceGeneration then .error "Invalid membership-event key generation"
          else .ok ⟨.ofList did, sinceGeneration, status⟩

/-! ## 3. The segments -/

section

variable {text did segment : List Char} {n i : Nat}

theorem lastIndexOf_eq_some (h : lastIndexOf text n = some i) :
    i ≤ n ∧ text[i]? = some ':' ∧ ∀ j, i < j → j ≤ n → text[j]? ≠ some ':' := by
  induction n with
  | zero =>
    rw [lastIndexOf] at h
    split at h
    · next hcolon =>
      cases h
      exact ⟨Nat.le_refl _, hcolon, fun j hj hj' => by omega⟩
    · cases h
  | succ n ih =>
    rw [lastIndexOf] at h
    split at h
    · next hcolon =>
      cases h
      exact ⟨Nat.le_refl _, hcolon, fun j hj hj' => by omega⟩
    next hnot =>
    obtain ⟨hle, hcolon, hlast⟩ := ih h
    refine ⟨Nat.le_succ_of_le hle, hcolon, fun j hj hj' => ?_⟩
    rcases Nat.le_succ_iff.mp hj' with hj' | rfl
    · exact hlast j hj hj'
    · exact hnot

theorem lastIndexOf_of_last (hle : i ≤ n) (hcolon : text[i]? = some ':')
    (hlast : ∀ j, i < j → j ≤ n → text[j]? ≠ some ':') : lastIndexOf text n = some i := by
  induction n with
  | zero =>
    obtain rfl := Nat.le_zero.mp hle
    exact if_pos hcolon
  | succ n ih =>
    rw [lastIndexOf]
    rcases Nat.le_succ_iff.mp hle with hle' | rfl
    · rw [if_neg (hlast (n + 1) (Nat.lt_succ_of_le hle') (Nat.le_refl _))]
      exact ih hle' fun j hj hj' => hlast j hj (Nat.le_succ_of_le hj')
    · exact if_pos hcolon

theorem lastIndexOf_append (hnot : ':' ∉ segment) (rest : List Char) :
    lastIndexOf (did ++ ':' :: (segment ++ rest)) (did.length + segment.length) =
      some did.length := by
  refine lastIndexOf_of_last (by omega) (by simp) fun j hj hj' hcolon => hnot ?_
  obtain ⟨k, rfl⟩ : ∃ k, j = did.length + (k + 1) := ⟨j - did.length - 1, by omega⟩
  rw [getElem?_append_right (by omega), Nat.add_sub_cancel_left, getElem?_cons_succ,
    getElem?_append_left (by omega)] at hcolon
  exact mem_of_getElem? hcolon

theorem take_colon_drop (h : text[i]? = some ':') :
    text.take i ++ ':' :: text.drop (i + 1) = text := by
  obtain ⟨hlt, hcolon⟩ := List.getElem?_eq_some_iff.mp h
  rw [← hcolon, ← drop_eq_getElem_cons hlt, take_append_drop]

theorem colon_not_mem_toDigits (n : Nat) : ':' ∉ Nat.toDigits 10 n := by
  intro h
  exact absurd (Nat.isDigit_of_mem_toDigits (by decide) (by decide) h) (by decide)

theorem toDigits_digit {c : Char} (hc : c.isDigit = true) :
    ∃ k < 10, c.toNat - '0'.toNat = k ∧ Nat.toDigits 10 k = [c] := by
  have htable : ∀ k < 10, Nat.digitChar k = Char.ofNat ('0'.toNat + k) := by decide
  obtain ⟨hlow, hhigh⟩ := Char.isDigit_iff_toNat.mp hc
  have hlt : c.toNat - '0'.toNat < 10 := by
    have : '9'.toNat = '0'.toNat + 9 := rfl
    omega
  refine ⟨_, hlt, rfl, ?_⟩
  rw [Nat.toDigits_of_lt_base hlt, htable _ hlt, Nat.add_sub_cancel' hlow, Char.ofNat_toNat]

/-- The decimal form of a positive number: digits, of which the first is not 0. -/
theorem toDigits_ofDigitChars {c : Char} {rest : List Char} (hc : c ≠ '0')
    (hdigits : ∀ x ∈ c :: rest, x.isDigit = true) :
    0 < Nat.ofDigitChars 10 (c :: rest) 0 ∧
      Nat.toDigits 10 (Nat.ofDigitChars 10 (c :: rest) 0) = c :: rest := by
  induction rest using reverseRecOn with
  | nil =>
    obtain ⟨k, _, hk, hone⟩ := toDigits_digit (hdigits c mem_cons_self)
    have hvalue : Nat.ofDigitChars 10 [c] 0 = k := by
      rw [Nat.ofDigitChars_cons, hk]
      simp
    rw [hvalue]
    refine ⟨Nat.pos_of_ne_zero fun hzero => hc ?_, hone⟩
    rw [hzero] at hone
    simpa using hone.symm
  | append_singleton rest d ih =>
    obtain ⟨hpos, hrest⟩ := ih fun x hx => hdigits x (by
      rcases mem_cons.mp hx with rfl | hx
      · exact mem_cons_self
      · exact mem_cons_of_mem _ (mem_append_left _ hx))
    obtain ⟨k, hlt, hk, hone⟩ := toDigits_digit (hdigits d (by simp))
    rw [← cons_append, Nat.ofDigitChars_append, Nat.ofDigitChars_cons, hk, Nat.ofDigitChars_nil,
      ← Nat.toDigits_append_toDigits (by decide) hpos hlt, hrest, hone]
    exact ⟨by omega, rfl⟩

/-- The accepted generations are written as they would be written again. -/
theorem toDigits_of_canonical (h : isCanonicalGeneration segment = true) :
    Nat.toDigits 10 (Nat.ofDigitChars 10 segment 0) = segment := by
  rcases segment with _ | ⟨c, rest⟩
  · cases h
  rw [isCanonicalGeneration] at h
  split at h
  · next hzero =>
    rw [hzero, isEmpty_iff.mp h]
    rfl
  next hc =>
  obtain ⟨hdigit, hall⟩ := Bool.and_eq_true_iff.mp h
  refine (toDigits_ofDigitChars hc fun x hx => ?_).2
  rcases mem_cons.mp hx with rfl | hx
  · exact hdigit
  · exact all_eq_true.mp hall x hx

theorem head_toDigits (n : Nat) :
    ∃ c rest, Nat.toDigits 10 n = c :: rest ∧ (c = '0' → n = 0) := by
  induction n using Nat.base_induction 10 (by decide) with
  | single m hm => exact ⟨_, [], Nat.toDigits_of_lt_base hm, Nat.digitChar_eq_zero.mp⟩
  | digit m k hk hm ih =>
    obtain ⟨c, rest, hdigits, hc⟩ := ih
    refine ⟨c, rest ++ Nat.toDigits 10 k, ?_, fun hzero => absurd (hc hzero) (by omega)⟩
    rw [← Nat.toDigits_append_toDigits (by decide) hm hk, hdigits, cons_append]

theorem canonical_toDigits (n : Nat) : isCanonicalGeneration (Nat.toDigits 10 n) = true := by
  obtain ⟨c, rest, hdigits, hzero⟩ := head_toDigits n
  by_cases hc : c = '0'
  · rw [hzero hc]
    decide
  have hall : ∀ x ∈ c :: rest, x.isDigit = true := fun x hx =>
    Nat.isDigit_of_mem_toDigits (by decide) (by decide) (hdigits ▸ hx)
  rw [hdigits, isCanonicalGeneration, if_neg hc, hall c mem_cons_self, Bool.true_and, all_eq_true]
  exact fun x hx => hall x (mem_cons_of_mem _ hx)

theorem membershipStatusOf_eq_some {status : MembershipStatus} :
    membershipStatusOf segment = some status ↔ segment = status.text := by
  unfold membershipStatusOf
  by_cases hactive : segment = MembershipStatus.active.text
  · subst hactive
    cases status <;> decide
  by_cases hremoved : segment = MembershipStatus.removed.text
  · subst hremoved
    cases status <;> decide
  · cases status <;> simp [hactive, hremoved]

theorem separators_eq (generation status : List Char) (hgeneration : ':' ∉ generation)
    (hstatus : ':' ∉ status) (htext : text = did ++ ':' :: (generation ++ ':' :: status)) :
    lastIndexOf text (text.length - 1) = some (did.length + 1 + generation.length) ∧
      lastIndexOf text (did.length + 1 + generation.length - 1) = some did.length ∧
      text.take did.length = did ∧
      (text.take (did.length + 1 + generation.length)).drop (did.length + 1) = generation ∧
      text.drop (did.length + 1 + generation.length + 1) = status := by
  have hsplit : text = (did ++ ':' :: generation) ++ ':' :: (status ++ []) := by
    rw [htext, append_nil, append_assoc, cons_append]
  have hlength : (did ++ ':' :: generation).length = did.length + 1 + generation.length := by
    rw [length_append, length_cons]
    omega
  refine ⟨?_, ?_, ?_, ?_, ?_⟩
  · have hlast := @lastIndexOf_append (did ++ ':' :: generation) status hstatus []
    rw [← hsplit, hlength] at hlast
    have hend : text.length - 1 = did.length + 1 + generation.length + status.length := by
      rw [hsplit, length_append, hlength, append_nil, length_cons]
      omega
    rw [hend, hlast]
  · rw [htext, Nat.add_right_comm, Nat.add_sub_cancel]
    exact lastIndexOf_append hgeneration _
  · rw [htext, take_left]
  · rw [hsplit, ← hlength, take_left, drop_append]
    simp
  · rw [hsplit, ← hlength, drop_append]
    simp

end

/-! ## 4. The codec both ways -/

section

variable {key : String} {parts : MembershipEventKey}

theorem parse_of_format (h : formatMembershipEventKey parts = .ok key) :
    parseMembershipEventKey key = .ok parts := by
  unfold formatMembershipEventKey at h
  split at h
  · cases h
  next hdid =>
  split at h
  · cases h
  next hsafe =>
  have hstatus : ':' ∉ parts.status.text := by
    cases parts.status <;> decide
  obtain ⟨hlast, hsecond, htake, hsegment, hdrop⟩ := @separators_eq key.toList _ _ _
    (colon_not_mem_toDigits parts.sinceGeneration) hstatus (by
      rw [← Except.ok.inj h, String.toList_ofList])
  unfold parseMembershipEventKey
  simp only [hlast, hsecond, htake, hsegment, hdrop]
  rw [if_neg hdid, canonical_toDigits, if_neg Bool.noConfusion, membershipStatusOf_eq_some.mpr rfl]
  simp only [Nat.ofDigitChars_ten_toDigits, if_neg hsafe, String.ofList_toList]

theorem format_of_parse (h : parseMembershipEventKey key = .ok parts) :
    formatMembershipEventKey parts = .ok key := by
  unfold parseMembershipEventKey at h
  dsimp only at h
  split at h
  · cases h
  next last hlast =>
  split at h
  · cases h
  next second hsecond =>
  split at h
  · cases h
  next hdid =>
  split at h
  · cases h
  next hcanonical =>
  split at h
  · cases h
  next status hstatus =>
  split at h
  · cases h
  next hsafe =>
  cases h
  obtain ⟨-, hcolon, -⟩ := lastIndexOf_eq_some hlast
  obtain ⟨hle, hcolon', -⟩ := lastIndexOf_eq_some hsecond
  -- A colon at the front only would leave an empty DID.
  have hlt : second < last := by
    rcases Nat.eq_zero_or_pos second with rfl | hpos
    · exact absurd rfl hdid
    · omega
  have hfirst := @take_colon_drop (key.toList.take last) second
    (by rw [getElem?_take_of_lt hlt, hcolon'])
  rw [take_take, Nat.min_eq_left (Nat.le_of_lt hlt)] at hfirst
  unfold formatMembershipEventKey
  rw [String.toList_ofList, if_neg hdid, if_neg hsafe,
    toDigits_of_canonical (Bool.not_eq_false _ ▸ hcanonical),
    ← membershipStatusOf_eq_some.mp hstatus, ← cons_append, ← append_assoc, hfirst,
    take_colon_drop hcolon, String.ofList_toList]

end

/-- **The codec of the event keys**: a key is parsed to the parts that it is written for, and to
    no others. -/
theorem parseMembershipEventKey_eq_ok_iff (key : String) (parts : MembershipEventKey) :
    (parseMembershipEventKey key = .ok parts ↔ formatMembershipEventKey parts = .ok key) ∧
      ((∃ key, formatMembershipEventKey parts = .ok key) ↔
        isMembershipDid parts.did.toList = true ∧ parts.sinceGeneration ≤ maxSafeInteger) := by
  refine ⟨⟨format_of_parse, parse_of_format⟩, ?_⟩
  unfold formatMembershipEventKey
  split
  · simp_all
  · split <;> simp_all

end WebOfTrust
