/-
  **DIDs and keys correspond one to one** (`encoding.ts`, `did-key.ts`).

  Both loops over a number in one base multiply what they have by the other base and carry a digit
  into it.  A key has a multicodec prefix that does not begin with a zero, so that a spelling with
  a leading `1` is of no key.
-/
import Mathlib.Data.Nat.Digits.Lemmas
import Mathlib.Data.List.TakeWhile

namespace WebOfTrust

open List Nat

/-! ## 1. Numbers in a base -/

namespace Radix

variable {base mult : Nat}

def carryInto (base mult : Nat) : List Nat → Nat → List Nat
  | [], carry => Nat.digits base carry
  | d :: ds, carry =>
    (carry + d * mult) % base :: carryInto base mult ds ((carry + d * mult) / base)

def numeral (base n : Nat) : List Nat := if n = 0 then [0] else Nat.digits base n

section

variable (hbase : 1 < base)
include hbase

theorem carryInto_digits (hmult : 0 < mult) (n carry : Nat) :
    carryInto base mult (digits base n) carry = digits base (carry + n * mult) := by
  induction n using Nat.strong_induction_on generalizing carry with
  | _ n ih =>
    rcases Nat.eq_zero_or_pos n with rfl | hn
    · simp [carryInto]
    have hsplit : carry + n * mult = carry + n % base * mult + base * (n / base * mult) := by
      conv_lhs => rw [← mod_add_div n base]
      ring
    have hpos : 0 < carry + n * mult := Nat.add_pos_right _ (mul_pos hn hmult)
    rw [digits_def' hbase hn, carryInto, ih _ (div_lt_self hn hbase),
      digits_def' hbase hpos, hsplit, add_mul_mod_self_left,
      add_mul_div_left _ _ (zero_lt_of_lt hbase)]

theorem carryInto_numeral (hmult : 0 < mult) (n carry : Nat) :
    carryInto base mult (numeral base n) carry = numeral base (carry + n * mult) := by
  rw [numeral]
  split
  · next hzero =>
    rw [hzero, zero_mul, add_zero, carryInto, carryInto, zero_mul, add_zero,
      numeral]
    split
    · next hcarry => simp [hcarry]
    · next hcarry => rw [digits_def' hbase (pos_of_ne_zero hcarry)]
  · next hpos =>
    have hne : carry + n * mult ≠ 0 :=
      (Nat.add_pos_right _ (mul_pos (pos_of_ne_zero hpos) hmult)).ne'
    rw [carryInto_digits hbase hmult, numeral, if_neg hne]

theorem foldl_carryInto (hmult : 0 < mult) (ds : List Nat) :
    ds.foldl (carryInto base mult) [0] = numeral base (ofDigits mult ds.reverse) := by
  induction ds using reverseRecOn with
  | nil => simp [numeral]
  | append_singleton ds d ih =>
    rw [foldl_append, ih, foldl_cons, foldl_nil, carryInto_numeral hbase hmult,
      reverse_append, reverse_singleton, singleton_append, ofDigits_cons,
      mul_comm mult]

theorem digits_ofDigits_reverse {d : Nat} {ds : List Nat} (hd : d ≠ 0)
    (hds : ∀ x ∈ d :: ds, x < base) :
    digits base (ofDigits base (d :: ds).reverse) = (d :: ds).reverse := by
  refine digits_ofDigits base hbase _ (fun x hx => hds x (mem_reverse.mp hx)) ?_
  intro hne
  simpa using hd

theorem ofDigits_ne_zero {d : Nat} {ds : List Nat} (hd : d ≠ 0)
    (hds : ∀ x ∈ d :: ds, x < base) : ofDigits base (d :: ds).reverse ≠ 0 := by
  intro hzero
  have hdigits := digits_ofDigits_reverse hbase hd hds
  rw [hzero, digits_zero] at hdigits
  simp at hdigits

end

end Radix

open Radix

namespace DidKey

/-! ## 2. Base58 -/

def BASE58_ALPHABET : List Char :=
  "123456789ABCDEFGHJKLMNPQRSTUVWXYZabcdefghijkmnopqrstuvwxyz".toList

def base58Char (digit : Nat) : Char := BASE58_ALPHABET.getD digit '1'

def encodeBase58 (bytes : List UInt8) : List Char :=
  let digits := (bytes.map UInt8.toNat).foldl (carryInto 58 256) [0]
  (bytes.takeWhile (· = 0)).map (fun _ => base58Char 0) ++ digits.reverse.map base58Char

def decodeBase58 (value : List Char) : Option (List UInt8) :=
  (value.mapM fun c => BASE58_ALPHABET.idxOf? c).map fun digits =>
    let bytes := digits.foldl (carryInto 256 58) [0]
    (bytes ++ (value.takeWhile (· = base58Char 0)).map fun _ => 0).reverse.map UInt8.ofNat

/-! ## 3. DIDs -/

def ED25519_PREFIX : List UInt8 := [0xed, 0x01]

def PUBLIC_KEY_LENGTH : Nat := 32

def ed25519PublicKeyToMultibase (publicKey : List UInt8) : Option (List Char) :=
  if publicKey.length ≠ PUBLIC_KEY_LENGTH then none
  else some ('z' :: encodeBase58 (ED25519_PREFIX ++ publicKey))

def publicKeyToDidKey (publicKey : List UInt8) : Option (List Char) :=
  (ed25519PublicKeyToMultibase publicKey).map fun multibase => "did:key:".toList ++ multibase

def didOrKidToDid (didOrKid : List Char) : List Char := didOrKid.takeWhile (· ≠ '#')

def ed25519MultibaseToPublicKeyBytes : List Char → Option (List UInt8)
  | 'z' :: value =>
    (decodeBase58 value).bind fun decoded =>
      if decoded.take 2 ≠ ED25519_PREFIX then none
      else if (decoded.drop 2).length ≠ PUBLIC_KEY_LENGTH then none
      else some (decoded.drop 2)
  | _ => none

def didKeyToPublicKeyBytes (didOrKid : List Char) : Option (List UInt8) :=
  let did := didOrKidToDid didOrKid
  if "did:key:z".toList.isPrefixOf did then
    ed25519MultibaseToPublicKeyBytes ('z' :: did.drop 9)
  else none

/-! ## 4. One to one -/

variable {d : Nat} {ds : List Nat} {b : UInt8} {bytes : List UInt8}

theorem idxOf?_base58Char (h : d < 58) : BASE58_ALPHABET.idxOf? (base58Char d) = some d := by
  revert d
  decide

theorem of_idxOf? {c : Char} (h : BASE58_ALPHABET.idxOf? c = some d) :
    d < 58 ∧ base58Char d = c ∧ (c = base58Char 0 → d = 0) ∧ c ≠ '#' := by
  obtain ⟨hlt, hget, -⟩ := idxOf?_eq_some_iff.mp h
  have hlength : BASE58_ALPHABET.length = 58 := by decide
  refine ⟨hlength ▸ hlt, ?_, ?_, ?_⟩
  · rw [base58Char, getD_eq_getElem?_getD, getElem?_eq_getElem hlt]
    exact hget
  · rintro rfl
    exact Option.some.inj (h.symm.trans (idxOf?_base58Char (by decide)))
  · rintro rfl
    have hnone : BASE58_ALPHABET.idxOf? '#' = none := by decide
    rw [hnone] at h
    cases h

theorem mapM_idxOf? {value : List Char} : value.mapM (fun c => BASE58_ALPHABET.idxOf? c) = some ds ↔
      (∀ d ∈ ds, d < 58) ∧ ds.map base58Char = value := by
  induction value generalizing ds with
  | nil => cases ds <;> simp
  | cons c value ih =>
    rw [mapM_cons]
    constructor
    · intro h
      obtain ⟨d, hd, h⟩ := Option.bind_eq_some_iff.mp h
      obtain ⟨rest, hrest, h⟩ := Option.bind_eq_some_iff.mp h
      cases h
      obtain ⟨hlt, rfl⟩ := ih.mp hrest
      exact ⟨forall_mem_cons.mpr ⟨(of_idxOf? hd).1, hlt⟩, by
        rw [map_cons, (of_idxOf? hd).2.1]⟩
    · rintro ⟨hlt, hmap⟩
      rcases ds with _ | ⟨d, rest⟩
      · cases hmap
      cases hmap
      obtain ⟨hd, hrest⟩ := forall_mem_cons.mp hlt
      rw [idxOf?_base58Char hd, ih.mpr ⟨hrest, rfl⟩]
      rfl

theorem map_toNat_ofNat (h : ∀ d ∈ ds, d < 256) : (ds.map UInt8.ofNat).map UInt8.toNat = ds := by
  rw [map_map]
  exact (map_congr_left fun d hd => UInt8.toNat_ofNat_of_lt (h d hd)).trans (map_id ds)

theorem map_ofNat_toNat (bytes : List UInt8) : (bytes.map UInt8.toNat).map UInt8.ofNat = bytes := by
  simp [map_map, Function.comp_def]

theorem byteDigits (hb : b ≠ 0) (bytes : List UInt8) :
    ∃ n, n ≠ 0 ∧ ofDigits 256 ((b :: bytes).map UInt8.toNat).reverse = n ∧
      digits 256 n = ((b :: bytes).map UInt8.toNat).reverse := by
  have hb' : b.toNat ≠ 0 := fun h => hb (UInt8.toNat_inj.mp h)
  have hlt : ∀ x ∈ b.toNat :: bytes.map UInt8.toNat, x < 256 := fun x hx => by
    obtain ⟨y, -, rfl⟩ := mem_map.mp (map_cons ▸ hx)
    exact y.toNat_lt
  exact ⟨_, ofDigits_ne_zero (by decide) hb' hlt, rfl, digits_ofDigits_reverse (by decide) hb' hlt⟩

theorem encodeBase58_eq {n : Nat} (hb : b ≠ 0) (hn : n ≠ 0)
    (hvalue : ofDigits 256 ((b :: bytes).map UInt8.toNat).reverse = n) :
    encodeBase58 (b :: bytes) = (digits 58 n).reverse.map base58Char := by
  rw [encodeBase58, foldl_carryInto (by decide) (by decide), hvalue, numeral,
    if_neg hn, takeWhile_cons_of_neg (by simpa using hb)]
  rfl

theorem decodeBase58_eq (hlt : ∀ x ∈ d :: ds, x < 58) (hd : d ≠ 0) :
    decodeBase58 ((d :: ds).map base58Char) =
      some ((digits 256 (ofDigits 58 (d :: ds).reverse)).reverse.map UInt8.ofNat) := by
  have hfirst : base58Char d ≠ base58Char 0 := fun h =>
    hd ((of_idxOf? (idxOf?_base58Char (hlt d mem_cons_self))).2.2.1 h)
  rw [decodeBase58, mapM_idxOf?.mpr ⟨hlt, rfl⟩, Option.map_some,
    foldl_carryInto (by decide) (by decide), numeral,
    if_neg (ofDigits_ne_zero (by decide) hd hlt), map_cons,
    takeWhile_cons_of_neg (by simpa using hfirst), map_nil]
  dsimp only
  rw [append_nil]

theorem decodeBase58_encodeBase58 (hb : b ≠ 0) :
    decodeBase58 (encodeBase58 (b :: bytes)) = some (b :: bytes) := by
  obtain ⟨n, hn, hvalue, hdigits⟩ := byteDigits hb bytes
  have hlast := getLast_digit_ne_zero 58 hn
  have hof : ofDigits 58 (digits 58 n).reverse.reverse = n := by
    rw [reverse_reverse, ofDigits_digits]
  have hlt : ∀ x ∈ (digits 58 n).reverse, x < 58 := fun x hx =>
    digits_lt_base (by decide) (mem_reverse.mp hx)
  rw [encodeBase58_eq hb hn hvalue]
  rcases hds : (digits 58 n).reverse with _ | ⟨d, ds⟩
  · exact absurd (reverse_eq_nil_iff.mp hds) (digits_ne_nil_iff_ne_zero.mpr hn)
  have hd : d ≠ 0 := by
    simpa [reverse_eq_iff.mp hds] using hlast
  rw [hds] at hof hlt
  rw [decodeBase58_eq hlt hd, hof, hdigits, reverse_reverse, map_ofNat_toNat]

theorem encodeBase58_decodeBase58 {value : List Char} (hb : b ≠ 0)
    (h : decodeBase58 value = some (b :: bytes)) : encodeBase58 (b :: bytes) = value := by
  obtain ⟨ds, hmap, hbytes⟩ := Option.map_eq_some_iff.mp h
  obtain ⟨hlt, rfl⟩ := mapM_idxOf?.mp hmap
  rcases ds with _ | ⟨d, ds⟩
  · cases hbytes
    exact absurd rfl hb
  by_cases hd : d = 0
  · -- A leading `1` is a leading zero byte.
    subst hd
    rw [map_cons, takeWhile_cons_of_pos (by simp)] at hbytes
    dsimp only at hbytes
    rw [reverse_append] at hbytes
    cases hz : (map (fun _ => 0) (base58Char 0 ::
        (ds.map base58Char).takeWhile (· = base58Char 0))).reverse with
    | nil => simp at hz
    | cons z zeros =>
      have hmem : z ∈ z :: zeros := mem_cons_self
      rw [← hz, mem_reverse] at hmem
      obtain ⟨-, -, rfl⟩ := mem_map.mp hmem
      rw [hz] at hbytes
      exact absurd (cons.inj hbytes).1.symm hb
  · rw [decodeBase58_eq hlt hd] at h
    have hn := ofDigits_ne_zero (by decide) hd hlt
    have hdigits := digits_ofDigits_reverse (by decide) hd hlt
    generalize ofDigits 58 (d :: ds).reverse = n at h hn hdigits
    rw [encodeBase58_eq hb hn, hdigits, reverse_reverse]
    rw [← Option.some.inj h, map_toNat_ofNat, reverse_reverse, ofDigits_digits]
    exact fun x hx => digits_lt_base (by decide) (mem_reverse.mp hx)

theorem hash_notin_encodeBase58 : '#' ∉ encodeBase58 bytes := by
  have hchar : ∀ d, base58Char d ≠ '#' := by
    intro d
    by_cases hd : d < 58
    · exact (of_idxOf? (idxOf?_base58Char hd)).2.2.2
    · rw [base58Char, getD_eq_getElem?_getD, getElem?_eq_none (Nat.le_of_not_lt hd)]
      decide
  intro hmem
  rcases mem_append.mp hmem with hzero | hdigit
  · obtain ⟨-, -, heq⟩ := mem_map.mp hzero
    exact hchar _ heq
  · obtain ⟨d, -, heq⟩ := mem_map.mp hdigit
    exact hchar d heq

theorem didKeyToPublicKeyBytes_of_key {key : List UInt8} (hkey : key.length = 32) :
    (publicKeyToDidKey key).bind didKeyToPublicKeyBytes = some key := by
  have hdid : publicKeyToDidKey key =
      some ("did:key:z".toList ++ encodeBase58 (ED25519_PREFIX ++ key)) := by
    rw [publicKeyToDidKey, ed25519PublicKeyToMultibase, PUBLIC_KEY_LENGTH,
      if_neg (not_not.mpr hkey)]
    rfl
  have hbare : didOrKidToDid ("did:key:z".toList ++ encodeBase58 (ED25519_PREFIX ++ key)) =
      "did:key:z".toList ++ encodeBase58 (ED25519_PREFIX ++ key) := by
    have hnone : '#' ∉ "did:key:z".toList ++ encodeBase58 (ED25519_PREFIX ++ key) := fun hmem =>
      (mem_append.mp hmem).elim (by decide) hash_notin_encodeBase58
    refine takeWhile_eq_self_iff.mpr fun c hc => ?_
    exact decide_eq_true fun heq => hnone (heq ▸ hc)
  have hdecode : decodeBase58 (encodeBase58 (ED25519_PREFIX ++ key)) =
      some (ED25519_PREFIX ++ key) := decodeBase58_encodeBase58 (by decide)
  rw [hdid, Option.bind_some, didKeyToPublicKeyBytes, hbare, if_pos (by simp)]
  show (decodeBase58 (encodeBase58 (ED25519_PREFIX ++ key))).bind _ = _
  rw [hdecode]
  simp [ED25519_PREFIX, hkey, PUBLIC_KEY_LENGTH]

theorem publicKeyToDidKey_of_did {d : List Char} {key : List UInt8}
    (h : didKeyToPublicKeyBytes d = some key) : publicKeyToDidKey key = some (didOrKidToDid d) := by
  rw [didKeyToPublicKeyBytes] at h
  split at h
  · next hprefix =>
    obtain ⟨decoded, hdecode, h⟩ := Option.bind_eq_some_iff.mp h
    split_ifs at h with htake hlength
    obtain rfl := Option.some.inj h
    have hsplit : decoded = ED25519_PREFIX ++ decoded.drop 2 := by
      rw [← not_not.mp htake, take_append_drop]
    have hencode : encodeBase58 (ED25519_PREFIX ++ decoded.drop 2) = (didOrKidToDid d).drop 9 :=
      encodeBase58_decodeBase58 (by decide) (hdecode.trans (congrArg some hsplit))
    rw [publicKeyToDidKey, ed25519PublicKeyToMultibase, if_neg hlength, hencode]
    obtain ⟨rest, hrest⟩ := isPrefixOf_iff_prefix.mp hprefix
    rw [← hrest]
    rfl
  · cases h

/-- **DIDs and keys correspond one to one.** -/
theorem did_key_one_to_one : (∀ key : List UInt8, key.length = 32 →
      (publicKeyToDidKey key).bind didKeyToPublicKeyBytes = some key) ∧
    (∀ d key, didKeyToPublicKeyBytes d = some key →
      publicKeyToDidKey key = some (didOrKidToDid d)) ∧
    ∀ d d' key, didKeyToPublicKeyBytes d = some key → didKeyToPublicKeyBytes d' = some key →
      didOrKidToDid d = didOrKidToDid d' := by
  refine ⟨fun _ => didKeyToPublicKeyBytes_of_key, fun _ _ => publicKeyToDidKey_of_did, ?_⟩
  intro d d' key h h'
  exact Option.some.inj ((publicKeyToDidKey_of_did h).symm.trans (publicKeyToDidKey_of_did h'))

theorem did_key_one_to_one_seven : ∃ d, didKeyToPublicKeyBytes d = some (replicate 32 7) ∧
    publicKeyToDidKey (replicate 32 7) = some (didOrKidToDid d) := by
  obtain ⟨d, -, hkey⟩ := Option.bind_eq_some_iff.mp
    (did_key_one_to_one.1 (replicate 32 7) length_replicate)
  exact ⟨d, hkey, did_key_one_to_one.2.1 d _ hkey⟩

end DidKey

end WebOfTrust
