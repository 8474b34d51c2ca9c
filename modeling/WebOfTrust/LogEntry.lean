/-
  **Log entries as they are sealed and signed** (`protocol/sync/encryption.ts`,
  `protocol/sync/log-entry.ts`).

  Cryptography is symbolic: an AES-GCM ciphertext is the triple of key, nonce
  and plaintext it was made from, a JWS is the payload it signs.  Concrete is
  which nonce a coordinate gets, and which inputs the sealing refuses.  SHA-256
  is a parameter.
-/
import Mathlib.Tactic.Common

namespace WebOfTrust

open List

abbrev Bytes := List UInt8
abbrev DocId := String
abbrev DeviceId := String
abbrev Did := String

instance : LawfulBEq (DeviceId × Nat) := inferInstance

/-- `Number.MAX_SAFE_INTEGER`. -/
def maxSafeInteger : Nat := 9007199254740991

/-- The content key of a document and its generation, as `getContentKey` hands
    it out. -/
structure ContentKey where
  key : Bytes
  generation : Nat

/-- An AES-256-GCM blob: what it was sealed with and what is inside. -/
structure SealedBlob where
  spaceContentKey : Bytes
  nonce : Bytes
  plaintext : Bytes
deriving DecidableEq

structure LogEntryPayload where
  seq : Nat
  deviceId : DeviceId
  docId : DocId
  authorKid : String
  keyGeneration : Nat
  data : SealedBlob
  timestamp : Nat
deriving DecidableEq

/-- The compact JWS of an entry.  `blank` is the empty string that is stored
    for a remote entry whose wire bytes were not retained. -/
inductive EntryJws where
  | blank
  | compact (payload : LogEntryPayload)
deriving DecidableEq

namespace EntryJws

def data? : EntryJws → Option SealedBlob
  | .blank => none
  | .compact p => some p.data

end EntryJws

/-- What the outside world contributes to one atomic step: an awaited call may
    reject with a message, the clock shows some time, and fresh identifiers are
    drawn at random. -/
structure Env where
  failure : Option String
  now : Nat
  uuid : String

/-! ## Sealing -/

section

variable (sha256 : String → Bytes)

def nonceLength : Nat := 12

def nonceInput (deviceId : DeviceId) (seq : Nat) : String := s!"{deviceId}|{seq}"

theorem append_sep_inj {α : Type} {sep : α} {a b xs ys : List α} (ha : sep ∉ a) (hb : sep ∉ b)
    (h : a ++ sep :: xs = b ++ sep :: ys) : a = b ∧ xs = ys := by
  induction a generalizing b with
  | nil =>
    cases b with
    | nil => exact ⟨rfl, (cons.inj h).2⟩
    | cons y b =>
      simp only [nil_append, cons_append, cons.injEq] at h
      exact absurd (h.1 ▸ mem_cons_self) hb
  | cons x a ih =>
    rcases b with _ | ⟨y, b⟩
    · simp only [nil_append, cons_append, cons.injEq] at h
      exact absurd (h.1 ▸ mem_cons_self) ha
    simp only [cons_append, cons.injEq] at h
    obtain ⟨rfl, h⟩ := h
    obtain ⟨rfl, hxs⟩ := ih (fun hm => ha (mem_cons_of_mem _ hm))
      (fun hm => hb (mem_cons_of_mem _ hm)) h
    exact ⟨rfl, hxs⟩

theorem repr_inj {n n' : Nat} (h : n.repr = n'.repr) : n = n' := by
  have hdigits : Nat.toDigits 10 n = Nat.toDigits 10 n' := by
    rw [← Nat.toList_repr, ← Nat.toList_repr, h]
  calc n = Nat.ofDigitChars 10 (Nat.toDigits 10 n) 0 := Nat.ofDigitChars_ten_toDigits.symm
    _ = Nat.ofDigitChars 10 (Nat.toDigits 10 n') 0 := by rw [hdigits]
    _ = n' := Nat.ofDigitChars_ten_toDigits

theorem sep_not_mem_repr (n : Nat) : '|' ∉ (Nat.repr n).toList.reverse := by
  intro h
  rw [mem_reverse, Nat.toList_repr] at h
  have hdigit := Nat.isDigit_of_mem_toDigits (by decide) (by decide) h
  exact absurd hdigit (by decide)

/-- **The hashed text determines the coordinate**: the decimal seq holds no
    separator, so a device id cannot run into it. -/
theorem nonceInput_inj {d d' : DeviceId} {n n' : Nat} (h : nonceInput d n = nonceInput d' n') :
    d = d' ∧ n = n' := by
  have htext (d : DeviceId) (n : Nat) : (nonceInput d n).toList.reverse
      = (Nat.repr n).toList.reverse ++ '|' :: d.toList.reverse := by
    simp [nonceInput, toString]
  have hlist := congrArg (fun s : String => s.toList.reverse) h
  simp only [htext] at hlist
  obtain ⟨hn, hd⟩ := append_sep_inj (sep_not_mem_repr n) (sep_not_mem_repr n') hlist
  exact ⟨String.toList_inj.mp (reverse_inj.mp hd),
    repr_inj (String.toList_inj.mp (reverse_inj.mp hn))⟩

/-- The deterministic nonce of a log payload: `SHA-256(deviceId | seq)[0:12]`. -/
def deriveLogPayloadNonce (deviceId : DeviceId) (seq : Nat) : Except String Bytes :=
  if deviceId.isEmpty then .error "Missing deviceId"
  else if maxSafeInteger < seq then .error "Invalid seq"
  else .ok ((sha256 (nonceInput deviceId seq)).take nonceLength)

def encryptLogPayload (spaceContentKey : Bytes) (deviceId : DeviceId) (seq : Nat)
    (plaintext : Bytes) : Except String SealedBlob :=
  if spaceContentKey.length ≠ 32 then .error "Space content key must be 32 bytes"
  else if plaintext.isEmpty then .error "Log payload plaintext must not be empty"
  else
    match deriveLogPayloadNonce sha256 deviceId seq with
    | .error e => .error e
    | .ok nonce =>
      .ok { spaceContentKey := spaceContentKey, nonce := nonce, plaintext := plaintext }

/-- What a writer brings to an append: the document, the device namespace, its
    signing key id, the content key and the encoded update. -/
structure LogWrite where
  docId : DocId
  deviceId : DeviceId
  authorKid : String
  content : ContentKey
  encoded : Bytes

/-- The `build(seq)` callback of a local write: seal the update under the
    reserved coordinate and sign the entry.  Signing may reject. -/
def buildEntryJws (w : LogWrite) (seq : Nat) (env : Env) : Except String EntryJws :=
  match encryptLogPayload sha256 w.content.key w.deviceId seq w.encoded with
  | .error e => .error e
  | .ok data =>
    match env.failure with
    | some e => .error e
    | none =>
      .ok (.compact
        { seq := seq, deviceId := w.deviceId, docId := w.docId, authorKid := w.authorKid,
          keyGeneration := w.content.generation, data := data, timestamp := env.now })

variable {sha256}

theorem deriveLogPayloadNonce_ok {deviceId : DeviceId} {seq : Nat} {nonce : Bytes}
    (h : deriveLogPayloadNonce sha256 deviceId seq = .ok nonce) :
    nonce = (sha256 (nonceInput deviceId seq)).take nonceLength := by
  simp only [deriveLogPayloadNonce] at h
  split at h
  · cases h
  split at h
  · cases h
  · cases h; rfl

theorem encryptLogPayload_ok {key : Bytes} {deviceId : DeviceId} {seq : Nat} {plaintext : Bytes}
    {data : SealedBlob} (h : encryptLogPayload sha256 key deviceId seq plaintext = .ok data) :
    data.spaceContentKey = key ∧ data.plaintext = plaintext ∧
      data.nonce = (sha256 (nonceInput deviceId seq)).take nonceLength := by
  simp only [encryptLogPayload] at h
  split at h
  · cases h
  split at h
  · cases h
  split at h
  · cases h
  · next nonce hnonce => cases h; exact ⟨rfl, rfl, deriveLogPayloadNonce_ok hnonce⟩

/-- **What a build releases**: an entry for exactly the reserved coordinate,
    sealed under the nonce derived from it. -/
theorem buildEntryJws_ok {w : LogWrite} {seq : Nat} {env : Env} {jws : EntryJws}
    (h : buildEntryJws sha256 w seq env = .ok jws) :
    ∃ p, jws = .compact p ∧ p.docId = w.docId ∧ p.deviceId = w.deviceId ∧ p.seq = seq ∧
      p.keyGeneration = w.content.generation ∧ p.data.plaintext = w.encoded ∧
      p.data.spaceContentKey = w.content.key ∧
      p.data.nonce = (sha256 (nonceInput w.deviceId seq)).take nonceLength := by
  simp only [buildEntryJws] at h
  split at h
  · cases h
  next data hdata =>
  obtain ⟨hkey, hplain, hnonce⟩ := encryptLogPayload_ok hdata
  split at h
  · cases h
  · cases h
    exact ⟨_, rfl, rfl, rfl, rfl, rfl, hplain, hkey, hnonce⟩

end

end WebOfTrust
