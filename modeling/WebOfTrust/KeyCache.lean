/-
  **The key store behind its cache** (`IndexedDBKeyManagementAdapter.ts`).

  A write drops what it covers from the cache when it is called, and takes effect on the
  durable store later; a read that misses the cache fetches its record, and caches it when
  it goes on.  A record fetched before a write took effect can be put back behind it, and
  stays in use (`deleted_key_stays_in_use`).  Where every record that is
  put into the cache is still what the store holds, with no write of its slot under way, all
  reads answer with what the store held between their start and their return
  (`reads_answer_from_store`).

  `earlier` is history: the durable states before the present one.
-/
import WebOfTrust.GroupKeys
import WebOfTrust.Machine
import WebOfTrust.ReadThroughCache
import Mathlib.Data.List.MinMax

namespace WebOfTrust

open KeyedTable List

/-! ## 1. Reads -/

inductive KeyRead where
  | getCurrentKey (spaceId : DocId)
  | getCurrentGeneration (spaceId : DocId)
  | getKeyByGeneration (slot : KeySlot)
  | getCapabilitySigningSeed (slot : KeySlot)
  | getCapabilityVerificationKey (slot : KeySlot)
  | getOwnCapability (slot : KeySlot)
deriving DecidableEq

inductive KeyRecord where
  | content (record : Option StoredContentKey)
  | capKeyPair (record : Option StoredCapKeyPair)
  | ownCapability (record : Option StoredOwnCapability)
deriving DecidableEq

inductive KeyAnswer where
  | bytes (key : Option Bytes)
  | generation (generation : Int)
  | jws (capabilityJws : Option String)
deriving DecidableEq

def KeyStore.maxGenerationRecord (s : KeyStore) (spaceId : DocId) : Option StoredContentKey :=
  (s.contentKeys.rows.filter fun r => decide (r.slot.1 = spaceId)).argmax fun r => r.slot.2

open KeyStore

namespace KeyRead

/-- `assertValidGeneration`, where a read makes it. -/
def check : KeyRead → Except String Unit
  | .getCurrentKey _ | .getCurrentGeneration _ | .getOwnCapability _ => .ok ()
  | .getKeyByGeneration slot | .getCapabilitySigningSeed slot
  | .getCapabilityVerificationKey slot => withValidGeneration slot.2 (.ok ())

def fetch (s : KeyStore) : KeyRead → KeyRecord
  | .getCurrentKey spaceId | .getCurrentGeneration spaceId =>
    .content (s.maxGenerationRecord spaceId)
  | .getKeyByGeneration slot => .content (s.contentKeys.get? slot)
  | .getCapabilitySigningSeed slot | .getCapabilityVerificationKey slot =>
    .capKeyPair (s.capKeyPairs.get? slot)
  | .getOwnCapability slot => .ownCapability (s.ownCapabilities.get? slot)

def report : KeyRead → KeyRecord → KeyAnswer
  | .getCurrentGeneration _, .content record =>
    .generation (record.elim (-1) fun r => (r.slot.2 : Int))
  | _, .content record => .bytes (record.map (·.key))
  | .getCapabilityVerificationKey _, .capKeyPair record =>
    .bytes (record.map (·.verificationKey))
  | _, .capKeyPair record => .bytes (record.map (·.signingSeed))
  | _, .ownCapability record => .jws (record.map (·.capabilityJws))

def answer (s : KeyStore) (read : KeyRead) : KeyAnswer := read.report (read.fetch s)

end KeyRead

/-! ## 2. Writes -/

inductive KeyWrite where
  | saveKey (slot : KeySlot) (key : Bytes)
  | saveCapabilityKeyPair (slot : KeySlot) (signingSeed verificationKey : Bytes)
  | saveOwnCapability (slot : KeySlot) (capabilityJws : String)
  | deleteSpaceKeys (spaceId : DocId)
  | clear
  | close
deriving DecidableEq

def cacheKey (slot : KeySlot) : String := slot.1 ++ "#" ++ toString slot.2

def KeyStore.deleteSpaceKeys (s : KeyStore) (spaceId : DocId) : KeyStore where
  contentKeys := s.contentKeys.filter fun r => !decide (r.slot.1 = spaceId)
  capKeyPairs := s.capKeyPairs.filter fun r => !decide (r.slot.1 = spaceId)
  ownCapabilities := s.ownCapabilities.filter fun r => !decide (r.slot.1 = spaceId)

namespace KeyWrite

/-- What a write does to the durable store, or the check that it fails.  The checks do not
    look at the store. -/
def run (s : KeyStore) : KeyWrite → Except String KeyStore
  | .saveKey slot key => s.saveKey slot key
  | .saveCapabilityKeyPair slot signingSeed verificationKey =>
    s.saveCapabilityKeyPair slot signingSeed verificationKey
  | .saveOwnCapability slot capabilityJws => s.saveOwnCapability slot capabilityJws
  | .deleteSpaceKeys spaceId => .ok (s.deleteSpaceKeys spaceId)
  | .clear => .ok .empty
  | .close => .ok s

/-- `invalidateSpace`: the slots whose cache key starts with the space and a separator. -/
def ofSpace (spaceId : DocId) (slot : KeySlot) : Bool :=
  (spaceId ++ "#").toList.isPrefixOf (cacheKey slot).toList

/-- The slots of `contentKeyCache` that a write drops. -/
def dropsContent : KeyWrite → KeySlot → Bool
  | .saveKey slot _, other => decide (slot = other)
  | .saveCapabilityKeyPair _ _ _, _ | .saveOwnCapability _ _, _ => false
  | .deleteSpaceKeys spaceId, other => ofSpace spaceId other
  | .clear, _ | .close, _ => true

/-- The slots of `capKeyPairCache` that a write drops. -/
def dropsCap : KeyWrite → KeySlot → Bool
  | .saveCapabilityKeyPair slot _ _, other => decide (slot = other)
  | .saveKey _ _, _ | .saveOwnCapability _ _, _ => false
  | .deleteSpaceKeys spaceId, other => ofSpace spaceId other
  | .clear, _ | .close, _ => true

def coversContent : KeyWrite → KeySlot → Bool
  | .saveKey slot _, other => decide (slot = other)
  | .saveCapabilityKeyPair _ _ _, _ | .saveOwnCapability _ _, _ | .close, _ => false
  | .deleteSpaceKeys spaceId, other => decide (other.1 = spaceId)
  | .clear, _ => true

def coversCap : KeyWrite → KeySlot → Bool
  | .saveCapabilityKeyPair slot _ _, other => decide (slot = other)
  | .saveKey _ _, _ | .saveOwnCapability _ _, _ | .close, _ => false
  | .deleteSpaceKeys spaceId, other => decide (other.1 = spaceId)
  | .clear, _ => true

end KeyWrite

/-! ## 3. The adapter -/

inductive KeyWriteStage where
  | begun
  | effective
  | completed
  | failed
deriving DecidableEq

structure KeyWriteCall where
  write : KeyWrite
  stage : KeyWriteStage

inductive KeyReadStage where
  | asked
  | fetched (record : KeyRecord)
  | returned (answer : KeyAnswer) (ended : Nat)
  | failed
deriving DecidableEq

/-- A read, with the number of durable states before its start and the writes that had
    completed by then. -/
structure KeyReadCall where
  read : KeyRead
  started : Nat
  behind : List KeyWrite
  stage : KeyReadStage
deriving DecidableEq

structure KeyManagementAdapter where
  store : KeyStore
  contentKeyCache : KeyedTable StoredContentKey.slot
  capKeyPairCache : KeyedTable StoredCapKeyPair.slot
  writes : List KeyWriteCall
  reads : List KeyReadCall
  earlier : List KeyStore

namespace KeyManagementAdapter

def start (store : KeyStore) : KeyManagementAdapter where
  store := store
  contentKeyCache := .empty
  capKeyPairCache := .empty
  writes := []
  reads := []
  earlier := []

variable (a : KeyManagementAdapter)

def now : Nat := a.earlier.length

def cached : KeyRead → Option KeyRecord
  | .getKeyByGeneration slot =>
    (a.contentKeyCache.get? slot).map fun r => .content (some r)
  | .getCapabilitySigningSeed slot | .getCapabilityVerificationKey slot =>
    (a.capKeyPairCache.get? slot).map fun r => .capKeyPair (some r)
  | .getCurrentKey _ | .getCurrentGeneration _ | .getOwnCapability _ => none

def fill : KeyRecord → KeyManagementAdapter
  | .content (some r) => { a with contentKeyCache := a.contentKeyCache.put r }
  | .capKeyPair (some r) => { a with capKeyPairCache := a.capKeyPairCache.put r }
  | .content none | .capKeyPair none | .ownCapability _ => a

def invalidate (write : KeyWrite) : KeyManagementAdapter :=
  { a with
    contentKeyCache := a.contentKeyCache.filter fun r => !write.dropsContent r.slot
    capKeyPairCache := a.capKeyPairCache.filter fun r => !write.dropsCap r.slot }

def setWrite (n : Nat) (call : KeyWriteCall) : KeyManagementAdapter :=
  { a with writes := a.writes.set n call }

def setRead (n : Nat) (call : KeyReadCall) : KeyManagementAdapter :=
  { a with reads := a.reads.set n call }

def addRead (call : KeyReadCall) : KeyManagementAdapter :=
  { a with reads := a.reads ++ [call] }

def completedWrites : List KeyWrite :=
  (a.writes.filter fun call => decide (call.stage = .completed)).map KeyWriteCall.write

def beginRead (read : KeyRead) : KeyManagementAdapter :=
  let stage := match read.check with
    | .error _ => .failed
    | .ok _ => match a.cached read with
      | some record => .returned (read.report record) a.now
      | none => .asked
  a.addRead ⟨read, a.now, a.completedWrites, stage⟩

def beginWrite (write : KeyWrite) : KeyManagementAdapter :=
  match write.run a.store with
  | .error _ => { a with writes := a.writes ++ [⟨write, .failed⟩] }
  | .ok _ => { a.invalidate write with writes := a.writes ++ [⟨write, .begun⟩] }

inductive Input where
  | write (write : KeyWrite)
  | takesEffect (n : Nat)
  | completes (n : Nat)
  | writeFails (n : Nat)
  | read (read : KeyRead)
  | fetches (n : Nat)
  | resumes (n : Nat)
  | readFails (n : Nat)
deriving DecidableEq

def step : Input → Option KeyManagementAdapter
  | .write write => some (a.beginWrite write)
  | .takesEffect n =>
    match a.writes[n]? with
    | some ⟨write, .begun⟩ =>
      match write.run a.store with
      | .ok store =>
        some { a.setWrite n ⟨write, .effective⟩ with
          store := store
          earlier := a.earlier ++ [a.store] }
      | .error _ => none
    | _ => none
  | .completes n =>
    match a.writes[n]? with
    | some ⟨write, .effective⟩ => some (a.setWrite n ⟨write, .completed⟩)
    | _ => none
  | .writeFails n =>
    match a.writes[n]? with
    | some ⟨write, .begun⟩ => some (a.setWrite n ⟨write, .failed⟩)
    | _ => none
  | .read read => some (a.beginRead read)
  | .fetches n =>
    match a.reads[n]? with
    | some ⟨read, started, behind, .asked⟩ =>
      some (a.setRead n ⟨read, started, behind, .fetched (read.fetch a.store)⟩)
    | _ => none
  | .resumes n =>
    match a.reads[n]? with
    | some ⟨read, started, behind, .fetched record⟩ =>
      some ((a.fill record).setRead n ⟨read, started, behind, .returned (read.report record) a.now⟩)
    | _ => none
  | .readFails n =>
    match a.reads[n]? with
    | some ⟨read, started, behind, .asked⟩ => some (a.setRead n ⟨read, started, behind, .failed⟩)
    | _ => none

def underWay (covers : KeyWrite → Bool) : Bool :=
  a.writes.any fun call => decide (call.stage = .begun) && covers call.write

/-- A record that goes into the cache is what the store holds, and no write of its slot is
    under way. -/
def fresh : KeyRecord → Bool
  | .content (some r) =>
    decide (a.store.contentKeys.get? r.slot = some r) &&
      !a.underWay fun write => write.coversContent r.slot
  | .capKeyPair (some r) =>
    decide (a.store.capKeyPairs.get? r.slot = some r) &&
      !a.underWay fun write => write.coversCap r.slot
  | .content none | .capKeyPair none | .ownCapability _ => true

def fillsFresh : Input → Bool
  | .resumes n =>
    match a.reads[n]? with
    | some ⟨_, _, _, .fetched record⟩ => a.fresh record
    | _ => true
  | _ => true

abbrev FillsFresh (i : Input) : Prop := a.fillsFresh i = true

abbrev AnyOrder (_ : KeyManagementAdapter) (_ : Input) : Prop := True

end KeyManagementAdapter

/-! ## 4. What writes and reads do -/

variable {slot : KeySlot} {write : KeyWrite} {s : KeyStore}

open KeyWrite

theorem ofSpace_of_space {spaceId : DocId} (h : slot.1 = spaceId) :
    ofSpace spaceId slot = true := by
  unfold ofSpace cacheKey
  rw [h, isPrefixOf_iff_prefix]
  simp only [String.toList_append]
  exact prefix_append _ _

theorem KeyWrite.drops_of_coversContent (h : write.coversContent slot = true) :
    write.dropsContent slot = true := by
  cases write with
  | saveKey _ _ => exact h
  | deleteSpaceKeys _ => exact ofSpace_of_space (of_decide_eq_true h)
  | clear | close => rfl
  | saveCapabilityKeyPair _ _ _ | saveOwnCapability _ _ => cases h

theorem KeyWrite.drops_of_coversCap (h : write.coversCap slot = true) :
    write.dropsCap slot = true := by
  cases write with
  | saveCapabilityKeyPair _ _ _ => exact h
  | deleteSpaceKeys _ => exact ofSpace_of_space (of_decide_eq_true h)
  | clear | close => rfl
  | saveKey _ _ | saveOwnCapability _ _ => cases h

theorem get?_filter_kept {ρ : Type} {key : ρ → KeySlot} (t : KeyedTable key) {spaceId : DocId}
    (h : decide (slot.1 = spaceId) = false) :
    (t.filter fun r => !decide ((key r).1 = spaceId)).get? slot = t.get? slot := by
  rw [get?_filter_key t (fun k => !decide (k.1 = spaceId)), if_pos (by simp [h])]

theorem KeyWrite.content_frame {s' : KeyStore} (h : write.run s = .ok s')
    (hslot : write.coversContent slot = false) :
    s'.contentKeys.get? slot = s.contentKeys.get? slot := by
  cases write with
  | saveKey other key =>
    have hput := withValidGeneration_ok h
    split at hput
    · cases hput
    cases hput
    have hne : other ≠ slot := of_decide_eq_false hslot
    show (s.contentKeys.put _).get? slot = _
    rw [get?_put, if_neg hne]
  | saveCapabilityKeyPair _ _ _ => rw [contentKeys_saveCapabilityKeyPair h]
  | saveOwnCapability _ _ => rw [contentKeys_saveOwnCapability h]
  | deleteSpaceKeys spaceId =>
    cases h
    exact get?_filter_kept s.contentKeys hslot
  | clear => cases hslot
  | close =>
    cases h
    rfl

theorem KeyWrite.cap_frame {s' : KeyStore} (h : write.run s = .ok s')
    (hslot : write.coversCap slot = false) :
    s'.capKeyPairs.get? slot = s.capKeyPairs.get? slot := by
  cases write with
  | saveKey other key =>
    have hput := withValidGeneration_ok h
    split at hput
    · cases hput
    · cases hput
      rfl
  | saveCapabilityKeyPair other seed verificationKey =>
    have hput := withValidGeneration_ok h
    split at hput
    · cases hput
    split at hput
    · cases hput
    cases hput
    have hne : other ≠ slot := of_decide_eq_false hslot
    show (s.capKeyPairs.put _).get? slot = _
    rw [get?_put, if_neg hne]
  | saveOwnCapability _ _ =>
    cases withValidGeneration_ok h
    rfl
  | deleteSpaceKeys spaceId =>
    cases h
    exact get?_filter_kept s.capKeyPairs hslot
  | clear => cases hslot
  | close =>
    cases h
    rfl

/-! ## 5. Instants -/

open KeyManagementAdapter

namespace KeyManagementAdapter

variable {a a' : KeyManagementAdapter}

/-- At some instant between the two, the store was as `P` says. -/
def HeldBetween (a : KeyManagementAdapter) (started ended : Nat) (P : KeyStore → Prop) : Prop :=
  ∃ t s, started ≤ t ∧ t ≤ ended ∧ (a.earlier ++ [a.store])[t]? = some s ∧ P s

/-- The past of `a'` is the past of `a`, and perhaps its present. -/
def Extends (a a' : KeyManagementAdapter) : Prop :=
  ∃ rest, a'.earlier ++ [a'.store] = a.earlier ++ [a.store] ++ rest

theorem Extends.of_eq (hstore : a'.store = a.store) (hearlier : a'.earlier = a.earlier) :
    Extends a a' := ⟨[], by rw [hstore, hearlier, append_nil]⟩

theorem Extends.now_le (h : Extends a a') : a.now ≤ a'.now := by
  obtain ⟨rest, hrest⟩ := h
  have hlength := congrArg length hrest
  simp only [length_append, length_cons, length_nil] at hlength
  unfold now
  omega

theorem HeldBetween.extend {started ended ended' : Nat} {P : KeyStore → Prop}
    (h : a.HeldBetween started ended P) (hext : Extends a a') (hended : ended ≤ ended') :
    a'.HeldBetween started ended' P := by
  obtain ⟨t, s, hstarted, ht, hs, hP⟩ := h
  obtain ⟨rest, hrest⟩ := hext
  refine ⟨t, s, hstarted, Nat.le_trans ht hended, ?_, hP⟩
  rw [hrest, getElem?_append_left]
  · exact hs
  · exact (List.getElem?_eq_some_iff.mp hs).1

theorem heldBetween_now {started : Nat} {P : KeyStore → Prop} (h : started ≤ a.now)
    (hP : P a.store) : a.HeldBetween started a.now P := by
  refine ⟨a.now, a.store, h, Nat.le_refl _, ?_, hP⟩
  show (a.earlier ++ [a.store])[a.earlier.length]? = _
  simp

/-! ## 6. The cache is coherent -/

def ReadSound (a : KeyManagementAdapter) (call : KeyReadCall) : Prop :=
  call.started ≤ a.now ∧ match call.stage with
    | .fetched record =>
      a.HeldBetween call.started a.now fun s => call.read.fetch s = record
    | .returned answer ended =>
      a.HeldBetween call.started ended fun s => call.read.answer s = answer
    | .asked | .failed => True

theorem ReadSound.extend {call : KeyReadCall} (h : a.ReadSound call) (hext : Extends a a') :
    a'.ReadSound call := by
  refine ⟨Nat.le_trans h.1 hext.now_le, ?_⟩
  have hstage := h.2
  split at hstage
  · exact hstage.extend hext hext.now_le
  · exact hstage.extend hext (Nat.le_refl _)
  · trivial
  · trivial

def Announced (a : KeyManagementAdapter) (covers : KeyWrite → KeySlot → Bool)
    (c : KeySlot → Bool) : Prop :=
  ∃ call ∈ a.writes, call.stage = .begun ∧ covers call.write = c

structure CacheInv (a : KeyManagementAdapter) : Prop where
  content : Coherent a.store.contentKeys a.contentKeyCache (a.Announced coversContent)
  cap : Coherent a.store.capKeyPairs a.capKeyPairCache (a.Announced coversCap)
  reads : ∀ call ∈ a.reads, a.ReadSound call

theorem cacheInv_start (s : KeyStore) : CacheInv (start s) where
  content := coherent_empty
  cap := coherent_empty
  reads _ hcall := by cases hcall

section

variable {n : Nat} {record : KeyRecord}

theorem CacheInv.setRead (h : CacheInv a) {call : KeyReadCall} (hcall : a.ReadSound call) :
    CacheInv (a.setRead n call) := by
  have hext : Extends a (a.setRead n call) := .of_eq rfl rfl
  refine ⟨h.content, h.cap, fun call' hmem => ?_⟩
  rcases mem_or_eq_of_mem_set hmem with hold | rfl
  · exact (h.reads call' hold).extend hext
  · exact hcall.extend hext

theorem CacheInv.addRead (h : CacheInv a) {call : KeyReadCall} (hcall : a.ReadSound call) :
    CacheInv (a.addRead call) := by
  have hext : Extends a (a.addRead call) := .of_eq rfl rfl
  refine ⟨h.content, h.cap, fun call' hmem => ?_⟩
  rcases mem_append.mp hmem with hold | hnew
  · exact (h.reads call' hold).extend hext
  · rw [mem_singleton.mp hnew]
    exact hcall.extend hext

theorem Announced.of_set {call : KeyWriteCall} (hstage : call.stage ≠ .begun)
    {covers : KeyWrite → KeySlot → Bool} {c : KeySlot → Bool}
    (h : (a.setWrite n call).Announced covers c) : a.Announced covers c := by
  obtain ⟨call', hmem, hbegun, hcovers⟩ := h
  rcases mem_or_eq_of_mem_set hmem with hold | rfl
  · exact ⟨call', hold, hbegun, hcovers⟩
  · exact absurd hbegun hstage

section

variable (h : CacheInv a)
include h

theorem CacheInv.setWrite {call : KeyWriteCall} (hstage : call.stage ≠ .begun) :
    CacheInv (a.setWrite n call) where
  content := h.content.weaken fun _ hc => hc.of_set hstage
  cap := h.cap.weaken fun _ hc => hc.of_set hstage
  reads call' hmem := (h.reads call' hmem).extend (.of_eq rfl rfl)

theorem CacheInv.beginWrite (write : KeyWrite) : CacheInv (a.beginWrite write) := by
  unfold KeyManagementAdapter.beginWrite
  split
  · -- a failed check announces nothing
    have hannounced : ∀ covers c, Announced { a with writes := a.writes ++ [⟨write, .failed⟩] }
        covers c → a.Announced covers c := by
      rintro covers c ⟨call, hmem, hbegun, hcovers⟩
      rcases mem_append.mp hmem with hold | hnew
      · exact ⟨call, hold, hbegun, hcovers⟩
      · rw [mem_singleton.mp hnew] at hbegun
        cases hbegun
    exact ⟨h.content.weaken (hannounced _), h.cap.weaken (hannounced _),
      fun call hmem => (h.reads call hmem).extend (.of_eq rfl rfl)⟩
  · have hannounced : ∀ covers c,
        Announced { a.invalidate write with writes := a.writes ++ [⟨write, .begun⟩] } covers c →
          a.Announced covers c ∨ c = covers write := by
      rintro covers c ⟨call, hmem, hbegun, hcovers⟩
      rcases mem_append.mp hmem with hold | hnew
      · exact Or.inl ⟨call, hold, hbegun, hcovers⟩
      · rw [mem_singleton.mp hnew] at hcovers
        exact Or.inr hcovers.symm
    exact ⟨h.content.announce (fun _ => write.drops_of_coversContent) (hannounced _),
      h.cap.announce (fun _ => write.drops_of_coversCap) (hannounced _),
      fun call hmem => (h.reads call hmem).extend (.of_eq rfl rfl)⟩

theorem CacheInv.takesEffect {store : KeyStore}
    (hcall : a.writes[n]? = some ⟨write, .begun⟩) (hrun : write.run a.store = .ok store) :
    CacheInv { a.setWrite n ⟨write, .effective⟩ with
      store := store
      earlier := a.earlier ++ [a.store] } := by
  have hmem := mem_of_getElem? hcall
  have hannounced : ∀ covers, a.Announced covers (covers write) :=
    fun covers => ⟨_, hmem, rfl, rfl⟩
  have hstage : (KeyWriteCall.mk write .effective).stage ≠ .begun := by simp
  constructor
  · have hkept : Coherent store.contentKeys a.contentKeyCache (a.Announced coversContent) :=
      h.content.takesEffect (hannounced _) fun k hk => write.content_frame hrun hk
    exact hkept.weaken fun c hc => Announced.of_set hstage hc
  · have hkept : Coherent store.capKeyPairs a.capKeyPairCache (a.Announced coversCap) :=
      h.cap.takesEffect (hannounced _) fun k hk => write.cap_frame hrun hk
    exact hkept.weaken fun c hc => Announced.of_set hstage hc
  · intro call hread
    exact (h.reads call hread).extend ⟨[store], rfl⟩

theorem CacheInv.cached {read : KeyRead} (hhit : a.cached read = some record) :
    read.fetch a.store = record := by
  unfold KeyManagementAdapter.cached at hhit
  split at hhit
  · obtain ⟨r, hr, rfl⟩ := Option.map_eq_some_iff.mp hhit
    show KeyRecord.content _ = _
    rw [h.content.hit _ r hr]
  · obtain ⟨r, hr, rfl⟩ := Option.map_eq_some_iff.mp hhit
    show KeyRecord.capKeyPair _ = _
    rw [h.cap.hit _ r hr]
  · obtain ⟨r, hr, rfl⟩ := Option.map_eq_some_iff.mp hhit
    show KeyRecord.capKeyPair _ = _
    rw [h.cap.hit _ r hr]
  · cases hhit
  · cases hhit
  · cases hhit

theorem CacheInv.beginRead (read : KeyRead) : CacheInv (a.beginRead read) := by
  apply h.addRead
  refine ⟨Nat.le_refl _, ?_⟩
  dsimp only
  rcases read.check with text | _
  · trivial
  rcases hhit : a.cached read with _ | record
  · trivial
  apply heldBetween_now (Nat.le_refl _)
  unfold KeyRead.answer
  rw [h.cached hhit]

end

theorem quiet_of_underWay {covers : KeyWrite → KeySlot → Bool}
    (h : (a.underWay fun write => covers write slot) = false) :
    ∀ c, a.Announced covers c → c slot = false := by
  rintro c ⟨call, hmem, hbegun, rfl⟩
  have hnot := any_eq_false.mp h call hmem
  simpa [hbegun] using hnot

theorem CacheInv.fill (h : CacheInv a) (hfresh : a.fresh record = true) :
    CacheInv (a.fill record) := by
  have hreads : ∀ a' : KeyManagementAdapter, a'.store = a.store → a'.earlier = a.earlier →
      ∀ call ∈ a.reads, a'.ReadSound call :=
    fun a' hstore hearlier call hmem => (h.reads call hmem).extend (.of_eq hstore hearlier)
  unfold KeyManagementAdapter.fill
  split
  · next r =>
    simp only [fresh, Bool.and_eq_true, decide_eq_true_eq, Bool.not_eq_true'] at hfresh
    exact ⟨h.content.fill hfresh.1 (quiet_of_underWay hfresh.2), h.cap, hreads _ rfl rfl⟩
  · next r =>
    simp only [fresh, Bool.and_eq_true, decide_eq_true_eq, Bool.not_eq_true'] at hfresh
    exact ⟨h.content, h.cap.fill hfresh.1 (quiet_of_underWay hfresh.2), hreads _ rfl rfl⟩
  · exact h
  · exact h
  · exact h

theorem store_fill (record : KeyRecord) :
    (a.fill record).store = a.store ∧ (a.fill record).earlier = a.earlier := by
  unfold fill
  split <;> exact ⟨rfl, rfl⟩

theorem CacheInv.resumes (h : CacheInv a) {started : Nat} {read : KeyRead} {behind : List KeyWrite}
    (hcall : a.reads[n]? = some ⟨read, started, behind, .fetched record⟩)
    (hfresh : a.fresh record = true) : CacheInv ((a.fill record).setRead n
      ⟨read, started, behind, .returned (read.report record) a.now⟩) := by
  obtain ⟨hstarted, hheld⟩ := h.reads _ (mem_of_getElem? hcall)
  obtain ⟨hstore, hearlier⟩ := store_fill (a := a) record
  have hext : Extends a (a.fill record) := .of_eq hstore hearlier
  apply (h.fill hfresh).setRead
  apply ReadSound.extend (a := a) _ hext
  refine ⟨hstarted, ?_⟩
  obtain ⟨t, s, ht, hnow, hs, hfetch⟩ := hheld
  refine ⟨t, s, ht, hnow, hs, ?_⟩
  dsimp only at hfetch ⊢
  unfold KeyRead.answer
  rw [hfetch]

theorem CacheInv.step {i : Input} (h : CacheInv a) (hfresh : a.FillsFresh i)
    (hs : a.step i = some a') : CacheInv a' := by
  cases i with
  | write write =>
    cases hs
    exact h.beginWrite write
  | takesEffect n =>
    simp only [KeyManagementAdapter.step] at hs
    split at hs
    · next write hcall =>
      split at hs
      · next store hrun =>
        cases hs
        exact h.takesEffect hcall hrun
      · cases hs
    · cases hs
  | completes n | writeFails n =>
    simp only [KeyManagementAdapter.step] at hs
    split at hs
    · cases hs
      exact h.setWrite (by simp)
    · cases hs
  | read read =>
    cases hs
    exact h.beginRead read
  | fetches n =>
    simp only [KeyManagementAdapter.step] at hs
    split at hs
    · next read started behind hcall =>
      cases hs
      apply h.setRead
      have hstarted := (h.reads _ (mem_of_getElem? hcall)).1
      exact ⟨hstarted, heldBetween_now hstarted rfl⟩
    · cases hs
  | resumes n =>
    simp only [KeyManagementAdapter.step] at hs
    split at hs
    · next read started behind record hcall =>
      cases hs
      apply h.resumes hcall
      simp only [FillsFresh, fillsFresh, hcall] at hfresh
      exact hfresh
    · cases hs
  | readFails n =>
    simp only [KeyManagementAdapter.step] at hs
    split at hs
    · next read started behind hcall =>
      cases hs
      apply h.setRead
      exact ⟨(h.reads _ (mem_of_getElem? hcall)).1, trivial⟩
    · cases hs

end

/-- **Every read answers from the store**, as it was between the start of the read and its
    return, in every run in which nothing is put into the cache too late. -/
theorem reads_answer_from_store {store : KeyStore} {a : KeyManagementAdapter}
    (h : Machine.Reaches step FillsFresh (start store) a) :
    ∀ call ∈ a.reads, ∀ answer ended, call.stage = .returned answer ended →
      a.HeldBetween call.started ended fun s => call.read.answer s = answer := by
  have hinv : CacheInv a :=
    h.invariant (cacheInv_start store) fun _ _ _ hinv hadm hs => hinv.step hadm hs
  intro call hcall answer ended hstage
  have hsound := (hinv.reads call hcall).2
  rw [hstage] at hsound
  exact hsound

def firstKey : StoredContentKey := ⟨("space-1", 0), replicate 32 7⟩

def oneKey : KeyStore := { KeyStore.empty with contentKeys := empty.put firstKey }

def readFirstKey : KeyRead := .getKeyByGeneration ("space-1", 0)

/-- A key is read, deleted, and read again. -/
theorem reads_answer_from_store_deleted : ∃ a, Machine.Reaches step FillsFresh (start oneKey) a ∧
      (∀ call ∈ a.reads, ∀ answer ended, call.stage = .returned answer ended →
        a.HeldBetween call.started ended fun s => call.read.answer s = answer) ∧
      a.reads.map KeyReadCall.stage =
        [.returned (.bytes (some firstKey.key)) 0, .returned (.bytes none) 1] := by
  obtain ⟨a, hreach, hreads⟩ := Machine.Reaches.of_exec step FillsFresh (start oneKey)
    [.read readFirstKey, .fetches 0, .resumes 0, .write (.deleteSpaceKeys "space-1"),
      .takesEffect 0, .completes 0, .read readFirstKey, .fetches 1, .resumes 1]
    (fun a => decide (a.reads.map KeyReadCall.stage =
      [.returned (.bytes (some firstKey.key)) 0, .returned (.bytes none) 1])) (by decide +kernel)
  exact ⟨a, hreach, reads_answer_from_store hreach, of_decide_eq_true hreads⟩

/-- **A deleted key stays in use**: it was fetched before the deletion, and put into the
    cache behind it. -/
theorem deleted_key_stays_in_use : ¬ ∀ (store : KeyStore) (a : KeyManagementAdapter),
      Machine.Reaches step AnyOrder (start store) a →
      ∀ call ∈ a.reads, ∀ answer ended, call.stage = .returned answer ended → call.behind ≠ [] →
        a.HeldBetween call.started ended fun s => call.read.answer s = answer := by
  intro h
  let late : KeyReadCall := ⟨readFirstKey, 1, [.deleteSpaceKeys "space-1"],
    .returned (.bytes (some firstKey.key)) 1⟩
  obtain ⟨a, hreach, htest⟩ := Machine.Reaches.of_exec step AnyOrder (start oneKey)
    [.read readFirstKey, .fetches 0, .write (.deleteSpaceKeys "space-1"), .takesEffect 0,
      .completes 0, .resumes 0, .read readFirstKey]
    (fun a => decide (a.reads[1]? = some late ∧ a.earlier.length = 1 ∧
      readFirstKey.answer a.store = .bytes none)) (by decide +kernel)
  obtain ⟨hlate, hlength, hgone⟩ := of_decide_eq_true htest
  obtain ⟨t, s, hstarted, hended, hs, hanswer⟩ :=
    h oneKey a hreach late (mem_of_getElem? hlate) _ _ rfl (by simp [late])
  have ht : t = a.earlier.length := by
    rw [hlength]
    exact Nat.le_antisymm hended hstarted
  rw [ht, getElem?_append_right (Nat.le_refl _), Nat.sub_self] at hs
  cases hs
  have hboth : KeyAnswer.bytes none = .bytes (some firstKey.key) := hgone.symm.trans hanswer
  cases hboth

end KeyManagementAdapter

end WebOfTrust
