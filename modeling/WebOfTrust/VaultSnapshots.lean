/-
  **Snapshots of one space across devices** (`YjsReplicationAdapter.ts`:
  `_pushSnapshotToVault`, `_pullFromVault`; the store is that of `VaultStore`).

  Each device counts its snapshots from the number it has recorded, and takes an equal
  number for equal content.  Two devices that count alike therefore hide their snapshots
  from each other (`equal_numbers_hide`); and a number outlives the document that it stands
  for when the adapter stops and starts.  Where no number is given to content that a holder
  of the number lacks, a pull that has recorded a number gets its download, and a document is
  left and loaded again only with nothing under way and nothing lost, a pull brings what is
  stored (`pull_brings_snapshot`).

  A document is the set of its changes.  `begun` and `lastBegun` are history.
-/
import WebOfTrust.VaultStore

namespace WebOfTrust

open Machine List

/-! ## 1. Devices and calls -/

structure VaultDevice where
  doc : List Nat
  /-- `vaultSeqs`. -/
  vaultSeq : Option Int
  /-- `vault404Cache`. -/
  cached404 : Bool
  /-- The documents of the sessions before; what was begun in one of them goes on with it. -/
  earlier : List (List Nat)
deriving DecidableEq

/-- What a push or a pull awaits.  A pull that the vault has answered ends in `pulled`, with
    the content of the answer; one that was not asked, or failed, ends in `ended`. -/
inductive VaultStage where
  | pushKey (begun : List Nat)
  | encrypt (begun docBinary : List Nat)
  | putSnapshot (begun docBinary : List Nat) (data : Bytes) (nextSeq : Int)
  | recordPush (docBinary : List Nat) (nextSeq : Int)
  | pullKey (isRetry : Bool)
  | docInfo (isRetry : Bool)
  | getChanges (isRetry : Bool)
  | decrypt (isRetry : Bool) (snapshot : DocSnapshot)
  | refresh
  | pulled (answer : List Nat)
  | ended
deriving DecidableEq

structure VaultCall where
  device : Nat
  session : Nat
  stage : VaultStage
deriving DecidableEq

structure VaultDevices where
  store : DocStore
  devices : List VaultDevice
  calls : List VaultCall
  /-- What the pusher of the stored snapshot had when its push began. -/
  lastBegun : List Nat

/-- What the outside contributes to a step: failures, whether there is a key (or the right
    one), whether the answer to a stored snapshot is lost, and what encryption yields. -/
structure VaultEnv where
  fails : Bool
  key : Bool
  lost : Bool
  data : Bytes

inductive VaultInput where
  | join
  | edit (d : Nat) (change : Nat)
  | push (d : Nat)
  | pull (d : Nat)
  | run (k : Nat) (env : VaultEnv)
  | expire404 (d : Nat)
  /-- The process of the device dies, and the next one loads what was saved. -/
  | restart (d : Nat) (doc : List Nat)
  /-- `stop()` and `start()`, or the space alone is left and loaded again: `vaultSeqs` and
      `vault404Cache` stay. -/
  | reload (d : Nat) (doc : List Nat)

open VaultCall

section

-- The space, and the changes that are in an encrypted snapshot.
variable (docId : DocId) (content : Bytes → List Nat)

/-- Where `_pullFromVault` starts, also for its retry. -/
def VaultDevice.startPull (device : VaultDevice) (isRetry : Bool) : VaultStage :=
  if device.cached404 then .ended else .pullKey isRetry

/-- The device as a call of that session has it before it. -/
def VaultDevice.seenIn (device : VaultDevice) (session : Nat) : VaultDevice :=
  { device with doc := device.earlier[session]?.getD device.doc }

/-- What a step of a call of that session makes of the device. -/
def VaultDevice.after (device device' : VaultDevice) (session : Nat) : VaultDevice :=
  if session < device.earlier.length then
    { device' with doc := device.doc, earlier := device.earlier.set session device'.doc }
  else device'

def VaultStage.finished : VaultStage → Bool
  | .pulled _ => true
  | .ended => true
  | _ => false

def VaultCall.leave (call : VaultCall) : VaultCall :=
  if call.stage.finished then { call with stage := .ended } else call

variable (w : VaultDevices)

def VaultDevices.resume (device : VaultDevice) (env : VaultEnv) :
    VaultStage → Option (VaultStage × VaultDevice × DocStore)
  | .pushKey begun =>
    if env.fails ∨ ¬ env.key then some (.ended, device, w.store)
    -- Empty documents are not pushed.
    else if device.doc.isEmpty then some (.ended, device, w.store)
    else some (.encrypt begun device.doc, device, w.store)
  | .encrypt begun docBinary =>
    if env.fails then some (.ended, device, w.store)
    else if content env.data = docBinary then
      let nextSeq := device.vaultSeq.getD 0 + 1
      some (.putSnapshot begun docBinary env.data nextSeq, device, w.store)
    else none
  | .putSnapshot _ docBinary data nextSeq =>
    if env.fails then some (.ended, device, w.store)
    else
      some (if env.lost then .ended else .recordPush docBinary nextSeq, device,
        w.store.putSnapshot ⟨docId, data, nextSeq, "", ""⟩)
  | .recordPush _ nextSeq =>
    some (.ended, { device with vaultSeq := some nextSeq, cached404 := false }, w.store)
  | .pullKey isRetry =>
    if env.fails then some (.ended, device, w.store)
    else if env.key then some (.docInfo isRetry, device, w.store)
    else some (if isRetry then .ended else .refresh, device, w.store)
  | .docInfo isRetry =>
    if env.fails then some (.ended, device, w.store)
    else
      match w.store.snapshots.get? docId with
      | none => some (.ended, { device with cached404 := true }, w.store)
      | some info =>
        if info.upToSeq = device.vaultSeq.getD (-1) then
          some (.pulled (content info.data), device, w.store)
        else some (.getChanges isRetry, { device with vaultSeq := some info.upToSeq }, w.store)
  | .getChanges isRetry =>
    if env.fails then some (.ended, device, w.store)
    else
      match (w.store.getChanges docId 0).snapshot with
      | none => some (.ended, device, w.store)
      | some snapshot => some (.decrypt isRetry snapshot, device, w.store)
  | .decrypt isRetry snapshot =>
    if env.key then
      some (.pulled (content snapshot.data), { device with
          doc := device.doc ++ content snapshot.data
          vaultSeq := some snapshot.upToSeq }, w.store)
    else some (if isRetry then .ended else .refresh, { device with vaultSeq := none }, w.store)
  | .refresh =>
    if env.fails ∨ ¬ env.key then some (.ended, device, w.store)
    else some (device.startPull true, device, w.store)
  | .pulled _ => none
  | .ended => none

def VaultStage.begunOf (lastBegun : List Nat) (env : VaultEnv) : VaultStage → List Nat
  | .putSnapshot begun _ _ _ => if env.fails then lastBegun else begun
  | _ => lastBegun

def vaultStep : VaultInput → Option VaultDevices
  | .join => some { w with devices := w.devices ++ [⟨[], none, false, []⟩] }
  | .edit d change =>
    match w.devices[d]? with
    | none => none
    | some device =>
      some { w with devices := w.devices.set d { device with doc := device.doc ++ [change] } }
  | .push d =>
    match w.devices[d]? with
    | none => none
    | some device =>
      some { w with calls := w.calls ++ [⟨d, device.earlier.length, .pushKey device.doc⟩] }
  | .pull d =>
    match w.devices[d]? with
    | none => none
    | some device =>
      some { w with calls := w.calls ++ [⟨d, device.earlier.length, device.startPull false⟩] }
  | .run k env =>
    match w.calls[k]? with
    | none => none
    | some call =>
      match w.devices[call.device]? with
      | none => none
      | some device =>
        match w.resume docId content (device.seenIn call.session) env call.stage with
        | none => none
        | some (stage, device', store) =>
          some
            { store
              devices := w.devices.set call.device (device.after device' call.session)
              calls := w.calls.set k { call with stage }
              lastBegun := call.stage.begunOf w.lastBegun env }
  | .expire404 d =>
    match w.devices[d]? with
    | none => none
    | some device =>
      some { w with devices := w.devices.set d { device with cached404 := false } }
  | .restart d doc =>
    if d < w.devices.length then
      some { w with
        devices := w.devices.set d ⟨doc, none, false, []⟩
        calls := w.calls.map fun call => if call.device = d then { call with stage := .ended } else call }
    else none
  | .reload d doc =>
    match w.devices[d]? with
    | none => none
    | some device =>
      some { w with
        devices := w.devices.set d { device with doc, earlier := device.earlier ++ [device.doc] }
        calls := w.calls.map fun call => if call.device = d then call.leave else call }

/-! ## 2. The condition -/

/-- Whoever holds the number `n` with this call before long has the changes by then. -/
def VaultCall.holds (device : VaultDevice) (n : Int) (changes : List Nat) (call : VaultCall) :
    Prop :=
  match call.stage with
  | .recordPush _ nextSeq => nextSeq = n → changes ⊆ device.doc
  | .decrypt _ snapshot => snapshot.upToSeq = n → changes ⊆ device.doc ++ content snapshot.data
  | _ => True

/-- Every device that has recorded the number `n`, or is about to, has the changes. -/
def VaultDevices.holds (n : Int) (changes : List Nat) : Prop :=
  (∀ device ∈ w.devices, device.vaultSeq = some n → changes ⊆ device.doc) ∧
    ∀ call ∈ w.calls, ∀ device ∈ w.devices[call.device]?, call.holds content device n changes

def VaultStage.isDownload : VaultStage → Bool
  | .getChanges _ => true
  | .decrypt _ _ => true
  | _ => false

def VaultDevices.downloading (d : Nat) : Bool :=
  w.calls.any fun call => decide (call.device = d) && call.stage.isDownload

/-- What the steps of a run must meet. -/
def VaultCall.ordered (env : VaultEnv) (call : VaultCall) : Prop :=
  match call.stage with
  | .putSnapshot _ docBinary _ nextSeq => env.fails = false → w.holds content nextSeq docBinary
  | .docInfo _ => ∀ info ∈ w.store.snapshots.get? docId, ∀ device ∈ w.devices[call.device]?,
      device.vaultSeq = some info.upToSeq → w.downloading call.device = false
  | .getChanges _ => env.fails = false
  | _ => True

def vaultOrdered : VaultInput → Prop
  | .run k env => ∀ call ∈ w.calls[k]?, call.ordered docId content w env
  | .reload d doc => (∀ call ∈ w.calls, call.device = d → call.stage.finished = true) ∧
      ∀ device ∈ w.devices[d]?, device.vaultSeq = none ∨ device.doc ⊆ doc
  | _ => True

instance (device : VaultDevice) (n : Int) (changes : List Nat) (call : VaultCall) :
    Decidable (call.holds content device n changes) := by
  unfold holds
  split <;> infer_instance

instance (w : VaultDevices) (n : Int) (changes : List Nat) :
    Decidable (w.holds content n changes) :=
  inferInstanceAs (Decidable (_ ∧ _))

instance (w : VaultDevices) (env : VaultEnv) (call : VaultCall) :
    Decidable (call.ordered docId content w env) := by
  unfold ordered
  split <;> infer_instance

instance (w : VaultDevices) (i : VaultInput) : Decidable (vaultOrdered docId content w i) := by
  unfold vaultOrdered
  split <;> infer_instance

end

/-! ## 3. What calls and devices rely on -/

open VaultDevices

section

variable {docId : DocId} {content : Bytes → List Nat} {w w' : VaultDevices}
  {device device' : VaultDevice} {stage stage' : VaultStage} {env : VaultEnv}
  {stored : Option DocSnapshot} {doc doc' : List Nat} {store : DocStore}

def StageKnows (content : Bytes → List Nat) (stored : Option DocSnapshot) (doc : List Nat) :
    VaultStage → Prop
  | .pushKey begun => begun ⊆ doc
  | .encrypt begun docBinary => begun ⊆ docBinary ∧ docBinary ⊆ doc
  | .putSnapshot begun docBinary data nextSeq =>
    begun ⊆ docBinary ∧ docBinary ⊆ doc ∧ content data = docBinary ∧ 0 ≤ nextSeq
  | .recordPush _ nextSeq =>
    0 ≤ nextSeq ∧ ∀ snapshot ∈ stored, snapshot.upToSeq = nextSeq → content snapshot.data ⊆ doc
  | .getChanges _ => stored.isSome = true
  | .decrypt _ downloaded =>
    0 ≤ downloaded.upToSeq ∧ ∀ snapshot ∈ stored, snapshot.upToSeq = downloaded.upToSeq →
      content snapshot.data ⊆ doc ++ content downloaded.data
  | .pulled answer => answer ⊆ doc
  | _ => True

def DeviceKnows (content : Bytes → List Nat) (stored : Option DocSnapshot) (downloading : Bool)
    (device : VaultDevice) : Prop :=
  (∀ n ∈ device.vaultSeq, 0 ≤ n) ∧ ∀ snapshot ∈ stored, device.vaultSeq = some snapshot.upToSeq →
      content snapshot.data ⊆ device.doc ∨ downloading = true

structure VaultSeqInv (docId : DocId) (content : Bytes → List Nat) (w : VaultDevices) : Prop where
  devices : ∀ d device, w.devices[d]? = some device →
    DeviceKnows content (w.store.snapshots.get? docId) (w.downloading d) device
  calls : ∀ call ∈ w.calls, ∀ device ∈ w.devices[call.device]?,
    StageKnows content (w.store.snapshots.get? docId) device.doc call.stage
  stored : ∀ snapshot ∈ w.store.snapshots.get? docId,
    0 ≤ snapshot.upToSeq ∧ w.lastBegun ⊆ content snapshot.data
  loaded : ∀ call ∈ w.calls, call.device < w.devices.length
  current : ∀ call ∈ w.calls, call.stage.finished = false →
    ∀ device ∈ w.devices[call.device]?, call.session = device.earlier.length

theorem StageKnows.mono (h : StageKnows content stored doc stage) (hdoc : doc ⊆ doc') :
    StageKnows content stored doc' stage := by
  cases stage with
  | pushKey begun | pulled answer => exact Subset.trans h hdoc
  | encrypt begun docBinary => exact ⟨h.1, Subset.trans h.2 hdoc⟩
  | putSnapshot begun docBinary data nextSeq =>
    exact ⟨h.1, Subset.trans h.2.1 hdoc, h.2.2⟩
  | recordPush docBinary nextSeq =>
    exact ⟨h.1, fun snapshot hs hn => Subset.trans (h.2 snapshot hs hn) hdoc⟩
  | decrypt isRetry downloaded =>
    refine ⟨h.1, fun snapshot hs hn => Subset.trans (h.2 snapshot hs hn) ?_⟩
    exact append_subset.mpr ⟨Subset.trans hdoc (subset_append_left _ _), subset_append_right _ _⟩
  | _ => exact h

theorem StageKnows.put {call : VaultCall} {snapshot : DocSnapshot}
    (h : StageKnows content stored device.doc call.stage)
    (hholds : call.holds content device snapshot.upToSeq (content snapshot.data)) :
    StageKnows content (some snapshot) device.doc call.stage := by
  unfold VaultCall.holds at hholds
  cases hstage : call.stage with
  | recordPush docBinary nextSeq | decrypt isRetry downloaded =>
    rw [hstage] at h hholds
    refine ⟨h.1, ?_⟩
    rintro s ⟨⟩ hn
    exact hholds hn.symm
  | getChanges isRetry => rfl
  | _ =>
    rw [hstage] at h
    exact h

theorem snapshot_getChanges (store : DocStore) (docId : DocId) :
    (store.getChanges docId 0).snapshot = store.snapshots.get? docId := rfl

/-! ## 4. A step of a call -/

structure CallEffect (docId : DocId) (content : Bytes → List Nat) (w : VaultDevices)
    (device : VaultDevice) (env : VaultEnv) (stage stage' : VaultStage) (device' : VaultDevice)
    (store : DocStore) : Prop where
  doc : device.doc ⊆ device'.doc
  earlier : device'.earlier = device.earlier
  seq : ∀ n ∈ device'.vaultSeq, 0 ≤ n
  written : store = w.store ∧ stage.begunOf w.lastBegun env = w.lastBegun ∨
    device' = device ∧ ∃ begun docBinary data nextSeq,
      stage = .putSnapshot begun docBinary data nextSeq ∧ env.fails = false ∧
        store = w.store.putSnapshot ⟨docId, data, nextSeq, "", ""⟩ ∧
          stage.begunOf w.lastBegun env = begun
  knows : StageKnows content (store.snapshots.get? docId) device'.doc stage'
  device : ∀ snapshot ∈ store.snapshots.get? docId, device'.vaultSeq = some snapshot.upToSeq →
    content snapshot.data ⊆ device'.doc ∨ stage'.isDownload = true ∨
      stage.isDownload = false ∧ device'.vaultSeq = device.vaultSeq

theorem knows_startPull (isRetry : Bool) :
    StageKnows content stored doc (device.startPull isRetry) := by
  unfold VaultDevice.startPull
  split <;> trivial

theorem callEffect_same (hseq : ∀ n ∈ device.vaultSeq, 0 ≤ n)
    (hbegun : stage.begunOf w.lastBegun env = w.lastBegun)
    (hknows : StageKnows content (w.store.snapshots.get? docId) device.doc stage')
    (hdevice : stage.isDownload = false ∨ stage'.isDownload = true) :
    CallEffect docId content w device env stage stage' device w.store where
  doc := Subset.refl _
  earlier := rfl
  seq := hseq
  written := .inl ⟨rfl, hbegun⟩
  knows := hknows
  device snapshot hs hn := by
    rcases hdevice with hno | hyes
    · exact .inr (.inr ⟨hno, rfl⟩)
    · exact .inr (.inl hyes)

theorem resume_effect {call : VaultCall} (hinv : VaultSeqInv docId content w)
    (hcall : call ∈ w.calls) (hdevice : w.devices[call.device]? = some device)
    (hordered : call.ordered docId content w env)
    (h : w.resume docId content device env call.stage = some (stage', device', store)) :
    CallEffect docId content w device env call.stage stage' device' store := by
  have hknows := hinv.calls call hcall device hdevice
  obtain ⟨hseq, hhas⟩ := hinv.devices call.device device hdevice
  unfold ordered at hordered
  generalize call.stage = stage at hknows hordered h ⊢
  cases stage with
  | pushKey begun =>
    simp only [resume] at h
    split at h
    · cases h
      exact callEffect_same hseq rfl trivial (.inl rfl)
    split at h
    · cases h
      exact callEffect_same hseq rfl trivial (.inl rfl)
    · cases h
      exact callEffect_same hseq rfl ⟨hknows, Subset.refl _⟩ (.inl rfl)
  | encrypt begun docBinary =>
    simp only [resume] at h
    split at h
    · cases h
      exact callEffect_same hseq rfl trivial (.inl rfl)
    split at h
    · next hcontent =>
      cases h
      refine callEffect_same hseq rfl ⟨hknows.1, hknows.2, hcontent, ?_⟩ (.inl rfl)
      rcases hn : device.vaultSeq with _ | n
      · decide
      have hpos := hseq n hn
      simp only [Option.getD_some]
      omega
    · cases h
  | putSnapshot begun docBinary data nextSeq =>
    obtain ⟨hbegun, hbinary, hdata, hpos⟩ := hknows
    simp only [resume] at h
    split at h
    · next hfails =>
      cases h
      refine callEffect_same hseq ?_ trivial (.inl rfl)
      simp [VaultStage.begunOf, hfails]
    next hfails =>
    have hfails : env.fails = false := Bool.eq_false_iff.mpr hfails
    cases h
    have hget := DocStore.get?_putSnapshot w.store ⟨docId, data, nextSeq, "", ""⟩ docId
    rw [if_pos rfl] at hget
    refine ⟨Subset.refl _, rfl, hseq, .inr ⟨rfl, _, _, _, _, rfl, hfails, rfl, ?_⟩, ?_, ?_⟩
    · simp [VaultStage.begunOf, hfails]
    · rw [hget]
      split
      · trivial
      refine ⟨hpos, ?_⟩
      rintro snapshot ⟨⟩ -
      exact hdata ▸ hbinary
    · rw [hget]
      rintro snapshot ⟨⟩ hn
      left
      rw [hdata]
      exact (hordered hfails).1 device (mem_of_getElem? hdevice) hn
  | recordPush docBinary nextSeq =>
    cases h
    refine ⟨Subset.refl _, rfl, ?_, .inl ⟨rfl, rfl⟩, trivial, ?_⟩
    · rintro n ⟨⟩
      exact hknows.1
    · intro snapshot hs hn
      exact .inl (hknows.2 snapshot hs (Option.some.inj hn).symm)
  | pullKey isRetry =>
    simp only [resume] at h
    split at h
    · cases h
      exact callEffect_same hseq rfl trivial (.inl rfl)
    split at h
    · cases h
      exact callEffect_same hseq rfl trivial (.inl rfl)
    cases h
    refine callEffect_same hseq rfl ?_ (.inl rfl)
    cases isRetry <;> trivial
  | docInfo isRetry =>
    simp only [resume] at h
    split at h
    · cases h
      exact callEffect_same hseq rfl trivial (.inl rfl)
    split at h
    · next hnone =>
      cases h
      refine ⟨Subset.refl _, rfl, hseq, .inl ⟨rfl, rfl⟩, trivial, ?_⟩
      intro snapshot hs
      rw [hnone] at hs
      cases hs
    · next info hinfo =>
      split at h
      · next hequal =>
        cases h
        -- The number is recorded: an unset one is no number of a snapshot.
        have hrecorded : device.vaultSeq = some info.upToSeq := by
          cases hn : device.vaultSeq with
          | none =>
            rw [hn, Option.getD_none] at hequal
            have hpos := (hinv.stored info hinfo).1
            omega
          | some n => rw [hn, Option.getD_some] at hequal; rw [hequal]
        have hidle := hordered info hinfo device hdevice hrecorded
        refine callEffect_same hseq rfl ?_ (.inl rfl)
        rcases hhas info hinfo hrecorded with hhas | hdownload
        · exact hhas
        · rw [hidle] at hdownload
          cases hdownload
      · cases h
        refine ⟨Subset.refl _, rfl, ?_, .inl ⟨rfl, rfl⟩, ?_, fun _ _ _ => .inr (.inl rfl)⟩
        · rintro n ⟨⟩
          exact (hinv.stored info hinfo).1
        · simp [StageKnows, hinfo]
  | getChanges isRetry =>
    simp only [resume, snapshot_getChanges, hordered, Bool.false_eq_true, if_false] at h
    split at h
    · next hnone =>
      simp [StageKnows, hnone] at hknows
    next snapshot hsnapshot =>
    cases h
    refine callEffect_same hseq rfl ⟨(hinv.stored snapshot hsnapshot).1, ?_⟩ (.inr rfl)
    intro stored hs _
    cases hsnapshot.symm.trans hs
    exact subset_append_right _ _
  | decrypt isRetry downloaded =>
    simp only [resume] at h
    split at h
    · cases h
      refine ⟨subset_append_left _ _, rfl, ?_, .inl ⟨rfl, rfl⟩, subset_append_right _ _, ?_⟩
      · rintro n ⟨⟩
        exact hknows.1
      · intro snapshot hs hn
        exact .inl (hknows.2 snapshot hs (Option.some.inj hn).symm)
    · cases h
      refine ⟨Subset.refl _, rfl, by rintro n ⟨⟩, .inl ⟨rfl, rfl⟩, ?_, ?_⟩
      · cases isRetry <;> trivial
      · rintro snapshot - ⟨⟩
  | refresh =>
    simp only [resume] at h
    split at h
    · cases h
      exact callEffect_same hseq rfl trivial (.inl rfl)
    · cases h
      exact callEffect_same hseq rfl (knows_startPull true) (.inl rfl)
  | pulled answer | ended => cases h

/-! ## 5. Steps -/

theorem downloading_iff {d : Nat} : w.downloading d = true ↔
    ∃ call ∈ w.calls, call.device = d ∧ call.stage.isDownload = true := by
  simp [downloading]

theorem DeviceKnows.mono {downloading downloading' : Bool}
    (h : DeviceKnows content stored downloading device)
    (hd : downloading = true → downloading' = true) :
    DeviceKnows content stored downloading' device :=
  ⟨h.1, fun snapshot hs hn => (h.2 snapshot hs hn).imp_right hd⟩

theorem DeviceKnows.grow {downloading : Bool} (h : DeviceKnows content stored downloading device)
    (hseq : device'.vaultSeq = device.vaultSeq) (hdoc : device.doc ⊆ device'.doc) :
    DeviceKnows content stored downloading device' := by
  refine ⟨hseq ▸ h.1, fun snapshot hs hn => ?_⟩
  rcases h.2 snapshot hs (hseq ▸ hn) with hhas | hdownload
  · exact .inl (Subset.trans hhas hdoc)
  · exact .inr hdownload

theorem VaultSeqInv.setDevice (h : VaultSeqInv docId content w) {d : Nat}
    (hd : w.devices[d]? = some device) (hseq : device'.vaultSeq = device.vaultSeq)
    (hearlier : device'.earlier = device.earlier) (hdoc : device.doc ⊆ device'.doc) :
    VaultSeqInv docId content { w with devices := w.devices.set d device' } where
  devices e device₁ he := by
    rcases getElem?_set_cases he with ⟨rfl, rfl⟩ | ⟨-, hold⟩
    · exact (h.devices e device hd).grow hseq hdoc
    · exact h.devices e device₁ hold
  calls call hcall device₁ he := by
    rcases getElem?_set_cases he with ⟨hcd, rfl⟩ | ⟨-, hold⟩
    · exact (h.calls call hcall device (hcd ▸ hd)).mono hdoc
    · exact h.calls call hcall device₁ hold
  stored := h.stored
  loaded call hcall := by
    rw [length_set]
    exact h.loaded call hcall
  current call hcall hrunning device₁ he := by
    rcases getElem?_set_cases he with ⟨hcd, rfl⟩ | ⟨-, hold⟩
    · rw [hearlier]
      exact h.current call hcall hrunning device (hcd ▸ hd)
    · exact h.current call hcall hrunning device₁ hold

theorem VaultSeqInv.addCall (h : VaultSeqInv docId content w) {d : Nat}
    (hd : w.devices[d]? = some device)
    (hknows : StageKnows content (w.store.snapshots.get? docId) device.doc stage) :
    VaultSeqInv docId content
      { w with calls := w.calls ++ [⟨d, device.earlier.length, stage⟩] } where
  devices e device₁ he := by
    refine (h.devices e device₁ he).mono fun hdownload => ?_
    obtain ⟨call, hcall, hrest⟩ := downloading_iff.mp hdownload
    exact downloading_iff.mpr ⟨call, mem_append_left _ hcall, hrest⟩
  calls call hcall device₁ he := by
    rcases mem_append.mp hcall with hold | hnew
    · exact h.calls call hold device₁ he
    cases mem_singleton.mp hnew
    cases hd.symm.trans he
    exact hknows
  stored := h.stored
  loaded call hcall := by
    rcases mem_append.mp hcall with hold | hnew
    · exact h.loaded call hold
    · cases mem_singleton.mp hnew
      exact (List.getElem?_eq_some_iff.mp hd).1
  current call hcall hrunning device₁ he := by
    rcases mem_append.mp hcall with hold | hnew
    · exact h.current call hold hrunning device₁ he
    cases mem_singleton.mp hnew
    cases hd.symm.trans he
    rfl

def VaultDevices.after (w : VaultDevices) (k : Nat) (call : VaultCall) (env : VaultEnv)
    (stage' : VaultStage) (device' : VaultDevice) (store : DocStore) : VaultDevices where
  store := store
  devices := w.devices.set call.device device'
  calls := w.calls.set k { call with stage := stage' }
  lastBegun := call.stage.begunOf w.lastBegun env

section

variable {k : Nat} {call : VaultCall}

theorem downloading_after (hk : w.calls[k]? = some call) {d : Nat}
    (hdownload : w.downloading d = true)
    (hkeep : d = call.device → call.stage.isDownload = true → stage'.isDownload = true) :
    (w.after k call env stage' device' store).downloading d = true := by
  obtain ⟨other, hother, hd, hstage⟩ := downloading_iff.mp hdownload
  obtain ⟨j, hj⟩ := List.getElem?_of_mem hother
  obtain ⟨hlt, -⟩ := List.getElem?_eq_some_iff.mp hk
  rw [downloading_iff]
  by_cases hjk : j = k
  · subst hjk
    cases hk.symm.trans hj
    exact ⟨_, List.mem_set hlt _, hd, hkeep hd.symm hstage⟩
  refine ⟨other, ?_, hd, hstage⟩
  apply List.mem_of_getElem? (i := j)
  change (w.calls.set k _)[j]? = _
  rw [List.getElem?_set_ne (Ne.symm hjk)]
  exact hj

theorem VaultSeqInv.run (h : VaultSeqInv docId content w) (hk : w.calls[k]? = some call)
    (hd : w.devices[call.device]? = some device) (hordered : call.ordered docId content w env)
    (hstarted : call.stage.finished = false)
    (heffect : CallEffect docId content w device env call.stage stage' device' store) :
    VaultSeqInv docId content (w.after k call env stage' device' store) := by
  have hlt : k < w.calls.length := (List.getElem?_eq_some_iff.mp hk).1
  have hself : stage'.isDownload = true →
      (w.after k call env stage' device' store).downloading call.device = true :=
    fun hstage => downloading_iff.mpr ⟨_, mem_set hlt _, rfl, hstage⟩
  -- What a new snapshot is, and that its holders have it.
  have hwritten : store = w.store ∧ call.stage.begunOf w.lastBegun env = w.lastBegun ∨
    device' = device ∧ ∃ snapshot,
      store.snapshots.get? docId = some snapshot ∧ 0 ≤ snapshot.upToSeq ∧
        call.stage.begunOf w.lastBegun env ⊆ content snapshot.data ∧
          w.holds content snapshot.upToSeq (content snapshot.data) := by
    rcases heffect.written with hsame | ⟨hdev, begun, docBinary, data, nextSeq, hstage, hok, hput,
      hbegun⟩
    · exact .inl hsame
    have hknows := h.calls call (mem_of_getElem? hk) device hd
    rw [hstage] at hknows
    obtain ⟨hsub, -, hdata, hpos⟩ := hknows
    have hget : store.snapshots.get? docId = some ⟨docId, data, nextSeq, "", ""⟩ := by
      rw [hput, DocStore.get?_putSnapshot, if_pos rfl]
    unfold ordered at hordered
    rw [hstage] at hordered
    refine .inr ⟨hdev, _, hget, hpos, ?_, ?_⟩
    · rw [hbegun, hdata]
      exact hsub
    · rw [hdata]
      exact hordered hok
  constructor
  case devices =>
    intro e device₁ he
    rcases getElem?_set_cases he with ⟨rfl, rfl⟩ | ⟨hne, hold⟩
    · refine ⟨heffect.seq, fun snapshot hs hn => ?_⟩
      rcases heffect.device snapshot hs hn with hhas | hdownload | ⟨hno, hseq⟩
      · exact .inl hhas
      · exact .inr (hself hdownload)
      rcases hwritten with ⟨hsame, -⟩ | ⟨rfl, new, hget, -, -, hholds⟩
      · rw [show (w.after k call env stage' device₁ store).store = w.store from hsame] at hs
        rcases (h.devices _ device hd).2 snapshot hs (hseq ▸ hn) with hhas | hdownload
        · exact .inl (Subset.trans hhas heffect.doc)
        refine .inr (downloading_after hk hdownload fun _ hyes => ?_)
        rw [hno] at hyes
        cases hyes
      · cases hget.symm.trans hs
        exact .inl (hholds.1 _ (mem_of_getElem? hd) hn)
    · rcases hwritten with ⟨hsame, -⟩ | ⟨-, new, hget, -, -, hholds⟩
      · rw [show (w.after k call env stage' device' store).store = w.store from hsame]
        exact (h.devices e device₁ hold).mono fun hdownload =>
          downloading_after hk hdownload fun heq => absurd heq hne
      refine ⟨(h.devices e device₁ hold).1, fun snapshot hs hn => ?_⟩
      cases hget.symm.trans hs
      exact .inl (hholds.1 device₁ (mem_of_getElem? hold) hn)
  case calls =>
    intro other hother device₁ he
    have hothers : other ∈ w.calls →
        StageKnows content (store.snapshots.get? docId) device₁.doc other.stage := by
      intro hmem
      obtain ⟨device₀, hdevice₀, hdoc⟩ : ∃ device₀, w.devices[other.device]? = some device₀ ∧
          device₀.doc ⊆ device₁.doc := by
        rcases getElem?_set_cases he with ⟨hcd, rfl⟩ | ⟨-, hold⟩
        · exact ⟨device, hcd ▸ hd, heffect.doc⟩
        · exact ⟨device₁, hold, Subset.refl _⟩
      have hknows := h.calls other hmem device₀ hdevice₀
      rcases hwritten with ⟨hsame, -⟩ | ⟨-, new, hget, -, -, hholds⟩
      · rw [hsame]
        exact hknows.mono hdoc
      · rw [hget]
        exact (hknows.put (hholds.2 other hmem device₀ hdevice₀)).mono hdoc
    rcases mem_or_eq_of_mem_set hother with hmem | rfl
    · exact hothers hmem
    rcases getElem?_set_cases he with ⟨-, rfl⟩ | ⟨hne, -⟩
    · exact heffect.knows
    · exact absurd rfl hne
  case stored =>
    intro snapshot hs
    rcases hwritten with ⟨hsame, hlast⟩ | ⟨-, new, hget, hpos, hbegun, -⟩
    · change snapshot ∈ store.snapshots.get? docId at hs
      rw [hsame] at hs
      obtain ⟨hpos, hbegun⟩ := h.stored snapshot hs
      refine ⟨hpos, ?_⟩
      change call.stage.begunOf w.lastBegun env ⊆ _
      rw [hlast]
      exact hbegun
    · cases hget.symm.trans hs
      exact ⟨hpos, hbegun⟩
  case loaded =>
    intro other hother
    change other.device < (w.devices.set call.device device').length
    rw [length_set]
    rcases mem_or_eq_of_mem_set hother with hmem | rfl
    · exact h.loaded other hmem
    · exact h.loaded call (mem_of_getElem? hk)
  case current =>
    intro other hother hrunning device₁ he
    have hcurrent : ∀ other' ∈ w.calls, other'.device = other.device →
        other'.stage.finished = false → other'.session = device₁.earlier.length := by
      intro other' hmem hsame hrunning'
      rcases getElem?_set_cases he with ⟨hcd, rfl⟩ | ⟨-, hold⟩
      · rw [heffect.earlier]
        exact h.current other' hmem hrunning' device (by rw [hsame, hcd]; exact hd)
      · exact h.current other' hmem hrunning' device₁ (by rw [hsame]; exact hold)
    rcases mem_or_eq_of_mem_set hother with hmem | rfl
    · exact hcurrent other hmem rfl hrunning
    · exact hcurrent call (mem_of_getElem? hk) rfl hstarted

end

theorem VaultSeqInv.left (h : VaultSeqInv docId content w) (d : Nat) {f : VaultCall → VaultCall}
    (hdevice : DeviceKnows content (w.store.snapshots.get? docId) false device)
    (hf : ∀ call ∈ w.calls, call.device = d → f call = { call with stage := .ended }) :
    VaultSeqInv docId content { w with
      devices := w.devices.set d device
      calls := w.calls.map fun call => if call.device = d then f call else call } where
  devices e device₁ he := by
    rcases getElem?_set_cases he with ⟨rfl, rfl⟩ | ⟨hne, hold⟩
    · exact hdevice.mono nofun
    refine (h.devices e device₁ hold).mono fun hdownload => ?_
    obtain ⟨call, hcall, hd, hstage⟩ := downloading_iff.mp hdownload
    have hkept : call.device ≠ d := fun heq => hne (hd.symm.trans heq)
    refine downloading_iff.mpr ⟨call, mem_map.mpr ⟨call, hcall, ?_⟩, hd, hstage⟩
    rw [if_neg hkept]
  calls call hcall device₁ he := by
    obtain ⟨before, hbefore, rfl⟩ := mem_map.mp hcall
    by_cases hcd : before.device = d
    · rw [if_pos hcd, hf before hbefore hcd]
      trivial
    rw [if_neg hcd] at he ⊢
    rcases getElem?_set_cases he with ⟨heq, -⟩ | ⟨-, hold⟩
    · exact absurd heq hcd
    · exact h.calls before hbefore device₁ hold
  stored := h.stored
  loaded call hcall := by
    obtain ⟨before, hbefore, rfl⟩ := mem_map.mp hcall
    rw [length_set]
    split
    · next hcd =>
      rw [hf before hbefore hcd]
      exact h.loaded before hbefore
    · exact h.loaded before hbefore
  current call hcall hrunning device₁ he := by
    obtain ⟨before, hbefore, rfl⟩ := mem_map.mp hcall
    by_cases hcd : before.device = d
    · rw [if_pos hcd, hf before hbefore hcd] at hrunning
      cases hrunning
    rw [if_neg hcd] at he hrunning ⊢
    rcases getElem?_set_cases he with ⟨heq, -⟩ | ⟨-, hold⟩
    · exact absurd heq hcd
    · exact h.current before hbefore hrunning device₁ hold

theorem VaultSeqInv.join (h : VaultSeqInv docId content w) :
    VaultSeqInv docId content { w with devices := w.devices ++ [⟨[], none, false, []⟩] } where
  devices e device he := by
    rcases getElem?_concat_cases he with ⟨-, rfl⟩ | hold
    · exact ⟨by rintro n ⟨⟩, by rintro snapshot - ⟨⟩⟩
    · exact h.devices e device hold
  calls call hcall device he := by
    rcases getElem?_concat_cases he with ⟨heq, -⟩ | hold
    · exact absurd (h.loaded call hcall) (by omega)
    · exact h.calls call hcall device hold
  stored := h.stored
  loaded call hcall := by
    rw [length_append]
    exact Nat.lt_add_right _ (h.loaded call hcall)
  current call hcall hrunning device he := by
    rcases getElem?_concat_cases he with ⟨heq, -⟩ | hold
    · exact absurd (h.loaded call hcall) (by omega)
    · exact h.current call hcall hrunning device hold

theorem vaultStep_inv {i : VaultInput} (hinv : VaultSeqInv docId content w)
    (hordered : vaultOrdered docId content w i) (h : vaultStep docId content w i = some w') :
    VaultSeqInv docId content w' := by
  cases i with
  | join =>
    cases h
    exact hinv.join
  | edit d change =>
    simp only [vaultStep] at h
    split at h
    · cases h
    next device hd =>
    cases h
    exact hinv.setDevice hd rfl rfl (subset_append_left _ _)
  | push d =>
    simp only [vaultStep] at h
    split at h
    · cases h
    next device hd =>
    cases h
    exact hinv.addCall hd (Subset.refl _)
  | pull d =>
    simp only [vaultStep] at h
    split at h
    · cases h
    next device hd =>
    cases h
    exact hinv.addCall hd (knows_startPull false)
  | run k env =>
    simp only [vaultStep] at h
    split at h
    · cases h
    next call hk =>
    split at h
    · cases h
    next device hd =>
    split at h
    · cases h
    next stage' device' store hresume =>
    cases h
    have hstarted : call.stage.finished = false := by
      cases hstage : call.stage <;> first | rfl | rw [hstage] at hresume; cases hresume
    -- What is under way is under way in the session of now.
    have hsession := hinv.current call (mem_of_getElem? hk) hstarted device hd
    have hseen : device.seenIn call.session = device := by
      simp [VaultDevice.seenIn, hsession]
    have hafter : device.after device' call.session = device' := by
      simp [VaultDevice.after, hsession]
    rw [hseen] at hresume
    rw [hafter]
    have hcall := hordered call hk
    exact hinv.run hk hd hcall hstarted
      (resume_effect hinv (mem_of_getElem? hk) hd hcall hresume)
  | expire404 d =>
    simp only [vaultStep] at h
    split at h
    · cases h
    next device hd =>
    cases h
    exact hinv.setDevice hd rfl rfl (Subset.refl _)
  | restart d doc =>
    simp only [vaultStep] at h
    split at h
    · cases h
      exact hinv.left d ⟨by rintro n ⟨⟩, by rintro snapshot - ⟨⟩⟩ fun _ _ _ => rfl
    · cases h
  | reload d doc =>
    simp only [vaultStep] at h
    split at h
    · cases h
    next device hd =>
    cases h
    obtain ⟨hfinished, hsaved⟩ := hordered
    obtain ⟨hseq, hhas⟩ := hinv.devices d device hd
    refine hinv.left d ⟨hseq, fun snapshot hs hn => .inl ?_⟩ fun call hcall hcd => ?_
    · have hdoc : device.doc ⊆ doc :=
        (hsaved device hd).resolve_left fun hnone => by cases hnone.symm.trans hn
      rcases hhas snapshot hs hn with hhas | hdownload
      · exact Subset.trans hhas hdoc
      obtain ⟨call, hcall, hcd, hstage⟩ := downloading_iff.mp hdownload
      have hend := hfinished call hcall hcd
      cases hcs : call.stage
      all_goals simp [hcs, VaultStage.finished, VaultStage.isDownload] at hend hstage
    · rw [VaultCall.leave, if_pos (hfinished call hcall hcd)]

/-! ## 6. Every run -/

def VaultDevices.start : VaultDevices := ⟨.fresh, [], [], []⟩

theorem vaultSeqInv_start : VaultSeqInv docId content .start where
  devices := by rintro d device ⟨⟩
  calls := by rintro call ⟨⟩
  stored := by rintro snapshot ⟨⟩
  loaded := by rintro call ⟨⟩
  current := by rintro call ⟨⟩

/-- **A pull brings what is stored**, in every run in which a snapshot is stored only under a
    number whose holders have its content, each pull gets its download, no pull asks the
    vault while another one of its device, which has recorded the stored number, is still
    downloading, and a device that has recorded a number loads its document again only with
    all that was in it and with nothing under way.  A pull that the vault has answered, also
    with an unchanged number, leaves the device with what the vault had; and the stored
    snapshot has what its pusher had when the push began. -/
theorem pull_brings_snapshot
    (h : Reaches (vaultStep docId content) (vaultOrdered docId content) .start w) :
    (∀ call ∈ w.calls, ∀ answer, call.stage = .pulled answer →
      ∃ device, w.devices[call.device]? = some device ∧ answer ⊆ device.doc) ∧
      ∀ snapshot ∈ w.store.snapshots.get? docId, w.lastBegun ⊆ content snapshot.data := by
  have hinv : VaultSeqInv docId content w :=
    h.invariant vaultSeqInv_start fun _ _ _ => vaultStep_inv
  refine ⟨fun call hcall answer hstage => ?_, fun snapshot hs => (hinv.stored snapshot hs).2⟩
  have hlt := hinv.loaded call hcall
  have hd : w.devices[call.device]? = some w.devices[call.device] := getElem?_eq_getElem hlt
  have hknows := hinv.calls call hcall _ hd
  rw [hstage] at hknows
  exact ⟨_, hd, hknows⟩

end

/-! ## 7. Runs -/

def vaultSpace : DocId := "space-1"

def plainContent (data : Bytes) : List Nat := data.map (·.toNat)

def vaultOk (data : Bytes) : VaultEnv := ⟨false, true, false, data⟩

/-- A push of `data` as call `k`. -/
def pushes (d k : Nat) (data : Bytes) : List VaultInput :=
  .push d :: replicate 4 (.run k (vaultOk data))

/-- A pull as call `k` that downloads. -/
def pulls (d k : Nat) : List VaultInput := .pull d :: replicate 4 (.run k (vaultOk []))

/-- One device pushes, another pulls, stops and starts, edits and pushes, and the first one
    pulls. -/
theorem pull_brings_snapshot_back : ∃ w,
    Reaches (vaultStep vaultSpace plainContent) (vaultOrdered vaultSpace plainContent)
      .start w ∧ w.calls[3]? = some ⟨0, 0, .pulled [1, 2]⟩ ∧
      ∀ call ∈ w.calls, ∀ answer, call.stage = .pulled answer →
        ∃ device, w.devices[call.device]? = some device ∧ answer ⊆ device.doc := by
  obtain ⟨w, hreach, hp⟩ := Reaches.of_exec (vaultStep vaultSpace plainContent)
    (vaultOrdered vaultSpace plainContent) .start
    (flatten [[.join, .join, .edit 0 1], pushes 0 0 [1], pulls 1 1, [.reload 1 [1], .edit 1 2],
      pushes 1 2 [1, 2], pulls 0 3])
    (fun w => decide (w.calls[3]? = some (⟨0, 0, .pulled [1, 2]⟩ : VaultCall)))
    (by decide +kernel)
  exact ⟨w, hreach, of_decide_eq_true hp, (pull_brings_snapshot hreach).1⟩

/-- Two devices count their first snapshots alike: the second one takes the place of the
    first, and the first device is never told of it. -/
theorem equal_numbers_hide : ∃ w,
    Reaches (vaultStep vaultSpace plainContent) (fun _ _ => True) .start w ∧
      ∃ call ∈ w.calls, ∃ answer device, call.stage = .pulled answer ∧
        w.devices[call.device]? = some device ∧ ¬ answer ⊆ device.doc := by
  obtain ⟨w, hreach, hp⟩ := Reaches.of_exec (vaultStep vaultSpace plainContent)
    (fun _ _ => True) .start
    (flatten [[.join, .join, .edit 0 1, .edit 1 2], pushes 0 0 [1], pushes 1 1 [2],
      [.pull 0, .run 2 (vaultOk []), .run 2 (vaultOk [])]])
    (fun w => decide (w.calls[2]? = some (⟨0, 0, .pulled [2]⟩ : VaultCall) ∧
      w.devices[0]? = some (⟨[1], some 1, false, []⟩ : VaultDevice))) (by decide +kernel)
  obtain ⟨hcall, hdevice⟩ := of_decide_eq_true hp
  exact ⟨w, hreach, _, mem_of_getElem? hcall, [2], _, rfl, hdevice, by decide⟩

end WebOfTrust
