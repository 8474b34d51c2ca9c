/-
  **The seed vault** (`platform/seed-vault/vault.ts`, `format.ts`).

  A rewrite reads, opens and seals outside of a transaction, and decides inside of it whether the
  record is still the one that it has opened; the calls of all tabs are kept in one list.  A sealed
  payload is opened by the password, salt, rounds, head and IV that it was sealed with only; the
  entropy of an IV never repeats, so that a record is known by it (`sealed`).

  `entries` says for each namespace what its record has to hold: the payload of the last create, and
  the password and protection that were set last.
-/
import WebOfTrust.Machine

namespace WebOfTrust

open List Option Function

/-! ## 1. Records -/

inductive ProtectionMode where
  | passphrase
  | passphraseBiometric
  | biometricOnly
deriving DecidableEq

abbrev IdentityNs := String

abbrev Password := List UInt8

structure VaultPayload where
  rootIkm : List UInt8
  dek : List UInt8
deriving DecidableEq

def ROOT_IKM_BYTES : Nat := 64
def DEK_BYTES : Nat := 32

abbrev Iv := Nat

structure VaultHead where
  ns : IdentityNs
  protection : ProtectionMode
  iterations : Nat
  salt : Nat
  createdAt : Nat
  updatedAt : Nat
deriving DecidableEq

/-- AES-256-GCM of a payload: the derived key, the IV and the head that it is bound to. -/
structure SealedPayload where
  password : Password
  salt : Nat
  iterations : Nat
  iv : Iv
  head : VaultHead
  payload : VaultPayload

structure VaultRecord where
  head : VaultHead
  iv : Iv
  ct : SealedPayload

/-- What is stored under a namespace; `unsupported` is a foreign or newer format. -/
inductive StoredVault where
  | v3 (record : VaultRecord)
  | unsupported

def VaultPayload.wellFormed (payload : VaultPayload) : Bool :=
  decide (payload.rootIkm.length = ROOT_IKM_BYTES) && decide (payload.dek.length = DEK_BYTES)

/-- `seal`: a payload of other lengths is refused. -/
def sealVault (head : VaultHead) (iv : Iv) (password : Password) (payload : VaultPayload) :
    Option VaultRecord :=
  if payload.wellFormed then
    some ⟨head, iv, ⟨password, head.salt, head.iterations, iv, head, payload⟩⟩
  else none

/-- `open`: `none` for a wrong password, a changed head or record, or a payload of another shape. -/
def openVault (record : VaultRecord) (password : Password) : Option VaultPayload :=
  if record.ct.password = password ∧ record.ct.salt = record.head.salt ∧
      record.ct.iterations = record.head.iterations ∧ record.ct.iv = record.iv ∧
      record.ct.head = record.head ∧ record.ct.payload.wellFormed = true then
    some record.ct.payload
  else none

/-! ## 2. The stores -/

inductive ResumeFlow where
  | setup
  | restore
  | wipe
  | legacyWipe
deriving DecidableEq

inductive ResumeStep where
  | keystore
  | holder
  | staging
  | switched
  | quiescing
  | deregistering
  | sealed
  | wiping
deriving DecidableEq

structure ResumeMarker where
  flow : ResumeFlow
  step : ResumeStep
  ns : IdentityNs
  nsOld : Option IdentityNs
  mode : Option ProtectionMode
  startedAt : Nat

structure SealedInit where
  iv : String
  ct : String

structure VaultEntry where
  payload : VaultPayload
  password : Password
  protection : ProtectionMode
deriving DecidableEq

inductive VaultOp where
  | create (payload : VaultPayload) (password : Password) (protection : ProtectionMode)
      (init : SealedInit) (marker : ResumeMarker)
  | openWith (password : Password)
  /-- `rewrap`, and `setProtection` with one password. -/
  | rewrite (oldPassword newPassword : Password) (protection : ProtectionMode)

/-- What a call awaits; `opened` is the record that it has read. -/
inductive VaultCallStage where
  | read
  | decrypt (opened : VaultRecord)
  | seal (opened : Option VaultRecord) (next : VaultRecord)
  | write (opened : Option VaultRecord) (next : VaultRecord)

structure VaultTask where
  ns : IdentityNs
  op : VaultOp
  /-- The rounds for new writes of the tab that it runs in. -/
  target : Nat
  stage : VaultCallStage

/-- What a call answers: the payload of an open, whether a rewrite has replaced the record, the end
    of a create, or an exception. -/
inductive VaultAnswer where
  | opened (payload : Option VaultPayload)
  | rewritten (done : Bool)
  | created
  | thrown

structure SeedVault where
  vaults : IdentityNs → Option StoredVault
  active : Option IdentityNs
  resume : Option ResumeMarker
  init : IdentityNs → Option SealedInit
  bioUnusable : IdentityNs → Bool
  now : Nat
  tasks : List VaultTask
  sealed : List VaultRecord
  entries : IdentityNs → Option VaultEntry

namespace SeedVault

def start (foreign : IdentityNs → Bool) : SeedVault where
  vaults ns := if foreign ns then some .unsupported else none
  active := none
  resume := none
  init _ := none
  bioUnusable _ := false
  now := 0
  tasks := []
  sealed := []
  entries _ := none

/-- `asRecord` of what is stored. -/
def record (s : SeedVault) (ns : IdentityNs) : Option VaultRecord :=
  match s.vaults ns with
  | some (.v3 record) => some record
  | _ => none

variable (s : SeedVault) (t : VaultTask)

/-- `sealFor`, with an IV of its own: the record that the call will write. -/
def sealFor (protection : ProtectionMode) (password : Password)
    (payload : VaultPayload) (createdAt : Option Nat) : Option VaultRecord :=
  sealVault ⟨t.ns, protection, t.target, s.sealed.length, createdAt.getD s.now, s.now⟩
    s.sealed.length password payload

/-! ## 3. What a call does when what it awaits is over -/

def sealing (opened : Option VaultRecord) (next : VaultRecord) :
    SeedVault × Option VaultTask × Option VaultAnswer :=
  ({ s with sealed := s.sealed ++ [next] }, some { t with stage := .seal opened next }, none)

def answers (answer : VaultAnswer) :
    SeedVault × Option VaultTask × Option VaultAnswer := (s, none, some answer)

def notOpened : VaultOp → SeedVault × Option VaultTask × Option VaultAnswer
  | .openWith _ => s.answers (.opened none)
  | .rewrite _ _ _ => s.answers (.rewritten false)
  | .create _ _ _ _ _ => s.answers .thrown

def afterOpen (opened : VaultRecord) (payload : VaultPayload) :
    SeedVault × Option VaultTask × Option VaultAnswer :=
  match t.op with
  | .openWith password =>
    -- fewer rounds than the target: rewritten with the same password, best effort
    if opened.head.iterations < t.target then
      match s.sealFor t opened.head.protection password payload opened.head.createdAt with
      | some next => s.sealing t (some opened) next
      | none => s.answers (.opened (some payload))
    else s.answers (.opened (some payload))
  | .rewrite _ newPassword protection =>
    match s.sealFor t protection newPassword payload opened.head.createdAt with
    | some next => s.sealing t (some opened) next
    | none => s.answers .thrown
  | .create _ _ _ _ _ => s.answers .thrown

/-- A write of the call has failed, or its record has changed meanwhile (`conflict`). -/
def notWritten (next : VaultRecord) (conflict : Bool) :
    SeedVault × Option VaultTask × Option VaultAnswer :=
  match t.op with
  | .openWith _ => s.answers (.opened (some next.ct.payload))
  | .rewrite _ _ _ => s.answers (if conflict then .rewritten false else .thrown)
  | .create _ _ _ _ _ => s.answers .thrown

def entryAfter (op : VaultOp) (entry : Option VaultEntry) : Option VaultEntry :=
  match op with
  | .create payload password protection _ _ => some ⟨payload, password, protection⟩
  | .openWith _ => entry
  | .rewrite _ newPassword protection =>
    entry.map fun e => { e with password := newPassword, protection }

def put (next : VaultRecord) : SeedVault :=
  { s with
    vaults := update s.vaults t.ns (some (.v3 next))
    entries := update s.entries t.ns (entryAfter t.op (s.entries t.ns)) }

/-- The transaction of a write: a rewrite replaces only the record that it has opened. -/
def write (opened : Option VaultRecord) (next : VaultRecord) :
    SeedVault × Option VaultTask × Option VaultAnswer :=
  match t.op with
  | .create _ _ _ init marker =>
    { s.put t next with
      init := update s.init t.ns (some init)
      resume := some marker }.answers .created
  | .openWith _ | .rewrite _ _ _ =>
    if (s.record t.ns).map (·.iv) = opened.map (·.iv) ∧ opened.isSome = true then
      (s.put t next).answers (match t.op with
        | .openWith _ => .opened (some next.ct.payload)
        | _ => .rewritten true)
    else s.notWritten t next true

def begin : SeedVault × Option VaultTask × Option VaultAnswer :=
  match t.op with
  | .create payload password protection _ _ =>
    match s.sealFor t protection password payload none with
    | some next => s.sealing t none next
    | none => s.answers .thrown
  | _ => (s, some { t with stage := .read }, none)

def goOn (ok : Bool) : SeedVault × Option VaultTask × Option VaultAnswer :=
  match t.stage with
  | .read =>
    if ok then
      match s.record t.ns with
      | some record => (s, some { t with stage := .decrypt record }, none)
      | none => s.notOpened t.op
    else s.answers .thrown
  | .decrypt opened =>
    match t.op with
    | .openWith password | .rewrite password _ _ =>
      match openVault opened password with
      | some payload => if ok then s.afterOpen t opened payload else s.notOpened t.op
      | none => s.notOpened t.op
    | .create _ _ _ _ _ => s.answers .thrown
  | .seal opened next =>
    if ok then (s, some { t with stage := .write opened next }, none)
    else s.notWritten t next false
  | .write opened next => if ok then s.write t opened next else s.notWritten t next false

end SeedVault

/-! ## 4. Steps -/

inductive SeedVaultInput where
  | call (ns : IdentityNs) (op : VaultOp) (target : Nat)
  | goOn (k : Nat) (ok : Bool)
  | activate (ns : IdentityNs) (marker : Option ResumeMarker)
  | setResume (marker : Option ResumeMarker)
  | setBioUnusable (ns : IdentityNs) (v : Bool)
  | wipe (ns : IdentityNs)
  | tick (ms : Nat)

namespace SeedVaultInput

variable (ns : IdentityNs)

def create (payload : VaultPayload) (password : Password)
    (protection : ProtectionMode) (init : SealedInit) (marker : ResumeMarker) (target : Nat) :
    SeedVaultInput := .call ns (.create payload password protection init marker) target

def openWith (password : Password) (target : Nat) : SeedVaultInput :=
  .call ns (.openWith password) target

def rewrap (oldPassword newPassword : Password) (protection : ProtectionMode)
    (target : Nat) : SeedVaultInput := .call ns (.rewrite oldPassword newPassword protection) target

def setProtection (protection : ProtectionMode) (password : Password)
    (target : Nat) : SeedVaultInput := .call ns (.rewrite password password protection) target

end SeedVaultInput

def seedVaultStep (s : SeedVault) : SeedVaultInput → Option SeedVault
  | .call ns op target =>
    let did := s.begin ⟨ns, op, target, .read⟩
    some { did.1 with tasks := s.tasks ++ did.2.1.toList }
  | .goOn k ok =>
    match s.tasks[k]? with
    | none => none
    | some t =>
      let did := s.goOn t ok
      some { did.1 with tasks := s.tasks.eraseIdx k ++ did.2.1.toList }
  | .activate ns marker =>
    some { s with
      active := some ns
      init := update s.init ns none
      resume := marker }
  | .setResume marker => some { s with resume := marker }
  | .setBioUnusable ns v => some { s with bioUnusable := update s.bioUnusable ns v }
  | .wipe ns =>
    some { s with
      vaults := update s.vaults ns none
      init := update s.init ns none
      bioUnusable := update s.bioUnusable ns false
      active := if s.active = some ns then none else s.active
      entries := update s.entries ns none }
  | .tick ms => some { s with now := s.now + ms }

def SeedVault.verifyWiped (s : SeedVault) (ns : IdentityNs) : Bool :=
  (s.vaults ns).isNone && (s.init ns).isNone && !s.bioUnusable ns && decide (s.active ≠ some ns)

/-! ## 5. What a password opens -/

open SeedVault

section

variable {s s' : SeedVault} {t : VaultTask} {ns : IdentityNs} {record next : VaultRecord}
  {opened : Option VaultRecord} {payload : VaultPayload} {password : Password}
  {protection : ProtectionMode} {entry : VaultEntry} {ok : Bool}

def VaultRecord.Opens (record : VaultRecord) (entry : VaultEntry) : Prop :=
  record.head.protection = entry.protection ∧
    ∀ pw, openVault record pw = if pw = entry.password then some entry.payload else none

theorem opens_seal {head : VaultHead} {iv : Iv}
    (h : sealVault head iv password payload = some next) :
    next.head = head ∧ next.iv = iv ∧ next.Opens ⟨payload, password, head.protection⟩ := by
  rw [sealVault] at h
  split at h
  · next hwf =>
    cases h
    refine ⟨rfl, rfl, rfl, fun pw => ?_⟩
    simp only [openVault, hwf, and_true]
    exact if_congr eq_comm rfl rfl
  · cases h

theorem opens_unique (h : record.Opens entry) (hopen : openVault record password = some payload) :
    entry.password = password ∧ entry.payload = payload := by
  rw [h.2 password] at hopen
  split at hopen
  · next heq => exact ⟨heq.symm, some.inj hopen⟩
  · cases hopen

/-- What is written for a call: for a rewrite or a migration, from the record that it has opened. -/
def VaultTask.Prepared (t : VaultTask) (opened : Option VaultRecord) (next : VaultRecord) : Prop :=
  next.head.ns = t.ns ∧ match t.op, opened with
    | .create payload password protection _ _, none => next.Opens ⟨payload, password, protection⟩
    | .openWith password, some record =>
      next.head.createdAt = record.head.createdAt ∧ ∃ payload,
        openVault record password = some payload ∧
          next.Opens ⟨payload, password, record.head.protection⟩
    | .rewrite oldPassword newPassword protection, some record =>
      next.head.createdAt = record.head.createdAt ∧ ∃ payload,
        openVault record oldPassword = some payload ∧
          next.Opens ⟨payload, newPassword, protection⟩
    | _, _ => False

def SeedVault.SameStores (s s' : SeedVault) : Prop :=
  s'.vaults = s.vaults ∧ s'.active = s.active ∧ s'.resume = s.resume ∧ s'.init = s.init ∧
    s'.bioUnusable = s.bioUnusable

inductive Went (s : SeedVault) (t : VaultTask) :
    SeedVault × Option VaultTask × Option VaultAnswer → Prop where
  | ends (answer : VaultAnswer) (hnot : answer ≠ .rewritten true) : Went s t (s.answers answer)
  | begins : Went s t (s, some { t with stage := .read }, none)
  | reads (record : VaultRecord) (hrecord : s.record t.ns = some record) :
      Went s t (s, some { t with stage := .decrypt record }, none)
  | seals (opened : Option VaultRecord) (next : VaultRecord) (hiv : next.iv = s.sealed.length)
      (hprepared : t.Prepared opened next)
      (hopened : ∀ record ∈ opened, t.stage = .decrypt record) : Went s t (s.sealing t opened next)
  | toWrite (opened : Option VaultRecord) (next : VaultRecord)
      (hstage : t.stage = .seal opened next) :
      Went s t (s, some { t with stage := .write opened next }, none)
  | creates (opened : Option VaultRecord) (next : VaultRecord) (payload : VaultPayload)
      (password : Password) (protection : ProtectionMode) (init : SealedInit)
      (marker : ResumeMarker) (hstage : t.stage = .write opened next)
      (hop : t.op = .create payload password protection init marker) :
      Went s t ({ s.put t next with
        init := update s.init t.ns (some init)
        resume := some marker }.answers .created)
  | replaces (record current next : VaultRecord) (answer : VaultAnswer)
      (hstage : t.stage = .write (some record) next) (hcurrent : s.record t.ns = some current)
      (hiv : current.iv = record.iv) (hop : ∀ a b c d e, t.op ≠ .create a b c d e)
      (hanswer : answer = .rewritten true ∨ ∃ pw, t.op = .openWith pw) :
      Went s t ((s.put t next).answers answer)

theorem went_notOpened : Went s t (s.notOpened t.op) := by
  cases t.op <;> exact .ends _ nofun

theorem went_notWritten {conflict : Bool} : Went s t (s.notWritten t next conflict) := by
  rw [notWritten]
  cases t.op with
  | rewrite => cases conflict <;> exact .ends _ nofun
  | _ => exact .ends _ nofun

theorem went_begin : Went s t (s.begin t) := by
  rw [begin]
  split
  · next payload password protection init marker hop =>
    split
    · next next hseal =>
      obtain ⟨hhead, hiv, hopens⟩ := opens_seal hseal
      refine .seals none next hiv ⟨by rw [hhead], ?_⟩ nofun
      rw [hop]
      exact hopens
    · exact .ends _ nofun
  · exact .begins

theorem went_afterOpen (hstage : t.stage = .decrypt record)
    (hopen : ∀ pw, (t.op = .openWith pw ∨ ∃ new protection, t.op = .rewrite pw new protection) →
      openVault record pw = some payload) :
    Went s t (s.afterOpen t record payload) := by
  rw [afterOpen]
  have hopened : ∀ r ∈ some record, t.stage = .decrypt r := by
    rintro r ⟨⟩
    exact hstage
  split
  · next password hop =>
    split
    · split
      · next next hseal =>
        obtain ⟨hhead, hiv, hopens⟩ := opens_seal hseal
        refine .seals _ next hiv ⟨by rw [hhead], ?_⟩ hopened
        rw [hop]
        exact ⟨by rw [hhead]; rfl, payload, hopen password (.inl hop), hopens⟩
      · exact .ends _ nofun
    · exact .ends _ nofun
  · next old new protection hop =>
    split
    · next next hseal =>
      obtain ⟨hhead, hiv, hopens⟩ := opens_seal hseal
      refine .seals _ next hiv ⟨by rw [hhead], ?_⟩ hopened
      rw [hop]
      exact ⟨by rw [hhead]; rfl, payload, hopen old (.inr ⟨new, protection, hop⟩), hopens⟩
    · exact .ends _ nofun
  · exact .ends _ nofun

theorem went_write (hstage : t.stage = .write opened next) : Went s t (s.write t opened next) := by
  rw [write]
  have hreplaces : (∀ a b c d e, t.op ≠ .create a b c d e) → ∀ answer,
      (answer = .rewritten true ∨ ∃ pw, t.op = .openWith pw) →
      ((s.record t.ns).map (·.iv) = opened.map (·.iv) ∧ opened.isSome = true) →
      Went s t ((s.put t next).answers answer) := by
    rintro hop answer hanswer ⟨hiv, hsome⟩
    obtain ⟨record, rfl⟩ := isSome_iff_exists.mp hsome
    obtain ⟨current, hcurrent, heq⟩ := map_eq_some_iff.mp (hiv.trans (map_some ..))
    exact .replaces record current next answer hstage hcurrent heq hop hanswer
  split
  · next hop => exact .creates _ _ _ _ _ _ _ hstage hop
  · next hop =>
    split
    · next hsame =>
      exact hreplaces (fun _ _ _ _ _ h => by cases hop.symm.trans h) _ (.inr ⟨_, hop⟩) hsame
    · exact went_notWritten
  next hop =>
  split
  · next hsame =>
    refine hreplaces (fun _ _ _ _ _ h => by cases hop.symm.trans h) _ (.inl ?_) hsame
    rw [hop]
  · exact went_notWritten

theorem went_goOn : Went s t (s.goOn t ok) := by
  rw [goOn]
  split
  · split
    · split
      · next record hrecord => exact .reads record hrecord
      · exact went_notOpened
    · exact .ends _ nofun
  · next record hstage =>
    split
    · next password hop =>
      split
      · next payload hopen =>
        split
        · refine went_afterOpen hstage ?_
          rintro pw (heq | ⟨_, _, heq⟩) <;> rw [hop] at heq <;> cases heq
          exact hopen
        · exact went_notOpened
      · exact went_notOpened
    · next password _ _ hop =>
      split
      · next payload hopen =>
        split
        · refine went_afterOpen hstage ?_
          rintro pw (heq | ⟨_, _, heq⟩) <;> rw [hop] at heq <;> cases heq
          exact hopen
        · exact went_notOpened
      · exact went_notOpened
    · exact .ends _ nofun
  · next opened next hstage =>
    split
    · exact .toWrite opened next hstage
    · exact went_notWritten
  · next opened next hstage =>
    split
    · exact went_write hstage
    · exact went_notWritten

/-! ## 6. What every record holds -/

/-- Each stored record is one that was sealed for its namespace, and opens as its entry says. -/
structure StoresOk (s : SeedVault) : Prop where
  stored : ∀ ns record, s.record ns = some record → s.sealed[record.iv]? = some record ∧
    record.head.ns = ns ∧ ∃ entry, s.entries ns = some entry ∧ record.Opens entry
  absent : ∀ ns, s.record ns = none → s.entries ns = none

def SeedVault.TaskOk (s : SeedVault) (t : VaultTask) : Prop :=
  match t.stage with
  | .read => True
  | .decrypt record => s.sealed[record.iv]? = some record
  | .seal opened next | .write opened next => t.Prepared opened next ∧
    s.sealed[next.iv]? = some next ∧ ∀ record ∈ opened, s.sealed[record.iv]? = some record

structure VaultInv (s : SeedVault) : Prop where
  stores : StoresOk s
  tasks : ∀ t ∈ s.tasks, s.TaskOk t

theorem record_put (s : SeedVault) (t : VaultTask) (next : VaultRecord) (ns : IdentityNs) :
    (s.put t next).record ns = if ns = t.ns then some next else s.record ns := by
  simp only [record, put, update_apply]
  split_ifs <;> rfl

theorem record_wipe (s : SeedVault) (ns ns' : IdentityNs) (init : IdentityNs → Option SealedInit)
    (bio : IdentityNs → Bool) (active : Option IdentityNs)
    (entries : IdentityNs → Option VaultEntry) :
    SeedVault.record { s with
      vaults := update s.vaults ns none
      init, active, entries
      bioUnusable := bio } ns' = if ns' = ns then none else s.record ns' := by
  simp only [record, update_apply]
  split_ifs <;> rfl

theorem replaces_stored {current : VaultRecord} (h : StoresOk s) (ht : s.TaskOk t)
    (hstage : t.stage = .write (some record) next) (hcurrent : s.record t.ns = some current)
    (hiv : current.iv = record.iv) (hop : ∀ a b c d e, t.op ≠ .create a b c d e) :
    current = record ∧ ∃ entry entry', s.entries t.ns = some entry ∧ record.Opens entry ∧
      entryAfter t.op (some entry) = some entry' ∧ next.Opens entry' ∧
      (∀ pw, t.op = .openWith pw → entry' = entry) := by
  rw [TaskOk, hstage] at ht
  obtain ⟨⟨-, hprepared⟩, -, hopened⟩ := ht
  obtain ⟨hknown, -, entry, hentry, hopens⟩ := h.stored _ _ hcurrent
  have heq : current = record := by
    have hrecord := hopened record rfl
    rw [← hiv, hknown] at hrecord
    exact some.inj hrecord
  subst heq
  refine ⟨rfl, ?_⟩
  split at hprepared
  · next hcreate _ => exact absurd hcreate (hop _ _ _ _ _)
  · next password r hopenWith hr =>
    cases hr
    obtain ⟨-, payload, hpayload, hnext⟩ := hprepared
    obtain ⟨hpassword, hsame⟩ := opens_unique hopens hpayload
    refine ⟨entry, entry, hentry, hopens, by rw [hopenWith]; rfl, ?_, fun _ _ => rfl⟩
    rw [hopens.1, ← hpassword, ← hsame] at hnext
    exact hnext
  · next old new protection r hrewrite hr =>
    cases hr
    obtain ⟨-, payload, hpayload, hnext⟩ := hprepared
    obtain ⟨-, hsame⟩ := opens_unique hopens hpayload
    refine ⟨entry, ⟨payload, new, protection⟩, hentry, hopens, ?_, hnext, fun pw hpw => ?_⟩
    · rw [hrewrite, ← hsame]
      rfl
    · rw [hrewrite] at hpw
      cases hpw
  · cases hprepared

theorem storesOk_put {entry' : VaultEntry} (h : StoresOk s)
    (hknown : s.sealed[next.iv]? = some next) (hns : next.head.ns = t.ns)
    (hafter : entryAfter t.op (s.entries t.ns) = some entry')
    (hopens : next.Opens entry') :
    StoresOk (s.put t next) where
  stored ns record hrecord := by
    rw [record_put] at hrecord
    split_ifs at hrecord with heq
    · cases hrecord
      refine ⟨hknown, heq ▸ hns, entry', ?_, hopens⟩
      simp only [put, heq, update_self, hafter]
    obtain ⟨hsealed, hhead, entry, hentry, hopen⟩ := h.stored ns record hrecord
    refine ⟨hsealed, hhead, entry, ?_, hopen⟩
    simpa only [put, update_of_ne heq] using hentry
  absent ns hrecord := by
    rw [record_put] at hrecord
    split_ifs at hrecord with heq
    simpa only [put, update_of_ne heq] using h.absent ns hrecord

theorem sealed_concat {iv : Iv} (x : VaultRecord) (h : s.sealed[iv]? = some record) :
    (s.sealed ++ [x])[iv]? = some record := by
  rw [List.getElem?_append_left (List.getElem?_eq_some_iff.mp h).1]
  exact h

theorem taskOk_concat (x : VaultRecord) (h : s.TaskOk t) :
    TaskOk { s with sealed := s.sealed ++ [x] } t := by
  rw [TaskOk] at h ⊢
  split at h
  · exact h
  · exact sealed_concat x h
  all_goals exact ⟨h.1, sealed_concat x h.2.1, fun r hr => sealed_concat x (h.2.2 r hr)⟩

theorem went_kept {w : SeedVault × Option VaultTask × Option VaultAnswer} (h : StoresOk s)
    (ht : s.TaskOk t) (hw : Went s t w) :
    StoresOk w.1 ∧ (∀ t', s.TaskOk t' → w.1.TaskOk t') ∧ ∀ t' ∈ w.2.1, w.1.TaskOk t' := by
  cases hw with
  | ends answer hnot => exact ⟨h, fun _ => id, fun _ hnone => nomatch hnone⟩
  | begins =>
    refine ⟨h, fun _ => id, ?_⟩
    rintro t' ⟨⟩
    trivial
  | reads record hrecord =>
    refine ⟨h, fun _ => id, ?_⟩
    rintro t' ⟨⟩
    exact (h.stored _ _ hrecord).1
  | seals opened next hiv hprepared hopened =>
    refine ⟨⟨fun ns record hrecord => ?_, h.absent⟩, fun t' => taskOk_concat next, ?_⟩
    · obtain ⟨hknown, hrest⟩ := h.stored ns record hrecord
      exact ⟨sealed_concat next hknown, hrest⟩
    rintro t' ⟨⟩
    refine ⟨hprepared, ?_, fun record hrecord => ?_⟩
    · rw [hiv]
      exact getElem?_concat_length
    · rw [TaskOk, hopened record hrecord] at ht
      exact sealed_concat next ht
  | toWrite opened next hstage =>
    refine ⟨h, fun _ => id, ?_⟩
    rintro t' ⟨⟩
    rw [TaskOk, hstage] at ht
    exact ht
  | creates opened next payload password protection init marker hstage hop =>
    rw [TaskOk, hstage] at ht
    obtain ⟨⟨hns, hprepared⟩, hknown, -⟩ := ht
    refine ⟨?_, fun _ => id, fun _ hnone => nomatch hnone⟩
    rw [hop] at hprepared
    cases opened with
    | some => cases hprepared
    | none =>
      have hput : StoresOk (s.put t next) :=
        storesOk_put h hknown hns (by rw [hop]; rfl) hprepared
      exact ⟨hput.stored, hput.absent⟩
  | replaces record current next answer hstage hcurrent hiv hop hanswer =>
    obtain ⟨-, entry, entry', hentry, -, hafter, hopens, -⟩ :=
      replaces_stored h ht hstage hcurrent hiv hop
    rw [TaskOk, hstage] at ht
    exact ⟨storesOk_put h ht.2.1 ht.1.1 (hentry ▸ hafter) hopens,
      fun _ => id, fun _ hnone => nomatch hnone⟩

theorem vaultInv_step {i : SeedVaultInput} (h : VaultInv s) (hs : seedVaultStep s i = some s') :
    VaultInv s' := by
  cases i with
  | call ns op target =>
    cases hs
    have hread : s.TaskOk ⟨ns, op, target, .read⟩ := trivial
    obtain ⟨hstores, hothers, hnext⟩ := went_kept h.stores hread went_begin
    refine ⟨⟨hstores.stored, hstores.absent⟩, fun t ht => ?_⟩
    rcases mem_append.mp ht with ht | ht
    · exact hothers t (h.tasks t ht)
    · exact hnext t (mem_toList.mp ht)
  | goOn k ok =>
    rw [seedVaultStep] at hs
    split at hs
    · cases hs
    next t ht =>
    cases hs
    have hwent : Went s t (s.goOn t ok) := went_goOn
    obtain ⟨hstores, hothers, hnext⟩ :=
      went_kept h.stores (h.tasks t (mem_of_getElem? ht)) hwent
    refine ⟨⟨hstores.stored, hstores.absent⟩, fun t' ht' => ?_⟩
    rcases mem_append.mp ht' with ht' | ht'
    · exact hothers t' (h.tasks t' (mem_of_mem_eraseIdx ht'))
    · exact hnext t' (mem_toList.mp ht')
  | wipe ns =>
    cases hs
    refine ⟨⟨fun ns' record hrecord => ?_, fun ns' hrecord => ?_⟩, h.tasks⟩
    all_goals
      rw [record_wipe] at hrecord
      split_ifs at hrecord with heq
    · simpa only [update_of_ne heq] using h.stores.stored ns' record hrecord
    · simp only [heq, update_self]
    · simpa only [update_of_ne heq] using h.stores.absent ns' hrecord
  | _ =>
    cases hs
    exact ⟨⟨h.stores.stored, h.stores.absent⟩, h.tasks⟩

variable {foreign : IdentityNs → Bool}

theorem vaultInv_reaches
    (h : Machine.Reaches seedVaultStep (fun _ _ => True) (.start foreign) s) : VaultInv s := by
  refine h.invariant ⟨⟨fun ns record hrecord => ?_, fun _ _ => rfl⟩,
    fun _ hnil => nomatch hnil⟩ fun _ _ _ hinv _ hs => vaultInv_step hinv hs
  simp only [SeedVault.record, SeedVault.start] at hrecord
  cases hf : foreign ns <;> simp [hf] at hrecord

/-! ## 7. Results -/

theorem SeedVault.SameStores.refl : s.SameStores s := ⟨rfl, rfl, rfl, rfl, rfl⟩

theorem sameStores_notWritten {conflict : Bool} :
    s.SameStores (s.notWritten t next conflict).1 := by
  rw [notWritten]
  split <;> exact .refl

theorem sameStores_notOpened {op : VaultOp} : s.SameStores (s.notOpened op).1 := by
  cases op <;> exact .refl

theorem sameStores_failed : s.SameStores (s.goOn t false).1 := by
  rw [goOn]
  split
  · exact .refl
  · split
    · split <;> exact sameStores_notOpened
    · split <;> exact sameStores_notOpened
    · exact .refl
  · exact sameStores_notWritten
  · exact sameStores_notWritten

theorem rewrite_done {oldPassword newPassword : Password} (h : VaultInv s) (ht : t ∈ s.tasks)
    (hop : t.op = .rewrite oldPassword newPassword protection)
    (hdone : (s.goOn t ok).2.2 = some (.rewritten true)) :
    ∃ record next payload, t.stage = .write (some record) next ∧ s.record t.ns = some record ∧
      openVault record oldPassword = some payload ∧
      SameStores { s with vaults := update s.vaults t.ns (some (.v3 next)) } (s.goOn t ok).1 ∧
      next.head.createdAt = record.head.createdAt ∧
      next.Opens ⟨payload, newPassword, protection⟩ := by
  have hwent : Went s t (s.goOn t ok) := went_goOn
  generalize s.goOn t ok = w at hwent hdone ⊢
  cases hwent with
  | ends answer hnot => exact absurd (some.inj hdone) hnot
  | begins | reads | seals | toWrite | creates => cases hdone
  | replaces record current next answer hstage hcurrent hiv hnot =>
    have htask := h.tasks t ht
    obtain ⟨heq, -⟩ := replaces_stored h.stores htask hstage hcurrent hiv hnot
    rw [TaskOk, hstage] at htask
    obtain ⟨⟨-, hprepared⟩, -⟩ := htask
    rw [hop] at hprepared
    obtain ⟨hcreated, payload, hopen, hnext⟩ := hprepared
    exact ⟨record, next, payload, hstage, heq ▸ hcurrent, hopen, .refl, hcreated, hnext⟩

theorem rewrite_notDone {oldPassword newPassword : Password}
    (hop : t.op = .rewrite oldPassword newPassword protection)
    (hnot : (s.goOn t ok).2.2 ≠ some (.rewritten true)) : s.SameStores (s.goOn t ok).1 := by
  have hwent : Went s t (s.goOn t ok) := went_goOn
  generalize s.goOn t ok = w at hwent hnot ⊢
  cases hwent with
  | ends | begins | reads | seals | toWrite => exact .refl
  | creates _ _ _ _ _ _ _ _ hcreate =>
    rw [hop] at hcreate
    cases hcreate
  | replaces _ _ _ answer _ _ _ _ hanswer =>
    rcases hanswer with rfl | ⟨pw, hpw⟩
    · exact absurd rfl hnot
    · rw [hop] at hpw
      cases hpw

theorem migration_replaces (h : VaultInv s) (ht : t ∈ s.tasks) (hop : t.op = .openWith password) :
    s.SameStores (s.goOn t ok).1 ∨
    ∃ record next, t.stage = .write (some record) next ∧ s.record t.ns = some record ∧
      SameStores { s with vaults := update s.vaults t.ns (some (.v3 next)) } (s.goOn t ok).1 ∧
      next.head.createdAt = record.head.createdAt ∧
      next.head.protection = record.head.protection ∧
      ∀ pw, openVault next pw = openVault record pw := by
  have hwent : Went s t (s.goOn t ok) := went_goOn
  generalize s.goOn t ok = w at hwent ⊢
  cases hwent with
  | ends | begins | reads | seals | toWrite => exact .inl .refl
  | creates _ _ _ _ _ _ _ _ hcreate =>
    rw [hop] at hcreate
    cases hcreate
  | replaces record current next answer hstage hcurrent hiv hnot =>
    have htask := h.tasks t ht
    obtain ⟨heq, entry, entry', -, hopens, -, hopens', hsame⟩ :=
      replaces_stored h.stores htask hstage hcurrent hiv hnot
    rw [TaskOk, hstage] at htask
    obtain ⟨⟨-, hprepared⟩, -⟩ := htask
    rw [hop] at hprepared
    rw [hsame password hop] at hopens'
    refine .inr ⟨record, next, hstage, heq ▸ hcurrent, .refl, hprepared.1,
      hopens'.1.trans hopens.1.symm, fun pw => ?_⟩
    rw [hopens.2, hopens'.2]

def CommitsCreate (ns : IdentityNs) (s : SeedVault) (i : SeedVaultInput) : Prop :=
  ∃ k t opened next payload password protection init marker, i = .goOn k true ∧
    s.tasks[k]? = some t ∧ t.ns = ns ∧ t.stage = .write opened next ∧
    t.op = .create payload password protection init marker

theorem record_none_step {i : SeedVaultInput} (hnot : ¬CommitsCreate ns s i)
    (hnone : s.record ns = none) (hs : seedVaultStep s i = some s') : s'.record ns = none := by
  cases i with
  | call ns' op target =>
    cases hs
    have hwent : Went s ⟨ns', op, target, .read⟩ (s.begin ⟨ns', op, target, .read⟩) := went_begin
    generalize s.begin ⟨ns', op, target, .read⟩ = w at hwent
    cases hwent with
    | ends | begins | reads | seals | toWrite => exact hnone
    | creates _ _ _ _ _ _ _ hstage | replaces _ _ _ _ hstage => cases hstage
  | goOn k ok =>
    rw [seedVaultStep] at hs
    split at hs
    · cases hs
    next t ht =>
    cases hs
    cases ok with
    | false =>
      have hsame : s.SameStores (s.goOn t false).1 := sameStores_failed
      have hrecord : (s.goOn t false).1.record ns = s.record ns := by
        rw [record, hsame.1, record]
      exact hrecord.trans hnone
    | true =>
      have hwent : Went s t (s.goOn t true) := went_goOn
      generalize s.goOn t true = w at hwent
      have hput : ∀ next, ns ≠ t.ns → (s.put t next).record ns = none := fun next hne => by
        rw [record_put, if_neg hne, hnone]
      cases hwent with
      | ends | begins | reads | seals | toWrite => exact hnone
      | creates opened next payload password protection init marker hstage hop =>
        refine hput next fun heq => hnot ?_
        exact ⟨k, t, opened, next, payload, password, protection, init, marker, rfl, ht, heq.symm,
          hstage, hop⟩
      | replaces record current next answer hstage hcurrent =>
        refine hput next fun heq => ?_
        rw [← heq, hnone] at hcurrent
        cases hcurrent
  | wipe ns' =>
    cases hs
    rw [record_wipe, hnone, ite_self]
  | _ =>
    cases hs
    exact hnone

theorem verifyWiped_wipe (hs : seedVaultStep s (.wipe ns) = some s') :
    s'.verifyWiped ns = true := by
  cases hs
  simp only [verifyWiped, update_self, isNone_none, Bool.not_false,
    Bool.and_true, Bool.true_and, decide_eq_true_eq]
  split_ifs with h
  · nofun
  · exact h

/-- **The records of the seed vault**: every stored record is opened by the password that was set
    last and by no other, to the payload of the last create of its namespace, and has the protection
    that was set last.  A rewrap or a setProtection that answers true has replaced the record that
    it had opened; else it changes nothing.  A migration replaces only the record that it has
    opened, and passwords and protection stay.  Only a create gives a namespace a record. -/
theorem vault_rewrites (h : Machine.Reaches seedVaultStep (fun _ _ => True) (.start foreign) s) :
    (∀ ns, (s.record ns = none → s.entries ns = none) ∧
      ∀ record, s.record ns = some record → record.head.ns = ns ∧
        ∃ entry, s.entries ns = some entry ∧ record.head.protection = entry.protection ∧
          ∀ pw, openVault record pw = if pw = entry.password then some entry.payload else none) ∧
    (∀ t ∈ s.tasks, ∀ oldPassword newPassword protection ok,
      t.op = .rewrite oldPassword newPassword protection →
      ((s.goOn t ok).2.2 ≠ some (.rewritten true) → s.SameStores (s.goOn t ok).1) ∧
      ((s.goOn t ok).2.2 = some (.rewritten true) →
        ∃ record next payload, t.stage = .write (some record) next ∧
          s.record t.ns = some record ∧ openVault record oldPassword = some payload ∧
          SameStores { s with vaults := update s.vaults t.ns (some (.v3 next)) } (s.goOn t ok).1 ∧
          next.head.createdAt = record.head.createdAt ∧ next.head.protection = protection ∧
          ∀ pw, openVault next pw = if pw = newPassword then some payload else none)) ∧
    (∀ t ∈ s.tasks, ∀ password ok, t.op = .openWith password → s.SameStores (s.goOn t ok).1 ∨
      ∃ record next, t.stage = .write (some record) next ∧ s.record t.ns = some record ∧
        SameStores { s with vaults := update s.vaults t.ns (some (.v3 next)) } (s.goOn t ok).1 ∧
        next.head.createdAt = record.head.createdAt ∧
        next.head.protection = record.head.protection ∧
        ∀ pw, openVault next pw = openVault record pw) ∧
    (∀ ns s', seedVaultStep s (.wipe ns) = some s' → s'.verifyWiped ns = true) ∧
    ∀ ns s', s.record ns = none →
      Machine.Reaches seedVaultStep (fun s i => ¬CommitsCreate ns s i) s s' →
        s'.record ns = none := by
  have hinv := vaultInv_reaches h
  refine ⟨fun ns => ⟨hinv.stores.absent ns, fun record hrecord => ?_⟩,
    fun t ht old new protection ok hop => ⟨rewrite_notDone hop, fun hdone => ?_⟩,
    fun t ht password ok hop => migration_replaces hinv ht hop,
    fun ns s' hs => verifyWiped_wipe hs,
    fun ns s' hnone h' => h'.invariant hnone fun _ _ _ hn ha hs => record_none_step ha hn hs⟩
  · exact (hinv.stores.stored ns record hrecord).2
  obtain ⟨record, next, payload, hstage, hrecord, hopen, hsame, hcreated, hopens⟩ :=
    rewrite_done hinv ht hop hdone
  exact ⟨record, next, payload, hstage, hrecord, hopen, hsame, hcreated, hopens⟩

/-- A password is changed while a migration under the old one is about to write. -/
theorem vault_rewrites_race : ∃ (s : SeedVault) (record : VaultRecord) (payload : VaultPayload),
      s.record "n" = some record ∧ openVault record [2] = some payload ∧
        openVault record [1] = none ∧ record.head.protection = .passphraseBiometric := by
  have ⟨s, hs, hp⟩ := Machine.Reaches.of_exec seedVaultStep (fun _ _ => True)
    (.start fun _ => false)
    [.create "n" ⟨replicate 64 7, replicate 32 9⟩ [1] .passphrase ⟨"iv", "ct"⟩
        ⟨.setup, .switched, "n", none, none, 0⟩ 100,
      .goOn 0 true, .goOn 0 true, .tick 5, .openWith "n" [1] 200, .goOn 0 true,
      .rewrap "n" [1] [2] .passphraseBiometric 200, .goOn 0 true, .goOn 0 true, .goOn 0 true,
      .goOn 0 true, .goOn 1 true, .goOn 1 true, .goOn 0 true, .wipe "m"]
    (fun s => decide ((s.record "n").isSome = true ∧ s.entries "n" =
      some ⟨⟨replicate 64 7, replicate 32 9⟩, [2], .passphraseBiometric⟩))
    (by decide +kernel)
  obtain ⟨hsome, hentry⟩ := of_decide_eq_true hp
  obtain ⟨record, hrecord⟩ := isSome_iff_exists.mp hsome
  obtain ⟨-, entry, hentry', hprotection, hopens⟩ := ((vault_rewrites hs).1 "n").2 record hrecord
  rw [hentry] at hentry'
  cases hentry'
  exact ⟨s, record, _, hrecord, by rw [hopens, if_pos rfl], by rw [hopens, if_neg (by decide)],
    hprotection⟩

end

end WebOfTrust
