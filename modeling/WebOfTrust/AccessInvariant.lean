/-
  **What keeps every identity accessible**: the invariant of the vaults, the keystore, the pending
  setups and the sessions, and what each operation of the runtime does to it.

  A transition of an ended epoch may still write while the next one runs: `StorageRely` and
  `SessionRely` say what a transition may see of the others.
-/
import WebOfTrust.AccessCalm

namespace WebOfTrust

open Async IdentityPlatform IdentityInventory IdentityRuntime Function

namespace LastAccess

variable {s s' s'' : Identity}

/-! ## 1. The invariant -/

section

variable {nfc : String → String} {ns ns' : IdentityNs} {lease : LeaseId} {pd : Pending} {x : Session}
  {record : AccessRecord}

/-- What a pending setup holds: its keystore secret is a random one; a passphrase that it has written
    a vault with is set, and no other one is before the first session. -/
structure PendingOk (s : Identity) (pd : Pending) : Prop where
  space : pd.ns ∈ s.device.spaces
  fresh : pd.mode = .biometricOnly → HasPassphrase s pd.ns → pd.ns ∈ s.installed
  random : ∀ k ∈ pd.ksSecret, k.IsRandom
  password : pd.mode ≠ .biometricOnly → ∀ k ∈ pd.password, k.IsPassphrase ∧ HasPassphrase s pd.ns
  written : pd.keys = true → pd.password.isSome = true

structure SessionOk (s : Identity) (x : Session) : Prop where
  installed : x.ns ∈ s.installed
  passphrase : x.provenBy = .passphrase → x.proven.IsPassphrase ∧ HasPassphrase s x.ns

structure RecordOk (nfc : String → String) (s : Identity) (ns : IdentityNs)
    (record : AccessRecord) : Prop where
  space : ns ∈ s.device.spaces
  opens : record.Opens nfc s ns
  random : record.protection = .biometricOnly → record.secret.IsRandom ∧ ¬ HasPassphrase s ns

structure AccessInv (nfc : String → String) (s : Identity) : Prop where
  pendings : ∀ lease pd, s.pendings lease = some pd → PendingOk s pd
  single : ∀ lease lease' pd pd', s.pendings lease = some pd → s.pendings lease' = some pd' →
    pd.ns = pd'.ns → pd.mode = pd'.mode
  sessions : ∀ lease x, s.sessions lease = some x → SessionOk s x
  /-- A new lease is none of a session. -/
  leased : ∀ lease x, s.sessions lease = some x → lease < s.res.leases.length
  spaces : ∀ ns, HasPassphrase s ns → ns ∈ s.device.spaces
  records : ∀ ns record, s.device.vaults ns = some (.v3 record) → RecordOk nfc s ns record

theorem biometricOnly_iff : BiometricOnly s ns ↔
    ∃ record, s.device.vaults ns = some (.v3 record) ∧ record.protection = .biometricOnly := by
  rw [BiometricOnly, Device.head]
  constructor
  · intro h
    split at h
    · next record hrecord => exact ⟨record, hrecord, Option.some.inj h⟩
    · cases h
  · rintro ⟨record, hrecord, hmode⟩
    rw [hrecord]
    exact congrArg some hmode

theorem AccessInv.notBio (h : AccessInv nfc s) (hpass : HasPassphrase s ns) :
    ¬ BiometricOnly s ns := by
  intro hbio
  obtain ⟨record, hrecord, hmode⟩ := biometricOnly_iff.mp hbio
  exact ((h.records ns record hrecord).random hmode).2 hpass

/-- What else runs may see of a step: a storage transition, and a session transition. -/
structure StorageRely (s s' : Identity) : Prop where
  pendings : s'.pendings = s.pendings
  spaces : s'.device.spaces = s.device.spaces
  installed : ∀ ns ∈ s.installed, ns ∈ s'.installed
  passphrases : ∀ ns, HasPassphrase s ns → HasPassphrase s' ns
  newPassphrase : ∀ ns, HasPassphrase s' ns → HasPassphrase s ns ∨ ns ∈ s'.installed
  notBio : ∀ ns, ¬ BiometricOnly s ns → ¬ BiometricOnly s' ns

structure SessionRely (s s' : Identity) : Prop where
  sessions : ∀ lease x, s.sessions lease = some x → ∃ x', s'.sessions lease = some x' ∧ x'.ns = x.ns
  installed : ∀ ns ∈ s.installed, ns ∈ s'.installed
  passphrases : ∀ ns, HasPassphrase s ns → HasPassphrase s' ns
  notBio : ∀ ns ∈ s.installed, ¬ BiometricOnly s ns → ¬ BiometricOnly s' ns

/-- The steps of session transitions are seen by every other one. -/
structure BothRely (s s' : Identity) : Prop where
  storage : StorageRely s s'
  session : SessionRely s s'

theorem SameAccess.hasPassphrase (h : SameAccess s s') :
    HasPassphrase s' ns ↔ HasPassphrase s ns := by
  rw [HasPassphrase, HasPassphrase, h.passphrases]

theorem SameAccess.biometricOnly (h : SameAccess s s') :
    BiometricOnly s' ns ↔ BiometricOnly s ns := by
  rw [biometricOnly_iff, biometricOnly_iff, h.vaults]

theorem SameAccess.rely (h : SameAccess s s') : BothRely s s' where
  storage := ⟨h.pendings, h.spaces, fun _ hn => h.installed ▸ hn, fun _ => h.hasPassphrase.mpr,
    fun _ hp => .inl (h.hasPassphrase.mp hp), fun _ hn hb => hn (h.biometricOnly.mp hb)⟩
  session := ⟨fun _ x hx => ⟨x, h.sessions ▸ hx, rfl⟩, fun _ hn => h.installed ▸ hn,
    fun _ => h.hasPassphrase.mpr, fun _ _ hn hb => hn (h.biometricOnly.mp hb)⟩

theorem PendingOk.mono (h : PendingOk s pd)
    (hspaces : ∀ ns ∈ s.device.spaces, ns ∈ s'.device.spaces)
    (hinstalled : ∀ ns ∈ s.installed, ns ∈ s'.installed)
    (hpass : HasPassphrase s pd.ns → HasPassphrase s' pd.ns)
    (hfresh : pd.mode = .biometricOnly → HasPassphrase s' pd.ns →
      HasPassphrase s pd.ns ∨ pd.ns ∈ s'.installed) : PendingOk s' pd where
  space := hspaces _ h.space
  fresh hmode hp := (hfresh hmode hp).elim (fun hp => hinstalled _ (h.fresh hmode hp)) id
  random := h.random
  password hmode k hk := ⟨(h.password hmode k hk).1, hpass (h.password hmode k hk).2⟩
  written := h.written

theorem SessionOk.mono (h : SessionOk s x) (hinstalled : ∀ ns ∈ s.installed, ns ∈ s'.installed)
    (hpass : HasPassphrase s x.ns → HasPassphrase s' x.ns) : SessionOk s' x where
  installed := hinstalled _ h.installed
  passphrase hp := ⟨(h.passphrase hp).1, hpass (h.passphrase hp).2⟩

theorem RecordOk.mono (h : RecordOk nfc s ns record)
    (hspaces : ∀ ns ∈ s.device.spaces, ns ∈ s'.device.spaces)
    (hpass : s'.passphrases ns = s.passphrases ns)
    (hkeystore : record.protection = .biometricOnly →
      s'.device.keystore ns = s.device.keystore ns) : RecordOk nfc s' ns record where
  space := hspaces ns h.space
  opens := by
    have hopens := h.opens
    rw [AccessRecord.Opens] at hopens ⊢
    split at hopens
    · next hmode => rw [if_pos hmode, hkeystore hmode, hopens]
    · next hmode => rw [if_neg hmode, hpass]; exact hopens
  random hmode := by
    rw [HasPassphrase, hpass]
    exact h.random hmode

theorem AccessInv.of_same (h : AccessInv nfc s) (hs : SameAccess s s') : AccessInv nfc s' where
  pendings lease pd hpd := (h.pendings lease pd (hs.pendings ▸ hpd)).mono (fun _ hn => hs.spaces ▸ hn)
    (fun _ hn => hs.installed ▸ hn) hs.hasPassphrase.mpr fun _ hp => .inl (hs.hasPassphrase.mp hp)
  single := by
    rw [hs.pendings]
    exact h.single
  sessions lease x hx := (h.sessions lease x (hs.sessions ▸ hx)).mono
    (fun _ hn => hs.installed ▸ hn) hs.hasPassphrase.mpr
  leased lease x hx := Nat.lt_of_lt_of_le (h.leased lease x (hs.sessions ▸ hx)) hs.leases
  spaces ns hp := hs.spaces ▸ h.spaces ns (hs.hasPassphrase.mp hp)
  records ns record hr := (h.records ns record (hs.vaults ▸ hr)).mono (fun _ hn => hs.spaces ▸ hn)
    (by rw [hs.passphrases]) fun _ => by rw [hs.keystore]

/-! ## 2. What the operations do -/

theorem StorageRely.trans (h : StorageRely s s') (h' : StorageRely s' s'') : StorageRely s s'' :=
  ⟨h'.pendings.trans h.pendings, h'.spaces.trans h.spaces,
    fun ns hn => h'.installed ns (h.installed ns hn),
    fun ns hp => h'.passphrases ns (h.passphrases ns hp),
    fun ns hp => (h'.newPassphrase ns hp).elim
      (fun hp => (h.newPassphrase ns hp).imp_right (h'.installed ns)) .inr,
    fun ns hn => h'.notBio ns (h.notBio ns hn)⟩

theorem SessionRely.trans (h : SessionRely s s') (h' : SessionRely s' s'') : SessionRely s s'' :=
  ⟨fun lease x hx => by
      obtain ⟨x', hx', hns⟩ := h.sessions lease x hx
      obtain ⟨x'', hx'', hns'⟩ := h'.sessions lease x' hx'
      exact ⟨x'', hx'', hns'.trans hns⟩,
    fun ns hn => h'.installed ns (h.installed ns hn),
    fun ns hp => h'.passphrases ns (h.passphrases ns hp),
    fun ns hi hn => h'.notBio ns (h.installed ns hi) (h.notBio ns hi hn)⟩

theorem BothRely.trans (h : BothRely s s') (h' : BothRely s' s'') :
    BothRely s s'' := ⟨h.storage.trans h'.storage, h.session.trans h'.session⟩

/-- A step after which the invariant holds, and that what runs beside it tolerates. -/
def Fine (nfc : String → String) (s s' : Identity) : Prop := AccessInv nfc s' ∧ BothRely s s'

theorem Fine.same (h : AccessInv nfc s) (hs : SameAccess s s') : Fine nfc s s' :=
  ⟨h.of_same hs, hs.rely⟩

theorem Fine.refl (h : AccessInv nfc s) : Fine nfc s s := .same h (.refl s)

theorem Fine.thenSame (h : Fine nfc s s') (hs : SameAccess s' s'') :
    Fine nfc s s'' := ⟨h.1.of_same hs, h.2.trans hs.rely⟩

theorem Fine.afterSame (hs : SameAccess s s') (h : Fine nfc s' s'') :
    Fine nfc s s'' := ⟨h.1, hs.rely.trans h.2⟩

/-- The step changes sessions only. -/
structure SessionsOnly (s s' : Identity) : Prop where
  vaults : s'.device.vaults = s.device.vaults
  keystore : s'.device.keystore = s.device.keystore
  spaces : s'.device.spaces = s.device.spaces
  passphrases : s'.passphrases = s.passphrases
  pendings : s'.pendings = s.pendings
  installed : ∀ ns ∈ s.installed, ns ∈ s'.installed

theorem SessionsOnly.fine (hs : SessionsOnly s s') (h : AccessInv nfc s)
    (hkept : ∀ lease x, s.sessions lease = some x →
      ∃ x', s'.sessions lease = some x' ∧ x'.ns = x.ns)
    (hsessions : ∀ lease x, s'.sessions lease = some x →
      SessionOk s' x ∧ lease < s'.res.leases.length) : Fine nfc s s' := by
  have hpass : ∀ ns, HasPassphrase s' ns ↔ HasPassphrase s ns := fun ns => by
    rw [HasPassphrase, HasPassphrase, hs.passphrases]
  have hbio : ∀ ns, BiometricOnly s' ns ↔ BiometricOnly s ns := fun ns => by
    rw [biometricOnly_iff, biometricOnly_iff, hs.vaults]
  refine ⟨⟨fun lease pd hpd => ?_, ?_, fun lease x hx => (hsessions lease x hx).1,
      fun lease x hx => (hsessions lease x hx).2, fun ns hp => ?_, fun ns record hr => ?_⟩,
    ⟨hs.pendings, hs.spaces, hs.installed, fun ns => (hpass ns).mpr,
      fun ns hp => .inl ((hpass ns).mp hp), fun ns hn hb => hn ((hbio ns).mp hb)⟩,
    ⟨hkept, hs.installed, fun ns => (hpass ns).mpr, fun ns _ hn hb => hn ((hbio ns).mp hb)⟩⟩
  · exact (h.pendings lease pd (hs.pendings ▸ hpd)).mono (fun _ hn => hs.spaces ▸ hn) hs.installed
      (hpass pd.ns).mpr fun _ hp => .inl ((hpass pd.ns).mp hp)
  · rw [hs.pendings]
    exact h.single
  · rw [hs.spaces]
    exact h.spaces ns ((hpass ns).mp hp)
  · exact (h.records ns record (hs.vaults ▸ hr)).mono (fun _ hn => hs.spaces ▸ hn)
      (by rw [hs.passphrases]) fun _ => by rw [hs.keystore]

theorem fine_setSession (h : AccessInv nfc s) {f : Session → Session} (hns : ∀ x, (f x).ns = x.ns)
    (hf : ∀ x, s.sessions lease = some x → SessionOk s (f x)) :
    Fine nfc s (s.setSession lease f) := by
  have hs : SessionsOnly s (s.setSession lease f) := ⟨rfl, rfl, rfl, rfl, rfl, fun _ hn => hn⟩
  have hlookup : ∀ lease', (s.setSession lease f).sessions lease' =
      if lease' = lease then (s.sessions lease).map f else s.sessions lease' :=
    fun lease' => update_apply _ _ _ _
  apply hs.fine h
  · intro lease' x hx
    rw [hlookup]
    split
    · next heq =>
      subst heq
      exact ⟨f x, by rw [hx]; rfl, hns x⟩
    · exact ⟨x, hx, rfl⟩
  · intro lease' x hx
    rw [hlookup] at hx
    split at hx
    · next heq =>
      obtain ⟨x', hx', rfl⟩ := Option.map_eq_some_iff.mp hx
      exact ⟨(hf x' hx').mono (fun _ => id) id, heq ▸ h.leased lease x' hx'⟩
    · exact ⟨(h.sessions lease' x hx).mono (fun _ => id) id, h.leased lease' x hx⟩

theorem length_sessionLease (s : Identity) (source : Option LeaseId) (ns : IdentityNs) :
    s.res.leases.length < (s.sessionLease source ns).res.leases.length := by
  have hnew : s.res.leases.length < (s.newLease ns .session).res.leases.length := by
    simp [Identity.newLease]
  cases source with
  | none => exact hnew
  | some source => exact hnew.trans_le length_move.ge

section

variable (h : AccessInv nfc s)
include h

theorem fine_install (ticket : Nat) (source : Option LeaseId)
    (hx : x.provenBy = .passphrase → x.proven.IsPassphrase ∧ HasPassphrase s x.ns) :
    Fine nfc s (s.install ticket source x).1 := by
  rw [Identity.install]
  split
  · dsimp only
    refine Fine.thenSame ?_ (.lockIfOrphaned _ _)
    have hsame := SameAccess.sessionLease s source x.ns
    have hleased := length_sessionLease s source x.ns
    generalize s.sessionLease source x.ns = moved at hsame hleased ⊢
    have hdrop := hsame.trans (.dropSession moved)
    have hpass : ∀ ns, HasPassphrase s ns → (moved.dropSession.1.passphrases ns).isSome = true :=
      fun ns hp => by rw [hdrop.passphrases]; exact hp
    refine SessionsOnly.fine ⟨hdrop.vaults, hdrop.keystore, hdrop.spaces, hdrop.passphrases,
      hdrop.pendings, fun _ hn => List.mem_cons_of_mem _ hn⟩ h (fun lease' x' hx' => ?_)
      fun lease' x' hx' => ?_
    · have hne : lease' ≠ s.res.leases.length := Nat.ne_of_lt (h.leased lease' x' hx')
      exact ⟨x', (update_of_ne hne _ _).trans (hsame.sessions ▸ hx'), rfl⟩
    have hx'' : update moved.sessions s.res.leases.length (some x) lease' = some x' := hx'
    have hlength : s.res.leases.length < moved.dropSession.1.res.leases.length :=
      Nat.lt_of_lt_of_le hleased (SameAccess.dropSession moved).leases
    rw [update_apply] at hx''
    split at hx''
    · next heq =>
      cases hx''
      exact ⟨⟨List.mem_cons_self, fun hp => ⟨(hx hp).1, hpass _ (hx hp).2⟩⟩, heq ▸ hlength⟩
    rw [hsame.sessions] at hx''
    exact ⟨(h.sessions lease' x' hx'').mono (fun _ hn => List.mem_cons_of_mem _ hn) (hpass _),
      (h.leased lease' x' hx'').trans hlength⟩
  · exact .refl h

theorem fine_handOver (ticket : Nat) (lease : LeaseId)
    (recovered : Option Recovered) : Fine nfc s (s.handOver ticket lease recovered).1 := by
  have hended : SameAccess s (if s.pending = some lease then { s with pending := none } else s) :=
    .ite (.of_eq rfl) (.refl s)
  have hrelease : ∀ t : Identity, SameAccess t (t.release lease) :=
    fun t => .register t length_release.ge
  rw [Identity.handOver]
  split
  · exact .same h hended
  next pd hpd =>
  refine .thenSame ?_ (hrelease _)
  split
  · next hkeys =>
    refine .afterSame hended (fine_install (h.of_same hended) _ _ fun hproven => ?_)
    have hok := h.pendings lease pd hpd
    obtain ⟨k, hk⟩ := Option.isSome_iff_exists.mp (hok.written hkeys)
    have hmode : pd.mode ≠ .biometricOnly := by
      intro hmode
      rw [if_pos hmode] at hproven
      cases hproven
    rw [hk]
    exact ⟨(hok.password hmode k hk).1, hended.hasPassphrase.mpr (hok.password hmode k hk).2⟩
  · exact .same h hended

theorem fine_setKeystore (hbio : ¬ BiometricOnly s ns)
    (k : Option AccessSecret) : Fine nfc s (s.setDevice (·.setKeystore ns k)) := by
  refine ⟨⟨fun lease pd hpd => (h.pendings lease pd hpd).mono (fun _ => id) (fun _ => id) id
      fun _ => .inl, h.single, fun lease x hx => (h.sessions lease x hx).mono (fun _ => id) id,
    h.leased, h.spaces, fun ns' record hr => ?_⟩,
    ⟨rfl, rfl, fun _ => id, fun _ => id, fun _ => .inl, fun _ => id⟩,
    ⟨fun _ x hx => ⟨x, hx, rfl⟩, fun _ => id, fun _ => id, fun _ _ => id⟩⟩
  refine (h.records ns' record hr).mono (fun _ => id) rfl fun hmode => update_of_ne ?_ _ _
  rintro rfl
  exact hbio (biometricOnly_iff.mpr ⟨record, hr, hmode⟩)

theorem fine_wipeVault (ns : IdentityNs) : Fine nfc s (s.setDevice (·.wipeVault ns)) ∧
      ¬ BiometricOnly (s.setDevice (·.wipeVault ns)) ns := by
  have hvault : ∀ ns' v, (s.setDevice (·.wipeVault ns)).device.vaults ns' = some v →
      ns' ≠ ns ∧ s.device.vaults ns' = some v := by
    intro ns' v hv
    have hv' : update s.device.vaults ns none ns' = some v := hv
    rw [update_apply] at hv'
    split at hv'
    · cases hv'
    · next hne => exact ⟨hne, hv'⟩
  have hbio : ∀ ns', BiometricOnly (s.setDevice (·.wipeVault ns)) ns' →
      ns' ≠ ns ∧ BiometricOnly s ns' := by
    intro ns' hb
    obtain ⟨record, hr, hmode⟩ := biometricOnly_iff.mp hb
    exact ⟨(hvault ns' _ hr).1, biometricOnly_iff.mpr ⟨record, (hvault ns' _ hr).2, hmode⟩⟩
  refine ⟨⟨⟨fun lease pd hpd => (h.pendings lease pd hpd).mono (fun _ => id) (fun _ => id) id
      fun _ => .inl, h.single, fun lease x hx => (h.sessions lease x hx).mono (fun _ => id) id,
    h.leased, h.spaces, fun ns' record hr => ?_⟩,
    ⟨rfl, rfl, fun _ => id, fun _ => id, fun _ => .inl, fun _ hn hb => hn (hbio _ hb).2⟩,
    ⟨fun _ x hx => ⟨x, hx, rfl⟩, fun _ => id, fun _ => id, fun _ _ hn hb => hn (hbio _ hb).2⟩⟩,
    fun hb => (hbio ns hb).1 rfl⟩
  exact (h.records ns' record (hvault ns' _ hr).2).mono (fun _ => id) rfl fun _ => rfl

end

theorem vaults_setRecord {pass : Option String} {v : DeviceVault}
    (hv : (s.setRecord ns record pass).device.vaults ns' = some v) :
    (ns' = ns ∧ v = .v3 record) ∨ (ns' ≠ ns ∧ s.device.vaults ns' = some v) := by
  have hv' : update s.device.vaults ns (some (.v3 record)) ns' = some v := hv
  rw [update_apply] at hv'
  split at hv'
  · next heq =>
    cases hv'
    exact .inl ⟨heq, rfl⟩
  · next hne => exact .inr ⟨hne, hv'⟩

theorem biometricOnly_setRecord {pass : Option String}
    (hb : BiometricOnly (s.setRecord ns record pass) ns') :
    (ns' = ns ∧ record.protection = .biometricOnly) ∨ (ns' ≠ ns ∧ BiometricOnly s ns') := by
  obtain ⟨r, hr, hmode⟩ := biometricOnly_iff.mp hb
  rcases vaults_setRecord hr with ⟨rfl, heq⟩ | ⟨hne, hr'⟩
  · cases heq
    exact .inl ⟨rfl, hmode⟩
  · exact .inr ⟨hne, biometricOnly_iff.mpr ⟨r, hr', hmode⟩⟩

section

variable {pass : String}

theorem passphrases_setRecord : (s.setRecord ns record (some pass)).passphrases ns' =
    if ns' = ns then some pass else s.passphrases ns' := update_apply _ _ _ _

theorem hasPassphrase_setRecord : HasPassphrase (s.setRecord ns record (some pass)) ns' ↔
    ns' = ns ∨ HasPassphrase s ns' := by
  rw [HasPassphrase, passphrases_setRecord]
  split
  · next heq => exact ⟨fun _ => .inl heq, fun _ => rfl⟩
  · next hne => exact ⟨.inr, fun h => h.resolve_left hne⟩

theorem inv_setPassphrase (h : AccessInv nfc s) (hmode : record.protection ≠ .biometricOnly)
    (hsecret : record.secret = passphraseBytes nfc pass) (hspace : ns ∈ s.device.spaces)
    (hfresh : ns ∈ s.installed ∨
      ∀ lease pd, s.pendings lease = some pd → pd.ns = ns → pd.mode ≠ .biometricOnly) :
    AccessInv nfc (s.setRecord ns record (some pass)) ∧
      SessionRely s (s.setRecord ns record (some pass)) := by
  have hpass : ∀ ns', HasPassphrase s ns' → HasPassphrase (s.setRecord ns record (some pass)) ns' :=
    fun _ hp => hasPassphrase_setRecord.mpr (.inr hp)
  refine ⟨⟨fun lease pd hpd => ?_, h.single, fun lease x hx => (h.sessions lease x hx).mono
    (fun _ => id) (hpass _), h.leased, fun ns' hp => ?_, fun ns' r hr => ?_⟩,
    ⟨fun _ x hx => ⟨x, hx, rfl⟩, fun _ => id, hpass, fun _ _ hn hb => ?_⟩⟩
  · refine (h.pendings lease pd hpd).mono (fun _ => id) (fun _ => id) (hpass _) fun hbio hp => ?_
    rcases hasPassphrase_setRecord.mp hp with hns | hp
    · rcases hfresh with hinstalled | hnone
      · exact .inr (hns ▸ hinstalled)
      · exact absurd hbio (hnone lease pd hpd hns)
    · exact .inl hp
  · rcases hasPassphrase_setRecord.mp hp with rfl | hp
    · exact hspace
    · exact h.spaces ns' hp
  · rcases vaults_setRecord hr with ⟨rfl, heq⟩ | ⟨hne, hr'⟩
    · cases heq
      refine ⟨hspace, ?_, fun hb => absurd hb hmode⟩
      rw [AccessRecord.Opens, if_neg hmode]
      exact ⟨pass, by rw [passphrases_setRecord, if_pos rfl], hsecret⟩
    · exact (h.records ns' r hr').mono (fun _ => id) (by rw [passphrases_setRecord, if_neg hne])
        fun _ => rfl
  · exact (biometricOnly_setRecord hb).elim (fun hb => hmode hb.2) fun hb => hn hb.2

theorem fine_setPassphrase (h : AccessInv nfc s) (hmode : record.protection ≠ .biometricOnly)
    (hsecret : record.secret = passphraseBytes nfc pass) (hspace : ns ∈ s.device.spaces)
    (hinstalled : ns ∈ s.installed) : Fine nfc s (s.setRecord ns record (some pass)) := by
  obtain ⟨hinv, hsession⟩ := inv_setPassphrase h hmode hsecret hspace (.inl hinstalled)
  refine ⟨hinv, ⟨rfl, rfl, fun _ => id, hsession.passphrases, fun ns' hp => ?_, fun _ hn hb => ?_⟩,
    hsession⟩
  · rcases hasPassphrase_setRecord.mp hp with rfl | hp
    · exact .inr hinstalled
    · exact .inl hp
  · exact (biometricOnly_setRecord hb).elim (fun hb => hmode hb.2) fun hb => hn hb.2

end

theorem fine_setProtection (h : AccessInv nfc s) {old : AccessRecord}
    (hold : s.device.vaults ns = some (.v3 old)) (hsecret : record.secret = old.secret)
    (hnot : old.protection ≠ .biometricOnly) (hmode : record.protection ≠ .biometricOnly) :
    Fine nfc s (s.setRecord ns record none) := by
  have hbio : ∀ ns', BiometricOnly (s.setRecord ns record none) ns' → BiometricOnly s ns' :=
    fun ns' hb => (biometricOnly_setRecord hb).elim (fun hb => absurd hb.2 hmode) (·.2)
  refine ⟨⟨fun lease pd hpd => (h.pendings lease pd hpd).mono (fun _ => id) (fun _ => id) id
      fun _ => .inl, h.single, fun lease x hx => (h.sessions lease x hx).mono (fun _ => id) id,
    h.leased, h.spaces, fun ns' r hr => ?_⟩,
    ⟨rfl, rfl, fun _ => id, fun _ => id, fun _ => .inl, fun _ hn hb => hn (hbio _ hb)⟩,
    ⟨fun _ x hx => ⟨x, hx, rfl⟩, fun _ => id, fun _ => id, fun _ _ hn hb => hn (hbio _ hb)⟩⟩
  rcases vaults_setRecord hr with ⟨rfl, heq⟩ | ⟨hne, hr'⟩
  · cases heq
    refine ⟨(h.records ns' old hold).space, ?_, fun hb => absurd hb hmode⟩
    have hopens := (h.records ns' old hold).opens
    rw [AccessRecord.Opens, if_neg hnot] at hopens
    rw [AccessRecord.Opens, if_neg hmode, hsecret]
    exact hopens
  · exact (h.records ns' r hr').mono (fun _ => id) rfl fun _ => rfl

theorem inv_setBiometricOnly (h : AccessInv nfc s) (hmode : record.protection = .biometricOnly)
    (hkeystore : s.device.keystore ns = some record.secret) (hrandom : record.secret.IsRandom)
    (hspace : ns ∈ s.device.spaces) (hpass : ¬ HasPassphrase s ns) (hinstalled : ns ∉ s.installed) :
    AccessInv nfc (s.setRecord ns record none) ∧ SessionRely s (s.setRecord ns record none) := by
  refine ⟨⟨fun lease pd hpd => (h.pendings lease pd hpd).mono (fun _ => id) (fun _ => id) id
      fun _ => .inl, h.single, fun lease x hx => (h.sessions lease x hx).mono (fun _ => id) id,
    h.leased, h.spaces, fun ns' r hr => ?_⟩, fun _ x hx => ⟨x, hx, rfl⟩, fun _ => id, fun _ => id,
    fun ns' hi hn hb => ?_⟩
  · rcases vaults_setRecord hr with ⟨rfl, heq⟩ | ⟨hne, hr'⟩
    · cases heq
      refine ⟨hspace, ?_, fun _ => ⟨hrandom, hpass⟩⟩
      rw [AccessRecord.Opens, if_pos hmode]
      exact hkeystore
    · exact (h.records ns' r hr').mono (fun _ => id) rfl fun _ => rfl
  · rcases biometricOnly_setRecord hb with ⟨rfl, -⟩ | ⟨-, hb'⟩
    · exact hinstalled hi
    · exact hn hb'

theorem inv_setPendings (h : AccessInv nfc s) (pd : Pending) (hok : PendingOk s pd)
    (hsingle : ∀ lease' pd', s.pendings lease' = some pd' → pd'.ns = pd.ns → pd'.mode = pd.mode) :
    AccessInv nfc { s with pendings := update s.pendings lease (some pd) } := by
  have hlookup : ∀ lease' pd', update s.pendings lease (some pd) lease' = some pd' →
      pd' = pd ∨ s.pendings lease' = some pd' := by
    intro lease' pd' hpd'
    rw [update_apply] at hpd'
    split at hpd'
    · cases hpd'
      exact .inl rfl
    · exact .inr hpd'
  refine ⟨fun lease' pd' hpd' => ?_, fun l₁ l₂ pd₁ pd₂ h₁ h₂ hns => ?_, fun lease x hx =>
    (h.sessions lease x hx).mono (fun _ => id) id, h.leased, h.spaces, fun ns' r hr =>
    (h.records ns' r hr).mono (fun _ => id) rfl fun _ => rfl⟩
  · rcases hlookup lease' pd' hpd' with rfl | hpd'
    · exact hok.mono (fun _ => id) (fun _ => id) id fun _ => .inl
    · exact (h.pendings lease' pd' hpd').mono (fun _ => id) (fun _ => id) id fun _ => .inl
  · rcases hlookup l₁ pd₁ h₁ with heq₁ | hold₁ <;> rcases hlookup l₂ pd₂ h₂ with heq₂ | hold₂
    · rw [heq₁, heq₂]
    · rw [heq₁] at hns ⊢
      exact (hsingle l₂ pd₂ hold₂ hns.symm).symm
    · rw [heq₂] at hns ⊢
      exact hsingle l₁ pd₁ hold₁ hns
    · exact h.single l₁ l₂ pd₁ pd₂ hold₁ hold₂ hns

end

end LastAccess

end WebOfTrust
