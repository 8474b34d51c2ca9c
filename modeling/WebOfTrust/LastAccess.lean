/-
  **No change of the protection removes the last access** (`runtime.ts`, `protection.ts`): every
  command of the runtime keeps every identity accessible, in every run that meets none of the
  defects of `may`.
-/
import WebOfTrust.AccessInvariant

namespace WebOfTrust

open Async IdentityPlatform IdentityInventory IdentityRuntime Identity LaneConfig Option

namespace LastAccess

variable {s s' s'' : Identity} {α β : Type}

/-! ## 1. The contract -/

/-- The defects of the commands, as a condition on the steps that meet them: no keystore entry is
    replaced by a setup or taken back by an undo while the head is biometric-only, and a
    biometric-only vault is written before the first session of its namespace, for the secret in
    the keystore. -/
def may : IdentityPoint → PlatformAnswer → Identity → Prop
  | .keystoreFirst ns, i, s => i.effect = true → ¬ BiometricOnly s ns
  | .keystoreUndo ns, i, s => i.effect = true → ¬ BiometricOnly s ns
  | .create ns secret mode, i, s =>
    i.fails = false → mode = .biometricOnly → ns ∉ s.installed ∧ s.device.keystore ns = some secret
  | _, _, _ => True

def contract (nfc : String → String) : LaneContract IdentityPoint PlatformAnswer Identity where
  inv := AccessInv nfc
  may := may
  storage _ _ := SessionRely
  session _ _ := BothRely
  relyStorage := StorageRely
  relySession := SessionRely

section

variable {nfc : String → String} {ns : IdentityNs} {lease : LeaseId} {ticket : Nat}
  {secret : AccessSecret} {p : IdentityProgram α} {P : Identity → Prop}
  {f : PlatformAnswer → Identity → α × Identity} {Q : α → Identity → Prop} {x : ProvenSession}
  {w : VaultWrite}

abbrev StorageMeets (nfc : String → String) (Q : α → Identity → Prop) (p : IdentityProgram α)
    (s : Identity) : Prop := Meets (contract nfc).forStorage Q (fun _ _ => True) p s

abbrev SessionMeets (nfc : String → String) (Q : α → Identity → Prop) (p : IdentityProgram α)
    (s : Identity) : Prop := Meets (contract nfc).forSession Q (fun _ _ => True) p s

/-- Calm code of a storage transition keeps the facts that a session transition keeps. -/
theorem calm_storage (h : Calm p) (hrely : ∀ s s', StorageRely s s' → P s → P s') (hs : P s) :
    StorageMeets nfc (fun _ => P) p s :=
  (Steps.meets h (fun _ => hrely) (fun _ _ _ _ _ hinv _ hP hsame =>
    ⟨AccessInv.of_same hinv hsame, hsame.rely.session, hrely _ _ hsame.rely.storage hP⟩)
    hs).mono (fun _ _ h => h) fun _ _ _ => trivial

theorem calm_session (h : Calm p) (hrely : ∀ s s', SessionRely s s' → P s → P s') (hs : P s) :
    SessionMeets nfc (fun _ => P) p s :=
  (Steps.meets h (fun _ => hrely) (fun _ _ _ _ _ hinv _ hP hsame =>
    ⟨AccessInv.of_same hinv hsame, hsame.rely, hrely _ _ hsame.rely.session hP⟩)
    hs).mono (fun _ _ h => h) fun _ _ _ => trivial

theorem calm_storage' (h : Calm p) : StorageMeets nfc (fun _ _ => True) p s :=
  calm_storage h (fun _ _ _ h => h) trivial

theorem calm_session' (h : Calm p) : SessionMeets nfc (fun _ _ => True) p s :=
  calm_session h (fun _ _ _ h => h) trivial

/-! ### Session transitions -/

section

variable (hrely : ∀ s s', SessionRely s s' → P s → P s')
include hrely

theorem session_here (hs : P s)
    (h : ∀ i s', AccessInv nfc s' → P s' → Fine nfc s' (f i s').2 ∧ Q (f i s').1 (f i s').2) :
    SessionMeets nfc Q (here f) s := by
  refine meets_atomic fun s' hstar hinv i _ => ?_
  obtain ⟨hfine, hq⟩ := h i s' hinv (kept_of_star hrely hstar hs)
  refine ⟨hfine.1, hfine.2, fun a ha => ?_, fun _ _ => trivial⟩
  cases ha
  exact hq

theorem session_reads {f : PlatformAnswer → Identity → α} (hs : P s)
    (h : ∀ i s', AccessInv nfc s' → P s' → Q (f i s') s') : SessionMeets nfc Q (reads f) s := by
  refine meets_atomic fun s' hstar hinv i _ => ?_
  split
  · exact ⟨hinv, (Fine.refl hinv).2, nofun, fun _ _ => trivial⟩
  refine ⟨hinv, (Fine.refl hinv).2, fun a ha => ?_, fun _ _ => trivial⟩
  cases ha
  exact h i s' hinv (kept_of_star hrely hstar hs)

theorem session_writes (hs : P s)
    (h : ∀ i s', AccessInv nfc s' → P s' → Fine nfc s' (f i s').2 ∧ Q (f i s').1 (f i s').2) :
    SessionMeets nfc Q (writes .write f) s := by
  refine meets_atomic fun s' hstar hinv i _ => ?_
  split
  · exact ⟨hinv, (Fine.refl hinv).2, nofun, fun _ _ => trivial⟩
  obtain ⟨hfine, hq⟩ := h i s' hinv (kept_of_star hrely hstar hs)
  refine ⟨hfine.1, hfine.2, fun a ha => ?_, fun _ _ => trivial⟩
  cases ha
  exact hq

end

def Steady (ns : IdentityNs) (s : Identity) : Prop :=
  HasPassphrase s ns ∨ (ns ∈ s.installed ∧ ¬ BiometricOnly s ns)

theorem Steady.rely (hs : SessionRely s s') (h : Steady ns s) : Steady ns s' :=
  h.imp (hs.passphrases ns) fun h => ⟨hs.installed ns h.1, hs.notBio ns h.1 h.2⟩

theorem Steady.notBio (h : Steady ns s) (hinv : AccessInv nfc s) : ¬ BiometricOnly s ns :=
  h.elim hinv.notBio (·.2)

theorem session_keystore (hrely : ∀ s s', SessionRely s s' → P s → P s') (hs : P s)
    (hbio : ∀ s', AccessInv nfc s' → P s' → ¬ BiometricOnly s' ns) (k : Option AccessSecret) :
    SessionMeets nfc (fun _ => P) (keystoreCall .write (·.setKeystore ns k)) s := by
  refine meets_atomic fun s' hstar hinv i _ => ?_
  have hkept := kept_of_star hrely hstar hs
  have hfine : Fine nfc s' (if i.effect then s'.setDevice (·.setKeystore ns k) else s') := by
    split
    · exact fine_setKeystore hinv (hbio s' hinv hkept) k
    · exact .refl hinv
  have hnext := hrely _ _ hfine.2.session hkept
  dsimp only
  split
  · exact ⟨hfine.1, hfine.2, fun _ _ => hnext, fun _ _ => trivial⟩
  · exact ⟨hfine.1, hfine.2, fun _ _ => hnext, fun _ _ => trivial⟩

theorem steady_keystore (k : Option AccessSecret) (h : Steady ns s) :
    SessionMeets nfc (fun _ => Steady ns) (keystoreCall .write (·.setKeystore ns k)) s :=
  session_keystore (fun _ _ hs => .rely hs) h (fun _ hinv h => h.notBio hinv) k

def Settable (ns : IdentityNs) (secret : AccessSecret) (s : Identity) : Prop :=
  ns ∈ s.installed ∧ (secret.IsPassphrase ∨ Steady ns s)

theorem Settable.rely (hs : SessionRely s s') (h : Settable ns secret s) :
    Settable ns secret s' := ⟨hs.installed ns h.1, h.2.imp_right (.rely hs)⟩

theorem Settable.not (h : Settable ns secret s) (hinv : AccessInv nfc s) {old : AccessRecord}
    (hold : s.device.vaults ns = some (.v3 old)) (hsecret : old.secret = secret) :
    old.protection ≠ .biometricOnly := by
  intro hbio
  rcases h.2 with hpass | hsteady
  · have hrandom := ((hinv.records ns old hold).random hbio).1
    rw [hsecret] at hrandom
    cases secret with
    | passphrase bytes => exact hrandom
    | random n => exact hpass
  · exact hsteady.notBio hinv (biometricOnly_iff.mpr ⟨old, hold, hbio⟩)

theorem session_setProtection (mode : ProtectionMode) (hmode : mode ≠ .biometricOnly)
    (h : Settable ns secret s) :
    SessionMeets nfc (fun ok s' => ok = true → Steady ns s') (setProtection ns mode secret) s := by
  refine session_writes (P := Settable ns secret) (fun _ _ hs => .rely hs) h
    fun i s' hinv hset => ?_
  split
  · next old hold =>
    split
    · next hmatch =>
      refine ⟨fine_setProtection hinv hold hmatch.1.symm (hset.not hinv hold hmatch.1) hmode,
        fun _ => .inr ⟨hset.1, fun hb => ?_⟩⟩
      rcases biometricOnly_setRecord hb with ⟨-, hb⟩ | ⟨hne, -⟩
      · exact hmode hb
      · exact hne rfl
    · exact ⟨.refl hinv, nofun⟩
  · exact ⟨.refl hinv, nofun⟩

theorem session_rewrite {pass : String} (hrely : ∀ s s', SessionRely s s' → P s → P s')
    (hknown : ∀ s, P s → ns ∈ s.installed) (h : P s) :
    SessionMeets nfc (fun ok s' => P s' ∧ (ok = true → HasPassphrase s' ns))
      (vaultRewrite ns secret (passphraseBytes nfc pass) .passphraseBiometric (some pass)) s := by
  refine session_writes hrely h fun i s' hinv hP => ?_
  split
  · next old hold =>
    split
    · have hfine : Fine nfc s' (s'.setRecord ns
          ⟨passphraseBytes nfc pass, .passphraseBiometric⟩ (some pass)) :=
        fine_setPassphrase hinv (by simp) rfl (hinv.records ns old hold).space (hknown _ hP)
      refine ⟨hfine, hrely _ _ hfine.2.session hP, fun _ => ?_⟩
      rw [HasPassphrase]
      exact congrArg isSome (Function.update_self ns (some pass) s'.passphrases)
    · exact ⟨.refl hinv, hP, by simp⟩
  · exact ⟨.refl hinv, hP, by simp⟩

theorem session_bind {R : β → Identity → Prop} {q : IdentityProgram β} {f : β → IdentityProgram α}
    (h : SessionMeets nfc R q s) (hf : ∀ a s', R a s' → SessionMeets nfc Q (f a) s') :
    SessionMeets nfc Q (q.bind f) s :=
  meets_bind (h.mono hf fun _ _ _ => trivial)

abbrev SessionKeeps (nfc : String → String) (p : IdentityProgram α) (s : Identity) : Prop :=
  SessionMeets nfc (fun _ _ => True) p s

theorem session_effect {lease : Option LeaseId} {write : IdentityProgram α}
    (hrely : ∀ s s', SessionRely s s' → P s → P s') (hs : P s)
    (hwrite : ∀ s', P s' → SessionMeets nfc Q write s') :
    SessionMeets nfc (fun r s' => ∀ a ∈ r, Q a s') (IdentityRuntime.effect ticket lease write) s := by
  apply session_bind (calm_session (calm_query _) hrely hs)
  intro current s' hP
  split
  · apply session_bind (hwrite s' hP)
    intro a s'' hq b hb
    cases hb
    exact hq
  · nofun

theorem keeps_unlockBiometric (ticket : Nat) : SessionKeeps nfc (unlockBiometric ticket) s := by
  apply session_bind (calm_session' (calm_query _))
  rintro (_ | ns) s₁ -
  · trivial
  apply session_bind (calm_session' (calm_reads _))
  rintro (code | secret) s₂ -
  · exact calm_session' (calm_here fun _ s => .ite (.of_eq rfl) (.refl s))
  apply session_bind (calm_session' (calm_reads _))
  intro opened s₃ _
  refine session_here (P := fun _ => True) (fun _ _ _ h => h) trivial fun i s hinv _ => ⟨?_, trivial⟩
  split
  · exact .refl hinv
  split
  · exact .same hinv (.of_eq rfl)
  · exact fine_install hinv ticket none nofun

theorem hasPassphrase_of_open {bytes : String} {record : AccessRecord} (hinv : AccessInv nfc s)
    (hrecord : s.device.vaults ns = some (.v3 record)) (hsecret : record.secret = .passphrase bytes) :
    HasPassphrase s ns := by
  have hok := hinv.records ns record hrecord
  have hopens := hok.opens
  rw [AccessRecord.Opens] at hopens
  split at hopens
  · next hmode =>
    have hrandom := (hok.random hmode).1
    rw [hsecret] at hrandom
    exact hrandom.elim
  obtain ⟨pass, hpass, -⟩ := hopens
  rw [HasPassphrase, hpass]
  rfl

theorem session_open (pass : String) :
    SessionMeets nfc (fun opened s' => opened = true → HasPassphrase s' ns)
      (vaultOpen ns (passphraseBytes nfc pass)) s := by
  refine session_reads (P := fun _ => True) (fun _ _ _ h => h) trivial fun i s' hinv _ hopened => ?_
  split at hopened
  · next record hrecord =>
    exact hasPassphrase_of_open hinv hrecord (of_decide_eq_true hopened)
  · cases hopened

theorem passphrase_rely {P : Prop} (hs : SessionRely s s') (h : P → HasPassphrase s ns) :
    P → HasPassphrase s' ns := fun hp => hs.passphrases ns (h hp)

theorem keeps_unlockPassphrase (pass : String) (ticket : Nat) :
    SessionKeeps nfc (unlockPassphrase nfc pass ticket) s := by
  apply session_bind (calm_session' (calm_query _))
  rintro (_ | ns) s₁ -
  · trivial
  apply session_bind (session_open pass)
  intro opened s₂ hopened
  refine session_here (P := fun s => opened = true → HasPassphrase s ns)
    (fun _ _ hs => passphrase_rely hs) hopened fun i s hinv hpass => ⟨?_, trivial⟩
  split
  · exact .refl hinv
  split
  · exact .refl hinv
  · next hopen => exact fine_install hinv ticket none fun _ => ⟨trivial, hpass (by simpa using hopen)⟩

theorem passphraseSession_ok (hinv : AccessInv nfc s)
    (hx : passphraseSession ticket s = some (some x)) :
    Settable x.ns x.secret s ∧ HasPassphrase s x.ns := by
  obtain ⟨lease, -, hx⟩ := bind_eq_some_iff.mp hx
  obtain ⟨y, hy, hx⟩ := bind_eq_some_iff.mp hx
  split at hx
  · next hproven =>
    obtain ⟨secret, hsecret, rfl⟩ := map_eq_some_iff.mp (some.inj hx)
    have hok := hinv.sessions lease y hy
    rw [provenNow] at hsecret
    split at hsecret
    · rw [hy] at hsecret
      cases hsecret
      exact ⟨⟨hok.installed, .inl (hok.passphrase hproven).1⟩, (hok.passphrase hproven).2⟩
    · cases hsecret
  · cases hx

def Proven (x : ProvenSession) (s : Identity) : Prop :=
  Settable x.ns x.secret s ∧ HasPassphrase s x.ns

theorem Proven.steady (h : Proven x s) : Steady x.ns s := .inl h.2

theorem keeps_reprotect (ticket : Nat) : SessionKeeps nfc (reprotect ticket) s := by
  apply session_bind (session_here (P := fun _ => True) (fun _ _ _ h => h) trivial
    (Q := fun r s' => ∀ x, r = .ok x → Proven x s') fun i s hinv _ => ⟨.refl hinv, fun x hx => ?_⟩)
  · rintro (answer | x) s₁ hx
    · trivial
    apply session_bind (session_setProtection .passphrase nofun (hx x rfl).1)
    intro set s₂ hset
    split
    · trivial
    next hset' =>
    have hsteady : Steady x.ns s₂ := hset (by simpa using hset')
    apply session_bind (session_effect (P := Steady x.ns) (fun _ _ hs => .rely hs) hsteady
      fun _ => steady_keystore none)
    rintro (_ | _) s₃ -
    · trivial
    apply session_bind (calm_session' (calm_effect (calm_setBioUnusable _ _)))
    rintro (_ | _) s₄ -
    · trivial
    apply session_bind (calm_session' (calm_here fun _ _ => .of_eq rfl))
    exact fun _ _ _ => calm_session' (calm_publish _ _)
  · dsimp only at hx
    split at hx
    · cases hx
    next proven hproven =>
    split at hx
    · cases hx
    cases proven with
    | none => cases hx
    | some y =>
      cases hx
      exact passphraseSession_ok hinv hproven

theorem session_passphraseSession (ticket : Nat)
    {f : PlatformAnswer → Identity → Option ProvenSession}
    (hf : ∀ i s x, f i s = some x → passphraseSession ticket s = some (some x)) :
    SessionMeets nfc (fun r s' => ∀ x ∈ r, Proven x s') (here fun i s => (f i s, s)) s :=
  session_here (P := fun _ => True) (fun _ _ _ h => h) trivial fun i s' hinv _ =>
    ⟨.refl hinv, fun _ hx => passphraseSession_ok hinv (hf i s' _ hx)⟩

theorem keeps_restoreKeystore (ticket : Nat) : SessionKeeps nfc (restoreKeystore ticket) s := by
  apply session_bind (session_passphraseSession ticket fun i s x hx => ?_)
  · rintro (_ | x) s₁ hx
    · trivial
    apply session_bind (steady_keystore (some x.secret) (hx x rfl).steady)
    intro ok s₂ _
    split
    · trivial
    apply session_bind (calm_session' (calm_effect (calm_setBioUnusable _ _)))
    rintro (_ | _) s₃ -
    · trivial
    apply session_bind (calm_session' (calm_here fun _ _ => .of_eq rfl))
    exact fun _ _ _ => trivial
  · split at hx
    · exact join_eq_some_iff.mp hx
    · cases hx

theorem keeps_enableBiometric (ticket : Nat) : SessionKeeps nfc (enableBiometric ticket) s := by
  apply session_bind (session_passphraseSession ticket fun i s x hx =>
    join_eq_some_iff.mp hx)
  rintro (_ | x) s₁ hx
  · trivial
  have hrely : ∀ s s', SessionRely s s' → x.ns ∈ s.installed ∧ HasPassphrase s x.ns →
      x.ns ∈ s'.installed ∧ HasPassphrase s' x.ns :=
    fun _ _ hs h => ⟨hs.installed _ h.1, hs.passphrases _ h.2⟩
  apply session_bind (session_keystore hrely ⟨(hx x rfl).1.1, (hx x rfl).2⟩
    (fun _ hinv h => hinv.notBio h.2) (some x.secret))
  intro ok s₂ hknown
  split
  · trivial
  apply session_bind (calm_session (calm_query _) hrely hknown)
  rintro (_ | secret) s₃ hknown
  · trivial
  apply session_bind (session_setProtection .passphraseBiometric nofun
    ⟨hknown.1, .inr (.inl hknown.2)⟩)
  intro set s₄ _
  split
  · trivial
  · exact session_bind (calm_session' (calm_publish _ _)) fun _ _ _ => trivial

/-! ### Change of the protection -/

def SessionOf (lease : LeaseId) (ns : IdentityNs) (s : Identity) : Prop :=
  ns ∈ s.installed ∧ ∃ x, s.sessions lease = some x ∧ x.ns = ns

theorem SessionOf.rely (hs : SessionRely s s') (h : SessionOf lease ns s) :
    SessionOf lease ns s' := by
  obtain ⟨hknown, x, hx, hns⟩ := h
  obtain ⟨x', hx', hns'⟩ := hs.sessions lease x hx
  exact ⟨hs.installed ns hknown, x', hx', hns'.trans hns⟩

theorem sessionOf_bind (hinv : AccessInv nfc s)
    (hx : (s.session.bind fun lease => (s.sessions lease).map fun x => (lease, x.ns)) =
      some (lease, ns)) : SessionOf lease ns s := by
  obtain ⟨lease', -, hx⟩ := bind_eq_some_iff.mp hx
  obtain ⟨y, hy, heq⟩ := map_eq_some_iff.mp hx
  cases heq
  exact ⟨(hinv.sessions _ y hy).installed, y, hy, rfl⟩

theorem session_sessionNs :
    SessionMeets nfc (fun r s' => ∀ x ∈ r, SessionOf x.1 x.2 s') sessionNs s :=
  session_here (P := fun _ => True) (fun _ _ _ h => h) trivial fun _ _ hinv _ =>
    ⟨.refl hinv, fun _ hx => sessionOf_bind hinv hx⟩

theorem fine_proven (hinv : AccessInv nfc s) (h : SessionOf lease ns s) {provenBy : ProvenBy}
    (hpass : provenBy = .passphrase → secret.IsPassphrase ∧ HasPassphrase s ns) :
    Fine nfc s (proven ticket lease secret provenBy s).2 := by
  rw [proven]
  split
  · refine fine_setSession hinv (fun _ => rfl) fun x hx =>
      ⟨(hinv.sessions lease x hx).installed, fun hp => ⟨(hpass hp).1, ?_⟩⟩
    obtain ⟨-, y, hy, hns⟩ := h
    rw [hx] at hy
    cases hy
    exact hns ▸ (hpass hp).2
  · exact .refl hinv

theorem keeps_proveWith {provenBy : ProvenBy} (h : SessionOf lease ns s)
    (hsecret : provenBy = .passphrase → ∃ pass, secret = passphraseBytes nfc pass) :
    SessionKeeps nfc (proveWith ticket lease ns secret provenBy) s := by
  have hrely : ∀ s s', SessionRely s s' → SessionOf lease ns s →
      SessionOf lease ns s' := fun _ _ hs => .rely hs
  apply session_bind (session_reads hrely h (Q := fun opened s => SessionOf lease ns s ∧
    (opened = true → provenBy = .passphrase → HasPassphrase s ns)) fun i s' hinv h => ⟨h, ?_⟩)
  · rintro opened s₁ ⟨h, hopened⟩
    split
    · trivial
    next hopen =>
    refine session_here (P := fun s => SessionOf lease ns s ∧
      (provenBy = .passphrase → HasPassphrase s ns)) (fun _ _ hs h =>
        ⟨h.1.rely hs, passphrase_rely hs h.2⟩) ⟨h, hopened (by simpa using hopen)⟩
      fun i s hinv h => ⟨fine_proven hinv h.1 fun hp => ⟨?_, h.2 hp⟩, trivial⟩
    obtain ⟨pass, rfl⟩ := hsecret hp
    trivial
  · intro hopened hp
    obtain ⟨pass, rfl⟩ := hsecret hp
    split at hopened
    · next record hrecord => exact hasPassphrase_of_open hinv hrecord (of_decide_eq_true hopened)
    · cases hopened

theorem keeps_prove (pass : Option String) (ticket : Nat) :
    SessionKeeps nfc (prove nfc pass ticket) s := by
  apply session_bind session_sessionNs
  rintro (_ | ⟨lease, ns⟩) s₁ h
  · trivial
  cases pass with
  | some pass => exact keeps_proveWith (h _ rfl) fun _ => ⟨pass, rfl⟩
  | none =>
    apply session_bind (calm_session (calm_reads _) (fun _ _ hs => .rely hs) (h _ rfl))
    rintro (code | secret) s₂ h
    · trivial
    · exact keeps_proveWith h nofun

theorem session_vaultHead (h : SessionOf lease ns s) :
    SessionMeets nfc (fun head s' => head ≠ some .biometricOnly → ns ∈ s'.installed ∧ Steady ns s')
      (vaultHead ns) s :=
  session_reads (P := SessionOf lease ns) (fun _ _ hs => .rely hs) h
    fun _ _ _ h hhead => ⟨h.1, .inr ⟨h.1, hhead⟩⟩

theorem steady_rely (s s' : Identity) (hs : SessionRely s s') (h : ns ∈ s.installed ∧ Steady ns s) :
    ns ∈ s'.installed ∧ Steady ns s' := ⟨hs.installed ns h.1, h.2.rely hs⟩

theorem keeps_keystoreStore (ticket : Nat) : SessionKeeps nfc (keystoreStore ticket) s := by
  apply session_bind session_sessionNs
  rintro (_ | ⟨lease, ns⟩) s₁ h
  · trivial
  apply session_bind (session_vaultHead (h _ rfl))
  intro head s₂ hhead
  split
  · trivial
  next hnot =>
  apply session_bind (calm_session (calm_query _) steady_rely (hhead hnot))
  rintro (_ | secret) s₃ hsteady
  · trivial
  · exact session_bind (steady_keystore (some secret) hsteady.2) fun _ _ _ => trivial

theorem keeps_setHead (biometric : Bool) (ticket : Nat) :
    SessionKeeps nfc (setHead biometric ticket) s := by
  apply session_bind session_sessionNs
  rintro (_ | ⟨lease, ns⟩) s₁ h
  · trivial
  apply session_bind (session_vaultHead (h _ rfl))
  intro head s₂ hhead
  split
  · trivial
  next hnot =>
  apply session_bind (calm_session (calm_query _) steady_rely (hhead hnot))
  rintro (_ | secret) s₃ hsteady
  · trivial
  have hmode : (if biometric = true then ProtectionMode.passphraseBiometric else .passphrase) ≠
      .biometricOnly := by
    cases biometric <;> nofun
  apply session_bind (session_setProtection _ hmode ⟨hsteady.1, Or.inr hsteady.2⟩)
  intro set s₄ _
  split
  · trivial
  · exact calm_session' (calm_publish _ _)

theorem keeps_keystoreRemove (ticket : Nat) : SessionKeeps nfc (keystoreRemove ticket) s := by
  apply session_bind session_sessionNs
  rintro (_ | ⟨lease, ns⟩) s₁ h
  · trivial
  apply session_bind (session_vaultHead (h _ rfl))
  intro head s₂ hhead
  split
  · trivial
  next hhead' =>
  have hsteady := hhead (by
    rw [not_not.mp hhead']
    nofun)
  apply session_bind (session_effect steady_rely hsteady fun s' h => steady_keystore none h.2)
  rintro (_ | ok) s₃ -
  · trivial
  · trivial

theorem keeps_rewrap (pass : String) (ticket : Nat) : SessionKeeps nfc
    (rewrap nfc pass ticket) s := by
  apply session_bind (session_here (P := fun _ => True) (fun _ _ _ h => h) trivial
    (Q := fun r s' => ∀ x, r = .ok x → SessionOf x.lease x.ns s')
    fun i s hinv _ => ⟨.refl hinv, fun x hx => ?_⟩)
  · rintro (answer | x) s₁ h
    · trivial
    have hrely : ∀ s s', SessionRely s s' → SessionOf x.lease x.ns s →
        SessionOf x.lease x.ns s' := fun _ _ hs => .rely hs
    apply session_bind (session_rewrite hrely (fun _ h => h.1) (h x rfl))
    intro done s₂ h
    split
    · trivial
    next hdone =>
    have hdone' := h.2 (by simpa using hdone)
    have hproven : ∀ s, AccessInv nfc s → SessionOf x.lease x.ns s ∧ HasPassphrase s x.ns →
        Fine nfc s (proven ticket x.lease (passphraseBytes nfc pass) .passphrase s).2 :=
      fun _ hinv h => fine_proven hinv h.1 fun _ => ⟨trivial, h.2⟩
    apply session_bind (session_here (P := fun s => SessionOf x.lease x.ns s ∧ HasPassphrase s x.ns)
      (fun _ _ hs h => ⟨h.1.rely hs, hs.passphrases _ h.2⟩) ⟨h.1, hdone'⟩
      (Q := fun _ _ => True) fun _ s hinv h => ⟨hproven s hinv h, trivial⟩)
    intro mine s₃ _
    split
    · exact calm_session' (calm_publish _ _)
    · trivial
  · dsimp only at hx
    split at hx
    · cases hx
    next lease ns hsession =>
    split at hx
    · cases hx
    split at hx
    · cases hx
    · cases hx
      exact sessionOf_bind hinv hsession

/-! ### Activate and switch -/

theorem fine_activated (hinv : AccessInv nfc s) (ticket : Nat) (ns : IdentityNs)
    (pd : Option LeaseId) : Fine nfc s (activated ticket ns pd s).2 := by
  have hdid : Fine nfc s (sessionOrHandOver ticket ns pd s).1 := by
    rw [sessionOrHandOver.eq_def]
    dsimp only
    split
    · exact .refl hinv
    · exact fine_handOver hinv ticket _ none
    · exact .refl hinv
  rw [activated]
  generalize sessionOrHandOver ticket ns pd s = did at hdid
  have hended : Fine nfc s
      (if pd.isSome ∧ did.1.pending = pd then did.1.dropPending.1 else did.1) := by
    split
    · exact hdid.thenSame (.dropPending _)
    · exact hdid
  dsimp only
  split
  · exact hended.thenSame (.of_eq rfl)
  · exact hended

theorem fine_switched (hinv : AccessInv nfc s) (ticket : Nat) (ns : IdentityNs) (lease : LeaseId) :
    Fine nfc s (switched ticket ns lease s).2 := by
  have hdrop := SameAccess.dropSession s
  have hdid := Fine.afterSame hdrop
    (fine_handOver (hinv.of_same hdrop) ticket lease (some .keysOnly))
  rw [switched]
  split
  · dsimp only
    split
    · exact hdid.thenSame (.of_eq rfl)
    · exact hdid
  · exact .refl hinv

theorem keeps_activate (ticket : Nat) (nsOrNull : Option IdentityNs) :
    SessionKeeps nfc (activate ticket nsOrNull) s := by
  apply session_bind (calm_session' (calm_query _))
  rintro (_ | ⟨ns, pd, lease⟩) s₁ -
  · trivial
  apply session_bind (calm_session' (calm_effect (calm_vaultActivate _ _)))
  rintro (_ | _) s₂ -
  · trivial
  apply session_bind (session_here (P := fun _ => True) (Q := fun _ _ => True) (fun _ _ _ h => h)
    trivial fun i s hinv _ => ⟨fine_activated hinv ticket ns pd, trivial⟩)
  rintro (_ | session) s₃ -
  · trivial
  · exact calm_session' (calm_publish _ _)

theorem keeps_switchTo (ticket : Nat) (ns : IdentityNs) :
    SessionKeeps nfc (switchTo ticket ns) s := by
  apply session_bind (calm_session' (calm_query _))
  rintro (_ | ⟨lease, nsOld, old⟩) s₁ -
  · trivial
  apply session_bind (calm_session' ?_)
  · intro ready s₂ _
    split
    · trivial
    apply session_bind (calm_session' (calm_query _))
    intro at' s₃ _
    apply session_bind (calm_session' (calm_effect (calm_vaultActivate _ _)))
    rintro (_ | _) s₄ -
    · trivial
    apply session_bind (session_here (P := fun _ => True) (Q := fun _ _ => True) (fun _ _ _ h => h)
      trivial fun i s hinv _ => ⟨fine_switched hinv ticket ns lease, trivial⟩)
    rintro (_ | closing) s₅ -
    · trivial
    · exact session_bind (calm_session' (calm_settle closing)) fun _ _ _ => trivial
  · cases old with
    | none => exact steps_ret _
    | some o => exact calm_quiesceAndSeal o

/-! ### Storage transitions -/

theorem storage_bind {R : β → Identity → Prop} {q : IdentityProgram β} {f : β → IdentityProgram α}
    (h : StorageMeets nfc R q s) (hf : ∀ a s', R a s' → StorageMeets nfc Q (f a) s') :
    StorageMeets nfc Q (q.bind f) s :=
  meets_bind (h.mono hf fun _ _ _ => trivial)

abbrev StorageKeeps (nfc : String → String) (p : IdentityProgram α) (s : Identity) : Prop :=
  StorageMeets nfc (fun _ _ => True) p s

def FineStored (nfc : String → String) (s s' : Identity) :
    Prop := AccessInv nfc s' ∧ SessionRely s s'

theorem Fine.stored (h : Fine nfc s s') : FineStored nfc s s' := ⟨h.1, h.2.session⟩

theorem FineStored.thenSame (h : FineStored nfc s s') (hs : SameAccess s' s'') :
    FineStored nfc s s'' := ⟨h.1.of_same hs, h.2.trans hs.rely.session⟩

section

variable (hrely : ∀ s s', StorageRely s s' → P s → P s')
include hrely

theorem storage_here (hs : P s)
    (h : ∀ i s', AccessInv nfc s' → P s' → FineStored nfc s' (f i s').2 ∧ Q (f i s').1 (f i s').2) :
    StorageMeets nfc Q (here f) s := by
  refine meets_atomic fun s' hstar hinv i _ => ?_
  obtain ⟨hfine, hq⟩ := h i s' hinv (kept_of_star hrely hstar hs)
  refine ⟨hfine.1, hfine.2, fun a ha => ?_, fun _ _ => trivial⟩
  cases ha
  exact hq

theorem storage_reads {f : PlatformAnswer → Identity → α} (hs : P s)
    (h : ∀ i s', AccessInv nfc s' → P s' → Q (f i s') s') : StorageMeets nfc Q (reads f) s := by
  refine meets_atomic fun s' hstar hinv i _ => ?_
  split
  · exact ⟨hinv, (Fine.refl hinv).2.session, nofun, fun _ _ => trivial⟩
  refine ⟨hinv, (Fine.refl hinv).2.session, fun a ha => ?_, fun _ _ => trivial⟩
  cases ha
  exact h i s' hinv (kept_of_star hrely hstar hs)

theorem storage_writes {t : IdentityPoint}
    (hs : P s) (h : ∀ i s', AccessInv nfc s' → P s' → may t i s' → i.fails = false →
      FineStored nfc s' (f i s').2 ∧ Q (f i s').1 (f i s').2) :
    StorageMeets nfc Q (writes t f) s := by
  refine meets_atomic fun s' hstar hinv i hmay => ?_
  split
  · exact ⟨hinv, (Fine.refl hinv).2.session, nofun, fun _ _ => trivial⟩
  next hfails =>
  obtain ⟨hfine, hq⟩ := h i s' hinv (kept_of_star hrely hstar hs) hmay (by simpa using hfails)
  refine ⟨hfine.1, hfine.2, fun a ha => ?_, fun _ _ => trivial⟩
  cases ha
  exact hq

omit hrely in
theorem storage_onlyIf {c : Prop} [Decidable c] {a : α} (h : StorageKeeps nfc p s) :
    StorageKeeps nfc (onlyIf c p a) s := by
  rw [onlyIf]
  split
  · exact h
  · trivial

theorem storage_keystore {t : IdentityPoint} (hs : P s)
    (hbio : ∀ i s', AccessInv nfc s' → P s' → may t i s' → i.effect = true → ¬ BiometricOnly s' ns)
    (k : Option AccessSecret) : StorageKeeps nfc (keystoreCall t (·.setKeystore ns k)) s := by
  refine meets_atomic fun s' hstar hinv i hmay => ?_
  have hkept := kept_of_star hrely hstar hs
  have hfine : Fine nfc s' (if i.effect then s'.setDevice (·.setKeystore ns k) else s') := by
    split
    · next heffect => exact fine_setKeystore hinv (hbio i s' hinv hkept hmay heffect) k
    · exact .refl hinv
  dsimp only
  split
  · exact ⟨hfine.1, hfine.2.session, fun _ _ => trivial, fun _ _ => trivial⟩
  · exact ⟨hfine.1, hfine.2.session, fun _ _ => trivial, fun _ _ => trivial⟩

end

section

variable (ns : IdentityNs)

theorem storage_keystoreFirst (secret : AccessSecret) :
    StorageKeeps nfc (keystoreStore (.keystoreFirst ns) ns secret) s := by
  refine storage_keystore (P := fun _ => True) (fun _ _ _ h => h) trivial
    (fun i s' _ _ hmay => ?_) (some secret)
  exact hmay

theorem storage_keystoreUndo : StorageKeeps nfc (keystoreRemove (.keystoreUndo ns) ns) s := by
  refine storage_keystore (P := fun _ => True) (fun _ _ _ h => h) trivial
    (fun i s' _ _ hmay => ?_) none
  exact hmay

theorem storage_vaultWipe : StorageMeets nfc (fun _ s' => ¬ BiometricOnly s' ns) (vaultWipe ns) s :=
  storage_writes (P := fun _ => True) (fun _ _ _ h => h) trivial fun _ _ hinv _ _ _ =>
    ⟨(fine_wipeVault hinv ns).1.stored, (fine_wipeVault hinv ns).2⟩

theorem keeps_inventory_wipeNamespace :
    StorageKeeps nfc (IdentityInventory.wipeNamespace ns) s := by
  apply storage_bind (calm_storage' (calm_removeDatabase ns .holder))
  intro _ s₁ _
  apply storage_bind (calm_storage' (calm_removeDatabase ns .app))
  intro _ s₂ _
  apply storage_bind (storage_vaultWipe ns)
  intro _ s₃ hwiped
  apply storage_bind (storage_keystore (P := fun s => ¬ BiometricOnly s ns)
    (fun _ _ hs => StorageRely.notBio hs ns) hwiped (fun _ _ _ h _ _ => h) none)
  intro _ s₄ _
  apply calm_storage'
  apply steps_bind (calm_cancelNamespace ns)
  intro cancelled
  apply steps_bind (calm_removeDelivered ns)
  intro removed
  exact calm_here fun _ s => .ite (.of_eq rfl) (.refl s)

theorem keeps_wipeNamespace : StorageKeeps nfc (IdentityRuntime.wipeNamespace ns) s := by
  apply storage_bind (calm_storage' (calm_here fun _ s => ?_))
  · intro closing s₁ _
    apply storage_bind (calm_storage' (calm_settle closing))
    intro _ s₂ _
    apply storage_bind (calm_storage' (calm_resRetry (some ns)))
    exact fun _ _ _ => keeps_inventory_wipeNamespace ns
  · split
    · exact .endSession s
    · exact .refl s

end

theorem keeps_orphans (keep : List IdentityNs) : StorageKeeps nfc (orphans keep) s := by
  apply storage_bind (calm_storage' (calm_reads _))
  intro known s₁ _
  exact meets_forEach (J := fun _ => True) (fun ns _ _ _ => keeps_wipeNamespace ns) trivial

/-! ### Boot -/

section

variable (m : ResumeMarker)

theorem keeps_bootSetup : StorageKeeps nfc (bootSetup ticket m) s := by
  apply storage_bind (calm_storage' (calm_reads _))
  intro vault s₁ _
  split
  · apply storage_bind (keeps_wipeNamespace m.ns)
    intro _ s₂ _
    exact calm_storage' (steps_bind (calm_setResume none) fun _ => calm_commit _ _)
  apply calm_storage'
  apply steps_bind (calm_here fun _ _ => .of_eq rfl)
  intro _
  apply steps_bind (calm_lockInfo m.ns)
  intro info
  apply steps_bind (calm_onlyIf (calm_keystoreHas m.ns))
  intro k
  split
  · exact steps_bind (calm_setBioUnusable m.ns true) fun _ => calm_commit _ _
  · exact calm_commit _ _

theorem keeps_bootActive (ns : IdentityNs) : StorageKeeps nfc (bootActive ticket ns) s := by
  apply storage_bind (keeps_orphans [ns])
  intro _ s₁ _
  apply storage_bind (storage_reads (P := fun _ => True) (fun _ _ _ h => h) trivial
    (Q := fun head s => head = some .passphrase → ¬ BiometricOnly s ns)
    fun _ _ _ _ hhead hb => nomatch hhead.symm.trans hb)
  intro head s₂ hhead
  by_cases hp : head = some .passphrase
  · apply storage_bind (calm_storage (calm_onlyIf (calm_keystoreHas ns))
      (P := fun s => ¬ BiometricOnly s ns) (fun _ _ hs => hs.notBio ns) (hhead hp))
    intro k s₃ hbio
    apply storage_bind (storage_onlyIf (storage_keystore (P := fun s => ¬ BiometricOnly s ns)
      (fun _ _ hs => hs.notBio ns) hbio (fun _ _ _ h _ _ => h) none))
    exact fun _ _ _ => calm_storage' (calm_lockedFor ticket ns)
  · rw [onlyIf, if_neg hp]
    exact calm_storage' (calm_lockedFor ticket ns)

theorem keeps_bootUnmarked : StorageKeeps nfc (bootUnmarked ticket) s := by
  apply storage_bind (calm_storage' (calm_reads _))
  intro data s₁ _
  apply storage_bind (calm_storage' (calm_onlyIf (steps_atomic trivial fun _ s => .refl s)))
  intro legacy s₂ _
  split
  · exact calm_storage' (calm_commit _ _)
  apply storage_bind (calm_storage' (calm_reads _))
  rintro (_ | active) s₃ -
  · apply storage_bind (keeps_orphans [])
    exact fun _ _ _ => calm_storage' (calm_commit _ _)
  apply storage_bind (calm_storage' (calm_reads _))
  rintro (_ | ⟨record | _⟩) s₄ -
  · exact calm_storage' (calm_commit _ _)
  · exact keeps_bootActive active
  apply calm_storage'
  apply steps_bind (calm_here fun _ _ => .of_eq rfl)
  intro _
  exact steps_bind (calm_lockInfo active) fun _ => calm_commit _ _

theorem calm_bootWipe : Calm (bootWipe ticket m) := by
  apply steps_bind (calm_here fun _ _ => .of_eq rfl)
  intro _
  apply steps_bind (calm_onlyIf (calm_reads _))
  intro vault
  apply steps_bind (calm_onlyIf (steps_bind (calm_lockInfo m.ns) fun _ => steps_ret _))
  intro lock
  apply steps_bind (calm_here fun _ _ => .of_eq rfl)
  exact fun _ => calm_commit _ _

theorem keeps_bootSwitched : StorageKeeps nfc (bootSwitched ticket m) s := by
  apply storage_bind (calm_storage' (calm_reads _))
  intro active s₁ _
  split
  · exact calm_storage' (calm_commit _ _)
  apply storage_bind (calm_storage' (calm_commit _ _))
  intro _ s₂ _
  apply storage_bind
  · cases m.nsOld with
    | none => exact calm_storage' (p := .ret ()) trivial
    | some old => exact keeps_wipeNamespace old
  intro _ s₃ _
  apply calm_storage'
  apply steps_bind
  · cases m.nsOld with
    | none => exact steps_ret _
    | some old => exact calm_verifyNamespace old
  intro survivors
  apply steps_bind (calm_here fun _ _ => .of_eq rfl)
  intro _
  exact steps_bind (calm_onlyIf (calm_setResume none)) fun _ => calm_lockedFor _ _

theorem keeps_bootStaging : StorageKeeps nfc (bootStaging ticket m) s := by
  apply storage_bind (keeps_wipeNamespace m.ns)
  intro _ s₁ _
  apply calm_storage'
  apply steps_bind (calm_setResume none)
  intro _
  apply steps_bind (calm_reads _)
  rintro (_ | active)
  · exact calm_commit _ _
  · exact calm_lockedFor _ _

end

theorem keeps_bootMatrix : StorageKeeps nfc (bootMatrix ticket) s := by
  apply storage_bind (calm_storage' (calm_reads _))
  intro usable s₁ _
  split
  · exact calm_storage' (calm_commit _ _)
  apply storage_bind (calm_storage' (calm_query _))
  intro missing s₂ _
  split
  · exact calm_storage' (calm_commit _ _)
  apply storage_bind (calm_storage' (calm_reads _))
  rintro (_ | m) s₃ -
  · exact keeps_bootUnmarked
  dsimp only
  split
  · exact calm_storage' (calm_bootWipe m)
  · exact calm_storage' (calm_commit _ _)
  · split
    · exact keeps_bootSwitched m
    · exact keeps_bootStaging m
  · exact keeps_bootSetup m

theorem keeps_reconcile : StorageKeeps nfc (reconcile ticket) s := by
  apply storage_bind (calm_storage' (calm_here fun _ s => .retry s none))
  intro closing s₁ _
  apply storage_bind (calm_storage' calm_wait)
  intro _ s₂ _
  apply storage_bind (calm_storage' (calm_settleAll closing))
  intro _ s₃ _
  apply storage_bind (calm_storage' (calm_here fun _ _ =>
    .of_eq rfl))
  intro _ s₄ _
  apply storage_bind (calm_storage' (calm_commit _ _))
  exact fun _ _ _ => keeps_bootMatrix

theorem keeps_boot : StorageKeeps nfc (boot ticket) s :=
  storage_bind keeps_reconcile fun _ _ _ => trivial

/-! ### Delete and Gen 2 -/

theorem keeps_wipeOld : StorageKeeps nfc wipeOld s := by
  apply storage_bind (calm_storage' (calm_reads _))
  rintro (_ | m) s₁ -
  · trivial
  dsimp only
  split
  · trivial
  apply storage_bind (calm_storage' (calm_here fun _ _ =>
    .of_eq rfl))
  intro _ s₂ _
  cases m.nsOld with
  | none => trivial
  | some old => exact storage_bind (keeps_wipeNamespace old) fun _ _ _ => trivial

theorem fine_freeze (hinv : AccessInv nfc s) : Fine nfc s (freeze s) := by
  rw [freeze]
  split
  · split
    · exact fine_setSession hinv (fun _ => rfl) fun x hx =>
        ⟨(hinv.sessions _ x hx).installed, (hinv.sessions _ x hx).passphrase⟩
    · exact .refl hinv
  · exact .refl hinv

theorem keeps_deleteQuiesce : StorageKeeps nfc deleteQuiesce s := by
  apply storage_bind (storage_here (P := fun _ => True) (Q := fun _ _ => True) (fun _ _ _ h => h)
    trivial fun _ _ hinv _ => ⟨(fine_freeze hinv).stored, trivial⟩)
  intro known s₁ _
  apply calm_storage'
  apply steps_bind (calm_onlyIf (calm_reads _))
  rintro (_ | ns)
  · trivial
  apply steps_bind (calm_here fun _ _ => .of_eq rfl)
  intro _
  apply steps_bind (calm_delMarker .quiescing)
  intro _
  exact steps_bind (calm_delPhase .quiesce) fun _ => trivial

theorem keeps_deleteWipe : StorageKeeps nfc deleteWipe s := by
  have hfirst : ∀ s : Identity,
      SameAccess s (if s.deleteNs.isSome then { s with deleteVerdict := .unknown } else s) :=
    fun s => .ite (.of_eq rfl) (.refl s)
  apply storage_bind (calm_storage' (calm_here fun _ s => hfirst s))
  rintro (_ | ns) s₁ -
  · trivial
  refine storage_bind (R := fun _ _ => True) (meets_finallyDo ?_) fun _ _ _ => trivial
  have hwipe : StorageKeeps nfc (do
      IdentityRuntime.wipeNamespace ns
      wipeGlobal ns
      orphans []) s₁ := by
    apply storage_bind (keeps_wipeNamespace ns)
    intro _ s₂ _
    apply storage_bind (calm_storage' (calm_wipeGlobal ns))
    exact fun _ _ _ => keeps_orphans []
  exact Meets.mono (fun _ _ _ => calm_storage' calm_clipboardBarrier)
    (fun _ _ _ => calm_storage' calm_clipboardBarrier) hwipe

theorem keeps_legacyMark : StorageKeeps nfc (legacyMark ticket) s := by
  apply storage_bind (calm_storage' (calm_query _))
  intro clean s₁ _
  apply storage_bind (calm_storage' (calm_onlyIf (calm_setResume none)))
  intro _ s₂ _
  apply storage_bind (calm_storage' (calm_here fun _ s =>
    (SameAccess.dropSession s).trans (.dropPending _)))
  intro _ s₃ _
  exact storage_bind keeps_reconcile fun _ _ _ => trivial

/-! ### Setup -/

theorem needPending_ns {pd : Pending} (h : needPending s ns = some lease)
    (hpd : s.pendings lease = some pd) : pd.ns = ns := by
  obtain ⟨-, hany⟩ := filter_eq_some_iff.mp h
  rw [hpd] at hany
  exact of_decide_eq_true hany

def PendingOf (lease : LeaseId) (pd : Pending) (s : Identity) : Prop := s.pendings lease = some pd

theorem PendingOf.rely {pd : Pending} (hs : StorageRely s s') (h : PendingOf lease pd s) :
    PendingOf lease pd s' := by
  rw [PendingOf, hs.pendings]
  exact h

theorem stored_setPending {f : Pending → Pending} (hinv : AccessInv nfc s)
    (hns : ∀ pd, (f pd).ns = pd.ns) (hmode : ∀ pd, (f pd).mode = pd.mode)
    (hok : ∀ pd, s.pendings lease = some pd → PendingOk s (f pd)) :
    FineStored nfc s (s.setPending lease f) := by
  refine ⟨?_, ⟨fun _ x hx => ⟨x, hx, rfl⟩, fun _ => id, fun _ => id, fun _ _ => id⟩⟩
  rw [setPending]
  cases hpd : s.pendings lease with
  | none =>
    have hsame : Function.update s.pendings lease none = s.pendings := by
      rw [← hpd]
      exact Function.update_eq_self lease s.pendings
    rw [map_none, hsame]
    exact hinv
  | some pd =>
    refine inv_setPendings hinv (f pd) (hok pd hpd) fun lease' pd' hpd' heq => ?_
    rw [hmode]
    exact hinv.single lease' lease pd' pd hpd' hpd (heq.trans (hns pd))

section

variable (ns : IdentityNs)

theorem keeps_keystoreFirst : StorageKeeps nfc (keystoreFirst ns) s := by
  apply storage_bind (storage_here (P := fun _ => True) (fun _ _ _ h => h) trivial
    (Q := fun r _ => ∀ x ∈ r, x.2.IsRandom)
    fun i s hinv _ => ⟨(Fine.refl hinv).stored, fun x hx => ?_⟩)
  · rintro (_ | ⟨lease, secret⟩) s₁ hrandom
    · trivial
    apply storage_bind (storage_keystoreFirst ns secret)
    intro ok s₂ _
    split
    · trivial
    refine storage_here (P := fun _ => True) (fun _ _ _ h => h) trivial fun i s hinv _ => ⟨?_, trivial⟩
    split
    · refine stored_setPending hinv (fun _ => rfl) (fun _ => rfl) fun pd hpd => ?_
      have hok := hinv.pendings lease pd hpd
      exact ⟨hok.space, hok.fresh, fun k hk => by cases hk; exact hrandom _ rfl, hok.password,
        hok.written⟩
    · exact (Fine.refl hinv).stored
  · obtain ⟨lease, -, hx⟩ := bind_eq_some_iff.mp hx
    obtain ⟨pd, -, hx⟩ := bind_eq_some_iff.mp hx
    split at hx <;> cases hx
    trivial

theorem keeps_undoKeystore : StorageKeeps nfc (undoKeystore ns) s := by
  apply storage_bind (storage_keystoreUndo ns)
  intro ok s₁ _
  apply calm_storage'
  apply steps_bind (calm_setResume none)
  intro _
  apply steps_bind (calm_query _)
  intro mine
  exact steps_bind (calm_onlyIf calm_dropPending) fun _ => trivial

theorem keeps_undoVault : StorageKeeps nfc (undoVault ns) s := by
  apply storage_bind (calm_storage' (calm_query _))
  intro pd s₁ _
  apply storage_bind (calm_storage' (calm_onlyIf (steps_bind (calm_keystoreHas ns)
    fun _ => steps_ret _)))
  intro own s₂ _
  have hremove : StorageKeeps nfc ((!·) <$> keystoreRemove (.keystoreUndo ns) ns) s₂ :=
    storage_bind (storage_keystoreUndo ns) fun _ _ _ => trivial
  apply storage_bind (storage_onlyIf hremove)
  intro orphan s₃ _
  apply storage_bind (storage_vaultWipe ns)
  intro _ s₄ _
  apply calm_storage'
  apply steps_bind (calm_setResume none)
  intro _
  exact steps_bind calm_dropPending fun _ => trivial

theorem keeps_keystoreAfter : StorageKeeps nfc (keystoreAfter ns) s := by
  apply storage_bind (storage_here (P := fun _ => True) (fun _ _ _ h => h) trivial
    (Q := fun r s => r.isSome = true → HasPassphrase s ns)
    fun i s hinv _ => ⟨(Fine.refl hinv).stored, fun hsome => ?_⟩)
  · rintro (_ | secret) s₁ hpass
    · trivial
    apply storage_bind (storage_keystore (P := fun s => HasPassphrase s ns)
      (fun _ _ hs => hs.passphrases ns) (hpass rfl) (fun _ _ hinv h _ _ => hinv.notBio h)
      (some secret))
    exact fun _ _ _ => trivial
  · obtain ⟨secret, hsecret⟩ := isSome_iff_exists.mp hsome
    obtain ⟨pd, hpd, hsecret⟩ := bind_eq_some_iff.mp hsecret
    obtain ⟨lease, hlease, hpd⟩ := bind_eq_some_iff.mp hpd
    split at hsecret
    · next hmode =>
      have hns := needPending_ns hlease hpd
      exact hns ▸ ((hinv.pendings lease pd hpd).password (by rw [hmode]; nofun) secret hsecret).2
    · cases hsecret

end

structure Reserved (ns : IdentityNs) (s : Identity) : Prop where
  space : ns ∈ s.device.spaces
  fresh : HasPassphrase s ns → ns ∈ s.installed
  free : ∀ lease pd, s.pendings lease = some pd → pd.ns ≠ ns

theorem Reserved.rely (hs : StorageRely s s') (h : Reserved ns s) : Reserved ns s' where
  space := hs.spaces ▸ h.space
  fresh hp := (hs.newPassphrase ns hp).elim (fun hp => hs.installed ns (h.fresh hp)) id
  free := by
    rw [hs.pendings]
    exact h.free

theorem stored_addSpace (hinv : AccessInv nfc s) (hnew : ns ∉ s.device.spaces) :
    FineStored nfc s (s.setDevice fun d => { d with spaces := d.spaces ++ [ns] }) ∧
      Reserved ns (s.setDevice fun d => { d with spaces := d.spaces ++ [ns] }) := by
  have hspaces : ∀ ns' ∈ s.device.spaces, ns' ∈ s.device.spaces ++ [ns] :=
    fun _ => List.mem_append_left _
  refine ⟨⟨⟨fun lease pd hpd => (hinv.pendings lease pd hpd).mono hspaces (fun _ => id) id
      fun _ => .inl, hinv.single,
    fun lease x hx => (hinv.sessions lease x hx).mono (fun _ => id) id, hinv.leased,
    fun ns' hp => hspaces _ (hinv.spaces ns' hp),
    fun ns' r hr => (hinv.records ns' r hr).mono hspaces rfl fun _ => rfl⟩,
    fun _ x hx => ⟨x, hx, rfl⟩, fun _ => id, fun _ => id, fun _ _ => id⟩, ?_⟩
  refine ⟨List.mem_append_right _ List.mem_cons_self,
    fun hp => absurd (hinv.spaces ns hp) hnew, fun lease pd hpd heq => ?_⟩
  exact hnew (heq ▸ (hinv.pendings lease pd hpd).space)

theorem storage_newNs : StorageMeets nfc Reserved newNs s := by
  refine meets_atomic fun s' _ hinv i _ => ?_
  split
  · exact ⟨hinv, (Fine.refl hinv).2.session, nofun, fun _ _ => trivial⟩
  next hnew =>
  obtain ⟨hfine, hreserved⟩ := stored_addSpace hinv hnew
  refine ⟨hfine.1, hfine.2, fun ns hns => ?_, fun _ _ => trivial⟩
  cases hns
  exact hreserved

theorem stored_newPending (hinv : AccessInv nfc s) (h : Reserved ns s) (flow : SetupFlow)
    (mode : ProtectionMode) (nsOld : Option IdentityNs) :
    FineStored nfc s (s.newPending flow ns mode nsOld) := by
  have hset : AccessInv nfc { s with
      pendings := Function.update s.pendings s.res.leases.length
        (some ⟨flow, ns, mode, nsOld, none, false, none⟩) } :=
    inv_setPendings hinv _ ⟨h.space, fun _ => h.fresh, nofun, fun _ => nofun, nofun⟩
      fun lease' pd' hpd' hns => absurd hns (h.free lease' pd' hpd')
  refine ⟨hset.of_same ⟨rfl, rfl, rfl, rfl, rfl, rfl, rfl, ?_⟩,
    fun _ x hx => ⟨x, hx, rfl⟩, fun _ => id, fun _ => id, fun _ _ => id⟩
  exact (Nat.le_add_right _ _).trans (List.length_append).ge

theorem keeps_reserve (flow : SetupFlow) (mode : ProtectionMode) :
    StorageKeeps nfc (reserve flow mode) s := by
  apply storage_bind (calm_storage' calm_dropPending)
  intro _ s₁ _
  apply storage_bind (storage_newNs (s := s₁))
  intro ns s₂ hreserved
  have hrely : ∀ s s', StorageRely s s' → Reserved ns s → Reserved ns s' :=
    fun _ _ hs => .rely hs
  apply storage_bind (calm_storage (calm_reads _) hrely hreserved)
  intro active s₃ hreserved
  apply storage_bind (calm_storage (calm_onlyIf ?_) hrely hreserved)
  · intro _ s₄ hreserved
    apply storage_bind (calm_storage (calm_onlyIf ?_) hrely hreserved)
    · intro _ s₅ hreserved
      exact storage_here hrely hreserved fun _ s hinv h => ⟨stored_newPending hinv h _ _ _, trivial⟩
    · exact steps_bind (calm_query _) fun _ => calm_setResume _
  · exact steps_bind (calm_query _) fun _ => calm_setResume _

/-- What a checked write goes with: a random secret, or a passphrase that the user sets. -/
structure WriteOk (nfc : String → String) (ns : IdentityNs) (w : VaultWrite) : Prop where
  ns : w.pd.ns = ns
  random : w.pd.mode = .biometricOnly → w.passphrase = none ∧ w.secret.IsRandom
  passphrase : w.pd.mode ≠ .biometricOnly →
    ∃ pass, w.passphrase = some pass ∧ w.secret = passphraseBytes nfc pass

theorem writeOk_of_check {words : Option MnemonicError} {protection : ProtectionInput}
    (hinv : AccessInv nfc s) (hw : checkWrite nfc ns words protection s = .ok w) :
    WriteOk nfc ns w ∧ PendingOf w.lease w.pd s := by
  rw [checkWrite] at hw
  split at hw
  · cases hw
  next lease hlease =>
  split at hw
  · cases hw
  next pd hpd =>
  split at hw
  · cases hw
  next hmode =>
  cases words with
  | some e => cases hw
  | none =>
    rw [not_not] at hmode
    have hns := needPending_ns hlease hpd
    cases protection with
    | biometricOnly =>
      have hbio : pd.mode = .biometricOnly := hmode.symm
      dsimp only [vaultSecret] at hw
      split at hw
      · next secret hsecret =>
        cases hw
        exact ⟨⟨hns, fun _ => ⟨rfl, (hinv.pendings lease pd hpd).random secret hsecret⟩,
          fun hnot => absurd hbio hnot⟩, hpd⟩
      · cases hw
    | passphrase biometric pass =>
      have hnot : pd.mode ≠ .biometricOnly := by
        rw [← hmode]
        cases biometric <;> nofun
      dsimp only [vaultSecret] at hw
      split at hw
      · cases hw
      · cases hw
        exact ⟨⟨hns, fun hbio => absurd hbio hnot, fun _ => ⟨pass, rfl, rfl⟩⟩, hpd⟩

def Written (ns : IdentityNs) (w : VaultWrite) (s : Identity) : Prop :=
  PendingOf w.lease w.pd s ∧ (w.pd.mode ≠ .biometricOnly → HasPassphrase s ns)

theorem Written.rely (hs : StorageRely s s') (h : Written ns w s) :
    Written ns w s' := ⟨h.1.rely hs, fun hmode => hs.passphrases ns (h.2 hmode)⟩

theorem storage_vaultCreate {m : ResumeMarker} (hw : WriteOk nfc ns w)
    (hpd : PendingOf w.lease w.pd s) : StorageMeets nfc (fun _ => Written ns w)
      (vaultCreate ns w.secret w.pd.mode w.passphrase m) s := by
  refine storage_writes (P := PendingOf w.lease w.pd) (fun _ _ hs => .rely hs) hpd
    fun i s' hinv hpd hmay hfails => ?_
  have hok := hinv.pendings w.lease w.pd hpd
  have hspace : ns ∈ s'.device.spaces := hw.ns ▸ hok.space
  have hmay' : i.fails = false → w.pd.mode = .biometricOnly →
      ns ∉ s'.installed ∧ s'.device.keystore ns = some w.secret := hmay
  by_cases hmode : w.pd.mode = .biometricOnly
  · obtain ⟨hpass, hrandom⟩ := hw.random hmode
    obtain ⟨hinstalled, hkeystore⟩ := hmay' hfails hmode
    have hset : FineStored nfc s' (s'.setRecord ns ⟨w.secret, w.pd.mode⟩ none) :=
      inv_setBiometricOnly hinv hmode hkeystore hrandom hspace
        (fun hp => hinstalled (hw.ns ▸ hok.fresh hmode (hw.ns.symm ▸ hp))) hinstalled
    rw [hpass]
    exact ⟨hset.thenSame (.of_eq rfl), hpd, absurd hmode⟩
  · obtain ⟨pass, hpass, hsecret⟩ := hw.passphrase hmode
    have hset : FineStored nfc s' (s'.setRecord ns ⟨w.secret, w.pd.mode⟩ (some pass)) :=
      inv_setPassphrase hinv hmode hsecret hspace (.inr fun lease' pd' hpd' hns => by
        rw [hinv.single lease' w.lease pd' w.pd hpd' hpd (hns.trans hw.ns.symm)]
        exact hmode)
    have hset' : HasPassphrase (s'.setRecord ns ⟨w.secret, w.pd.mode⟩ (some pass)) ns :=
      hasPassphrase_setRecord.mpr (.inl rfl)
    rw [hpass]
    exact ⟨hset.thenSame (.of_eq rfl), hpd, fun _ => hset'⟩

theorem keeps_writeVault (ns : IdentityNs) (words : Option MnemonicError)
    (protection : ProtectionInput) : StorageKeeps nfc (writeVault nfc ns words protection) s := by
  apply storage_bind (storage_here (P := fun _ => True) (fun _ _ _ h => h) trivial
    (Q := fun r s => ∀ w, r = .ok w → WriteOk nfc ns w ∧ PendingOf w.lease w.pd s)
    fun i s hinv _ => ⟨(Fine.refl hinv).stored, fun w hw => writeOk_of_check hinv hw⟩)
  rintro (answer | w) s₁ hw
  · trivial
  obtain ⟨hw, hpd⟩ := hw w rfl
  refine storage_bind (R := fun written s => written = true → Written ns w s) ?_ ?_
  · refine meets_tryCatch (.mono (fun _ _ h => h) (fun _ _ _ => nofun) ?_ (E := fun _ _ => True))
    apply storage_bind (R := fun _ => Written ns w)
    · apply storage_bind (calm_storage (calm_query _) (P := PendingOf w.lease w.pd)
        (fun _ _ hs => .rely hs) hpd)
      exact fun at' s₂ hpd => storage_vaultCreate hw hpd
    · exact fun _ _ h _ => h
  · intro written s₂ hwritten
    split
    · trivial
    next hwritten' =>
    refine storage_here (P := Written ns w) (fun _ _ hs => .rely hs)
      (hwritten (by simpa using hwritten')) fun i s hinv h => ⟨?_, trivial⟩
    split
    · refine stored_setPending hinv (fun _ => rfl) (fun _ => rfl) fun pd hpd => ?_
      have hok := hinv.pendings w.lease pd hpd
      have heq : pd = w.pd := some.inj (hpd.symm.trans h.1)
      refine ⟨hok.space, hok.fresh, hok.random, fun hmode k hk => ?_, fun _ => rfl⟩
      cases hk
      rw [heq] at hmode ⊢
      obtain ⟨pass, -, hsecret⟩ := hw.passphrase hmode
      exact ⟨hsecret ▸ trivial, hw.ns ▸ h.2 hmode⟩
    · exact (Fine.refl hinv).stored

/-! ## 2. Every run -/

theorem keeps_program (nfc : String → String) (k : IdentityCall) (ticket : Nat) (s : Identity) :
    Async.Keeps ((contract nfc).forKind k.kind) (program nfc k ticket) s := by
  cases k with
  | boot => exact keeps_boot
  | reserve flow mode => exact keeps_reserve flow mode
  | keystoreFirst ns => exact keeps_keystoreFirst ns
  | undoKeystore ns => exact keeps_undoKeystore ns
  | writeVault ns words protection => exact keeps_writeVault ns words protection
  | undoVault ns => exact keeps_undoVault ns
  | keystoreAfter ns => exact keeps_keystoreAfter ns
  | markBioUnusable ns => exact calm_storage' (calm_markBioUnusable ns)
  | initHolder ns => exact calm_session' (calm_initHolder ticket ns)
  | activate ns => exact keeps_activate ticket ns
  | switchTo ns => exact keeps_switchTo ticket ns
  | wipeOld => exact keeps_wipeOld
  | verifyOld => exact calm_storage' calm_verifyOld
  | finishRestore => exact calm_session' (calm_finishRestore ticket)
  | unlockBiometric => exact keeps_unlockBiometric ticket
  | unlockPassphrase pass => exact keeps_unlockPassphrase pass ticket
  | unlockMarkBioUnusable => exact calm_storage' calm_unlockMarkBioUnusable
  | unlockOpen => exact calm_session' (calm_unlockOpen ticket)
  | reprotect => exact keeps_reprotect ticket
  | restoreKeystore => exact keeps_restoreKeystore ticket
  | enableBiometric => exact keeps_enableBiometric ticket
  | prove pass => exact keeps_prove pass ticket
  | keystoreStore => exact keeps_keystoreStore ticket
  | setHead biometric => exact keeps_setHead biometric ticket
  | rewrap pass => exact keeps_rewrap pass ticket
  | keystoreRemove => exact keeps_keystoreRemove ticket
  | acceptTerms version => exact calm_session' (calm_acceptTerms version ticket)
  | deleteQuiesce => exact keeps_deleteQuiesce
  | deleteDeregister => exact calm_storage' calm_deleteDeregister
  | deleteSeal => exact calm_storage' calm_deleteSeal
  | deleteClose => exact calm_storage' calm_deleteClose
  | deleteWipe => exact keeps_deleteWipe
  | deleteVerify => exact calm_storage' calm_deleteVerify
  | deleteFinish => exact calm_storage' calm_deleteFinish
  | legacyWipe => exact calm_storage' calm_legacyWipe
  | legacyVerify => exact calm_storage' calm_legacyVerify
  | legacyMark => exact keeps_legacyMark

theorem same_before (k : IdentityCall) (s : Identity) : SameAccess s (before k s) := by
  cases k with
  | boot => exact (SameAccess.revoke s).trans (.setStatus _ _)
  | _ => exact .refl s

theorem calm_event (e : IdentityEvent) (holder : Option IdentityCall) (s : Identity) :
    SameAccess s (event e holder s).1 ∧ ∀ p ∈ (event e holder s).2, Calm p := by
  cases e with
  | lock =>
    rw [event, lockEvent]
    split
    · refine ⟨.refl s, fun p hp => ?_⟩
      rw [List.mem_singleton.mp hp]
      exact calm_lockJoined
    refine ⟨((SameAccess.revoke s).trans (.retry _ none)).trans (.lockIfOrphaned _ _), fun p hp => ?_⟩
    rw [List.mem_singleton.mp hp]
    exact calm_lockCleanup _ _ _
  | dismissOffer =>
    refine ⟨?_, nofun⟩
    rw [event, dismissOffer]
    dsimp only
    split
    · exact .of_eq rfl
    · exact .refl s
  | hostAnswer o ok =>
    refine ⟨.register s ?_, nofun⟩
    cases hanswer : s.res.answer o ok with
    | none => exact Nat.le_refl _
    | some res => exact (length_answer hanswer).ge
  | appWrites ns layer =>
    refine ⟨?_, nofun⟩
    cases layer <;> exact .of_eq rfl
  | copied data => exact ⟨.of_eq rfl, nofun⟩

end

abbrev RuntimeConfig := LaneConfig IdentityPoint PlatformAnswer Identity Unit StepResult IdentityCall

abbrev RuntimeAction := LaneAction PlatformAnswer IdentityCall IdentityEvent

def Admitted (c : RuntimeConfig) (a : RuntimeAction) : Prop :=
  ∀ x ∈ c.point? a, may x.1 x.2 c.world

theorem inv_start (nfc : String → String) {d : Device} (hd : ∀ ns, d.head ns = none) :
    AccessInv nfc (start d) := by
  refine ⟨fun _ _ h => ?_, fun _ _ _ _ h => ?_, fun _ _ h => ?_, fun _ _ h => ?_, fun _ h => ?_,
    fun ns record hr => ?_⟩
  · cases h
  · cases h
  · cases h
  · cases h
  · cases h
  · have hhead := hd ns
    rw [Device.head] at hhead
    have hr' : d.vaults ns = some (.v3 record) := hr
    rw [hr'] at hhead
    cases hhead

theorem inv_restart {nfc : String → String} (hinv : AccessInv nfc s) :
    AccessInv nfc (restart s) := by
  refine ⟨fun _ _ h => ?_, fun _ _ _ _ h => ?_, fun _ _ h => ?_, fun _ _ h => ?_, hinv.spaces,
    fun ns r hr => (hinv.records ns r hr).mono (fun _ => id) rfl fun _ => rfl⟩
  · cases h
  · cases h
  · cases h
  · cases h

theorem verified (nfc : String → String) {d : Device} (hd : ∀ ns, d.head ns = none) :
    LaneVerified (system nfc) Admitted (start d) (contract nfc) where
  init := inv_start nfc hd
  before k s hinv := by
    have hsame := same_before k s
    exact ⟨.of_same hinv hsame, hsame.rely.storage, hsame.rely.session⟩
  program k s _ := keeps_program nfc k _ s
  event e holder s hinv := by
    obtain ⟨hsame, hcalm⟩ := calm_event e holder s
    exact ⟨.of_same hinv hsame, hsame.rely.storage, hsame.rely.session,
      fun p hp => calm_session' (hcalm p hp)⟩
  may c a t i ha hpoint _ := ha (t, i) hpoint
  quietStorage _ _ _ _ _ h := h
  quietSession _ _ _ _ _ h := ⟨h.storage, h.session⟩
  restart s hinv := inv_restart hinv

end LastAccess

open LastAccess

/-- **No change of the protection removes the last access**: in every run of the runtime whose steps
    meet none of the defects, a head that names a passphrase stands over a record that the passphrase
    opens that the user has set last, and a biometric-only one over a record that the secret in the
    keystore opens. -/
theorem access_kept (nfc : String → String) {d : Device} (hd : ∀ ns, d.head ns = none)
    {c : RuntimeConfig}
    (h : Machine.Reaches (step (system nfc)) Admitted (.start (start d)) c)
    {ns : IdentityNs} {record : AccessRecord}
    (hrecord : c.world.device.vaults ns = some (.v3 record)) :
    record.Opens nfc c.world ns :=
  ((LaneKept.reaches (verified nfc hd) h).inv.records ns record hrecord).opens

section

instance (t : IdentityPoint) (i : PlatformAnswer) (s : Identity) : Decidable (may t i s) :=
  match t with
  | .keystoreFirst ns => inferInstanceAs (Decidable (i.effect = true →
      ¬ s.device.head ns = some .biometricOnly))
  | .keystoreUndo ns => inferInstanceAs (Decidable (i.effect = true →
      ¬ s.device.head ns = some .biometricOnly))
  | .create ns secret mode => inferInstanceAs (Decidable (i.fails = false → mode = .biometricOnly →
      ns ∉ s.installed ∧ s.device.keystore ns = some secret))
  | .here | .read | .write | .host => .isTrue trivial

instance (c : RuntimeConfig) (a : RuntimeAction) : Decidable (Admitted c a) :=
  inferInstanceAs (Decidable (∀ x ∈ c.point? a, may x.1 x.2 c.world))

def called (k : IdentityCall) (answers : List PlatformAnswer) : List RuntimeAction :=
  .call k :: answers.map .storage

def biometricSetup : List RuntimeAction :=
  called (.reserve .setup .biometricOnly)
      [.done, { PlatformAnswer.done with name := "n" }, .done, .done, .done, .done] ++
    called (.keystoreFirst "n") [{ PlatformAnswer.done with number := 1 }, .done, .done] ++
    called (.writeVault "n" none .biometricOnly) [.done, .done, .done, .done]

/-- A call of the session, whose steps all end well. -/
def sessionCall (k : IdentityCall) (steps : Nat) : List RuntimeAction :=
  .call k :: List.replicate steps (.session 0 .done)

/-- After the setup the session is opened and locked, opened again with the biometrics, and the
    protection is changed: the vault opens with the passphrase then. -/
def biometricLife : List RuntimeAction :=
  biometricSetup ++ sessionCall (.initHolder (some "n")) 12 ++
    sessionCall (.activate (some "n")) 8 ++ .event .lock ::
    sessionCall .unlockBiometric 4 ++ sessionCall .unlockOpen 9 ++ sessionCall (.prove none) 4 ++
    sessionCall (.rewrap "passphrase") 7

theorem access_kept_setup : ∃ c : RuntimeConfig,
    Machine.Reaches (step (system id)) Admitted (.start (start .empty)) c ∧
      (AccessRecord.mk (passphraseBytes id "passphrase") .passphraseBiometric).Opens id c.world
        "n" := by
  obtain ⟨c, hc, hp⟩ := Machine.Reaches.of_exec (step (system id)) Admitted
    (.start (start .empty)) biometricLife
    (fun c => decide (c.world.device.vaults "n" =
      some (.v3 ⟨passphraseBytes id "passphrase", .passphraseBiometric⟩)))
    (by decide +kernel)
  exact ⟨c, hc, access_kept id (fun _ => rfl) hc (of_decide_eq_true hp)⟩

/-- `keystoreFirst` runs again after the vault is written: the keystore gets a new secret, and the one
    of the vault is gone. -/
theorem access_lost : ∃ (c : RuntimeConfig) (record : AccessRecord),
    Machine.Reaches (step (system id)) (fun _ _ => True) (.start (start .empty)) c ∧
      c.world.device.vaults "n" = some (.v3 record) ∧ ¬ record.Opens id c.world "n" := by
  obtain ⟨c, hc, hp⟩ := Machine.Reaches.of_exec (step (system id)) (fun _ _ => True)
    (.start (start .empty)) (biometricSetup ++
      called (.keystoreFirst "n") [{ PlatformAnswer.done with number := 2 }, .done, .done])
    (fun c => decide (c.world.device.vaults "n" = some (.v3 ⟨.random 1, .biometricOnly⟩) ∧
      c.world.device.keystore "n" = some (.random 2)))
    (by decide +kernel)
  obtain ⟨hvault, hkeystore⟩ := of_decide_eq_true hp
  refine ⟨c, _, hc, hvault, fun hopens => ?_⟩
  rw [AccessRecord.Opens, if_pos rfl, hkeystore] at hopens
  cases hopens

end

end WebOfTrust
