/-
  **The gate over whole runs.**  At most one program rotates, the gate that is closed is the
  one it holds, and every writer at a gate waits for an open one or for that program
  (`GateInv`).  A gate that is held is held on or opened, so a rotation that ends, in
  success or failure, leaves no writer behind (`gate_opens`).
-/
import WebOfTrust.WritePausePrograms

namespace WebOfTrust

open Async RotationPhase Function

namespace LogSyncCoordinator

/-! ## 1. The invariant -/

structure GateInv (c : LogSyncCoordinator) (ph : Nat → PausePhase) : Prop where
  inFlight : ∀ m, (ph m).rotation ≠ .outside → c.restoreCloneInFlight = true
  one : ∀ m m', (ph m).rotation ≠ .outside → (ph m').rotation ≠ .outside → m = m'
  holder : ∀ gate, c.rebinding = some gate ↔ ∃ m, (ph m).rotation.closes = some gate
  closed : ∀ m gate, (ph m).rotation.closes = some gate → gate ∉ c.openGates
  opened : ∀ m gate, (ph m).rotation = .opened gate → gate ∈ c.openGates
  made : ∀ gate ∈ c.openGates, gate < c.gates
  held : ∀ m gate, (ph m).rotation.closes = some gate → gate < c.gates
  bindings : ∀ m gate binding, (ph m).rotation = .registered gate binding → binding ≤ c.binding
  idle : ∀ m gate, (ph m).rotation.closes = some gate → (ph m).send = .idle
  waiting : ∀ m gate, (ph m).send = .waiting gate →
    gate ∈ c.openGates ∨ ∃ k, (ph k).rotation.closes = some gate

theorem RotationPhase.ne_outside {r : RotationPhase} {gate : Nat} (h : r.closes = some gate) :
    r ≠ .outside := by
  rintro rfl
  cases h

variable {c c' : LogSyncCoordinator} {ph : Nat → PausePhase} {n : Nat} {q' : PausePhase}

theorem gateInv_start (store : DocLogStore) (deviceId : DeviceId) (contentKey : Option ContentKey) :
    GateInv (start store deviceId contentKey) fun _ => outside.idle where
  inFlight _ h := absurd rfl h
  one _ _ h := absurd rfl h
  holder gate := by simp [start, closes]
  closed _ _ h := by cases h
  opened _ _ h := by cases h
  made _ h := by cases h
  held _ _ h := by cases h
  bindings _ _ _ h := by cases h
  idle _ _ h := by cases h
  waiting _ _ h := by cases h

theorem update_cases {P : PausePhase → Prop} (hq : P q') (hph : ∀ m, P (ph m)) (m : Nat) :
    P (update ph n q' m) := by
  by_cases hm : m = n
  · subst hm
    rw [update_self]
    exact hq
  · rw [update_of_ne hm]
    exact hph m

structure SameGate (c c' : LogSyncCoordinator) : Prop where
  restoreCloneInFlight : c'.restoreCloneInFlight = c.restoreCloneInFlight
  rebinding : c'.rebinding = c.rebinding
  gates : c'.gates = c.gates
  openGates : c'.openGates = c.openGates
  binding : c.binding ≤ c'.binding

theorem Quiet.sameGate (h : Quiet c c') : SameGate c c' := ⟨h.1, h.2, h.3, h.4, h.5⟩

theorem sameGate_refl (c : LogSyncCoordinator) : SameGate c c := (Quiet.refl c).sameGate

section

variable (h : GateInv c ph)
include h

theorem GateInv.keep {q : PausePhase} (hn : ph n = q) (hq : SameGate c c')
    (hr : q'.rotation.closes = q.rotation.closes)
    (hout : q'.rotation = .outside ↔ q.rotation = .outside)
    (hopened : ∀ gate, q'.rotation = .opened gate → q.rotation = .opened gate)
    (hreg : ∀ gate binding, q'.rotation = .registered gate binding →
      q.rotation = .registered gate binding)
    (hidle : q'.rotation.closes.isSome → q'.send = .idle)
    (hwait : ∀ gate, q'.send = .waiting gate →
      gate ∈ c.openGates ∨ ∃ k, (ph k).rotation.closes = some gate) :
    GateInv c' (update ph n q') := by
  subst hn
  have hcloses : ∀ m, (update ph n q' m).rotation.closes = (ph m).rotation.closes := by
    intro m
    by_cases hm : m = n
    · subst hm
      rw [update_self, hr]
    · rw [update_of_ne hm]
  have houts : ∀ m, (update ph n q' m).rotation ≠ .outside → (ph m).rotation ≠ .outside := by
    intro m hm
    by_cases hmn : m = n
    · subst hmn
      rw [update_self] at hm
      exact fun he => hm (hout.mpr he)
    · rwa [update_of_ne hmn] at hm
  constructor
  · intro m hm
    rw [hq.restoreCloneInFlight]
    exact h.inFlight m (houts m hm)
  · exact fun m m' hm hm' => h.one m m' (houts m hm) (houts m' hm')
  · intro gate
    rw [hq.rebinding, h.holder]
    simp only [hcloses]
  · intro m gate hm
    rw [hcloses] at hm
    rw [hq.openGates]
    exact h.closed m gate hm
  · rw [hq.openGates]
    exact update_cases (P := fun q => ∀ gate, q.rotation = .opened gate → gate ∈ c.openGates)
      (fun gate he => h.opened n gate (hopened gate he)) h.opened
  · rw [hq.openGates, hq.gates]
    exact h.made
  · intro m gate hm
    rw [hcloses] at hm
    rw [hq.gates]
    exact h.held m gate hm
  · have hbind := hq.binding
    exact update_cases
      (P := fun q => ∀ gate binding, q.rotation = .registered gate binding → binding ≤ c'.binding)
      (fun gate binding he => Nat.le_trans (h.bindings n gate binding (hreg gate binding he)) hbind)
      fun m gate binding he => Nat.le_trans (h.bindings m gate binding he) hbind
  · exact update_cases (P := fun q => ∀ gate, q.rotation.closes = some gate → q.send = .idle)
      (fun gate he => hidle (he ▸ rfl)) h.idle
  · simp only [hq.openGates, hcloses]
    exact update_cases (P := fun q => ∀ gate, q.send = .waiting gate →
        gate ∈ c.openGates ∨ ∃ k, (ph k).rotation.closes = some gate) hwait h.waiting

theorem GateInv.outside (hflight : c.restoreCloneInFlight = false) (m : Nat) :
    (ph m).rotation = .outside := by
  by_contra hm
  rw [h.inFlight m hm] at hflight
  cases hflight

theorem GateInv.others (hn : (ph n).rotation ≠ .outside) {m : Nat} (hm : m ≠ n) :
    (ph m).rotation = .outside := by
  by_contra hout
  exact hm (h.one m n hout hn)

theorem GateInv.begin (hflight : c.restoreCloneInFlight = false) :
    GateInv c.beginRestoreClone.2 (update ph n (begun c.gates).idle) := by
  have hout := h.outside hflight
  have hnone : c.rebinding = none := by
    rw [Option.eq_none_iff_forall_ne_some]
    intro gate hgate
    obtain ⟨m, hm⟩ := (h.holder gate).mp hgate
    rw [hout m] at hm
    cases hm
  have hfresh : c.gates ∉ c.openGates := fun hmem => Nat.lt_irrefl _ (h.made _ hmem)
  have hothers : ∀ m, m ≠ n → (update ph n (begun c.gates).idle m).rotation =
      .outside := fun m hm => by rw [update_of_ne hm, hout m]
  have hself : update ph n (begun c.gates).idle n = (begun c.gates).idle := update_self _ _ _
  simp only [beginRestoreClone, hflight]
  constructor
  · exact fun _ _ => rfl
  · intro m m' hm hm'
    by_contra hne
    rcases eq_or_ne m n with rfl | hmn
    · exact hm' (hothers m' (Ne.symm hne))
    · exact hm (hothers m hmn)
  · intro gate
    constructor
    · rintro ⟨⟩
      exact ⟨n, by rw [hself]; rfl⟩
    · rintro ⟨m, hm⟩
      rcases eq_or_ne m n with rfl | hmn
      · rw [hself] at hm
        cases hm
        rfl
      · rw [hothers m hmn] at hm
        cases hm
  · exact update_cases (P := fun q => ∀ gate, q.rotation.closes = some gate → gate ∉ c.openGates)
      (fun gate he => by cases he; exact hfresh) h.closed
  · exact update_cases (P := fun q => ∀ gate, q.rotation = .opened gate → gate ∈ c.openGates)
      (fun gate he => by cases he) h.opened
  · exact fun gate hgate => Nat.lt_succ_of_lt (h.made gate hgate)
  · exact update_cases (P := fun q => ∀ gate, q.rotation.closes = some gate → gate < c.gates + 1)
      (fun gate he => by cases he; exact Nat.lt_succ_self _)
      fun m gate hm => Nat.lt_succ_of_lt (h.held m gate hm)
  · exact update_cases
      (P := fun q => ∀ gate binding, q.rotation = .registered gate binding → binding ≤ c.binding)
      (fun gate binding he => by cases he) h.bindings
  · exact update_cases (P := fun q => ∀ gate, q.rotation.closes = some gate → q.send = .idle)
      (fun _ _ => rfl) h.idle
  · have hwait : ∀ m gate, (ph m).send = .waiting gate → gate ∈ c.openGates := by
      intro m gate hm
      rcases h.waiting m gate hm with hopen | ⟨k, hk⟩
      · exact hopen
      · rw [hout k] at hk
        cases hk
    exact update_cases (P := fun q => ∀ gate, q.send = .waiting gate → gate ∈ c.openGates ∨
        ∃ k, (update ph n (begun c.gates).idle k).rotation.closes = some gate)
      (fun gate he => by cases he) fun m gate he => .inl (hwait m gate he)

theorem GateInv.adopt {gate : Nat} (hn : ph n = (begun gate).idle) (newDeviceId : DeviceId) :
    GateInv (c.adopt newDeviceId).2 (update ph n (registered gate (c.binding + 1)).idle) := by
  have hpublish : (c.adopt newDeviceId).2 = { (c.rebind newDeviceId) with
        published := false, publishing := some c.promises, promises := c.promises + 1
        events := c.events ++ [.registered (c.binding + 1) newDeviceId] } := rfl
  have hnr : (ph n).rotation = .begun gate := by rw [hn]
  have hcloses : ∀ m, (update ph n
      (registered gate (c.binding + 1)).idle m).rotation.closes = (ph m).rotation.closes := by
    intro m
    by_cases hm : m = n
    · subst hm
      rw [update_self, hnr]
      rfl
    · rw [update_of_ne hm]
  have hout : ∀ m, (update ph n (registered gate (c.binding + 1)).idle m).rotation ≠ .outside →
        (ph m).rotation ≠ .outside := by
    intro m hm
    by_cases hmn : m = n
    · subst hmn
      rw [hnr]
      exact nofun
    · rwa [update_of_ne hmn] at hm
  rw [hpublish]
  constructor
  · exact fun m hm => h.inFlight m (hout m hm)
  · exact fun m m' hm hm' => h.one m m' (hout m hm) (hout m' hm')
  · intro gate'
    simp only [hcloses]
    exact h.holder gate'
  · intro m gate' hm
    rw [hcloses] at hm
    exact h.closed m gate' hm
  · exact update_cases (P := fun q => ∀ gate, q.rotation = .opened gate → gate ∈ c.openGates)
      (fun _ he => by cases he) h.opened
  · exact h.made
  · intro m gate' hm
    rw [hcloses] at hm
    exact h.held m gate' hm
  · exact update_cases (P := fun q => ∀ gate binding, q.rotation = .registered gate binding →
        binding ≤ c.binding + 1)
      (fun _ _ he => by cases he; exact Nat.le_refl _)
      fun m gate binding he => Nat.le_succ_of_le (h.bindings m gate binding he)
  · exact update_cases (P := fun q => ∀ gate, q.rotation.closes = some gate → q.send = .idle)
      (fun _ _ => rfl) h.idle
  · simp only [hcloses]
    exact update_cases (P := fun q => ∀ gate, q.send = .waiting gate →
        gate ∈ c.openGates ∨ ∃ k, (ph k).rotation.closes = some gate)
      (fun _ he => by cases he) h.waiting

theorem GateInv.open {gate : Nat} {flag : Bool}
    (hn : (ph n).rotation.closes = some gate ∨ (ph n).rotation = .opened gate)
    (hq : q' = (RotationPhase.opened gate).idle ∧ flag = true ∨
      q' = RotationPhase.outside.idle ∧ flag = false)
    (hflag : c'.restoreCloneInFlight = flag)
    (hrebinding : c'.rebinding = none) (hgates : c'.gates = c.gates)
    (hopen : ∀ g, g ∈ c'.openGates ↔ g = gate ∨ g ∈ c.openGates) :
    GateInv c' (update ph n q') := by
  have hne : (ph n).rotation ≠ .outside := by
    rcases hn with hn | hn
    · exact RotationPhase.ne_outside hn
    · rw [hn]
      exact nofun
  have hlt : gate < c.gates := by
    rcases hn with hn | hn
    · exact h.held n gate hn
    · exact h.made gate (h.opened n gate hn)
  have hcl : q'.rotation.closes = none := by
    rcases hq with ⟨rfl, -⟩ | ⟨rfl, -⟩ <;> rfl
  have hsend : q'.send = .idle := by
    rcases hq with ⟨rfl, -⟩ | ⟨rfl, -⟩ <;> rfl
  have hothers : ∀ m, m ≠ n → (update ph n q' m).rotation = .outside := fun m hm => by
    rw [update_of_ne hm]
    exact h.others hne hm
  have hcloses : ∀ m, (update ph n q' m).rotation.closes = none := by
    intro m
    by_cases hm : m = n
    · subst hm
      rw [update_self, hcl]
    · rw [hothers m hm]
      rfl
  constructor
  · intro m hm
    rcases eq_or_ne m n with rfl | hmn
    · rw [update_self] at hm
      rcases hq with ⟨-, rfl⟩ | ⟨rfl, -⟩
      · exact hflag
      · exact absurd rfl hm
    · exact absurd (hothers m hmn) hm
  · intro m m' hm hm'
    by_contra hmm
    rcases eq_or_ne m n with rfl | hmn
    · exact hm' (hothers m' (Ne.symm hmm))
    · exact hm (hothers m hmn)
  · intro g
    rw [hrebinding]
    simp [hcloses]
  · intro m g hm
    rw [hcloses] at hm
    cases hm
  · intro m g hm
    rcases eq_or_ne m n with rfl | hmn
    · rw [update_self] at hm
      rcases hq with ⟨rfl, -⟩ | ⟨rfl, -⟩
      · cases hm
        exact (hopen gate).mpr (.inl rfl)
      · cases hm
    · rw [hothers m hmn] at hm
      cases hm
  · intro g hg
    rw [hgates]
    rcases (hopen g).mp hg with rfl | hg
    · exact hlt
    · exact h.made g hg
  · intro m g hm
    rw [hcloses] at hm
    cases hm
  · intro m g b hm
    have hm' := congrArg closes hm
    rw [hcloses] at hm'
    cases hm'
  · intro m g hm
    rw [hcloses] at hm
    cases hm
  · intro m g hm
    rcases eq_or_ne m n with rfl | hmn
    · rw [update_self, hsend] at hm
      cases hm
    rw [update_of_ne hmn] at hm
    rcases h.waiting m g hm with hg | ⟨k, hk⟩
    · exact .inl ((hopen g).mpr (.inr hg))
    rcases eq_or_ne k n with rfl | hkn
    · rcases hn with hn | hn
      · rw [hk] at hn
        cases hn
        exact .inl ((hopen gate).mpr (.inl rfl))
      · rw [hn] at hk
        cases hk
    · rw [h.others hne hkn] at hk
      cases hk

omit h in
theorem mem_openWritePauseGate {gate g : Nat} :
    g ∈ (c.openWritePauseGate gate).openGates ↔ g = gate ∨ g ∈ c.openGates := by
  unfold openWritePauseGate
  split
  · next hmem =>
    constructor
    · exact .inr
    · rintro (rfl | hg)
      · exact hmem
      · exact hg
  · exact List.mem_cons

theorem GateInv.step {q : PausePhase} {t : CoordPoint} {i : CoordInput}
    (hq : ph n = q) (hstep : PauseStep q t i c c' q') : GateInv c' (update ph n q') := by
  have hidle : q.rotation.closes.isSome → q.send = .idle := by
    intro he
    obtain ⟨gate, hgate⟩ := Option.isSome_iff_exists.mp he
    rw [← hq] at hgate ⊢
    exact h.idle n gate hgate
  have hwait := h.waiting n
  rw [hq] at hwait
  cases hstep with
  | quiet hquiet =>
    exact h.keep hq hquiet.sameGate rfl Iff.rfl (fun _ he => he) (fun _ _ he => he) hidle hwait
  | present hle hquiet hevents =>
    exact h.keep hq hquiet.sameGate rfl ⟨nofun, nofun⟩ nofun nofun (fun _ => rfl) nofun
  | gateOpen hr hgate =>
    exact h.keep hq (sameGate_refl c) rfl Iff.rfl (fun _ he => he) (fun _ _ he => he)
      (by rw [hr]; exact nofun) nofun
  | gateClosed gate hr hgate =>
    refine h.keep hq (sameGate_refl c) rfl Iff.rfl (fun _ he => he) (fun _ _ he => he) ?_ ?_
    · rw [hr]
      exact nofun
    · rintro _ ⟨⟩
      exact .inr ((h.holder gate).mp hgate)
  | resume gate hopen =>
    exact h.keep hq (sameGate_refl c) rfl Iff.rfl (fun _ he => he) (fun _ _ he => he)
      (fun he => nomatch hidle he) nofun
  | abandon =>
    exact h.keep hq (sameGate_refl c) rfl Iff.rfl (fun _ he => he) (fun _ _ he => he)
      (fun _ => rfl) nofun
  | send message encoded =>
    exact h.keep hq ⟨rfl, rfl, rfl, rfl, Nat.le_refl _⟩ rfl Iff.rfl (fun _ he => he)
      (fun _ _ he => he) (fun _ => rfl) nofun
  | other docId =>
    exact h.keep hq ⟨rfl, rfl, rfl, rfl, Nat.le_refl _⟩ rfl Iff.rfl (fun _ he => he)
      (fun _ _ he => he) hidle hwait
  | begin hflight => exact h.begin hflight
  | adopt newDeviceId => exact h.adopt hq newDeviceId
  | @openGate gate i c =>
    have hcl : (ph n).rotation.closes = some gate := by rw [hq]; rfl
    have hnot : gate ∉ c.openGates := h.closed n gate hcl
    apply h.open (.inl hcl) (.inl ⟨rfl, rfl⟩)
    · unfold openWritePauseGate
      rw [if_neg hnot]
      exact h.inFlight n (RotationPhase.ne_outside hcl)
    · simp [openWritePauseGate, hnot]
    · simp [openWritePauseGate, hnot]
    · exact fun g => mem_openWritePauseGate
  | @ended r gate i c hgate =>
    have hcl : (ph n).rotation.closes = some gate ∨ (ph n).rotation = .opened gate := by
      rw [hq]
      exact hgate
    have hgates : (c.openWritePauseGate gate).gates = c.gates := by
      unfold openWritePauseGate
      split <;> rfl
    apply h.open hcl (.inr ⟨rfl, rfl⟩)
    · rfl
    · show (c.openWritePauseGate gate).rebinding = none
      by_cases hmem : gate ∈ c.openGates
      · -- the gate is open already: then this rotation holds no other one
        have hnone : c.rebinding = none := by
          rw [Option.eq_none_iff_forall_ne_some]
          intro g hg
          obtain ⟨k, hk⟩ := (h.holder g).mp hg
          have hne : (ph n).rotation ≠ .outside := by
            rcases hcl with hcl | hcl
            · exact RotationPhase.ne_outside hcl
            · rw [hcl]
              exact nofun
          obtain rfl := h.one k n (RotationPhase.ne_outside hk) hne
          rcases hcl with hcl | hcl
          · exact h.closed k gate hcl hmem
          · rw [hcl] at hk
            cases hk
        simp [openWritePauseGate, hmem, hnone]
      · simp [openWritePauseGate, hmem]
    · exact hgates
    · exact fun g => mem_openWritePauseGate

end

theorem PauseStep.gate {q : PausePhase} {t : CoordPoint} {i : CoordInput}
    (hstep : PauseStep q t i c c' q') (gate : Nat) :
    (gate ∈ c.openGates → gate ∈ c'.openGates) ∧
      (q.rotation.closes = some gate → gate ∈ c'.openGates ∨ q'.rotation.closes = some gate) := by
  cases hstep with
  | quiet hquiet | present hle hquiet hevents => exact ⟨fun h => hquiet.openGates ▸ h, .inr⟩
  | gateOpen hr hgate | gateClosed gate hr hgate | resume gate hopen | abandon
  | send message encoded | other docId | adopt newDeviceId => exact ⟨id, .inr⟩
  | begin hflight =>
    refine ⟨fun h => ?_, nofun⟩
    simpa [beginRestoreClone, hflight] using h
  | openGate =>
    refine ⟨fun h => mem_openWritePauseGate.mpr (.inr h), ?_⟩
    rintro ⟨⟩
    exact .inl (mem_openWritePauseGate.mpr (.inl rfl))
  | ended hgate =>
    refine ⟨fun h => mem_openWritePauseGate.mpr (.inr h), fun hr => ?_⟩
    rcases hgate with hgate | rfl
    · rw [hr] at hgate
      cases hgate
      exact .inl (mem_openWritePauseGate.mpr (.inl rfl))
    · cases hr

/-! ## 2. No writer waits forever -/

/-- The programs of a coordinator live in one process: none is lost on its own, and the
    process is there for the whole run. -/
def OneProcess (_ : CoordConfiguration) : Action CoordInput CoordCall → Prop
  | .crash _ => False
  | .restart => False
  | _ => True

instance (c : CoordConfiguration) (a : Action CoordInput CoordCall) :
    Decidable (OneProcess c a) := by
  cases a <;> simp only [OneProcess] <;> infer_instance

abbrev Ended (q : PausePhase) : Prop := q = outside.idle

variable (cfg : CoordConfig) (pages depth : Nat) (store : DocLogStore) (deviceId : DeviceId)
  (contentKey : Option ContentKey)

theorem gate_supervised :
    Supervised (coordSystem cfg pages depth) OneProcess (start store deviceId contentKey)
      pauseProtocol (fun _ => Ended) (fun _ => Ended) outside.idle GateInv where
  init := gateInv_start store deviceId contentKey
  call := returns_program pages depth
  alive _ _ h := h
  restart _ _ h := h.elim
  may _ _ n h := ⟨h.inFlight n, h.bindings n⟩
  run _ _ _ _ _ _ _ _ h _ hstep := h.inv.step rfl hstep

abbrev GatePhases (c : CoordConfiguration) (ph : Nat → PausePhase) : Prop :=
  Phases pauseProtocol (fun _ => Ended) (fun _ => Ended) outside.idle GateInv c ph

theorem held_or_open {cc cc' : CoordConfiguration} {m gate : Nat}
    (h : GatePhases cc ph) (hheld : (ph m).rotation.closes = some gate)
    (hlater : Config.LaterIn (coordSystem cfg pages depth) OneProcess cc cc') :
    ∃ ph', GatePhases cc' ph' ∧
      (gate ∈ cc'.world.openGates ∨ (ph' m).rotation.closes = some gate) := by
  induction hlater with
  | refl => exact ⟨ph, h, .inr hheld⟩
  | tail _ hs ih =>
    obtain ⟨a, ha, hs⟩ := hs
    obtain ⟨ph₁, h₁, hgate⟩ := ih
    have V := gate_supervised cfg pages depth .fresh "" none
    obtain ⟨ph', h', hstep⟩ := V.next h₁ ha hs
    refine ⟨ph', h', ?_⟩
    rcases hstep with rfl | ⟨hworld, rfl⟩ | ⟨n, i, t, q', rfl, -, hstep, rfl⟩
    · exact ha.elim
    · rwa [hworld]
    rcases hgate with hopen | hheld
    · exact .inl ((PauseStep.gate hstep gate).1 hopen)
    rcases eq_or_ne m n with rfl | hmn
    · rw [update_self]
      exact (PauseStep.gate hstep gate).2 hheld
    · rw [update_of_ne hmn]
      exact .inr hheld

/-- **No writer waits forever.**  If a writer waits at a gate that is closed, some program is
    inside the rotation of that gate, itself not at a gate, and whenever that program has
    ended, the gate is open. -/
theorem gate_opens {cc : CoordConfiguration}
    (h : Reachable (coordSystem cfg pages depth) OneProcess (start store deviceId contentKey) cc)
    {n gate : Nat} (hn : cc.pointAt n = some (.rebinding gate))
    (hgate : gate ∉ cc.world.openGates) :
    ∃ m t, cc.pointAt m = some t ∧ (∀ g, t ≠ .rebinding g) ∧
      ∀ cc', Config.LaterIn (coordSystem cfg pages depth) OneProcess cc cc' →
        cc'.pointAt m = none → gate ∈ cc'.world.openGates := by
  obtain ⟨ph, hph⟩ := (gate_supervised cfg pages depth store deviceId contentKey).sound h
  have hstands := hph.stands hn
  have hwaiting : (ph n).send = .waiting gate := by
    unfold pauseProtocol at hstands
    dsimp only at hstands
    split at hstands
    · exact absurd rfl (hstands gate)
    · next g hg =>
      cases hstands
      exact hg
    · rcases hstands with hstands | hstands <;> cases hstands
  rcases hph.inv.waiting n gate hwaiting with hopen | ⟨m, hm⟩
  · exact absurd hopen hgate
  have hnot : ¬ Ended (ph m) := by
    intro he
    rw [he] at hm
    cases hm
  cases hpoint : cc.pointAt m with
  | none =>
    rcases hph.ended hpoint with he | ⟨_, he⟩ | ⟨_, he⟩
    · exact absurd he hnot
    · exact absurd he hnot
    · exact absurd he hnot
  | some t =>
    refine ⟨m, t, hpoint, ?_, ?_⟩
    · have hidle := hph.inv.idle m gate hm
      have ht := hph.stands hpoint
      unfold pauseProtocol at ht
      dsimp only at ht
      rw [hidle] at ht
      exact ht
    · intro cc' hlater hend
      obtain ⟨ph', hph', hgate'⟩ :=
        held_or_open cfg pages depth hph hm hlater
      rcases hgate' with hopen | hheld
      · exact hopen
      rcases hph'.ended hend with he | ⟨_, he⟩ | ⟨_, he⟩
      · rw [he] at hheld
        cases hheld
      · rw [show ph' m = _ from he] at hheld
        cases hheld
      · rw [show ph' m = _ from he] at hheld
        cases hheld

end LogSyncCoordinator

end WebOfTrust
