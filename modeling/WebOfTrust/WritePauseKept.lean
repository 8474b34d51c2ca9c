/-
  **When no entry leaves during the pause.**  A send looks at the gate once, and its
  envelope leaves later: a rotation that begins in between does not hold it back
  (`slips_past_gate`).  The backstop also opens the gate when the new device has been bound
  and its publication fails, and the coordinators of other documents on the same transport
  have gates of their own.  Where none of this happens, no entry leaves before the new
  device is registered and its capability accepted (`write_pause`).
-/
import WebOfTrust.WritePauseRuns

namespace WebOfTrust

open Async Function

def Pause.unpublished : Pause → Bool
  | .registered _ => true
  | _ => false

def RotationPhase.pause : RotationPhase → Pause
  | .begun _ => .begun
  | .registered _ binding => .registered binding
  | _ => .over

namespace LogSyncCoordinator

/-! ## 1. The runs -/

/-- A program at this point has looked at the gate and found it open, or is let through, and
    its envelope has not left yet. -/
def slipsPast (c : LogSyncCoordinator) : CoordPoint → Bool
  | .resolveRecipients => true
  | .sendLogEntry => true
  | .rebinding gate => decide (gate ∈ c.openGates)
  | _ => false

/-- A rotation begins when no send is past the gate; none ends between the new binding and
    its capability; and the coordinators of other documents are silent during a pause. -/
def PauseKept (c : CoordConfiguration) : Action CoordInput CoordCall → Prop
  | .crash _ => False
  | .restart => False
  | .call _ => True
  | .run n _ =>
    match c.pointAt n with
    | some .beginRestoreClone =>
      (c.world.restoreCloneInFlight || c.procs.all fun p => !p.point.any c.world.slipsPast) = true
    | some .endRestoreClone => Pause.unpublished (pauseAfter c.world.events) = false
    | some .otherLogEntry => pauseAfter c.world.events = .over
    | _ => True

instance (c : CoordConfiguration) : ∀ a, Decidable (PauseKept c a)
  | .run _ _ => by
    dsimp only [PauseKept]
    split <;> infer_instance
  | .call _ => inferInstanceAs (Decidable True)
  | .crash _ | .restart => inferInstanceAs (Decidable False)

/-! ## 2. A send that slips past -/

def soloConfig : CoordConfig where
  docId := "doc"
  catchUpPageSize := none
  getContentKeyByGeneration _ := none
  applyRemoteUpdate _ := true
  kind := .inMemory
  sha256 _ := []
  ownDid := "did:a"
  authorKid := "did:a#0"
  encodeUpdate update := update
  getRecipients := true
  sendSpaceRegister := false
  onWriteRejected := true
  onAfterRestoreClone := true
  awaitKeyGenerationAdvance := false

abbrev soloStart : LogSyncCoordinator := start .fresh "device-a" (some ⟨List.replicate 32 0, 0⟩)

def answered (heads : List (DeviceId × Nat)) : CoordInput where
  failure := none
  now := 1000
  uuid := "m1"
  recipients := []
  receipt := none
  response := some ⟨[], heads, false⟩
  newDeviceId := some "device-b"
  advanced := false

def runs (n count : Nat) (heads : List (DeviceId × Nat)) : List (Action CoordInput CoordCall) :=
  List.replicate count (.run n (answered heads))

def slippingRun : List (Action CoordInput CoordCall) :=
  .call (.writeLocalUpdate [1]) :: runs 0 26 [] ++ .call .catchUp ::
    runs 1 21 [("device-a", 5)] ++ runs 0 2 []

/-- The write has looked at the gate before the rotation begins, and its entry leaves before
    the new device is even asked for. -/
theorem slips_past_gate : ∃ cc, Reachable (coordSystem soloConfig 2 3) OneProcess soloStart cc ∧
      ¬ KeepsPause cc.world.events := by
  obtain ⟨cc, hreach, hcc⟩ := Reachable.of_exec (coordSystem soloConfig 2 3) OneProcess soloStart
    slippingRun (fun cc => !keepsPause .over cc.world.events) (by decide +kernel)
  refine ⟨cc, hreach, ?_⟩
  simpa [KeepsPause] using hcc

/-! ## 3. The invariant -/

/-- The pause belongs to a rotation in flight, and during it nobody is past the gate. -/
structure KeptInv (c : LogSyncCoordinator) (ph : Nat → PausePhase) : Prop extends GateInv c ph where
  keeps : KeepsPause c.events
  pause : pauseAfter c.events ≠ .over → ∃ m, (ph m).rotation.pause = pauseAfter c.events
  quiet : pauseAfter c.events ≠ .over → ∀ m, (ph m).send ≠ .passed ∧
    ∀ gate, (ph m).send = .waiting gate → gate ∉ c.openGates

variable {c c' : LogSyncCoordinator} {ph : Nat → PausePhase} {n : Nat} {q q' : PausePhase}

theorem closes_of_pause {r : RotationPhase} (h : r.pause ≠ .over) :
    ∃ gate, r.closes = some gate := by
  cases r with
  | outside | presented gate | opened gate => exact absurd rfl h
  | begun gate | registered gate binding => exact ⟨gate, rfl⟩

theorem KeptInv.pause_eq (h : KeptInv c ph) (hn : (ph n).rotation ≠ .outside) :
    pauseAfter c.events = .over ∨ pauseAfter c.events = (ph n).rotation.pause := by
  by_cases hover : pauseAfter c.events = .over
  · exact .inl hover
  obtain ⟨m, hm⟩ := h.pause hover
  obtain ⟨gate, hgate⟩ := closes_of_pause (r := (ph m).rotation) (by rw [hm]; exact hover)
  obtain rfl := h.one m n (RotationPhase.ne_outside hgate) hn
  exact .inr hm.symm

theorem KeptInv.over_of_open (h : KeptInv c ph) (hopen : c.rebinding = none) :
    pauseAfter c.events = .over := by
  by_contra hover
  obtain ⟨m, hm⟩ := h.pause hover
  obtain ⟨gate, hgate⟩ := closes_of_pause (r := (ph m).rotation) (by rw [hm]; exact hover)
  rw [(h.holder gate).mpr ⟨m, hgate⟩] at hopen
  cases hopen

theorem KeptInv.keep (h : KeptInv c ph) (hn : ph n = q) (hgate : GateInv c' (update ph n q'))
    (hopen : c'.openGates = c.openGates) (hr : q'.rotation = q.rotation)
    (hkeeps : KeepsPause c'.events)
    (hpause : pauseAfter c'.events = .over ∨ pauseAfter c'.events = pauseAfter c.events)
    (hsend : pauseAfter c.events ≠ .over → q'.send ≠ .passed ∧
      ∀ gate, q'.send = .waiting gate → gate ∉ c.openGates) :
    KeptInv c' (update ph n q') := by
  refine ⟨hgate, hkeeps, fun hover => ?_, fun hover => ?_⟩
  · rcases hpause with hpause | hpause
    · exact absurd hpause hover
    rw [hpause] at hover ⊢
    obtain ⟨m, hm⟩ := h.pause hover
    refine ⟨m, ?_⟩
    rcases eq_or_ne m n with rfl | hmn
    · rw [update_self, hr, ← hn]
      exact hm
    · rw [update_of_ne hmn]
      exact hm
  · rcases hpause with hpause | hpause
    · exact absurd hpause hover
    rw [hpause] at hover
    rw [hopen]
    exact update_cases (P := fun q => q.send ≠ .passed ∧
      ∀ gate, q.send = .waiting gate → gate ∉ c.openGates) (hsend hover) (h.quiet hover)

theorem KeptInv.of_over (hgate : GateInv c' (update ph n q')) (hkeeps : KeepsPause c'.events)
    (hover : pauseAfter c'.events = .over) : KeptInv c' (update ph n q') :=
  ⟨hgate, hkeeps, fun h => absurd hover h, fun h => absurd hover h⟩

theorem kept_start (store : DocLogStore) (deviceId : DeviceId) (contentKey : Option ContentKey) :
    KeptInv (start store deviceId contentKey) fun _ => RotationPhase.outside.idle :=
  ⟨gateInv_start store deviceId contentKey, rfl, fun h => absurd rfl h, fun h => absurd rfl h⟩

structure StepKept (c : LogSyncCoordinator) (ph : Nat → PausePhase) (t : CoordPoint) : Prop where
  begin : t = .beginRestoreClone → c.restoreCloneInFlight = false → ∀ m, (ph m).send ≠ .passed ∧
    ∀ gate, (ph m).send = .waiting gate → gate ∉ c.openGates
  ended : t = .endRestoreClone → Pause.unpublished (pauseAfter c.events) = false
  other : t = .otherLogEntry → pauseAfter c.events = .over

theorem KeptInv.step (h : KeptInv c ph) {t : CoordPoint} {i : CoordInput} (ha : StepKept c ph t)
    (hq : ph n = q) (hstep : PauseStep q t i c c' q') : KeptInv c' (update ph n q') := by
  have hgates := h.toGateInv.step hq hstep
  have hquiet : pauseAfter c.events ≠ .over → q.send ≠ .passed ∧
      ∀ gate, q.send = .waiting gate → gate ∉ c.openGates := by
    rw [← hq]
    exact fun hover => h.quiet hover n
  cases hstep with
  | quiet hsame =>
    obtain ⟨more, hevents, hmore⟩ := hsame.events
    obtain ⟨hpause, hkeeps⟩ := pause_quiet hmore
    apply h.keep hq hgates hsame.openGates rfl
    · rw [hevents]
      exact hkeeps h.keeps
    · rw [hevents]
      exact hpause
    · exact hquiet
  | @present gate binding binding' t i c c' hle hsame hevents =>
    have hout : (ph n).rotation ≠ .outside := by simp [hq]
    apply KeptInv.of_over hgates
    · rw [hevents]
      exact keepsPause_snoc h.keeps (by rintro ⟨⟩)
    rw [hevents, pauseAfter_snoc]
    rcases h.pause_eq hout with hpause | hpause
    · rw [hpause]
      rfl
    · rw [hpause, hq]
      exact if_pos hle
  | gateOpen hr hgate => exact .of_over hgates h.keeps (h.over_of_open hgate)
  | gateClosed gate hr hgate =>
    apply h.keep hq hgates rfl rfl h.keeps (.inr rfl)
    intro _
    refine ⟨by simp, ?_⟩
    rintro _ ⟨⟩
    obtain ⟨m, hm⟩ := (h.holder gate).mp hgate
    exact h.closed m gate hm
  | resume gate hopen =>
    apply h.keep hq hgates rfl rfl h.keeps (.inr rfl)
    exact fun hover => absurd hopen ((hquiet hover).2 gate rfl)
  | abandon => exact h.keep hq hgates rfl rfl h.keeps (.inr rfl) fun _ => ⟨by simp, by simp⟩
  | send message encoded =>
    have hover : pauseAfter c.events = .over := by
      by_contra hover
      exact (hquiet hover).1 rfl
    apply KeptInv.of_over hgates
    · exact keepsPause_snoc h.keeps fun _ => hover
    show pauseAfter (c.events ++ [_]) = .over
    rw [pauseAfter_snoc, hover]
    rfl
  | other docId =>
    have hover := ha.other rfl
    apply KeptInv.of_over hgates
    · exact keepsPause_snoc h.keeps fun _ => hover
    show pauseAfter (c.events ++ [_]) = .over
    rw [pauseAfter_snoc, hover]
    rfl
  | begin hflight =>
    have hevents : c.beginRestoreClone.2.events = c.events ++ [.rotationBegun] := by
      simp [beginRestoreClone, hflight]
    have hopen : c.beginRestoreClone.2.openGates = c.openGates := by
      simp [beginRestoreClone, hflight]
    have hbegun : pauseAfter c.beginRestoreClone.2.events = .begun := by
      rw [hevents, pauseAfter_snoc]
      cases pauseAfter c.events <;> rfl
    refine ⟨hgates, ?_, fun _ => ⟨n, ?_⟩, fun _ => ?_⟩
    · rw [hevents]
      exact keepsPause_snoc h.keeps (by rintro ⟨⟩)
    · rw [update_self, hbegun]
      rfl
    rw [hopen]
    exact update_cases (P := fun q => q.send ≠ .passed ∧
      ∀ gate, q.send = .waiting gate → gate ∉ c.openGates) ⟨by simp, by simp⟩ (ha.begin rfl hflight)
  | @adopt gate i c newDeviceId =>
    have hout : (ph n).rotation ≠ .outside := by simp [hq]
    have hevents : (c.adopt newDeviceId).2.events =
        c.events ++ [.registered (c.binding + 1) newDeviceId] := rfl
    have hkeeps : KeepsPause (c.adopt newDeviceId).2.events := by
      rw [hevents]
      exact keepsPause_snoc h.keeps (by rintro ⟨⟩)
    rcases h.pause_eq hout with hover | hbegun
    · apply KeptInv.of_over hgates hkeeps
      rw [hevents, pauseAfter_snoc, hover]
      rfl
    rw [hq] at hbegun
    have hnot : pauseAfter c.events ≠ .over := by
      rw [hbegun]
      rintro ⟨⟩
    refine ⟨hgates, hkeeps, fun _ => ⟨n, ?_⟩, fun _ => ?_⟩
    · rw [update_self, hevents, pauseAfter_snoc, hbegun]
      rfl
    · exact update_cases (P := fun q => q.send ≠ .passed ∧
        ∀ gate, q.send = .waiting gate → gate ∉ c.openGates) ⟨by simp, by simp⟩ (h.quiet hnot)
  | @openGate gate i c =>
    have hevents : (c.openWritePauseGate gate).events = c.events := by
      unfold openWritePauseGate
      split <;> rfl
    have hout : (ph n).rotation ≠ .outside := by simp [hq]
    apply KeptInv.of_over hgates
    · rw [hevents]
      exact h.keeps
    rw [hevents]
    rcases h.pause_eq hout with hover | hpresented
    · exact hover
    · rw [hpresented, hq]
      rfl
  | @ended r gate i c hgate =>
    have hevents : (c.endRestoreClone gate).events = c.events ++ [.rotationEnded] := by
      simp only [endRestoreClone, openWritePauseGate]
      split <;> rfl
    have hended := ha.ended rfl
    apply KeptInv.of_over hgates
    · rw [hevents]
      exact keepsPause_snoc h.keeps (by rintro ⟨⟩)
    rw [hevents, pauseAfter_snoc]
    cases hpause : pauseAfter c.events with
    | registered binding =>
      rw [hpause] at hended
      cases hended
    | _ => rfl

/-! ## 4. The pause holds -/

variable (cfg : CoordConfig) (pages depth : Nat) (store : DocLogStore) (deviceId : DeviceId)
  (contentKey : Option ContentKey)

theorem stepKept {cc : CoordConfiguration}
    (h : Phases pauseProtocol (fun _ => Ended) (fun _ => Ended) RotationPhase.outside.idle
      KeptInv cc ph)
    {i : CoordInput} {t : CoordPoint} (ha : PauseKept cc (.run n i))
    (ht : cc.pointAt n = some t) : StepKept cc.world ph t := by
  simp only [PauseKept, ht] at ha
  constructor
  · rintro rfl hflight m
    simp only [hflight, Bool.false_or, List.all_eq_true] at ha
    have hidle : cc.pointAt m = none → (ph m).send = .idle := by
      intro hm
      rcases h.ended hm with he | ⟨_, he⟩ | ⟨_, he⟩ <;> rw [show ph m = _ from he]
    -- a program in a send is suspended at a point of that send
    have hpoint : ∀ t', cc.pointAt m = some t' → cc.world.slipsPast t' = false := by
      intro t' ht'
      obtain ⟨p, hp, hpt⟩ := Option.bind_eq_some_iff.mp ht'
      have hslip := ha p (List.mem_of_getElem? hp)
      rw [hpt] at hslip
      simpa using hslip
    rcases hm : cc.pointAt m with _ | t'
    · rw [hidle hm]
      exact ⟨nofun, nofun⟩
    have hslip := hpoint t' hm
    have hstands := h.stands hm
    unfold pauseProtocol at hstands
    dsimp only at hstands
    split at hstands
    · next hs =>
      rw [hs]
      exact ⟨nofun, nofun⟩
    · next gate hs =>
      rw [hs]
      refine ⟨nofun, ?_⟩
      rintro _ ⟨⟩
      rw [hstands] at hslip
      simpa [slipsPast] using hslip
    · rcases hstands with rfl | rfl <;> cases hslip
  · rintro rfl
    exact ha
  · rintro rfl
    exact ha

theorem kept_supervised :
    Supervised (coordSystem cfg pages depth) PauseKept (start store deviceId contentKey)
      pauseProtocol (fun _ => Ended) (fun _ => Ended) RotationPhase.outside.idle KeptInv where
  init := kept_start store deviceId contentKey
  call := returns_program pages depth
  alive _ _ h := h
  restart _ _ h := h.elim
  may _ _ n h := ⟨h.inFlight n, h.bindings n⟩
  run _ _ _ _ _ _ _ ha h ht hstep := h.inv.step (stepKept h ha ht) rfl hstep

/-- **The write-pause.**  In every run of a coordinator in which a rotation begins with no
    send past the gate, no rotation ends between its new binding and the capability for it,
    and no coordinator of another document sends during a pause, no log entry leaves between
    the begin of a rotation and an accepted capability of its new device.  And in every run a
    writer waits only for a gate that is open, or is when the program that rotates has
    ended. -/
theorem write_pause :
    (∀ cc, Reachable (coordSystem cfg pages depth) PauseKept (start store deviceId contentKey) cc →
      KeepsPause cc.world.events) ∧
    ∀ cc, Reachable (coordSystem cfg pages depth) OneProcess (start store deviceId contentKey) cc →
      ∀ n gate, cc.pointAt n = some (.rebinding gate) → gate ∉ cc.world.openGates →
        ∃ m t, cc.pointAt m = some t ∧ (∀ g, t ≠ .rebinding g) ∧
          ∀ cc', Config.LaterIn (coordSystem cfg pages depth) OneProcess cc cc' →
            cc'.pointAt m = none → gate ∈ cc'.world.openGates := by
  constructor
  · intro cc h
    obtain ⟨ph, hph⟩ := (kept_supervised cfg pages depth store deviceId contentKey).sound h
    exact hph.inv.keeps
  · intro cc h n gate hn hgate
    exact gate_opens cfg pages depth store deviceId contentKey h hn hgate

def rotatingRun : List (Action CoordInput CoordCall) :=
  .call (.writeLocalUpdate [1]) :: runs 0 28 [] ++ .call .catchUp ::
    runs 1 32 [("device-a", 5)] ++ .call (.writeLocalUpdate [2]) :: runs 2 9 []

def rebindsAt (gate : Nat) : CoordPoint → Bool
  | .rebinding g => g == gate
  | _ => false

def waitingRun : List (Action CoordInput CoordCall) :=
  .call (.writeLocalUpdate [1]) :: runs 0 28 [] ++ .call .catchUp ::
    runs 1 21 [("device-a", 5)] ++ .call (.writeLocalUpdate [2]) :: runs 2 6 []

theorem write_pause_rotation :
    (∃ cc, Reachable (coordSystem soloConfig 2 3) PauseKept soloStart cc ∧
      .registered 1 "device-b" ∈ cc.world.events ∧ cc.world.events.countP (·.isLogEntry) = 2 ∧
      KeepsPause cc.world.events) ∧
    ∃ cc, Reachable (coordSystem soloConfig 2 3) OneProcess soloStart cc ∧
      cc.pointAt 2 = some (.rebinding 0) ∧
      ∃ m t, cc.pointAt m = some t ∧ (∀ g, t ≠ .rebinding g) ∧
        ∀ cc', Config.LaterIn (coordSystem soloConfig 2 3) OneProcess cc cc' →
          cc'.pointAt m = none → 0 ∈ cc'.world.openGates := by
  constructor
  · obtain ⟨cc, hreach, hcc⟩ := Reachable.of_exec (coordSystem soloConfig 2 3) PauseKept soloStart
      rotatingRun (fun cc => decide (.registered 1 "device-b" ∈ cc.world.events ∧
        cc.world.events.countP (·.isLogEntry) = 2)) (by decide +kernel)
    obtain ⟨hregistered, hcount⟩ := of_decide_eq_true hcc
    exact ⟨cc, hreach, hregistered, hcount,
      (write_pause soloConfig 2 3 .fresh "device-a" _).1 cc hreach⟩
  · obtain ⟨cc, hreach, hcc⟩ := Reachable.of_exec (coordSystem soloConfig 2 3) OneProcess soloStart
      waitingRun (fun cc => (cc.pointAt 2).any (rebindsAt 0) && decide (0 ∉ cc.world.openGates))
      (by decide +kernel)
    obtain ⟨hpoint, hclosed⟩ := (Bool.and_eq_true _ _).mp hcc
    have hgate : cc.pointAt 2 = some (.rebinding 0) := by
      obtain ⟨t, hat, ht⟩ := (Option.any_eq_true _ _).mp hpoint
      unfold rebindsAt at ht
      split at ht
      · rw [hat, beq_iff_eq.mp ht]
      · cases ht
    exact ⟨cc, hreach, hgate, (write_pause soloConfig 2 3 .fresh "device-a" _).2 cc hreach 2 0 hgate
      (of_decide_eq_true hclosed)⟩

end LogSyncCoordinator

end WebOfTrust
