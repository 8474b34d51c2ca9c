/-
  **One registration for each nonce and each socket.**

  A response is verified across an `await`, and the code behind it looks again at the
  consumed nonces and at the session of the socket, but not whether the socket has closed
  meanwhile.  A socket that was registered and has closed has no session, so it can be
  registered again; where that does not happen, no socket is registered twice
  (`AuthInv.once`), and since a nonce belongs to the socket it was sent to, no nonce
  completes two registrations.
-/
import WebOfTrust.BrokerAuth
import WebOfTrust.RelayTurns

namespace WebOfTrust

open Machine Completion BrokerAuth List Function

namespace BrokerAuth

variable {didKeyToPublicKeyBytes : Did → Option PublicKey} {a a' : BrokerAuth} {ws : SocketId}

/-! ## 1. Runs -/

def Gone (a : BrokerAuth) (ws : SocketId) : Prop :=
  ws ∈ a.closed ∧ ∃ c ∈ a.completions, c.ws = ws

instance (a : BrokerAuth) (ws : SocketId) : Decidable (a.Gone ws) :=
  inferInstanceAs (Decidable (_ ∧ ∃ c ∈ _, _))

def FreshNonces (a : BrokerAuth) : Input → Prop
  | .register _ _ nonce _ => nonce ∉ a.challenges.map Prod.snd
  | _ => True

def Accepts (v : Verifying) (signatureValid : Except String Bool) : Bool :=
  match verifyChallengeResponse v.frame v.pending signatureValid with
  | .ok (.accepted _) => true
  | _ => false

/-- No valid response goes on, under a nonce that is not remembered, on a socket that was
    registered and has closed. -/
def NotGone (a : BrokerAuth) : Input → Prop
  | .challengeVerified n signatureValid pruneAt _ => ∀ v ∈ a.verifying[n]?.join,
    Accepts v signatureValid = true →
    (pruneConsumedChallengeNonces a.consumedChallengeNonces pruneAt).has v.pending.nonce = false →
      ¬ a.Gone v.ws
  | _ => True

instance : ∀ (a : BrokerAuth) (i : Input), Decidable (a.FreshNonces i)
  | _, .register _ _ _ _ => inferInstanceAs (Decidable (_ ∉ _))
  | _, .challengeResponse _ _ _ => inferInstanceAs (Decidable True)
  | _, .challengeVerified _ _ _ _ => inferInstanceAs (Decidable True)
  | _, .close _ => inferInstanceAs (Decidable True)
  | _, .elsewhere _ _ _ => inferInstanceAs (Decidable True)

instance : ∀ (a : BrokerAuth) (i : Input), Decidable (a.NotGone i)
  | _, .register _ _ _ _ => inferInstanceAs (Decidable True)
  | _, .challengeResponse _ _ _ => inferInstanceAs (Decidable True)
  | _, .challengeVerified _ _ _ _ => inferInstanceAs (Decidable (∀ v ∈ _, _ → _ → ¬ _))
  | _, .close _ => inferInstanceAs (Decidable True)
  | _, .elsewhere _ _ _ => inferInstanceAs (Decidable True)

/-! ## 2. The invariant -/

/-- What every run with fresh nonces keeps: whatever is pending, in verification or completed
    on a socket goes back to a nonce that was sent to this socket; and a socket that was
    registered has the session of that registration until it closes. -/
structure AuthInv (a : BrokerAuth) : Prop where
  fresh : (a.challenges.map Prod.snd).Nodup
  pending : ∀ ws p, a.pendingChallenges ws = some p → (ws, p.nonce) ∈ a.challenges
  verifying : ∀ v, some v ∈ a.verifying → (v.ws, v.pending.nonce) ∈ a.challenges
  completed : ∀ c ∈ a.completions, (c.ws, c.nonce) ∈ a.challenges
  bound : ∀ ws did, a.relay.socketToDid ws = some did →
    ∃ c ∈ a.completions, c.ws = ws ∧ c.did = did ∧ a.relay.socketToDeviceId ws = some c.deviceId
  lasts : ∀ c ∈ a.completions, (a.relay.socketToDid c.ws).isSome ∨ c.ws ∈ a.closed

theorem AuthInv.start (docLog : BrokerStore) (clock : Nat) : AuthInv (start docLog clock) where
  fresh := nodup_nil
  pending _ _ h := by cases h
  verifying _ h := by cases h
  completed _ h := by cases h
  bound _ _ h := by cases h
  lasts _ h := by cases h

section

variable (h : AuthInv a)
include h

theorem AuthInv.frame
    (hpending : ∀ ws p, a'.pendingChallenges ws = some p → a.pendingChallenges ws = some p)
    (hverifying : ∀ v, some v ∈ a'.verifying → some v ∈ a.verifying)
    (hdid : a'.relay.socketToDid = a.relay.socketToDid)
    (hdevice : a'.relay.socketToDeviceId = a.relay.socketToDeviceId)
    (hclosed : a'.closed = a.closed) (hchallenges : a'.challenges = a.challenges)
    (hcompletions : a'.completions = a.completions) : AuthInv a' where
  fresh := hchallenges ▸ h.fresh
  pending ws p hp := hchallenges ▸ h.pending ws p (hpending ws p hp)
  verifying v hv := hchallenges ▸ h.verifying v (hverifying v hv)
  completed c hc := hchallenges ▸ h.completed c (hcompletions ▸ hc)
  bound ws did hdid' := by
    rw [hdid] at hdid'
    rw [hcompletions, hdevice]
    exact h.bound ws did hdid'
  lasts c hc := by
    rw [hdid, hclosed]
    exact h.lasts c (hcompletions ▸ hc)

omit h in
theorem pending_of_dropPending {ws' : SocketId} {p : PendingChallenge}
    (h : (a.dropPending ws).pendingChallenges ws' = some p) :
    a.pendingChallenges ws' = some p := by
  simp only [dropPending, update_apply] at h
  split_ifs at h
  exact h

theorem AuthInv.dropPending (ws : SocketId) : AuthInv (a.dropPending ws) :=
  h.frame (fun _ _ => pending_of_dropPending) (fun _ hv => hv) rfl rfl rfl rfl rfl

theorem AuthInv.sendError (ws : SocketId) (code message : String) :
    AuthInv (a.sendError ws code message) :=
  h.frame (fun _ _ hp => hp) (fun _ hv => hv) rfl rfl rfl rfl rfl

theorem AuthInv.prune (consumed : ConsumedNonces) :
    AuthInv { a with consumedChallengeNonces := consumed } :=
  h.frame (fun _ _ hp => hp) (fun _ hv => hv) rfl rfl rfl rfl rfl

/-! ## 3. Handlers -/

theorem AuthInv.handleRegister {frame : Except String RegisterFrame}
    {nonce : String} {now : Nat} (hfresh : nonce ∉ a.challenges.map Prod.snd) :
    AuthInv (a.handleRegister ws frame nonce now) := by
  unfold BrokerAuth.handleRegister
  split_ifs
  · exact h.sendError ..
  rcases frame with message | frame
  · exact h.sendError ..
  constructor
  · simp only [map_append, map_cons, map_nil]
    exact nodup_append.mpr ⟨h.fresh, nodup_singleton _, fun n hn n' hn' heq =>
      hfresh (by rwa [← mem_singleton.mp hn', ← heq])⟩
  · intro ws' p hp
    simp only [update_apply] at hp
    split_ifs at hp with heq
    · cases hp
      rw [heq]
      exact mem_append_right _ (mem_singleton_self _)
    · exact mem_append_left _ (h.pending ws' p hp)
  · intro v hv
    exact mem_append_left _ (h.verifying v hv)
  · intro c hc
    exact mem_append_left _ (h.completed c hc)
  · exact h.bound
  · exact h.lasts

omit h in
/-- What happens up to the `await`: an answer without consequences, or what is pending goes to
    the verification. -/
theorem handleChallengeResponse_cases (didKeyToPublicKeyBytes : Did → Option PublicKey)
    (a : BrokerAuth) (ws : SocketId) (frame : Option ChallengeResponse) (now : Nat) :
    ∃ consumed, (∃ b code message, (b = { a with consumedChallengeNonces := consumed } ∨
          b = { a with consumedChallengeNonces := consumed }.dropPending ws) ∧
        handleChallengeResponse didKeyToPublicKeyBytes a ws frame now =
          b.sendError ws code message) ∨
      ∃ pending, a.pendingChallenges ws = some pending ∧
        handleChallengeResponse didKeyToPublicKeyBytes a ws frame now = { a with
            consumedChallengeNonces := consumed
            verifying := a.verifying ++ [some ⟨ws, pending, frame⟩] } := by
  have hpruned : ∃ consumed, (if frame.isSome then
      { a with
        consumedChallengeNonces := pruneConsumedChallengeNonces a.consumedChallengeNonces now }
    else a) = { a with consumedChallengeNonces := consumed } := by
    split_ifs
    · exact ⟨_, rfl⟩
    · exact ⟨a.consumedChallengeNonces, rfl⟩
  obtain ⟨consumed, hconsumed⟩ := hpruned
  refine ⟨consumed, ?_⟩
  unfold handleChallengeResponse
  dsimp only
  rw [hconsumed]
  split_ifs with hreplay
  · exact .inl ⟨_, _, _, .inr rfl, rfl⟩
  rcases hpending : a.pendingChallenges ws with _ | pending
  · exact .inl ⟨_, _, _, .inl rfl, rfl⟩
  dsimp only
  split_ifs with hexpired
  · exact .inl ⟨_, _, _, .inr rfl, rfl⟩
  cases didKeyToPublicKeyBytes pending.did with
  | none => exact .inl ⟨_, _, _, .inr rfl, rfl⟩
  | some _ => exact .inr ⟨pending, rfl, rfl⟩

theorem AuthInv.handleChallengeResponse (frame : Option ChallengeResponse) (now : Nat) :
    AuthInv (handleChallengeResponse didKeyToPublicKeyBytes a ws frame now) := by
  obtain ⟨consumed, ⟨b, code, message, hb, heq⟩ | ⟨pending, hpending, heq⟩⟩ :=
    handleChallengeResponse_cases didKeyToPublicKeyBytes a ws frame now
  · rw [heq]
    rcases hb with rfl | rfl
    · exact (h.prune consumed).sendError ..
    · exact ((h.prune consumed).dropPending ws).sendError ..
  rw [heq]
  refine { h.prune consumed with verifying := fun v hv => ?_ }
  rcases mem_append.mp hv with hv | hv
  · exact h.verifying v hv
  · cases mem_singleton.mp hv
    exact h.pending ws pending hpending

theorem AuthInv.verified (n : Nat) : AuthInv { a with verifying := a.verifying.set n none } := by
  refine h.frame (fun _ _ hp => hp) (fun v' hv' => ?_) rfl rfl rfl rfl rfl
  rcases mem_or_eq_of_mem_set hv' with hv' | hnone
  · exact hv'
  · cases hnone

end

theorem nonce_of_accepted {v : Verifying} {signatureValid : Except String Bool}
    {frame : ChallengeResponse}
    (h : verifyChallengeResponse v.frame v.pending signatureValid = .ok (.accepted frame)) :
    frame.nonce = v.pending.nonce := by
  unfold verifyChallengeResponse at h
  split at h
  · cases h
  next response _ =>
  split_ifs at h with hbinds
  split at h
  · cases h
  · next valid =>
    rcases valid with _ | _
    · cases h
    cases h
    simp only [PendingChallenge.binds, Bool.and_eq_true, decide_eq_true_eq] at hbinds
    exact hbinds.2
  · cases h

theorem completeRegistration_cases (a : BrokerAuth) (ws : SocketId) (frame : ChallengeResponse) :
    ((a.completeRegistration ws frame).completions = a.completions ∧
      (a.completeRegistration ws frame).relay.socketToDid = a.relay.socketToDid ∧
      (a.completeRegistration ws frame).relay.socketToDeviceId = a.relay.socketToDeviceId) ∨
    (a.relay.socketToDid ws = none ∧ (a.completeRegistration ws frame).completions =
        a.completions ++ [⟨ws, frame.did, frame.deviceId, frame.nonce⟩] ∧
      (a.completeRegistration ws frame).relay.socketToDid =
        update a.relay.socketToDid ws (some frame.did) ∧
      (a.completeRegistration ws frame).relay.socketToDeviceId =
        update a.relay.socketToDeviceId ws (some frame.deviceId)) := by
  rcases @Relay.completeRegistration_cases a.relay ws frame.did frame.deviceId with
    ⟨sent, heq⟩ | ⟨hnone, connections, sent, heq⟩
  · refine .inl ⟨?_, by simp [completeRegistration, heq], by simp [completeRegistration, heq]⟩
    cases hsession : a.relay.socketToDid ws <;> simp [completeRegistration, heq, hsession]
  refine .inr ⟨hnone, ?_, by simp [completeRegistration, heq],
    by simp [completeRegistration, heq]⟩
  simp [completeRegistration, heq, hnone]

theorem AuthInv.completeRegistration (h : AuthInv a) {frame : ChallengeResponse}
    (hissued : (ws, frame.nonce) ∈ a.challenges) : AuthInv (a.completeRegistration ws frame) := by
  rcases completeRegistration_cases a ws frame with
    ⟨hcompletions, hdid, hdevice⟩ | ⟨hnone, hcompletions, hdid, hdevice⟩
  · exact h.frame (fun _ _ hp => hp) (fun _ hv => hv) hdid hdevice rfl rfl hcompletions
  constructor
  · exact h.fresh
  · exact h.pending
  · exact h.verifying
  · intro c hc
    rw [hcompletions] at hc
    rcases mem_append.mp hc with hc | hc
    · exact h.completed c hc
    · cases mem_singleton.mp hc
      exact hissued
  · intro ws' did hsession
    rw [hdid] at hsession
    rw [hcompletions, hdevice]
    by_cases heq : ws' = ws
    · subst heq
      rw [update_self] at hsession
      cases hsession
      exact ⟨_, mem_append_right _ (mem_singleton_self _), rfl, rfl, update_self ..⟩
    rw [update_of_ne heq] at hsession
    obtain ⟨c, hc, hws, hcdid, hcdevice⟩ := h.bound ws' did hsession
    exact ⟨c, mem_append_left _ hc, hws, hcdid, by rw [update_of_ne heq, hcdevice]⟩
  · intro c hc
    rw [hcompletions] at hc
    rw [hdid]
    by_cases heq : c.ws = ws
    · left
      rw [heq, update_self]
      rfl
    rw [update_of_ne heq]
    rcases mem_append.mp hc with hc | hc
    · exact h.lasts c hc
    · cases mem_singleton.mp hc
      exact absurd rfl heq

def consume (a : BrokerAuth) (v : Verifying) (frame : ChallengeResponse) (pruneAt now : Nat) :
    BrokerAuth :=
  { a.dropPending v.ws with
    relay := a.relay.tick now
    consumedChallengeNonces :=
      (pruneConsumedChallengeNonces a.consumedChallengeNonces pruneAt).put
        ⟨frame.nonce, now + BROKER_AUTH_NONCE_RETENTION_MS⟩ }

/-- What happens behind the `await`: an answer without consequences, or the registration of the
    socket under a nonce that is not remembered. -/
theorem challengeVerified_cases (a : BrokerAuth) (v : Verifying)
    (signatureValid : Except String Bool) (pruneAt now : Nat) :
    (∃ consumed code message, a.challengeVerified v signatureValid pruneAt now =
      ({ a with consumedChallengeNonces := consumed }.dropPending v.ws).sendError v.ws
        code message) ∨
    ∃ frame, verifyChallengeResponse v.frame v.pending signatureValid = .ok (.accepted frame) ∧
      (pruneConsumedChallengeNonces a.consumedChallengeNonces pruneAt).has frame.nonce = false ∧
      a.challengeVerified v signatureValid pruneAt now =
        (a.consume v frame pruneAt now).completeRegistration v.ws frame := by
  unfold challengeVerified
  rcases hresult : verifyChallengeResponse v.frame v.pending signatureValid with message | result
  · exact .inl ⟨a.consumedChallengeNonces, "INTERNAL_ERROR", message, rfl⟩
  cases result with
  | rejected errorCode => exact .inl ⟨a.consumedChallengeNonces, errorCode, _, rfl⟩
  | accepted frame =>
    dsimp only [decideBrokerChallengeNonceConsumption]
    cases hremembered :
        (pruneConsumedChallengeNonces a.consumedChallengeNonces pruneAt).has frame.nonce with
    | true => exact .inl ⟨_, "NONCE_REPLAY", _, rfl⟩
    | false => exact .inr ⟨frame, rfl, hremembered, rfl⟩

theorem AuthInv.challengeVerified (h : AuthInv a) {v : Verifying}
    (hissued : (v.ws, v.pending.nonce) ∈ a.challenges) (signatureValid : Except String Bool)
    (pruneAt now : Nat) : AuthInv (a.challengeVerified v signatureValid pruneAt now) := by
  rcases challengeVerified_cases a v signatureValid pruneAt now with
    ⟨consumed, code, message, heq⟩ | ⟨frame, haccepted, -, heq⟩
  · rw [heq]
    exact ((h.prune consumed).dropPending v.ws).sendError v.ws code message
  rw [heq]
  have hconsume : AuthInv (a.consume v frame pruneAt now) :=
    (h.dropPending v.ws).frame (fun _ _ hp => hp) (fun _ hv => hv) rfl rfl rfl rfl rfl
  exact hconsume.completeRegistration (nonce_of_accepted haccepted ▸ hissued)

theorem socketToDid_close (w : Relay) (ws : SocketId) : (w.close ws).socketToDid ws = none := by
  unfold Relay.close
  dsimp only
  split
  · assumption
  · exact update_self ..

theorem AuthInv.close (h : AuthInv a) (ws : SocketId) : AuthInv (a.close ws) where
  fresh := h.fresh
  pending ws' p hp := h.pending ws' p (pending_of_dropPending hp)
  verifying := h.verifying
  completed := h.completed
  bound ws' did hsession := by
    have hsession' : (a.relay.close ws).socketToDid ws' = some did := hsession
    by_cases heq : ws' = ws
    · rw [heq, socketToDid_close] at hsession'
      cases hsession'
    obtain ⟨hdid, hdevice⟩ := (a.relay.close_spec ws).2.2.2 ws' heq
    obtain ⟨c, hc, hws, hcdid, hcdevice⟩ := h.bound ws' did (hdid ▸ hsession')
    exact ⟨c, hc, hws, hcdid, hdevice.trans hcdevice⟩
  lasts c hc := by
    by_cases heq : c.ws = ws
    · exact .inr (heq ▸ mem_cons_self ..)
    rcases h.lasts c hc with hsession | hclosed
    · exact .inl (((a.relay.close_spec ws).2.2.2 c.ws heq).1 ▸ hsession)
    · exact .inr (mem_cons_of_mem _ hclosed)

theorem AuthInv.step {i : Input} (h : AuthInv a) (hfresh : a.FreshNonces i)
    (hstep : step didKeyToPublicKeyBytes a i = some a') : AuthInv a' := by
  cases i with
  | register ws frame nonce now =>
    simp only [BrokerAuth.step] at hstep
    split_ifs at hstep
    cases hstep
    exact h.handleRegister hfresh
  | challengeResponse ws frame now =>
    simp only [BrokerAuth.step] at hstep
    split_ifs at hstep
    cases hstep
    exact h.handleChallengeResponse frame now
  | challengeVerified n signatureValid pruneAt now =>
    obtain ⟨v, hv, rfl⟩ := Option.map_eq_some_iff.mp hstep
    have hmem : some v ∈ a.verifying := mem_of_getElem? (Option.join_eq_some_iff.mp hv)
    exact (h.verified n).challengeVerified (h.verifying v hmem) signatureValid pruneAt now
  | close ws =>
    simp only [BrokerAuth.step] at hstep
    split_ifs at hstep
    cases hstep
    exact h.close ws
  | elsewhere docLog scopes sent =>
    cases hstep
    exact h.frame (fun _ _ hp => hp) (fun _ hv => hv) rfl rfl rfl rfl rfl

/-! ## 4. One registration each -/

theorem completions_handleRegister (frame : Except String RegisterFrame) (nonce : String)
    (now : Nat) : (a.handleRegister ws frame nonce now).completions = a.completions := by
  unfold handleRegister
  split_ifs
  · rfl
  · cases frame <;> rfl

theorem completions_handleChallengeResponse (frame : Option ChallengeResponse) (now : Nat) :
    (handleChallengeResponse didKeyToPublicKeyBytes a ws frame now).completions =
      a.completions := by
  obtain ⟨consumed, ⟨b, code, message, hb, heq⟩ | ⟨pending, -, heq⟩⟩ :=
    handleChallengeResponse_cases didKeyToPublicKeyBytes a ws frame now
  · rw [heq]
    rcases hb with rfl | rfl <;> rfl
  · rw [heq]

theorem once_challengeVerified (h : AuthInv a) (honce : (a.completions.map Completion.ws).Nodup)
    {v : Verifying} {signatureValid : Except String Bool} {pruneAt now : Nat}
    (hgone : Accepts v signatureValid = true →
      (pruneConsumedChallengeNonces a.consumedChallengeNonces pruneAt).has v.pending.nonce = false →
        ¬ a.Gone v.ws) :
    ((a.challengeVerified v signatureValid pruneAt now).completions.map Completion.ws).Nodup := by
  rcases challengeVerified_cases a v signatureValid pruneAt now with
    ⟨consumed, code, message, heq⟩ | ⟨frame, haccepted, hremembered, heq⟩
  · rw [heq]
    exact honce
  rw [heq]
  rcases completeRegistration_cases (a.consume v frame pruneAt now) v.ws frame with
    ⟨hcompletions, -, -⟩ | ⟨hnone, hcompletions, -, -⟩
  · rw [hcompletions]
    exact honce
  have hnot : ¬ a.Gone v.ws :=
    hgone (by simp [Accepts, haccepted]) (nonce_of_accepted haccepted ▸ hremembered)
  -- a socket without a session that has been registered has closed
  have hnew : v.ws ∉ a.completions.map ws := by
    intro hmem
    obtain ⟨c, hc, hws⟩ := mem_map.mp hmem
    rcases h.lasts c hc with hsession | hclosed
    · rw [hws] at hsession
      have hsome : a.relay.socketToDid v.ws = none := hnone
      simp [hsome] at hsession
    · exact hnot ⟨hws ▸ hclosed, c, hc, hws⟩
  rw [hcompletions]
  simp only [map_append, map_cons, map_nil]
  exact nodup_append.mpr ⟨honce, nodup_singleton _, fun w hw w' hw' heq' =>
    hnew (by rwa [← mem_singleton.mp hw', ← heq'])⟩

theorem once_step {i : Input} (h : AuthInv a) (honce : (a.completions.map Completion.ws).Nodup)
    (hgone : a.NotGone i) (hstep : step didKeyToPublicKeyBytes a i = some a') :
    (a'.completions.map Completion.ws).Nodup := by
  cases i with
  | register ws frame nonce now =>
    simp only [step] at hstep
    split_ifs at hstep
    cases hstep
    rw [completions_handleRegister]
    exact honce
  | challengeResponse ws frame now =>
    simp only [step] at hstep
    split_ifs at hstep
    cases hstep
    rw [completions_handleChallengeResponse]
    exact honce
  | challengeVerified n signatureValid pruneAt now =>
    obtain ⟨v, hv, rfl⟩ := Option.map_eq_some_iff.mp hstep
    exact once_challengeVerified (h.verified n) honce (hgone v hv)
  | close ws =>
    simp only [step] at hstep
    split_ifs at hstep
    cases hstep
    exact honce
  | elsewhere docLog scopes sent =>
    cases hstep
    exact honce

theorem AuthInv.nonces_nodup (h : AuthInv a) (honce : (a.completions.map Completion.ws).Nodup) :
    (a.completions.map nonce).Nodup := by
  have hpairs : a.completions.Pairwise fun c c' => c.ws ≠ c'.ws := pairwise_map.mp honce
  apply pairwise_map.mpr
  refine hpairs.imp_of_mem fun {c c'} hc hc' hne heq => hne ?_
  have hsame : (c.ws, c.nonce) = (c'.ws, c'.nonce) :=
    inj_on_of_nodup_map h.fresh (h.completed c hc) (h.completed c' hc') heq
  exact congrArg Prod.fst hsame

/-- **One registration for each nonce and each socket**, in every run with fresh nonces in which
    no valid response goes on for a socket that was registered and has closed.  In every run
    with fresh nonces, the session of a socket is that of a registration it has completed,
    under a nonce that was sent to it. -/
theorem nonce_and_socket_once (didKeyToPublicKeyBytes : Did → Option PublicKey)
    (docLog : BrokerStore) (clock : Nat) :
    (∀ a, Reaches (step didKeyToPublicKeyBytes) (fun a i => a.FreshNonces i ∧ a.NotGone i)
        (start docLog clock) a →
      (a.completions.map Completion.nonce).Nodup ∧ (a.completions.map Completion.ws).Nodup) ∧
    ∀ a, Reaches (step didKeyToPublicKeyBytes) FreshNonces (start docLog clock) a →
      (∀ ws did, a.relay.socketToDid ws = some did → ∃ c ∈ a.completions,
        c.ws = ws ∧ c.did = did ∧ a.relay.socketToDeviceId ws = some c.deviceId) ∧
      ∀ c ∈ a.completions, (c.ws, c.nonce) ∈ a.challenges := by
  constructor
  · intro a ha
    obtain ⟨hinv, honce⟩ : AuthInv a ∧ (a.completions.map Completion.ws).Nodup :=
      Reaches.invariant (P := fun a => AuthInv a ∧ (a.completions.map ws).Nodup) ha
        ⟨.start docLog clock, nodup_nil⟩ fun _ _ _ h hadmits hstep =>
          ⟨h.1.step hadmits.1 hstep, once_step h.1 h.2 hadmits.2 hstep⟩
    exact ⟨hinv.nonces_nodup honce, honce⟩
  · intro a ha
    have hinv : AuthInv a := ha.invariant (.start docLog clock)
      fun _ _ _ h hfresh hstep => h.step hfresh hstep
    exact ⟨hinv.bound, hinv.completed⟩

def anyKey : Did → Option PublicKey := fun did => some did

def alice : RegisterFrame := ⟨"did:alice", "device-1"⟩

def bob : RegisterFrame := ⟨"did:bob", "device-2"⟩

def respond (frame : RegisterFrame) (nonce : String) : Option ChallengeResponse :=
  some ⟨frame.did, frame.deviceId, nonce, "signature"⟩

/-- Two sockets register; a replayed response on the first is refused. -/
theorem nonce_and_socket_once_two :
    ∃ a, Reaches (step anyKey) (fun a i => a.FreshNonces i ∧ a.NotGone i) (start .fresh 0) a ∧
      a.completions.length = 2 ∧ (a.completions.map Completion.nonce).Nodup := by
  obtain ⟨a, ha, hlength⟩ := Reaches.of_exec (step anyKey)
    (fun a i => a.FreshNonces i ∧ a.NotGone i) (start .fresh 0)
    [.register 1 (.ok alice) "n1" 0, .register 2 (.ok bob) "n2" 0,
      .challengeResponse 1 (respond alice "n1") 1,
      .challengeResponse 1 (respond alice "n1") 1,
      .challengeResponse 2 (respond bob "n2") 1,
      .challengeVerified 0 (.ok true) 2 2, .challengeVerified 1 (.ok true) 3 3, .close 1,
      .challengeVerified 2 (.ok true) 4 4]
    (fun a => decide (a.completions.length = 2)) (by decide +kernel)
  exact ⟨a, ha, of_decide_eq_true hlength, ((nonce_and_socket_once anyKey .fresh 0).1 a ha).1⟩

/-- A socket with two responses in verification that closes after the first is bound to two
    devices; and a response that goes on a day later completes a second registration under its
    nonce. -/
theorem closed_socket_registered_again :
    (∃ a, Reaches (step anyKey) FreshNonces (start .fresh 0) a ∧
      a.completions.map (fun c => (c.ws, c.did, c.deviceId)) =
        [(1, "did:alice", "device-1"), (1, "did:bob", "device-2")]) ∧
    ∃ a, Reaches (step anyKey) FreshNonces (start .fresh 0) a ∧
      a.completions.map nonce = ["n1", "n1"] := by
  constructor
  · obtain ⟨a, ha, htwo⟩ := Reaches.of_exec (step anyKey) FreshNonces (start .fresh 0)
      [.register 1 (.ok alice) "n1" 0, .challengeResponse 1 (respond alice "n1") 1,
        .register 1 (.ok bob) "n2" 2, .challengeResponse 1 (respond bob "n2") 3,
        .challengeVerified 0 (.ok true) 4 4, .close 1, .challengeVerified 1 (.ok true) 5 5]
      (fun a => decide (a.completions.map (fun c => (c.ws, c.did, c.deviceId)) =
        [(1, "did:alice", "device-1"), (1, "did:bob", "device-2")])) (by decide +kernel)
    exact ⟨a, ha, of_decide_eq_true htwo⟩
  · obtain ⟨a, ha, htwice⟩ := Reaches.of_exec (step anyKey) FreshNonces (start .fresh 0)
      [.register 1 (.ok alice) "n1" 0, .challengeResponse 1 (respond alice "n1") 1,
        .challengeResponse 1 (respond alice "n1") 1,
        .challengeVerified 0 (.ok true) 2 2, .close 1,
        .challengeVerified 1 (.ok true) 86400002 86400002]
      (fun a => decide (a.completions.map nonce = ["n1", "n1"])) (by decide +kernel)
    exact ⟨a, ha, of_decide_eq_true htwice⟩

end BrokerAuth

end WebOfTrust
