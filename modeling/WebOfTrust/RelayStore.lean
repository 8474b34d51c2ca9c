/-
  **What the broker has settled stays settled.**  On its store every turn of the relay is
  a transaction or nothing (`Effect.run`), so stored entries stay, and so do the owner and
  the revocation of a device.  That a space goes on by single rotations, that a personal
  document keeps its owner as long as it is no space, and that the log has verified entries
  only, is the handlers' doing.  No device that sends what its log has released is taken
  for a clone.
-/
import WebOfTrust.BrokerDevices
import WebOfTrust.DocLogAppend
import WebOfTrust.RelaySpaces

namespace WebOfTrust

open Async Relay BrokerStore Config Option

/-! ## 1. What stays -/

structure BrokerKept (s s' : BrokerStore) : Prop where
  entries : ∀ k row, s.docLog.get? k = some row → s'.docLog.get? k = some row
  devices : ∀ deviceId row, s.devices.get? deviceId = some row →
    ∃ row', s'.devices.get? deviceId = some row' ∧ BrokerStore.Keeps row row'
  spaces : ∀ docId, Relation.ReflTransGen SpaceStep (s.getSpace docId) (s'.getSpace docId)
  owners : ∀ docId owner, s.getPersonalDocOwner docId = some owner →
    s'.getPersonalDocOwner docId = some owner ∨ (s'.getSpace docId).isSome

variable {keyOf : Did → Option PublicKey} {w w' : Relay} {env : Env} {t : RelayPoint}
  {s s' s'' : BrokerStore} {docLog : BrokerStore} {clock : Nat} {c c' : RelayConfig}

theorem BrokerKept.refl (s : BrokerStore) : BrokerKept s s :=
  ⟨fun _ _ => id, fun _ row hrow => ⟨row, hrow, .refl row⟩, fun _ => .refl, fun _ _ => .inl⟩

theorem BrokerKept.trans (h : BrokerKept s s') (h' : BrokerKept s' s'') : BrokerKept s s'' := by
  refine ⟨fun k row hrow => h'.entries k row (h.entries k row hrow), fun deviceId row hrow => ?_,
    fun docId => (h.spaces docId).trans (h'.spaces docId), fun docId owner howner => ?_⟩
  · obtain ⟨row', hrow', hkeeps⟩ := h.devices deviceId row hrow
    obtain ⟨row'', hrow'', hkeeps'⟩ := h'.devices deviceId row' hrow'
    exact ⟨row'', hrow'', hkeeps.trans hkeeps'⟩
  rcases h.owners docId owner howner with howned | hspace
  · exact h'.owners docId owner howned
  -- what is a space stays one
  obtain ⟨space, hspace⟩ := isSome_iff_exists.mp hspace
  obtain ⟨_, hfound, -⟩ := SpaceStep.run (hspace ▸ h'.spaces docId)
  exact .inr (hfound ▸ rfl)

theorem Relay.Effect.run (h : Effect keyOf w env t w') :
    ∃ calls, w'.docLog = w.docLog.run calls := by
  cases h with
  | bound ws did deviceId => exact ⟨[.registerDevice did deviceId w.clock], rfl⟩
  | cachedPersonal ws did docId => exact ⟨[.claimPersonalDocOwner docId did w.clock], rfl⟩
  | registered => exact ⟨[.registerSpace _ _ _ _ _], rfl⟩
  | rotated => exact ⟨[.rotateSpace _ _ _], rfl⟩
  | adminAdded => exact ⟨[.addAdmin _ _], rfl⟩
  | adminRemoved => exact ⟨[.removeAdmin _ _], rfl⟩
  | revoked => exact ⟨[.revokeDevice _ _ _ _], rfl⟩
  | inserted => exact ⟨[.appendEntry _ _ _], rfl⟩
  | expired ws docId h =>
    obtain ⟨scope, sent, -, -, rfl⟩ := h
    exact ⟨[], rfl⟩
  | closed ws => exact ⟨[], (close_spec w ws).1⟩
  | _ => exact ⟨[], rfl⟩

theorem Relay.StoreEffect.owner {docId : DocId} {owner : Did} (h : StoreEffect keyOf w env t s)
    (howner : w.docLog.getPersonalDocOwner docId = some owner) :
    s.getPersonalDocOwner docId = some owner ∨ (s.getSpace docId).isSome := by
  cases h with
  | claimed => exact .inl (getPersonalDocOwner_claim_of_some howner)
  | registered ws jws payload henv hok hreg =>
    obtain ⟨-, hspaces, howners⟩ := registerSpace_registered hreg
    rw [hspaces, howners]
    split_ifs
    · exact .inr rfl
    · exact .inl howner
  | inserted ws envelope payload haccept =>
    rw [(appendEntry_accept haccept).2.2]
    exact .inl howner
  | _ => exact .inl howner

theorem brokerKept_advance (t : RelayPoint) :
    BrokerKept w.docLog (w.advance keyOf t env).docLog := by
  obtain ⟨calls, heq⟩ := (@effect_advance keyOf w env t).run
  refine ⟨fun k row hrow => ?_, fun deviceId row hrow => ?_,
    fun docId => .single ((store_advance t).space docId), fun _ _ => (store_advance t).owner⟩
  · exact heq ▸ run_keeps_row hrow calls
  · exact heq ▸ run_device hrow calls

/-- **What the broker has settled stays settled**, in every run and from any store. -/
theorem broker_kept (h : Reachable (relaySystem keyOf) AnyRun (start docLog clock) c)
    (hlater : LaterIn (relaySystem keyOf) AnyRun c c') :
    BrokerKept c.world.docLog c'.world.docLog :=
  (turn_verified keyOf AnyRun docLog clock).later (R := fun w w' => BrokerKept w.docLog w'.docLog)
    (fun _ => .refl _) (fun _ _ _ => .trans) (fun t _ _ _ _ hw => hw ▸ brokerKept_advance t)
    (fun _ _ => .refl _) h hlater

/-- The stranger owns `space-1`, and the admin's registration is refused. -/
theorem broker_kept_claimed : ∃ c c',
    Reachable (relaySystem some) AnyRun (start .fresh 0) c ∧
      LaterIn (relaySystem some) AnyRun c c' ∧
      c.world.docLog.getPersonalDocOwner "space-1" = some "did:stranger" ∧
      BrokerKept c.world.docLog c'.world.docLog := by
  obtain ⟨c, hreach, htest⟩ := Reachable.of_exec (relaySystem some) AnyRun (start .fresh 0)
    (strangerClaims.append [.run 1 relayEnv])
    (fun c => decide (c.world.docLog.getPersonalDocOwner "space-1" = some "did:stranger") &&
      (c.exec (relaySystem some) AnyRun [.call adminRegisters, .run 2 relayEnv]).isSome) (by decide)
  simp only [Bool.and_eq_true, decide_eq_true_eq, isSome_iff_exists] at htest
  obtain ⟨howner, c', hexec⟩ := htest
  exact ⟨c, c', hreach, .exec hexec, howner, broker_kept hreach (.exec hexec)⟩

/-! ## 2. Verified entries -/

def honestContract : Contract RelayPoint Env Relay where
  inv w := w.docLog.Honest
  rely _ _ _ := True
  may _ _ _ := True
  guar _ _ _ _ := True

theorem honest_verified (hs : docLog.Honest) :
    Async.Verified (relaySystem keyOf) AnyRun (start docLog clock) honestContract (fun _ _ => True)
      (fun _ _ => True) := by
  refine turns_verified (fun t env w hverified hinv _ => ⟨?_, trivial⟩) (fun _ _ _ => trivial) hs
    (fun _ hinv => hinv) fun _ _ _ _ _ _ => trivial
  show (w.advance keyOf t env).docLog.Honest
  rcases (store_advance t).log with hsame | ⟨ws, envelope, payload, rfl, -, hlog⟩
  · unfold BrokerStore.Honest
    rw [hsame]
    exact hinv
  · rw [hlog, hverified ws envelope payload rfl]
    exact Honest.appendEntry hinv payload w.clock

/-- **Every row of the log is the verified entry that it is filed under**, in every run over an
    honest log.  So a client can read its next heads off the page that it is sent. -/
theorem relay_log_honest (hs : docLog.Honest)
    (h : Reachable (relaySystem keyOf) AnyRun (start docLog clock) c) :
    c.world.docLog.Honest ∧ ∀ docId heads limit heads',
      readHeads heads' (c.world.docLog.syncResponse docId heads limit).entries =
        advanceHeads heads' ((c.world.docLog.missingSince docId heads).take limit) := by
  have hhonest : c.world.docLog.Honest := (honest_verified hs).inv h
  refine ⟨hhonest, fun docId heads limit heads' => ?_⟩
  exact readHeads_eq hhonest fun r hr => (mem_missingSince.mp (List.mem_of_mem_take hr)).1

theorem relay_log_honest_member : ∃ c,
    Reachable (relaySystem some) AnyRun (start .fresh 0) c ∧ c.world.docLog.docLog.rows ≠ [] ∧
      c.world.docLog.Honest := by
  obtain ⟨c, hreach, htest⟩ := Reachable.of_exec (relaySystem some) AnyRun (start .fresh 0)
    memberWrote (fun c => decide (c.world.docLog.docLog.rows ≠ [])) (by decide)
  exact ⟨c, hreach, of_decide_eq_true htest, (relay_log_honest honest_fresh hreach).1⟩

/-! ## 3. The log of a device -/

variable {sha256 : String → Bytes} {kind : StoreKind} {d : DocLogConfig} {deviceId : DeviceId}
  {p : LogEntryPayload} {m : SentEntry} {calls : List LogStoreCall} {jws : EntryJws} {now : Nat}

theorem released_compact (h : Reachable (docLogSystem sha256 kind) (WithoutWipe kind) .fresh d)
    (hm : Released d m) (hp : m.entryJws = .compact p) :
    ∃ e, d.world.store.getEntry p.docId p.deviceId p.seq = some e ∧ e.entryJws = .compact p := by
  obtain ⟨⟨e, he, hj⟩, lw, env, hdoc, hdev, hbuild⟩ := released_stored h hm
  obtain ⟨_, hp', hdoc', hdev', hseq, -⟩ := buildEntryJws_ok hbuild
  cases hp.symm.trans hp'
  rw [hdoc', hdev', hseq, hdoc, hdev]
  exact ⟨e, he, hj.trans hp⟩

theorem row_of_collision (h : (s.appendEntry p jws now).1 = .rejectSeqCollision) :
    ∃ r, s.docLog.get? (p.docId, p.deviceId, p.seq) = some r ∧ r.contentHash ≠ p := by
  unfold BrokerStore.appendEntry getContentHash at h
  cases hr : s.docLog.get? (p.docId, p.deviceId, p.seq) with
  | none =>
    simp only [hr, map_none] at h
    split at h <;> cases h
  | some r =>
    refine ⟨r, rfl, ?_⟩
    rintro rfl
    simp [hr] at h

/-- What the broker gets under the id of a device, the log of the device has released. -/
def ReleasedBy (d : DocLogConfig) (deviceId : DeviceId) (calls : List LogStoreCall) : Prop :=
  ∀ p entryJws now, .appendEntry p entryJws now ∈ calls → p.deviceId = deviceId →
    entryJws = .compact p ∧ ∃ m, Released d m ∧ m.entryJws = .compact p

/-- **The broker's log agrees with the log of a device**, whatever else it is asked for, and does
    not take the device for a clone. -/
theorem device_log_agrees (h : Reachable (docLogSystem sha256 kind) (WithoutWipe kind) .fresh d)
    (hcalls : ReleasedBy d deviceId calls) :
    (∀ r ∈ (BrokerStore.fresh.run calls).docLog.rows, r.deviceId = deviceId →
      ∃ e, d.world.store.getEntry r.docId deviceId r.seq = some e ∧ e.entryJws = r.entryJws) ∧
    ∀ p m now, Released d m → m.entryJws = .compact p → p.deviceId = deviceId →
      ((BrokerStore.fresh.run calls).appendEntry p m.entryJws now).1 ≠ .rejectSeqCollision := by
  have hrows : ∀ r ∈ (BrokerStore.fresh.run calls).docLog.rows, r.deviceId = deviceId →
      r.entryJws = .compact r.contentHash ∧ ∃ e,
        d.world.store.getEntry r.docId r.deviceId r.seq = some e ∧ e.entryJws = r.entryJws := by
    refine run_rows (fun r hr => (List.not_mem_nil hr).elim) fun p jws now hcall hdev => ?_
    obtain ⟨rfl, m, hm, hp⟩ := hcalls p jws now hcall hdev
    exact ⟨rfl, released_compact h hm hp⟩
  refine ⟨fun r hr hdev => hdev ▸ (hrows r hr hdev).2, fun p m now hm hp hdev hcollision => ?_⟩
  obtain ⟨e, he, hj⟩ := released_compact h hm hp
  -- the row under the coordinate holds this very entry
  obtain ⟨r, hr, hne⟩ := row_of_collision hcollision
  have hk := KeyedTable.key_of_get? hr
  simp only [DocLogRow.key, Prod.mk.injEq] at hk
  obtain ⟨hjws, e', he', hj'⟩ := hrows r (KeyedTable.mem_of_get? hr) (hk.2.1.trans hdev)
  rw [hk.1, hk.2.1, hk.2.2] at he'
  cases he.symm.trans he'
  cases hj.symm.trans (hj'.trans hjws)
  exact hne rfl

/-- A retransmission. -/
theorem device_log_agrees_again : ∃ (d : DocLogConfig) (p : LogEntryPayload) (m : SentEntry),
    Reachable (docLogSystem sampleSha256 .indexedDb) (WithoutWipe .indexedDb) .fresh d ∧
      Released d m ∧ m.entryJws = .compact p ∧
      ((BrokerStore.fresh.run [.appendEntry p m.entryJws 0]).appendEntry p m.entryJws 1).1 ≠
        .rejectSeqCollision := by
  obtain ⟨d, hreach, htest⟩ := Reachable.of_exec (docLogSystem sampleSha256 .indexedDb)
    (WithoutWipe .indexedDb) .fresh [.call (.write (sampleWrite 1)), .run 0 sampleEnv,
      .run 0 sampleEnv, .run 0 sampleEnv, .run 0 sampleEnv] (!·.world.sent.isEmpty) (by decide)
  cases hsent : d.world.sent with
  | nil => simp [hsent] at htest
  | cons m rest =>
    have hm : Released d m := .inl (hsent ▸ List.mem_cons_self)
    obtain ⟨-, lw, env, -, -, hbuild⟩ := released_stored hreach hm
    obtain ⟨p, hp, -⟩ := buildEntryJws_ok hbuild
    refine ⟨d, p, m, hreach, hm, hp, (device_log_agrees hreach ?_).2 p m 1 hm hp rfl⟩
    rintro _ _ _ hcall -
    cases List.mem_singleton.mp hcall
    exact ⟨hp, m, hm, hp⟩

end WebOfTrust
