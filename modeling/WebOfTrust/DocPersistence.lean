/-
  **The personal document in the compact store** (`YjsPersonalDocManager.ts`).

  Every change of the document asks the push scheduler for a push, which is skipped where the
  state vector is the one that was pushed last.  The vector counts what each client has
  inserted, and a deletion inserts nothing.  Of Yjs the model keeps the inserted items, in the
  order in which they came, and the deletions; `pushToCompactStore` reports no failure, so that
  whether the last save has succeeded is history.
-/
import WebOfTrust.PushScheduler
import Mathlib.Algebra.BigOperators.Group.List.Lemmas
import Mathlib.Logic.Equiv.List

namespace WebOfTrust.DocPersistence

open List

open Machine PushScheduler

/-! ## 1. The document -/

structure Item where
  client : Nat
  key : String
  value : String
deriving DecidableEq

structure YDoc where
  items : List Item
  /-- The places of the items that are deleted. -/
  deleted : List Nat
deriving DecidableEq

structure Transaction where
  inserted : List Item
  deleted : List Nat
deriving DecidableEq

def YDoc.transact (doc : YDoc) (t : Transaction) : YDoc :=
  ⟨doc.items ++ t.inserted, doc.deleted ++ t.deleted⟩

/-- What is read of a document. -/
def YDoc.content (doc : YDoc) : List Item :=
  (doc.items.zipIdx.filter fun p => !doc.deleted.contains p.2).map Prod.fst

/-- `Y.encodeStateVector`, before it is encoded: the clocks of the clients. -/
def YDoc.stateVector (doc : YDoc) : List (Nat × Nat) :=
  let clients := doc.items.map Item.client
  clients.dedup.map fun client => (client, clients.count client)

/-! ## 2. Its pushes -/

structure Manager where
  doc : YDoc
  scheduler : System
  /-- What `pushToCompactStore` has encoded, for each push that is under way. -/
  updates : List YDoc
  saved : Option YDoc
  changed : Bool
  lastStored : Bool
deriving DecidableEq

inductive Input where
  | localChange (t : Transaction) (background : Bool)
  | remoteChange (t : Transaction)
  | flush
  | timerFires (timer : Nat)
  | pushSettles (k : Nat) (stored : Bool)
  | pushEnds (k : Nat)
deriving DecidableEq

variable (encode : List (Nat × Nat) → String)

/-- `getStateVectorString`. -/
def heads (doc : YDoc) : Option String := some (encode doc.stateVector)

/-- `initYjsPersonalDoc`; `stored` says whether the document is from the compact store. -/
def start (doc : YDoc) (stored : Bool) : Manager where
  doc := doc
  scheduler := .start (if stored then heads encode doc else none) (heads encode doc)
  updates := []
  saved := if stored then some doc else none
  changed := stored
  lastStored := true

/-- A push that begins encodes the document. -/
def Manager.follow (m : Manager) (updates : List YDoc) (scheduler : System) : Manager :=
  { m with
    scheduler := scheduler
    updates := updates ++ if updates.length < scheduler.pushes.length then [m.doc] else [] }

def Manager.feed (m : Manager) (i : PushScheduler.Input) : Option Manager :=
  (PushScheduler.step m.scheduler i).map (m.follow m.updates)

def Manager.change (m : Manager) (t : Transaction) (i : PushScheduler.Input) : Option Manager :=
  let doc := m.doc.transact t
  (PushScheduler.step m.scheduler (.change (heads encode doc))).bind fun s =>
    { m with doc := doc, scheduler := s, changed := true }.feed i

def step (m : Manager) : Input → Option Manager
  | .localChange t background =>
    m.change encode t (if background then .pushDebounced else .pushImmediate)
  | .remoteChange t => m.change encode t .pushDebounced
  | .flush => m.feed .flush
  | .timerFires timer => m.feed (.timerFires timer)
  | .pushSettles k stored =>
    (m.feed (.pushSettles k true)).map fun m' =>
      { m' with
        saved := if stored then m.updates[k]? else m.saved
        lastStored := stored }
  | .pushEnds k =>
    (PushScheduler.step m.scheduler (.pushEnds k)).map (m.follow (m.updates.eraseIdx k))

/-- A transaction that only deletes finds a state vector that is neither the last pushed one nor
    that of a push under way. -/
def Noticed (m : Manager) : Input → Prop
  | .localChange t _ | .remoteChange t => t.inserted ≠ [] ∨ heads encode m.doc ∉
      m.scheduler.lastPushedHeads :: m.scheduler.pushes.map Push.currentHeads
  | _ => True

instance (m : Manager) (i : Input) : Decidable (Noticed encode m i) := by
  cases i <;> unfold Noticed <;> infer_instance

/-! ## 3. What has been pushed -/

variable {encode : List (Nat × Nat) → String} {doc d : YDoc} {m m' : Manager} {s : System}

theorem length_of_stateVector (h : d.stateVector = doc.stateVector) :
    d.items.length = doc.items.length := by
  have hsum : ∀ d : YDoc, (d.stateVector.map Prod.snd).sum = d.items.length := by
    intro d
    rw [← length_map (f := Item.client), ← sum_map_count_dedup_eq_length, YDoc.stateVector, map_map]
    rfl
  rw [← hsum, h, hsum]

def Before (d doc : YDoc) : Prop := d = doc ∨ d.items.length < doc.items.length

theorem Before.transact {t : Transaction} (h : Before d doc) (ht : t.inserted ≠ [] ∨ d ≠ doc) :
    Before d (doc.transact t) := by
  have hlength : (doc.transact t).items.length = doc.items.length + t.inserted.length := by
    simp [YDoc.transact]
  rcases h with rfl | hlt
  · have hpos := length_pos_iff.mpr (ht.resolve_right fun hne => hne rfl)
    exact .inr (by omega)
  · exact .inr (by omega)

theorem Before.eq_of_heads (hencode : Function.Injective encode) (h : Before d doc)
    (heq : heads encode d = heads encode doc) : d = doc := by
  rcases h with rfl | hlt
  · rfl
  · have hlength := length_of_stateVector (hencode (Option.some.inj heq))
    omega

/-- What is pushed, or has been, is an earlier state. -/
structure Persists (encode : List (Nat × Nat) → String) (m : Manager) : Prop where
  now : m.scheduler.heads = heads encode m.doc
  pushes : m.updates.map (heads encode) = m.scheduler.pushes.map Push.currentHeads
  before : ∀ d ∈ m.updates, Before d m.doc
  last : m.scheduler.lastPushedHeads = none ∨ ∃ d, Before d m.doc ∧
    m.scheduler.lastPushedHeads = heads encode d ∧ (m.lastStored = true → m.saved = some d)
  settled : ∀ push ∈ m.scheduler.pushes, push.settled = true →
    m.scheduler.lastPushedHeads = push.currentHeads
  alive : m.scheduler.destroyed = false

/-- The present state of the document is due, is being pushed, or has been. -/
def Due (encode : List (Nat × Nat) → String) (m : Manager) : Prop :=
  m.scheduler.debounceTimer.isSome = true ∨
    m.scheduler.pushing = true ∧ m.scheduler.pendingAfterPush = true ∨
    m.doc ∈ m.updates ∨ m.updates = [] ∧ m.scheduler.lastPushedHeads = heads encode m.doc

section

variable (h : Persists encode m)
include h

theorem Persists.length : m.updates.length = m.scheduler.pushes.length := by
  simpa using congrArg List.length h.pushes

theorem Persists.follow (hnow : s.heads = m.scheduler.heads)
    (hpushes : s.pushes = m.scheduler.pushes)
    (hlast : s.lastPushedHeads = m.scheduler.lastPushedHeads)
    (halive : s.destroyed = m.scheduler.destroyed) :
    m.follow m.updates s = { m with scheduler := s } ∧
      Persists encode { m with scheduler := s } := by
  refine ⟨by simp [Manager.follow, hpushes, h.length], hnow.trans h.now, ?_, h.before, ?_, ?_,
    halive.trans h.alive⟩
  · exact hpushes ▸ h.pushes
  · exact hlast ▸ h.last
  · exact hpushes ▸ hlast ▸ h.settled

/-- Where a push may begin, it does, or it waits, or it is not needed. -/
theorem Persists.schedulePush {initial : Option String}
    (hsound : Sound initial s) (hnow : s.heads = m.scheduler.heads)
    (hpushes : s.pushes = m.scheduler.pushes)
    (hlast : s.lastPushedHeads = m.scheduler.lastPushedHeads)
    (halive : s.destroyed = m.scheduler.destroyed) :
    Persists encode (m.follow m.updates s.schedulePush) ∧
      Due encode (m.follow m.updates s.schedulePush) := by
  unfold System.schedulePush
  split
  · next hpushing =>
    obtain ⟨hfollow, hkept⟩ :=
      h.follow (s := { s with pendingAfterPush := true }) hnow hpushes hlast halive
    rw [hfollow]
    exact ⟨hkept, .inr (.inl ⟨hpushing, rfl⟩)⟩
  next hpushing =>
  have hnone : s.pushes = [] := by
    rcases hsound.single with ⟨hpushing', -⟩ | ⟨-, hnone⟩
    · exact absurd hpushing' hpushing
    · exact hnone
  have hidle : m.updates = [] := by
    rw [← length_eq_zero_iff, h.length, ← hpushes, hnone]
    rfl
  split
  · next hsame =>
    obtain ⟨hfollow, hkept⟩ := h.follow hnow hpushes hlast halive
    rw [hfollow]
    exact ⟨hkept, .inr (.inr (.inr ⟨hidle, hsame.2.symm.trans (hnow.trans h.now)⟩))⟩
  have hfollow : m.follow m.updates
      { s with pushing := true, pushes := s.pushes ++ [⟨s.heads, false⟩] } =
      { m with
        scheduler := { s with pushing := true, pushes := [⟨s.heads, false⟩] }
        updates := [m.doc] } := by
    simp [Manager.follow, hnone, hidle]
  rw [hfollow]
  refine ⟨⟨hnow.trans h.now, ?_, ?_, hlast ▸ h.last, ?_, halive.trans h.alive⟩,
    .inr (.inr (.inl (mem_singleton_self _)))⟩
  · simp [hnow, h.now]
  · intro d hd
    exact .inl (mem_singleton.mp hd)
  intro push hpush hsettled
  rw [mem_singleton.mp hpush] at hsettled
  cases hsettled

omit h in
theorem clearDebounce_eq (s : System) : s.clearDebounce.heads = s.heads ∧
    s.clearDebounce.pushes = s.pushes ∧ s.clearDebounce.lastPushedHeads = s.lastPushedHeads ∧
    s.clearDebounce.destroyed = s.destroyed := by
  unfold System.clearDebounce
  split <;> exact ⟨rfl, rfl, rfl, rfl⟩

theorem Persists.request {initial : Option String} (hsound : Sound initial m.scheduler) :
    (∃ m', m.feed .pushImmediate = some m' ∧ m'.changed = m.changed ∧ Persists encode m' ∧
      Due encode m') ∧
    ∃ m', m.feed .pushDebounced = some m' ∧ m'.changed = m.changed ∧ Persists encode m' ∧
      Due encode m' := by
  have hclear := clearDebounce_eq m.scheduler.requested
  constructor
  · refine ⟨_, rfl, rfl, ?_⟩
    simp only [System.pushImmediate, h.alive]
    exact h.schedulePush hsound.requested.clearDebounce hclear.1 hclear.2.1 hclear.2.2.1
      hclear.2.2.2
  · refine ⟨_, rfl, rfl, ?_⟩
    simp only [System.pushDebounced, h.alive]
    obtain ⟨hfollow, hkept⟩ := h.follow (s := m.scheduler.requested.clearDebounce.arm) hclear.1
      hclear.2.1 hclear.2.2.1 hclear.2.2.2
    simp only [Bool.false_eq_true, if_false, hfollow]
    exact ⟨hkept, .inl rfl⟩

end

/-! ## 4. Every step -/

structure Kept (encode : List (Nat × Nat) → String) (initial : Option String) (m : Manager) :
    Prop where
  scheduler : PushScheduler.Kept initial m.scheduler
  persists : Persists encode m
  due : m.changed = true → Due encode m

section

variable {initial : Option String}

section

variable (h : Kept encode initial m)
include h

theorem Kept.change {t : Transaction} {i : PushScheduler.Input}
    (ht : t.inserted ≠ [] ∨ heads encode m.doc ∉
      m.scheduler.lastPushedHeads :: m.scheduler.pushes.map Push.currentHeads)
    (hi : i = .pushImmediate ∨ i = .pushDebounced)
    (hs : m.change encode t i = some m') : Kept encode initial m' := by
  have hfeed : Manager.feed { m with
        doc := m.doc.transact t
        scheduler := { m.scheduler with
          heads := heads encode (m.doc.transact t)
          since := m.scheduler.since.map (heads encode (m.doc.transact t) :: ·) }
        changed := true } i = some m' := hs
  have hsound := @PushScheduler.Kept.change _ (heads encode (m.doc.transact t)) _ h.scheduler
  have hpersists : Persists encode { m with
        doc := m.doc.transact t
        scheduler := { m.scheduler with
          heads := heads encode (m.doc.transact t)
          since := m.scheduler.since.map (heads encode (m.doc.transact t) :: ·) }
        changed := true } := by
    refine ⟨rfl, h.persists.pushes, fun d hd => (h.persists.before d hd).transact ?_, ?_,
      h.persists.settled, h.persists.alive⟩
    · refine ht.imp_right fun hnot heq => hnot (mem_cons_of_mem _ ?_)
      exact h.persists.pushes ▸ heq ▸ mem_map_of_mem hd
    · refine h.persists.last.imp_right fun ⟨d, hd, hlast⟩ => ⟨d, hd.transact ?_, hlast⟩
      exact ht.imp_right fun hnot heq => hnot (heq ▸ hlast.1 ▸ mem_cons_self)
  obtain ⟨himmediate, hdebounced⟩ := hpersists.request hsound.1
  obtain ⟨m₂, hm₂, hkept⟩ := hi.elim (fun hi => hi ▸ himmediate) fun hi => hi ▸ hdebounced
  obtain ⟨s', hstep, rfl⟩ := Option.map_eq_some_iff.mp hfeed
  obtain rfl := Option.some.inj (hfeed.symm.trans hm₂)
  exact ⟨hsound.step hstep, hkept.2.1, fun _ => hkept.2.2⟩

theorem Kept.pushSettles {k : Nat} {stored : Bool}
    (hs : step encode m (.pushSettles k stored) = some m') : Kept encode initial m' := by
  obtain ⟨m₁, hfeed, rfl⟩ := Option.map_eq_some_iff.mp hs
  obtain ⟨s', hstep, rfl⟩ := Option.map_eq_some_iff.mp hfeed
  have hscheduler := h.scheduler.step hstep
  simp only [PushScheduler.step, System.pushSettles] at hstep
  split at hstep
  · next currentHeads hk =>
    obtain ⟨rfl, hpushing, hpushes⟩ := h.scheduler.1.only hk
    obtain ⟨d, hd⟩ : ∃ d, m.updates = [d] := by
      rw [← length_eq_one_iff, h.persists.length, hpushes]
      rfl
    have hheads : heads encode d = currentHeads := by simpa [hd, hpushes] using h.persists.pushes
    simp only [if_true, Option.some.injEq] at hstep
    subst hstep
    have hset : m.scheduler.pushes.set 0 ⟨currentHeads, true⟩ = [⟨currentHeads, true⟩] := by
      rw [hpushes]
      rfl
    simp only [Manager.follow, hset, hd, length_singleton, Nat.lt_irrefl, if_false,
      append_nil] at hscheduler ⊢
    refine ⟨hscheduler, ⟨h.persists.now, by simp [hheads], ?_, .inr ⟨d, ?_, hheads.symm, ?_⟩, ?_,
      h.persists.alive⟩, fun hchanged => ?_⟩
    · exact hd ▸ h.persists.before
    · exact h.persists.before d (by simp [hd])
    · intro hstored
      simp [show stored = true from hstored]
    · intro push hpush _
      rw [mem_singleton.mp hpush]
    · rcases h.due hchanged with htimer | hqueued | hin | ⟨hnone, -⟩
      · exact .inl htimer
      · exact .inr (.inl hqueued)
      · exact .inr (.inr (.inl (hd ▸ hin)))
      · simp [hd] at hnone
  · cases hstep

theorem Kept.pushEnds {k : Nat}
    (hs : step encode m (.pushEnds k) = some m') : Kept encode initial m' := by
  obtain ⟨s', hstep, rfl⟩ := Option.map_eq_some_iff.mp hs
  have hscheduler := h.scheduler.step hstep
  simp only [PushScheduler.step, System.pushEnds] at hstep
  split at hstep
  · next currentHeads hk =>
    obtain ⟨rfl, hpushing, hpushes⟩ := h.scheduler.1.only hk
    obtain ⟨d, hd⟩ : ∃ d, m.updates = [d] := by
      rw [← length_eq_one_iff, h.persists.length, hpushes]
      rfl
    have hheads : heads encode d = currentHeads := by simpa [hd, hpushes] using h.persists.pushes
    have hlast : m.scheduler.lastPushedHeads = currentHeads :=
      h.persists.settled ⟨currentHeads, true⟩ (by simp [hpushes]) rfl
    have herased : m.scheduler.pushes.eraseIdx 0 = [] ∧ m.updates.eraseIdx 0 = [] := by
      simp [hpushes, hd]
    have hidle : Persists encode { m with
        scheduler := { m.scheduler with pushing := false, pushes := [] }, updates := [] } :=
      ⟨h.persists.now, rfl, by simp, h.persists.last, by simp, h.persists.alive⟩
    have hsound : Sound initial { m.scheduler with
        pushing := false, pushes := [], pendingAfterPush := false } :=
      { h.scheduler.1 with single := .inr ⟨rfl, rfl⟩, settled := by simp }
    simp only [herased] at hstep hscheduler ⊢
    split at hstep
    · cases hstep
      obtain ⟨hpersists, hdue⟩ := hidle.schedulePush hsound rfl rfl rfl rfl
      exact ⟨hscheduler, hpersists, fun _ => hdue⟩
    next hq =>
    cases hstep
    refine ⟨hscheduler, hidle, fun hchanged => ?_⟩
    rcases h.due hchanged with htimer | hqueued | hin | ⟨hnone, -⟩
    · exact .inl htimer
    · exact absurd ⟨hqueued.2, h.persists.alive⟩ hq
    · rw [hd, mem_singleton] at hin
      exact .inr (.inr (.inr ⟨rfl, hlast.trans (hin ▸ hheads.symm)⟩))
    · simp [hd] at hnone
  · cases hstep

theorem Kept.step {i : Input} (hi : Noticed encode m i)
    (hs : step encode m i = some m') : Kept encode initial m' := by
  cases i with
  | localChange t background =>
    refine h.change hi ?_ hs
    cases background
    · exact .inl rfl
    · exact .inr rfl
  | remoteChange t => exact h.change hi (.inr rfl) hs
  | flush =>
    have hfeed : m.feed .flush = some m' := hs
    obtain ⟨s', hstep, rfl⟩ := Option.map_eq_some_iff.mp hfeed
    have hscheduler := h.scheduler.step hstep
    cases hstep
    unfold System.flush at hscheduler ⊢
    simp only [h.persists.alive, Bool.false_eq_true, if_false] at hscheduler ⊢
    split at hscheduler
    · next htimer =>
      rw [if_pos htimer]
      have hclear := clearDebounce_eq m.scheduler.requested
      obtain ⟨hpersists, hdue⟩ := h.persists.schedulePush h.scheduler.1.requested.clearDebounce
        hclear.1 hclear.2.1 hclear.2.2.1 hclear.2.2.2
      exact ⟨hscheduler, hpersists, fun _ => hdue⟩
    · next htimer =>
      rw [if_neg htimer, (h.persists.follow rfl rfl rfl rfl).1]
      exact h
  | timerFires timer =>
    have hfeed : m.feed (.timerFires timer) = some m' := hs
    obtain ⟨s', hstep, rfl⟩ := Option.map_eq_some_iff.mp hfeed
    have hscheduler := h.scheduler.step hstep
    simp only [PushScheduler.step, System.timerFires] at hstep
    split at hstep <;> cases hstep
    next hmem =>
    have htimers := h.scheduler.1.timers
    have hsound : Sound initial { m.scheduler with
        timers := m.scheduler.timers.filter (· ≠ timer), debounceTimer := none } := by
      refine { h.scheduler.1 with timers := ?_ }
      rw [htimers] at hmem ⊢
      simp [Option.mem_toList.mp hmem]
    obtain ⟨hpersists, hdue⟩ := h.persists.schedulePush hsound rfl rfl rfl rfl
    exact ⟨hscheduler, hpersists, fun _ => hdue⟩
  | pushSettles k stored => exact h.pushSettles hs
  | pushEnds k => exact h.pushEnds hs

end

end

theorem kept_start {stored : Bool} : Kept encode (if stored then heads encode doc else none)
    (start encode doc stored) := by
  refine ⟨PushScheduler.kept_start, ⟨rfl, rfl, nofun, ?_, nofun, rfl⟩, fun hchanged => ?_⟩
  · cases stored
    · exact .inl rfl
    · exact .inr ⟨doc, .inl rfl, rfl, fun _ => rfl⟩
  · have hstored : stored = true := hchanged
    subst hstored
    exact .inr (.inr (.inr ⟨rfl, rfl⟩))

/-- **Where every deletion is noticed, the compact store has the document** once the pushes are
    over, the last of them with success. -/
theorem persists_every_change {stored : Bool} (hencode : Function.Injective encode)
    (h : Reaches (step encode) (Noticed encode) (start encode doc stored) m)
    (hchanged : m.changed = true)
    (hpushes : m.scheduler.pushes = []) (htimers : m.scheduler.timers = [])
    (hstored : m.lastStored = true) : m.saved = some m.doc := by
  have hkept := h.invariant kept_start fun _ _ _ hk hi hs => hk.step hi hs
  have hnone : m.updates = [] := by
    rw [← length_eq_zero_iff, hkept.persists.length, hpushes]
    rfl
  have hlast : m.scheduler.lastPushedHeads = heads encode m.doc := by
    rcases hkept.due hchanged with htimer | ⟨hpushing, -⟩ | hin | ⟨-, hlast⟩
    · rw [hkept.scheduler.1.timers, Option.toList_eq_nil_iff] at htimers
      rw [htimers] at htimer
      cases htimer
    · rcases hkept.scheduler.1.single with ⟨-, push, heq⟩ | ⟨hidle, -⟩
      · simp [hpushes] at heq
      · rw [hpushing] at hidle
        cases hidle
    · simp [hnone] at hin
    · exact hlast
  rcases hkept.persists.last with hnever | ⟨d, hd, heq, hsaved⟩
  · rw [hlast] at hnever
    cases hnever
  · rw [hsaved hstored, hd.eq_of_heads hencode (heq.symm.trans hlast)]

def unary (clocks : List (Nat × Nat)) : String :=
  String.ofList (replicate (Encodable.encode clocks) '1')

theorem unary_injective : Function.Injective unary := by
  intro clocks clocks' h
  have hlength := congrArg length (String.ofList_inj.mp h)
  exact Encodable.encode_injective (by simpa using hlength)

def contact : Item := ⟨1, "contacts", "anna"⟩

/-- Two contacts come in the background; one is deleted before they are pushed. -/
theorem persists_first_change :
    ∃ m : Manager, (m.changed = true ∧ m.scheduler.pushes = [] ∧ m.scheduler.timers = [] ∧
        m.lastStored = true ∧ m.doc.content = [contact]) ∧ m.saved = some m.doc := by
  obtain ⟨m, h, hp⟩ := Reaches.of_exec (step unary) (Noticed unary) (start unary ⟨[], []⟩ false)
    [.localChange ⟨[contact, ⟨1, "contacts", "bob"⟩], []⟩ true, .localChange ⟨[], [1]⟩ false,
      .pushSettles 0 true, .pushEnds 0]
    (fun m => decide (m.changed = true ∧ m.scheduler.pushes = [] ∧ m.scheduler.timers = [] ∧
      m.lastStored = true ∧ m.doc.content = [contact])) (by decide +kernel)
  have hp := of_decide_eq_true hp
  exact ⟨m, hp, persists_every_change unary_injective h hp.1 hp.2.1 hp.2.2.1 hp.2.2.2.1⟩

/-- A transaction that only deletes leaves the state vector alone: its push is skipped, and what
    is restored still has the entry. -/
theorem deleted_entry_is_restored :
    ¬ ∀ (encode : List (Nat × Nat) → String) (doc : YDoc) (stored : Bool) (m : Manager),
      Function.Injective encode →
      Reaches (step encode) (fun _ _ => True) (start encode doc stored) m → m.changed = true →
      m.scheduler.pushes = [] → m.scheduler.timers = [] → m.lastStored = true →
      m.saved.map YDoc.content = some m.doc.content := by
  intro hall
  obtain ⟨m, h, hp⟩ := Reaches.of_exec (step unary) (fun _ _ => True)
    (start unary ⟨[contact], []⟩ true) [.localChange ⟨[], [0]⟩ false]
    (fun m => decide (m.changed = true ∧ m.scheduler.pushes = [] ∧ m.scheduler.timers = [] ∧
      m.lastStored = true ∧ m.saved.map YDoc.content ≠ some m.doc.content)) (by decide +kernel)
  obtain ⟨hchanged, hpushes, htimers, hstored, hne⟩ := of_decide_eq_true hp
  exact hne (hall unary _ true m unary_injective h hchanged hpushes htimers hstored)

end WebOfTrust.DocPersistence
