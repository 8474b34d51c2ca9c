/-
  **One pagination loop for a document** (`log-sync-coordinator.ts`: `catchUp`,
  `ensurePublished`, `releaseCatchUpGuard`, `resetForReconnect`).

  A catch-up takes the guard, goes through its pages and gives the guard back; a
  publication holds its promise in the same way.  A reconnect takes both away and begins a
  new epoch, while what has begun before goes on.  To which epoch a run belongs is read
  off what its program has done (`loopState`).
-/
import WebOfTrust.AsyncRecord
import WebOfTrust.CoordinatorPrograms

namespace WebOfTrust

open Async

abbrev CoordVisit := Visit CoordPoint CoordInput LogSyncCoordinator

/-! ## 1. Runs of a program -/

/-- Gap repairs and the capability, the pages, and what comes after them. -/
inductive LoopStage where
  | repairing
  | paging
  | over
deriving DecidableEq

/-- A catch-up that has taken the guard: its promise, and the epoch in which it began. -/
structure CatchUpRun where
  own : Nat
  epoch : Nat
  stage : LoopStage

namespace CatchUpRun

variable (r : CatchUpRun)

def presented : CatchUpRun :=
  if r.stage = .repairing then { r with stage := .paging } else r

def lastPage : CatchUpRun :=
  if r.stage = .paging then { r with stage := .over } else r

def finished : CatchUpRun := { r with stage := .over }

end CatchUpRun

structure PublicationRun where
  own : Nat
  epoch : Nat

/-- The catch-ups of a program that have not ended, the latest first, its publications, and
    its last sync-request. -/
structure LoopState where
  runs : List CatchUpRun
  publications : List PublicationRun
  request : Option Nat

namespace LoopState

def start : LoopState := ⟨[], [], none⟩

variable (s : LoopState) (v : CoordVisit)

def publish : LoopState :=
  if v.before.promises < v.after.promises then
    { s with
      publications := ⟨v.before.promises, v.before.connectionEpoch⟩ :: s.publications }
  else s

def begin (own : Nat) (stage : LoopStage) : LoopState :=
  { s with runs := ⟨own, v.before.connectionEpoch, stage⟩ :: s.runs }

def onHead (f : CatchUpRun → CatchUpRun) : LoopState :=
  { s with runs := s.runs.modifyHead f }

/-- Behind a request that was not answered, or whose answer is not truncated, there is no
    other. -/
def pagedRuns (answer : Option SyncResponse) (runs : List CatchUpRun) : List CatchUpRun :=
  if answer.any (·.truncated) then runs else runs.modifyHead .lastPage

def paged (answer : Option SyncResponse) : LoopState :=
  { s with runs := pagedRuns answer s.runs }

def answer : Option SyncResponse :=
  if s.request.any fun id => decide (id ∈ v.before.pendingSyncRequests) then v.input.response
  else none

def after : LoopState :=
  match v.point with
  | .catchUp =>
    match v.before.beginCatchUp.1 with
    | some own => s.begin v own .repairing
    | none => s
  | .headAbgleich =>
    match v.before.beginHeadAbgleich.1 with
    | .own own => s.begin v own .paging
    | _ => s
  | .getCapabilityJws => s.onHead .presented
  | .sendSyncRequest _ _ => { s with request := some v.before.promises }
  | .syncRequestSent =>
    if v.input.failure.isSome then s.paged none
    else if v.input.response.isSome then s.paged v.input.response
    else s
  | .syncResponse => s.paged (s.answer v)
  | .beginRestoreClone => s.onHead .finished
  | .endCatchUp => { s with runs := s.runs.tail }
  | .ensurePublished => s.publish v
  | .onWriteRejected => s.publish v
  | _ => s

end LoopState

def loopState (history : List CoordVisit) : LoopState := history.foldl LoopState.after .start

@[simp] theorem loopState_nil : loopState [] = .start := rfl

@[simp] theorem loopState_concat (history : List CoordVisit) (v : CoordVisit) :
    loopState (history ++ [v]) = (loopState history).after v := by
  simp [loopState]

/-! ## 2. What a step does to the guard -/

namespace LogSyncCoordinator

/-- A step that leaves guard, publication and epoch alone, and may register one request
    under a new number. -/
structure GuardKept (c c' : LogSyncCoordinator) : Prop where
  catchingUp : c'.catchingUp = c.catchingUp
  catchUpInFlight : c'.catchUpInFlight = c.catchUpInFlight
  published : c'.published = c.published
  publishing : c'.publishing = c.publishing
  connectionEpoch : c'.connectionEpoch = c.connectionEpoch
  promises : c.promises ≤ c'.promises
  pending : ∀ id ∈ c'.pendingSyncRequests, id ∈ c.pendingSyncRequests ∨
    id = c.promises ∧ c.promises < c'.promises

theorem GuardKept.refl (c : LogSyncCoordinator) : GuardKept c c :=
  ⟨rfl, rfl, rfl, rfl, rfl, Nat.le_refl _, fun _ h => Or.inl h⟩

theorem GuardKept.of_eq {c c' : LogSyncCoordinator} (hcatchingUp : c'.catchingUp = c.catchingUp)
    (hflight : c'.catchUpInFlight = c.catchUpInFlight) (hpublished : c'.published = c.published)
    (hpublishing : c'.publishing = c.publishing)
    (hepoch : c'.connectionEpoch = c.connectionEpoch) (hpromises : c.promises ≤ c'.promises)
    (hpending : c'.pendingSyncRequests = c.pendingSyncRequests) : GuardKept c c' :=
  ⟨hcatchingUp, hflight, hpublished, hpublishing, hepoch, hpromises,
    fun _ h => Or.inl (hpending ▸ h)⟩

end LogSyncCoordinator

def CoordPoint.plain : CoordPoint → Bool
  | .catchUp => false
  | .headAbgleich => false
  | .getCapabilityJws => false
  | .sendSyncRequest _ _ => false
  | .syncRequestSent => false
  | .syncResponse => false
  | .beginRestoreClone => false
  | .endCatchUp => false
  | .ensurePublished => false
  | .endPublication => false
  | .onWriteRejected => false
  | .resetForReconnect => false
  | _ => true

open LogSyncCoordinator

def AllOver (runs : List CatchUpRun) : Prop := ∀ r ∈ runs, r.stage = .over

/-- What a step of a program does, in the light of what the program has done before. -/
def LoopFact (history : List CoordVisit) (v : CoordVisit) : Prop :=
  let s := loopState history
  match v.point with
  | .catchUp => AllOver s.runs ∧ v.after = v.before.beginCatchUp.2
  | .headAbgleich => AllOver s.runs ∧ v.after = v.before.beginHeadAbgleich.2
  | .endCatchUp => ∃ r rest error, s.runs = r :: rest ∧ v.after = v.before.endCatchUp r.own error
  | .ensurePublished => v.after = v.before.beginPublication.2
  | .endPublication => ∃ p ∈ s.publications, ∃ error, v.after = v.before.endPublication p.own error
  | .onWriteRejected =>
    (GuardKept v.before v.after ∧ v.after.promises = v.before.promises) ∨
      ∃ newDeviceId, v.after = (v.before.adopt newDeviceId).2
  | .resetForReconnect => v.after = v.before.resetForReconnect
  | .sendSyncRequest _ _ =>
    (GuardKept v.before v.after ∧ v.before.promises < v.after.promises) ∧
      ∀ r ∈ s.runs.head?, r.stage ≠ .over
  | _ => GuardKept v.before v.after

theorem after_plain {s : LoopState} {v : CoordVisit} (h : v.point.plain = true) :
    s.after v = s := by
  obtain ⟨t, i, c, c'⟩ := v
  cases t <;> first | rfl | cases h

theorem loopFact_plain {history : List CoordVisit} {v : CoordVisit} (h : v.point.plain = true)
    (hkept : GuardKept v.before v.after) : LoopFact history v := by
  obtain ⟨t, i, c, c'⟩ := v
  cases t <;> first | exact hkept | cases h

/-! ## 3. Programs that come back to their runs -/

/-- A program that begins with these runs in progress, and what it makes of them. -/
def Leads {α : Type} (runs : List CatchUpRun) (Q : α → List CatchUpRun → Prop)
    (E : CoordError → List CatchUpRun → Prop) (p : CoordProgram α) : Prop :=
  ∀ history, (loopState history).runs = runs →
    Traced (fun _ _ => True) LoopFact (fun h a => Q a (loopState h).runs)
      (fun h e => E e (loopState h).runs) history p

/-- A program that ends with the runs it began with, whatever its outcome. -/
abbrev Stays {α : Type} (runs : List CatchUpRun) (p : CoordProgram α) : Prop :=
  Leads runs (fun _ rs => rs = runs) (fun _ rs => rs = runs) p

/-- Code that has nothing to do with catch-ups and publications. -/
abbrev PlainCode {α : Type} (p : CoordProgram α) : Prop :=
  Steps (fun t => t.plain = true) (fun _ _ => GuardKept) p

section

variable {α β : Type} {runs : List CatchUpRun} {Q Q' : α → List CatchUpRun → Prop}
  {R : β → List CatchUpRun → Prop} {E E' : CoordError → List CatchUpRun → Prop} {p : CoordProgram α}
  {f : α → CoordProgram β}

theorem leads_ret {a : α} (h : Q a runs) : Leads runs Q E (.ret a : CoordProgram α) := by
  rintro history rfl
  exact h

theorem leads_fail {e : CoordError} (h : E e runs) : Leads runs Q E (.fail e : CoordProgram α) := by
  rintro history rfl
  exact h

theorem Leads.mono (h : Leads runs Q E p) (hQ : ∀ a rs, Q a rs → Q' a rs)
    (hE : ∀ e rs, E e rs → E' e rs) : Leads runs Q' E' p :=
  fun history hruns => (h history hruns).mono (fun _ a ha => hQ a _ ha) fun _ e he => hE e _ he

theorem leads_bind (h : Leads runs (fun a rs => Leads rs R E (f a)) E p) :
    Leads runs R E (p.bind f) := by
  intro history hruns
  apply traced_bind
  exact (h history hruns).post fun h a ha => ha h rfl

theorem leads_tryCatch {handler : CoordError → CoordProgram α}
    (h : Leads runs Q (fun e rs => Leads rs Q E (handler e)) p) :
    Leads runs Q E (p.tryCatch handler) := by
  intro history hruns
  apply traced_tryCatch
  exact (h history hruns).mono (fun _ _ ha => ha) fun h e he => he h rfl

theorem leads_finallyDo {f : Option CoordError → CoordProgram Unit}
    (h : Leads runs (fun a rs => Leads rs (fun _ rs' => Q a rs') E (f none))
      (fun e rs => Leads rs (fun _ rs' => E e rs') E (f (some e))) p) :
    Leads runs Q E (p.finallyDo f) := by
  intro history hruns
  apply traced_finallyDo
  exact (h history hruns).mono (fun h a ha => ha h rfl) fun h e he => he h rfl

section

variable (hp : Stays runs p)
include hp

theorem Stays.bind (hE : ∀ e, E e runs) (hf : ∀ a, Leads runs R E (f a)) :
    Leads runs R E (p.bind f) := by
  apply leads_bind
  apply hp.mono
  · rintro a _ rfl
    exact hf a
  · rintro e _ rfl
    exact hE e

theorem Stays.seq (hf : ∀ a, Stays runs (f a)) : Stays runs (p.bind f) :=
  hp.bind (fun _ => rfl) hf

theorem Stays.tryCatch {handler : CoordError → CoordProgram α}
    (hh : ∀ e, Stays runs (handler e)) : Stays runs (p.tryCatch handler) := by
  apply leads_tryCatch
  apply hp.mono
  · exact fun _ _ h => h
  · rintro e _ rfl
    exact hh e

theorem Stays.finallyDo {f : Option CoordError → CoordProgram Unit}
    (hf : ∀ e, Stays runs (f e)) : Stays runs (p.finallyDo f) := by
  apply leads_finallyDo
  apply hp.mono
  · rintro a _ rfl
    exact hf none
  · rintro e _ rfl
    exact hf (some e)

end

theorem Stays.forEach {xs : List β} {f : β → CoordProgram Unit} (hf : ∀ x ∈ xs, Stays runs (f x)) :
    Stays runs (forEach xs f) := by
  induction xs with
  | nil => exact leads_ret rfl
  | cons x rest ih =>
    apply (hf x List.mem_cons_self).seq
    intro _
    exact ih fun y hy => hf y (List.mem_cons_of_mem _ hy)

theorem PlainCode.stays (h : PlainCode p) : Stays runs p := by
  intro history hruns
  apply h.traced (I := fun h => (loopState h).runs = runs) ?_ hruns
  intro h t i c c' ht hkept hI
  have hplain : (⟨t, i, c, c'⟩ : CoordVisit).point.plain = true := ht
  exact ⟨loopFact_plain hplain hkept, by rw [loopState_concat, after_plain hplain]; exact hI⟩

theorem leads_atomic {t : CoordPoint}
    {f : CoordInput → LogSyncCoordinator → Except CoordError α × LogSyncCoordinator}
    (hG : ∀ history i c, (loopState history).runs = runs → LoopFact history ⟨t, i, c, (f i c).2⟩)
    (hQ : ∀ s i c a, s.runs = runs → (f i c).1 = .ok a →
      Q a (LoopState.after s ⟨t, i, c, (f i c).2⟩).runs)
    (hE : ∀ s i c e, s.runs = runs → (f i c).1 = .error e →
      E e (LoopState.after s ⟨t, i, c, (f i c).2⟩).runs) :
    Leads runs Q E (atomic t f) := by
  intro history hruns
  apply traced_atomic
  · exact fun i c _ => hG history i c hruns
  · intro i c a _ ha
    rw [loopState_concat]
    exact hQ _ i c a hruns ha
  · intro i c e _ he
    rw [loopState_concat]
    exact hE _ i c e hruns he

theorem Stays.keeping (h : Stays [] p) : Keeping LoopFact [] p :=
  (h [] rfl).mono (fun _ _ _ => trivial) fun _ _ _ => trivial

end

/-! ## 4. Plain code -/

namespace LogSyncCoordinator

variable {α : Type} {t : CoordPoint}

theorem guardKept_call {i : CoordInput} {c c₁ c' : LogSyncCoordinator} {a : α} (h₁ : GuardKept c c₁)
    (h' : GuardKept c c') : GuardKept c (i.call c₁ c' a).2 := by
  unfold CoordInput.call
  cases i.failure with
  | some failure => exact h₁
  | none => exact h'

theorem guardKept_note (c : LogSyncCoordinator) (e : CoordEvent) : GuardKept c (c.note e) :=
  .of_eq rfl rfl rfl rfl rfl (Nat.le_refl _) rfl

theorem GuardKept.settle {c c' : LogSyncCoordinator} (h : GuardKept c c') (promise : Nat)
    (error : Option CoordError) : GuardKept c (c'.settle promise error) :=
  ⟨h.1, h.2, h.3, h.4, h.5, h.6, h.7⟩

section

variable (ht : t.plain = true)
include ht

theorem plain_atomic
    {f : CoordInput → LogSyncCoordinator → Except CoordError α × LogSyncCoordinator}
    (hf : ∀ i c, GuardKept c (f i c).2) : PlainCode (atomic t f) :=
  steps_atomic ht hf

theorem plain_readCall (f : LogSyncCoordinator → α) : PlainCode (readCall t f) :=
  plain_atomic ht fun _ c => guardKept_call (.refl c) (.refl c)

theorem plain_storeCall (f : CoordInput → DocLogStore → DocLogStore) : PlainCode (storeCall t f) :=
  plain_atomic ht fun _ c =>
    guardKept_call (.refl c) (.of_eq rfl rfl rfl rfl rfl (Nat.le_refl _) rfl)

theorem plain_query (f : CoordInput → LogSyncCoordinator → α) :
    PlainCode (query t f : CoordProgram α) :=
  steps_query ht fun _ c => .refl c

theorem plain_mutate
    {f : CoordInput → LogSyncCoordinator → LogSyncCoordinator} (hf : ∀ i c, GuardKept c (f i c)) :
    PlainCode (mutate t f : CoordProgram Unit) :=
  steps_mutate ht hf

theorem plain_await {cond : LogSyncCoordinator → Bool}
    {f : CoordInput → LogSyncCoordinator → Except CoordError α × LogSyncCoordinator}
    (hf : ∀ i c, GuardKept c (f i c).2) : PlainCode (await t cond f) :=
  steps_await ht fun i c _ => hf i c

theorem plain_awaitPromise (promise : Nat) : PlainCode (awaitPromise t promise) :=
  plain_await ht fun _ c => .refl c

end

/-! ### A page -/

abbrev EpochKept {α : Type} (p : SyncProgram α) : Prop :=
  Steps (fun _ => True) (fun _ _ w w' => w'.gap.connectionEpoch = w.gap.connectionEpoch) p

theorem plain_sync {p : SyncProgram α} (h : EpochKept p) : PlainCode (sync p) :=
  steps_adapt h (fun _ _ => rfl) fun _ _ _ _ hepoch =>
    .of_eq rfl rfl rfl rfl hepoch (Nat.le_refl _) rfl

theorem epoch_syncCall {env : Env} {w w' : SyncWorld} {a : α}
    (h : w'.gap.connectionEpoch = w.gap.connectionEpoch) :
    (env.syncCall w w' a).2.gap.connectionEpoch = w.gap.connectionEpoch := by
  unfold Env.syncCall
  cases env.failure with
  | some text => rfl
  | none => exact h

theorem epoch_readStore (t : SyncPoint) (f : DocLogStore → α) : EpochKept (readStore t f) :=
  steps_atomic trivial fun _ _ => epoch_syncCall rfl

end LogSyncCoordinator

end WebOfTrust
