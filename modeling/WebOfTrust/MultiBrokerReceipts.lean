/-
  **What the subscribers of a fan-out are shown.**

  The history of a fan-out says which of its targets have failed and how, whether anybody
  accepted the message, and who was shown a failure.  The subscribers should be shown one
  failure when the last target fails, and none otherwise.

  Failures are counted in one place for all subscribers, once for each wrapper that runs,
  and only those that come over `onReceipt`.  Where every failure is counted once, the
  counter is the number of targets that have reported one (`FanoutInv.counted`), and the
  subscribers are shown what they should be (`receipts_exact`).
-/
import WebOfTrust.MultiBroker
import Mathlib.Data.List.Perm.Subperm

namespace WebOfTrust

open Machine KeyedTable List Option

/-! ## 1. A fan-out in the history -/

/-- The latest fan-out of a message: its targets, those that have reported a failure on their
    streams and those whose sends have failed, and whether anybody has ever accepted it.
    `settledFor` are the subscribers when the last target failed, if nobody had accepted by
    then; `shown` are those that were shown a failure, in order. -/
structure Fanout where
  send : Nat
  targets : List Nat
  reported : List Nat
  sendFailed : List Nat
  accepted : Bool
  settledFor : Option (List Nat)
  shown : List Nat

namespace Fanout

variable (f : Fanout)

/-- The target has failed: it reported so, or its send was rejected or answered `failed`. -/
def HasFailed (child : Nat) : Prop := child ∈ f.reported ∨ child ∈ f.sendFailed

instance (f : Fanout) (child : Nat) : Decidable (f.HasFailed child) :=
  inferInstanceAs (Decidable (_ ∨ _))

def AllFailed : Prop := ∀ child ∈ f.targets, f.HasFailed child

instance (f : Fanout) : Decidable f.AllFailed :=
  inferInstanceAs (Decidable (∀ child ∈ f.targets, f.HasFailed child))

def settle (listeners : List Nat) : Fanout :=
  if f.accepted = false ∧ f.settledFor = none ∧ f.AllFailed then
    { f with settledFor := some listeners }
  else f

def accept : Fanout := { f with accepted := true }

def reports (child : Nat) (listeners : List Nat) : Fanout :=
  { f with reported := child :: f.reported }.settle listeners

def sendFails (send child : Nat) (listeners : List Nat) : Fanout :=
  if f.send = send then { f with sendFailed := child :: f.sendFailed }.settle listeners else f

def addShown (subscribers : List Nat) : Fanout :=
  { f with shown := f.shown ++ subscribers }

/-- **What the subscribers should be shown**: nothing as long as a target may still accept or
    once one has accepted, and one failure each when all targets have failed. -/
structure Exact (f : Fanout) : Prop where
  pending : f.settledFor = none → f.accepted = true ∨ ∃ child ∈ f.targets, ¬ f.HasFailed child
  silent : f.settledFor = none → ∀ subscriber, f.shown.count subscriber = 0
  once : ∀ listeners, f.settledFor = some listeners → f.AllFailed ∧
    ∀ subscriber, f.shown.count subscriber = if subscriber ∈ listeners then 1 else 0

end Fanout

open Fanout

def observe (messageId : String) (f : Option Fanout) : BrokerEvent → Option Fanout
  | .handedTo _ _ => f
  | .fannedOut send id targets =>
    if id = messageId then some ⟨send, targets, [], [], f.any (·.accepted), none, []⟩ else f
  | .reported child receipt listeners =>
    if receipt.messageId = messageId then
      if receipt.isOk then f.map accept else f.map (·.reports child listeners)
    else f
  | .sendSettled send child id result listeners =>
    match result with
    | .ok receipt =>
      if receipt.isOk then
        if receipt.messageId = messageId then f.map accept else f
      else if id = messageId then f.map (·.sendFails send child listeners) else f
    | .error _ => if id = messageId then f.map (·.sendFails send child listeners) else f
  | .shown subscriber receipt =>
    if receipt.messageId = messageId ∧ receipt.isOk = false then f.map (·.addShown [subscriber])
    else f

namespace MultiBrokerMessagingAdapter

section

variable (a : MultiBrokerMessagingAdapter)

def fanout (messageId : String) : Option Fanout :=
  a.events.foldl (observe messageId) none

/-! ## 2. When a failure is counted once -/

/-- `send` goes to several children. -/
def FansOut (envelope : Envelope) : Prop :=
  routeForEnvelope envelope = .fanout ∧ a.children.length ≠ 1 ∧ a.connectedChildren ≠ []

instance (a : MultiBrokerMessagingAdapter) (envelope : Envelope) : Decidable (a.FansOut envelope) :=
  inferInstanceAs (Decidable (_ ∧ _))

/-- The first failure that a target reports while one subscriber listens (or there is but one
    target) and nobody has accepted the message; if it is the last target to fail, then the
    others have reported their failures too. -/
def CountsOnce (f : Fanout) (child : Nat) : Prop :=
  f.accepted = false ∧ child ∈ f.targets ∧ child ∉ f.reported ∧
    (a.subscribers.length = 1 ∨ f.targets.length = 1) ∧
    ((∀ x ∈ f.targets, x = child ∨ f.HasFailed x) → ∀ x ∈ f.targets, x = child ∨ x ∈ f.reported)

instance (a : MultiBrokerMessagingAdapter) (f : Fanout) (child : Nat) :
    Decidable (a.CountsOnce f child) := inferInstanceAs (Decidable (_ ∧ _))

/-- A send is rejected or answered `failed`. -/
def Fails : Except String DeliveryReceipt → Prop
  | .ok receipt => receipt.isOk = false
  | .error _ => True

instance : DecidablePred Fails
  | .ok receipt => inferInstanceAs (Decidable (receipt.isOk = false))
  | .error _ => inferInstanceAs (Decidable True)

/-- A failed send is not what decides the fan-out. -/
def Undecided (f : Fanout) (child : Nat) : Prop :=
  f.accepted = true ∨ f.HasFailed child ∨ ∃ x ∈ f.targets, x ≠ child ∧ ¬ f.HasFailed x

instance (f : Fanout) (child : Nat) : Decidable (Undecided f child) :=
  inferInstanceAs (Decidable (_ ∨ _))

/-- The inputs under which failures are counted once: a message is not fanned out again while an
    answer may come; a failure is reported for a message that the tracker holds, which has noted
    an acceptance or counts the failure once; a failed send never decides a fan-out. -/
def Counted : Input → Prop
  | .send envelope => a.FansOut envelope →
    ∀ f ∈ a.fanout envelope.id, f.accepted = true ∨ f.settledFor.isSome
  | .childReports child receipt => receipt.isOk = false →
    ∀ f ∈ a.fanout receipt.messageId, ∃ entry ∈ a.fanoutTracker.get? receipt.messageId,
      entry.okSeen = true ∨ a.CountsOnce f child
  | .childSettles n child result => Fails result →
    ∀ s ∈ a.sends[n]?, ∀ f ∈ a.fanout s.envelope.id, f.send = n → Undecided f child
  | _ => True

end

instance : ∀ (a : MultiBrokerMessagingAdapter) (i : Input), Decidable (a.Counted i)
  | _, .send _ => inferInstanceAs (Decidable (_ → ∀ f ∈ _, _))
  | _, .childReports _ _ => inferInstanceAs (Decidable (_ → ∀ f ∈ _, ∃ entry ∈ _, _))
  | _, .childSettles _ _ _ => inferInstanceAs (Decidable (_ → ∀ s ∈ _, ∀ f ∈ _, _ → _))
  | _, .childState _ _ => inferInstanceAs (Decidable True)
  | _, .onReceipt => inferInstanceAs (Decidable True)
  | _, .unsubscribe _ => inferInstanceAs (Decidable True)

/-! ## 3. The fan-out after a step -/

variable {a : MultiBrokerMessagingAdapter} {messageId : String} {f : Fanout}

theorem observe_handedTo (targets : List Nat) (envelope : Envelope) (f : Option Fanout) :
    (targets.map (BrokerEvent.handedTo · envelope)).foldl (observe messageId) f = f := by
  induction targets with
  | nil => rfl
  | cons _ _ ih => simpa [observe] using ih

theorem observe_shown (receipt : DeliveryReceipt) (shown : List Nat) (f : Option Fanout) :
    (shown.map (BrokerEvent.shown · receipt)).foldl (observe messageId) f =
      if receipt.messageId = messageId ∧ receipt.isOk = false then f.map (·.addShown shown)
      else f := by
  induction shown generalizing f with
  | nil => cases f <;> simp [addShown]
  | cons k rest ih =>
    simp only [map_cons, foldl_cons, ih, observe]
    split_ifs
    · cases f <;> simp [addShown]
    · rfl

theorem fanout_sendToPrimary (envelope : Envelope) :
    (a.sendToPrimary envelope).fanout messageId = a.fanout messageId := by
  simp [fanout, sendToPrimary, observe]

theorem send_of_not_fansOut {envelope : Envelope} (h : ¬ a.FansOut envelope) :
    a.send envelope = a.sendToPrimary envelope := by
  unfold send
  by_cases hroute : routeForEnvelope envelope = .primary ∨ a.children.length = 1
  · exact if_pos hroute
  rw [if_neg hroute]
  by_cases htargets : a.connectedChildren = []
  · exact if_pos htargets
  have hfan : routeForEnvelope envelope = .fanout := by
    cases hr : routeForEnvelope envelope with
    | fanout => rfl
    | primary => exact absurd (Or.inl hr) hroute
  exact absurd ⟨hfan, fun hone => hroute (.inr hone), htargets⟩ h

theorem send_of_fansOut {envelope : Envelope} (h : a.FansOut envelope) :
    (a.send envelope).subscribers = a.subscribers ∧
    (a.send envelope).nextSubscriber = a.nextSubscriber ∧
    (a.send envelope).fanoutTracker = (if envelope.id = "" then a.fanoutTracker
      else trackFanout a.fanoutTracker envelope.id a.connectedChildren.length) ∧
    (a.send envelope).fanout messageId = if envelope.id = messageId then
      some ⟨a.sends.length, a.connectedChildren, [], [], (a.fanout messageId).any (·.accepted),
        none, []⟩
    else a.fanout messageId := by
  obtain ⟨hroute, hone, htargets⟩ := h
  have hsend : ¬ (routeForEnvelope envelope = .primary ∨ a.children.length = 1) := by
    simp [hroute, hone]
  unfold send
  rw [if_neg hsend, if_neg htargets]
  refine ⟨rfl, rfl, rfl, ?_⟩
  simp only [fanout, foldl_append, foldl_cons, observe_handedTo]
  rfl

theorem fanout_childReports (child : Nat) (receipt : DeliveryReceipt) :
    (a.childReports child receipt).fanout messageId = if receipt.messageId = messageId then
        if receipt.isOk then (a.fanout messageId).map accept
        else (a.fanout messageId).map fun f => (f.reports child a.subscribers).addShown
          (notify receipt a.fanoutTracker a.subscribers).2
      else a.fanout messageId := by
  simp only [fanout, childReports, foldl_append, foldl_cons, observe_shown, observe]
  by_cases hid : receipt.messageId = messageId
  · cases hok : receipt.isOk with
    | true => simp [hid]
    | false => simp [hid, Function.comp_def]
  · simp [hid]

theorem fanout_childSettles_of_fails (n : Nat) (s : FanoutSend) (child : Nat)
    {result : Except String DeliveryReceipt} (h : Fails result) :
    (a.childSettles n s child result).fanout messageId = if s.envelope.id = messageId then
        (a.fanout messageId).map (·.sendFails n child a.subscribers)
      else a.fanout messageId := by
  simp only [fanout, childSettles, foldl_append, foldl_cons, foldl_nil, observe]
  cases result with
  | error err => rfl
  | ok receipt =>
    have hok : receipt.isOk = false := h
    simp [hok]

theorem fanout_childSettles_of_ok (n : Nat) (s : FanoutSend) (child : Nat)
    {receipt : DeliveryReceipt} (h : receipt.isOk = true) :
    (a.childSettles n s child (.ok receipt)).fanout messageId =
      if receipt.messageId = messageId then (a.fanout messageId).map accept
      else a.fanout messageId := by
  simp [fanout, childSettles, observe, h]

/-! ## 4. The tracker after a step -/

variable {tracker : FanoutTracker} {entry : FanoutEntry} {receipt : DeliveryReceipt}

theorem get?_trackFanout {id : String} {targets : Nat}
    (h : (trackFanout tracker id targets).get? messageId = some entry) :
    if id = messageId then entry = ⟨id, targets, 0, false⟩
    else tracker.get? messageId = some entry := by
  have hput : ((tracker.put ⟨id, targets, 0, false⟩).get? messageId) = some entry := by
    unfold trackFanout at h
    dsimp only at h
    split_ifs at h
    · split at h
      · rw [get?_erase] at h
        split_ifs at h
        exact h
      · exact h
    · exact h
  rw [get?_put] at hput
  split_ifs at hput with hid
  · rw [if_pos hid]
    exact (some.inj hput).symm
  · rwa [if_neg hid]

theorem get?_markFanoutOk (tracker : FanoutTracker) (id messageId : String) :
    (markFanoutOk tracker id).get? messageId = if id = messageId then
      (tracker.get? messageId).map fun entry => { entry with okSeen := true }
    else tracker.get? messageId := by
  unfold markFanoutOk
  rw [get?_update]
  · split_ifs with hid
    · rw [hid]
    · rfl
  · exact fun _ => rfl

theorem notify_of_ok (hok : receipt.isOk = true) (subscribers : List Nat) :
    (notify receipt tracker subscribers).2 = subscribers ∧
    ∀ entry, (notify receipt tracker subscribers).1.get? messageId = some entry →
      ∃ entry₀, tracker.get? messageId = some entry₀ ∧ entry.targets = entry₀.targets ∧
        entry.failed = entry₀.failed ∧
        (entry.okSeen = true → entry₀.okSeen = true ∨ receipt.messageId = messageId) := by
  induction subscribers generalizing tracker with
  | nil => exact ⟨rfl, fun entry h => ⟨entry, h, rfl, rfl, .inl⟩⟩
  | cons k rest ih =>
    have hwrapped : wrapped tracker receipt = (markFanoutOk tracker receipt.messageId, true) := by
      simp [wrapped, hok]
    simp only [notify, hwrapped, if_true]
    obtain ⟨hshown, hentry⟩ := ih
    refine ⟨congrArg (k :: ·) hshown, fun entry h => ?_⟩
    obtain ⟨entry₁, h₁, htargets, hfailed, hseen⟩ := hentry entry h
    rw [get?_markFanoutOk] at h₁
    split_ifs at h₁ with hid
    · obtain ⟨entry₀, h₀, rfl⟩ := map_eq_some_iff.mp h₁
      exact ⟨entry₀, h₀, htargets, hfailed, fun _ => .inr hid⟩
    · exact ⟨entry₁, h₁, htargets, hfailed, hseen⟩

variable (hfailed : receipt.isOk = false)

include hfailed in
theorem notify_untracked (h : tracker.get? receipt.messageId = none) (subscribers : List Nat) :
    notify receipt tracker subscribers = (tracker, subscribers) := by
  induction subscribers with
  | nil => rfl
  | cons k rest ih => simp [notify, wrapped, hfailed, h, ih]

include hfailed in
section

variable (h : tracker.get? receipt.messageId = some entry)
include h

theorem notify_okSeen (hseen : entry.okSeen = true) (subscribers : List Nat) :
    notify receipt tracker subscribers = (tracker, []) := by
  induction subscribers with
  | nil => rfl
  | cons k rest ih => simp [notify, wrapped, hfailed, h, hseen, ih]

include hfailed in
theorem notify_last (hseen : entry.okSeen = false) (hlast : entry.targets ≤ entry.failed + 1)
    (subscribers : List Nat) :
    (notify receipt tracker subscribers).2 = subscribers ∧
    ∀ id, (notify receipt tracker subscribers).1.get? id = tracker.get? id ∨
      (id = receipt.messageId ∧ (notify receipt tracker subscribers).1.get? id = none) := by
  rcases subscribers with _ | ⟨k, rest⟩
  · exact ⟨rfl, fun _ => .inl rfl⟩
  have hgone : (tracker.erase receipt.messageId).get? receipt.messageId = none := by
    simp [get?_erase]
  have hrest := notify_untracked hfailed hgone rest
  have hwrapped : wrapped tracker receipt = (tracker.erase receipt.messageId, true) := by
    simp [wrapped, hfailed, h, hseen, hlast]
  simp only [notify, hwrapped, hrest, if_true, true_and]
  intro id
  rw [get?_erase]
  split_ifs with hid
  · exact .inr ⟨hid.symm, rfl⟩
  · exact .inl rfl

include hfailed in
theorem notify_held
    (hseen : entry.okSeen = false) (hheld : entry.failed + 1 < entry.targets) (k : Nat) :
    (notify receipt tracker [k]).2 = [] ∧
    ∀ id, (notify receipt tracker [k]).1.get? id =
      if receipt.messageId = id then some { entry with failed := entry.failed + 1 }
      else tracker.get? id := by
  have hwrapped : wrapped tracker receipt =
      (tracker.update receipt.messageId fun e => { e with failed := e.failed + 1 }, false) := by
    simp [wrapped, hfailed, h, hseen, hheld]
  simp only [notify, hwrapped]
  refine ⟨rfl, fun id => ?_⟩
  rw [get?_update]
  · simp [h]
  · exact fun _ => rfl

end

theorem notify_other (subscribers : List Nat) {id : String} (h : receipt.messageId ≠ id) :
    (notify receipt tracker subscribers).1.get? id = tracker.get? id := by
  induction subscribers generalizing tracker with
  | nil => rfl
  | cons k rest ih =>
    simp only [notify]
    rw [ih]
    unfold wrapped
    split_ifs
    · rw [get?_markFanoutOk, if_neg h]
    split
    · rfl
    split_ifs
    · rfl
    · rw [get?_erase, if_neg h]
    rw [get?_update]
    · exact if_neg h
    · exact fun _ => rfl

end MultiBrokerMessagingAdapter

/-! ## 5. A fan-out and its entry -/

open MultiBrokerMessagingAdapter

namespace Fanout

variable {f : Fanout} {messageId : String} {tracker tracker' : FanoutTracker}
  {listeners : List Nat} {child : Nat}

/-- A fan-out has been answered as it should be, and the entry that the tracker may hold for it
    counts the targets that have reported a failure. -/
structure Follows (f : Fanout) (tracker : FanoutTracker) (messageId : String) : Prop where
  targets : f.targets.Nodup
  shown : f.shown = f.settledFor.getD []
  listeners : ∀ listeners, f.settledFor = some listeners → listeners.Nodup
  pending : f.settledFor = none → f.accepted = true ∨ ∃ x ∈ f.targets, ¬ f.HasFailed x
  settled : f.settledFor.isSome → ∀ x ∈ f.targets, x ∈ f.reported
  reported : f.accepted = false → f.reported.Nodup ∧ ∀ x ∈ f.reported, x ∈ f.targets
  noted : ∀ entry ∈ tracker.get? messageId, entry.okSeen = true → f.accepted = true
  counted : ∀ entry ∈ tracker.get? messageId, entry.targets = f.targets.length ∧
    (f.accepted = false → f.settledFor = none → entry.failed = f.reported.length)

theorem Follows.exact (h : f.Follows tracker messageId) : f.Exact where
  pending := h.pending
  silent hnone k := by
    rw [h.shown, hnone]
    exact count_nil
  once L hL := by
    refine ⟨fun x hx => .inl (h.settled (by simp [hL]) x hx), fun k => ?_⟩
    rw [h.shown, hL]
    exact (h.listeners L hL).count

theorem Follows.congr (h : f.Follows tracker messageId)
    (heq : ∀ entry ∈ tracker'.get? messageId, entry ∈ tracker.get? messageId) :
    f.Follows tracker' messageId :=
  { h with
    noted := fun entry hentry => h.noted entry (heq entry hentry)
    counted := fun entry hentry => h.counted entry (heq entry hentry) }

theorem settle_of_not (h : f.accepted = true ∨ f.settledFor.isSome ∨ ¬ f.AllFailed) :
    f.settle listeners = f := by
  unfold settle
  rw [if_neg]
  rintro ⟨haccepted, hnone, hall⟩
  rcases h with h | h | h
  · rw [haccepted] at h
    cases h
  · rw [hnone] at h
    cases h
  · exact h hall

section

variable (h : f.Follows tracker messageId)
include h

theorem Follows.accept
    (hentry : ∀ entry ∈ tracker'.get? messageId, ∃ entry₀ ∈ tracker.get? messageId,
      entry.targets = entry₀.targets) : f.accept.Follows tracker' messageId where
  targets := h.targets
  shown := h.shown
  listeners := h.listeners
  pending _ := .inl rfl
  settled := h.settled
  reported haccepted := by cases haccepted
  noted _ _ _ := rfl
  counted entry hmem := by
    obtain ⟨entry₀, h₀, htargets⟩ := hentry entry hmem
    exact ⟨htargets.trans (h.counted entry₀ h₀).1, fun haccepted => by cases haccepted⟩

theorem Follows.sendFails {send : Nat}
    (hundecided : f.send = send → Undecided f child) :
    (f.sendFails send child listeners).Follows tracker messageId := by
  unfold Fanout.sendFails
  split_ifs with hsend
  · have hpending : f.settledFor = none → f.accepted = true ∨
        ∃ x ∈ f.targets, ¬ HasFailed { f with sendFailed := child :: f.sendFailed } x := by
      intro hnone
      rcases h.pending hnone with haccepted | ⟨x, hx, hfailed⟩
      · exact .inl haccepted
      by_cases hchild : x = child
      · rcases hundecided hsend with haccepted | hfailed' | ⟨y, hy, hne, hfailed'⟩
        · exact .inl haccepted
        · exact absurd (hchild ▸ hfailed') hfailed
        · exact .inr ⟨y, hy, by simpa [HasFailed, hne] using hfailed'⟩
      · exact .inr ⟨x, hx, by simpa [HasFailed, hchild] using hfailed⟩
    rw [settle_of_not]
    · exact { h with pending := hpending }
    by_cases hnone : f.settledFor = none
    · rcases hpending hnone with haccepted | ⟨x, hx, hfailed⟩
      · exact .inl haccepted
      · exact .inr (.inr fun hall => hfailed (hall x hx))
    · exact .inr (.inl (isSome_iff_ne_none.mpr hnone))
  · exact h

theorem Follows.swallow (haccepted : f.accepted = true) :
    ((f.reports child listeners).addShown []).Follows tracker messageId := by
  have hreports : f.reports child listeners = { f with reported := child :: f.reported } :=
    settle_of_not (.inl haccepted)
  have hnot : f.accepted = false → False := fun hfalse => by simp [haccepted] at hfalse
  rw [hreports]
  exact {
    targets := h.targets
    shown := by simpa [addShown] using h.shown
    listeners := h.listeners
    pending := fun _ => .inl haccepted
    settled := fun hsome x hx => mem_cons_of_mem _ (h.settled hsome x hx)
    reported := fun hfalse => (hnot hfalse).elim
    noted := fun _ _ _ => haccepted
    counted := fun entry hentry => ⟨(h.counted entry hentry).1, fun hfalse => (hnot hfalse).elim⟩ }

end

variable {receipt : DeliveryReceipt} {entry : FanoutEntry} {a : MultiBrokerMessagingAdapter}

theorem Follows.last (h : f.Follows tracker receipt.messageId) (hfailed : receipt.isOk = false)
    (hentry : tracker.get? receipt.messageId = some entry) (hseen : entry.okSeen = false)
    (haccepted : f.accepted = false) (hnone : f.settledFor = none)
    (hchild : child ∈ f.targets) (hnew : child ∉ f.reported)
    (hothers : ∀ x ∈ f.targets, x = child ∨ x ∈ f.reported) (hnodup : listeners.Nodup) :
    ((f.reports child listeners).addShown
      (notify receipt tracker listeners).2).Follows
      (notify receipt tracker listeners).1 receipt.messageId := by
  obtain ⟨htargets, hcount⟩ := h.counted entry hentry
  have hcovered : ∀ x ∈ f.targets, x ∈ child :: f.reported := fun x hx =>
    mem_cons.mpr (hothers x hx)
  have hlength : f.targets.length ≤ f.reported.length + 1 :=
    (h.targets.subperm hcovered).length_le
  have hlast : entry.targets ≤ entry.failed + 1 := by
    rw [htargets, hcount haccepted hnone]
    exact hlength
  obtain ⟨hshown, htracker⟩ :=
    notify_last hfailed hentry hseen hlast listeners
  have hreports : f.reports child listeners =
      { f with reported := child :: f.reported, settledFor := some listeners } := by
    have hall : AllFailed { f with reported := child :: f.reported } := fun x hx =>
      .inl (hcovered x hx)
    unfold reports settle
    rw [if_pos ⟨haccepted, hnone, hall⟩]
  rw [hshown, hreports]
  refine {
    targets := h.targets
    shown := ?_
    listeners := ?_
    pending := fun hsome => by cases hsome
    settled := fun _ => hcovered
    reported := fun _ => ?_
    noted := fun e he hok => ?_
    counted := fun e he => ?_ }
  · have hempty : f.shown = [] := by rw [h.shown, hnone]; rfl
    simp [addShown, hempty]
  · rintro L hL
    cases hL
    exact hnodup
  · obtain ⟨hreported, hsub⟩ := h.reported haccepted
    refine ⟨nodup_cons.mpr ⟨hnew, hreported⟩, fun x hx => ?_⟩
    rcases mem_cons.mp hx with rfl | hx
    · exact hchild
    · exact hsub x hx
  · rcases htracker receipt.messageId with heq | ⟨-, hgone⟩
    · exact h.noted e (heq ▸ he) hok
    · simp [hgone] at he
  · rcases htracker receipt.messageId with heq | ⟨-, hgone⟩
    · exact ⟨(h.counted e (heq ▸ he)).1, fun _ hsome => by cases hsome⟩
    · simp [hgone] at he

theorem Follows.held (h : f.Follows tracker receipt.messageId) (hfailed : receipt.isOk = false)
    (hentry : tracker.get? receipt.messageId = some entry) (hseen : entry.okSeen = false)
    (haccepted : f.accepted = false) (hnone : f.settledFor = none)
    (hchild : child ∈ f.targets) (hnew : child ∉ f.reported)
    (hother : ∃ x ∈ f.targets, x ≠ child ∧ ¬ f.HasFailed x)
    (hone : listeners.length = 1 ∨ f.targets.length = 1) :
    ((f.reports child listeners).addShown
      (notify receipt tracker listeners).2).Follows
      (notify receipt tracker listeners).1 receipt.messageId := by
  obtain ⟨x, hx, hne, hpending⟩ := hother
  obtain ⟨htargets, hcount⟩ := h.counted entry hentry
  obtain ⟨hreported, hsub⟩ := h.reported haccepted
  have hnodup : (child :: f.reported).Nodup := nodup_cons.mpr ⟨hnew, hreported⟩
  have hcons : ∀ y ∈ child :: f.reported, y ∈ f.targets := by
    intro y hy
    rcases mem_cons.mp hy with rfl | hy
    · exact hchild
    · exact hsub y hy
  have hlength : f.reported.length + 2 ≤ f.targets.length := by
    have hnodup' : (x :: child :: f.reported).Nodup := by
      refine nodup_cons.mpr ⟨fun hmem => ?_, hnodup⟩
      rcases mem_cons.mp hmem with heq | hmem
      · exact hne heq
      · exact hpending (.inl hmem)
    have hsub' : ∀ y ∈ x :: child :: f.reported, y ∈ f.targets := by
      intro y hy
      rcases mem_cons.mp hy with rfl | hy
      · exact hx
      · exact hcons y hy
    exact (hnodup'.subperm hsub').length_le
  obtain ⟨k, rfl⟩ : ∃ k, listeners = [k] := by
    rcases hone with hone | hone
    · exact length_eq_one_iff.mp hone
    · omega
  have hheld : entry.failed + 1 < entry.targets := by
    rw [htargets, hcount haccepted hnone]
    exact hlength
  obtain ⟨hshown, htracker⟩ :=
    notify_held hfailed hentry hseen hheld k
  have hstill : ¬ HasFailed { f with reported := child :: f.reported } x := by
    simpa [HasFailed, hne] using hpending
  have hreports : f.reports child [k] = { f with reported := child :: f.reported } :=
    settle_of_not (.inr (.inr fun hall => hstill (hall x hx)))
  rw [hshown, hreports]
  have hget : ∀ e ∈ (notify receipt tracker [k]).1.get?
      receipt.messageId, e = { entry with failed := entry.failed + 1 } := by
    intro e he
    rw [htracker, if_pos rfl] at he
    exact (some.inj he).symm
  exact {
    targets := h.targets
    shown := by simpa [addShown] using h.shown
    listeners := h.listeners
    pending := fun _ => .inr ⟨x, hx, hstill⟩
    settled := fun hsome => by simp [addShown, hnone] at hsome
    reported := fun _ => ⟨hnodup, hcons⟩
    noted := fun e he hok => by
      rw [hget e he] at hok
      simp [hseen] at hok
    counted := fun e he => by
      rw [hget e he]
      exact ⟨htargets, fun _ _ => congrArg (· + 1) (hcount haccepted hnone)⟩ }

theorem Follows.countsOnce (h : f.Follows a.fanoutTracker receipt.messageId)
    (hfailed : receipt.isOk = false)
    (hentry : a.fanoutTracker.get? receipt.messageId = some entry)
    (hseen : entry.okSeen = false) (hcounts : a.CountsOnce f child)
    (hnodup : a.subscribers.Nodup) :
    ((f.reports child a.subscribers).addShown
      (notify receipt a.fanoutTracker a.subscribers).2).Follows
      (notify receipt a.fanoutTracker a.subscribers).1
      receipt.messageId := by
  obtain ⟨haccepted, hchild, hnew, hone, hlast⟩ := hcounts
  have hnone : f.settledFor = none := by
    by_contra hsome
    exact hnew (h.settled (isSome_iff_ne_none.mpr hsome) child hchild)
  by_cases hothers : ∀ x ∈ f.targets, x = child ∨ f.HasFailed x
  · exact h.last hfailed hentry hseen haccepted hnone hchild hnew (hlast hothers) hnodup
  · push Not at hothers
    exact h.held hfailed hentry hseen haccepted hnone hchild hnew hothers hone

end Fanout

namespace MultiBrokerMessagingAdapter

variable {a : MultiBrokerMessagingAdapter} {messageId : String} {f : Fanout}

/-! ## 6. Steps -/

/-- The invariant: every fan-out has been answered as it should be, and a message without an id
    is not tracked. -/
structure FanoutInv (a : MultiBrokerMessagingAdapter) : Prop where
  fresh : ∀ k ∈ a.subscribers, k < a.nextSubscriber
  nodup : a.subscribers.Nodup
  nameless : a.fanoutTracker.get? "" = none
  follows : ∀ messageId, ∀ f ∈ a.fanout messageId, f.Follows a.fanoutTracker messageId

theorem FanoutInv.start (primary : MessagingState) (secondaries : List MessagingState) :
    FanoutInv (start primary secondaries) where
  fresh _ h := by cases h
  nodup := nodup_nil
  nameless := rfl
  follows _ _ h := by cases h

theorem nodup_connectedChildren : a.connectedChildren.Nodup := nodup_range.filter _

theorem get?_send {envelope : Envelope} {entry : FanoutEntry} (hfan : a.FansOut envelope)
    (hnameless : a.fanoutTracker.get? "" = none)
    (h : (a.send envelope).fanoutTracker.get? messageId = some entry) :
    if envelope.id = messageId then entry = ⟨envelope.id, a.connectedChildren.length, 0, false⟩
    else a.fanoutTracker.get? messageId = some entry := by
  rw [(@send_of_fansOut a messageId envelope hfan).2.2.1] at h
  split_ifs at h with hempty
  · split_ifs with hid
    · rw [← hid, hempty, hnameless] at h
      cases h
    · exact h
  · exact get?_trackFanout h

section

variable (h : FanoutInv a)
include h

theorem FanoutInv.send (envelope : Envelope) : FanoutInv (a.send envelope) := by
  by_cases hfan : a.FansOut envelope
  · obtain ⟨hsubscribers, hnext, htracker, -⟩ := @send_of_fansOut a "" envelope hfan
    constructor
    · rw [hsubscribers, hnext]
      exact h.fresh
    · rw [hsubscribers]
      exact h.nodup
    · apply eq_none_iff_forall_ne_some.mpr
      intro entry hentry
      rw [htracker] at hentry
      split_ifs at hentry with hempty
      · simp [h.nameless] at hentry
      have := get?_trackFanout hentry
      rw [if_neg hempty, h.nameless] at this
      cases this
    · intro id f hf
      have hentry (entry : FanoutEntry) := @get?_send a id envelope entry hfan h.nameless
      rw [(send_of_fansOut hfan).2.2.2] at hf
      split_ifs at hf hentry with hid
      · cases hf
        obtain ⟨x, hx⟩ := exists_mem_of_ne_nil _ hfan.2.2
        exact {
          targets := nodup_connectedChildren
          shown := rfl
          listeners := fun _ hL => by cases hL
          pending := fun _ => .inr ⟨x, hx, by simp [HasFailed]⟩
          settled := fun hsome => by cases hsome
          reported := fun _ => ⟨nodup_nil, fun _ hmem => by cases hmem⟩
          noted := fun entry hmem hseen => by
            rw [hentry entry hmem] at hseen
            cases hseen
          counted := fun entry hmem => by
            rw [hentry entry hmem]
            exact ⟨rfl, fun _ _ => rfl⟩ }
      · exact (h.follows id f hf).congr hentry
  · rw [send_of_not_fansOut hfan]
    exact ⟨h.fresh, h.nodup, h.nameless,
      fun id f hf => h.follows id f (fanout_sendToPrimary envelope ▸ hf)⟩

theorem FanoutInv.childSettles {n child : Nat} {s : FanoutSend}
    {result : Except String DeliveryReceipt}
    (hundecided : Fails result → ∀ f ∈ a.fanout s.envelope.id, f.send = n → Undecided f child) :
    FanoutInv (a.childSettles n s child result) := by
  by_cases hfails : Fails result
  · have htracker : (a.childSettles n s child result).fanoutTracker = a.fanoutTracker := by
      cases result with
      | error err => rfl
      | ok receipt =>
        have hok : receipt.isOk = false := hfails
        simp [MultiBrokerMessagingAdapter.childSettles, hok]
    refine ⟨h.fresh, h.nodup, htracker ▸ h.nameless, fun id f hf => ?_⟩
    rw [fanout_childSettles_of_fails n s child hfails] at hf
    rw [htracker]
    split_ifs at hf with hid
    · obtain ⟨f₀, hf₀, rfl⟩ := map_eq_some_iff.mp hf
      exact (h.follows id f₀ hf₀).sendFails fun hsend =>
        hundecided hfails f₀ (hid ▸ hf₀) hsend
    · exact h.follows id f hf
  · rcases result with err | receipt
    · exact absurd trivial hfails
    have hok : receipt.isOk = true := by simpa [Fails] using hfails
    have htracker : (a.childSettles n s child (.ok receipt)).fanoutTracker =
        markFanoutOk a.fanoutTracker receipt.messageId := by
      simp [MultiBrokerMessagingAdapter.childSettles, hok]
    refine ⟨h.fresh, h.nodup, ?_, fun id f hf => ?_⟩
    · rw [htracker, get?_markFanoutOk, h.nameless]
      split_ifs <;> rfl
    rw [fanout_childSettles_of_ok n s child hok] at hf
    rw [htracker]
    split_ifs at hf with hid
    · obtain ⟨f₀, hf₀, rfl⟩ := map_eq_some_iff.mp hf
      apply (h.follows id f₀ hf₀).accept
      intro entry hentry
      rw [get?_markFanoutOk, if_pos hid] at hentry
      obtain ⟨entry₀, h₀, rfl⟩ := map_eq_some_iff.mp hentry
      exact ⟨entry₀, h₀, rfl⟩
    · apply (h.follows id f hf).congr
      intro entry hentry
      rwa [get?_markFanoutOk, if_neg hid] at hentry

omit h in
theorem childReports_fanoutTracker (child : Nat) (receipt : DeliveryReceipt) :
    (a.childReports child receipt).fanoutTracker =
      (notify receipt a.fanoutTracker a.subscribers).1 := rfl

theorem FanoutInv.childReports {child : Nat} {receipt : DeliveryReceipt}
    (hcounted : a.Counted (.childReports child receipt)) :
    FanoutInv (a.childReports child receipt) := by
  have hnameless : (a.childReports child receipt).fanoutTracker.get? "" = none := by
    rw [childReports_fanoutTracker]
    by_cases hempty : receipt.messageId = ""
    · rcases hok : receipt.isOk with _ | _
      · rw [notify_untracked hok (hempty ▸ h.nameless)]
        exact h.nameless
      apply eq_none_iff_forall_ne_some.mpr
      intro entry hentry
      obtain ⟨entry₀, h₀, -⟩ := (notify_of_ok hok a.subscribers).2 entry hentry
      simp [h.nameless] at h₀
    · rw [notify_other _ hempty]
      exact h.nameless
  refine ⟨h.fresh, h.nodup, hnameless, fun id f hf => ?_⟩
  rw [fanout_childReports] at hf
  rw [childReports_fanoutTracker]
  split_ifs at hf with hid hok
  · obtain ⟨f₀, hf₀, rfl⟩ := map_eq_some_iff.mp hf
    apply (h.follows id f₀ hf₀).accept
    intro entry hentry
    obtain ⟨entry₀, h₀, htargets, -⟩ := (notify_of_ok hok a.subscribers).2 entry hentry
    exact ⟨entry₀, h₀, htargets⟩
  · obtain ⟨f₀, hf₀, rfl⟩ := map_eq_some_iff.mp hf
    subst hid
    have hfailed : receipt.isOk = false := by simpa using hok
    obtain ⟨entry, hentry, hcase⟩ := hcounted hfailed f₀ hf₀
    have hfollows := h.follows _ f₀ hf₀
    cases hseen : entry.okSeen with
    | true =>
      rw [notify_okSeen hfailed hentry hseen]
      exact hfollows.swallow (hfollows.noted entry hentry hseen)
    | false =>
      have honce : a.CountsOnce f₀ child := hcase.resolve_left (by simp [hseen])
      exact hfollows.countsOnce hfailed hentry hseen honce h.nodup
  · apply (h.follows id f hf).congr
    intro entry hentry
    rwa [notify_other _ hid] at hentry

theorem FanoutInv.onReceipt : FanoutInv a.onReceipt where
  fresh k hk := by
    rcases mem_append.mp hk with hk | hk
    · exact Nat.lt_succ_of_lt (h.fresh k hk)
    · rw [mem_singleton.mp hk]
      exact Nat.lt_succ_self _
  nodup := by
    apply nodup_append.mpr
    refine ⟨h.nodup, nodup_singleton _, fun k hk k' hk' heq => ?_⟩
    rw [mem_singleton.mp hk'] at heq
    exact absurd (h.fresh k hk) (by omega)
  nameless := h.nameless
  follows := h.follows

theorem FanoutInv.unsubscribe (k : Nat) : FanoutInv (a.unsubscribe k) where
  fresh k' hk' := h.fresh k' (mem_filter.mp hk').1
  nodup := h.nodup.filter _
  nameless := h.nameless
  follows := h.follows

theorem FanoutInv.step {a' : MultiBrokerMessagingAdapter} {i : Input}
    (hcounted : a.Counted i) (hstep : a.step i = some a') : FanoutInv a' := by
  cases i with
  | childState child state =>
    cases hstep
    exact ⟨h.fresh, h.nodup, h.nameless, h.follows⟩
  | send envelope =>
    cases hstep
    exact h.send envelope
  | childSettles n child result =>
    obtain ⟨s, hs, hstep⟩ := bind_eq_some_iff.mp hstep
    split_ifs at hstep
    cases hstep
    exact h.childSettles fun hfails => hcounted hfails s hs
  | childReports child receipt =>
    simp only [MultiBrokerMessagingAdapter.step] at hstep
    split_ifs at hstep
    cases hstep
    exact h.childReports hcounted
  | onReceipt =>
    cases hstep
    exact h.onReceipt
  | unsubscribe k =>
    cases hstep
    exact h.unsubscribe k

end

/-! ## 7. What the subscribers are shown -/

theorem childReports_ok (child : Nat) {receipt : DeliveryReceipt} (hok : receipt.isOk = true) :
    (a.childReports child receipt).events = a.events ++
      .reported child receipt a.subscribers :: a.subscribers.map (.shown · receipt) := by
  have hshown := (@notify_of_ok "" a.fanoutTracker receipt hok a.subscribers).1
  simp [childReports, hshown]

/-- **Receipts are monotone and exact** in every run in which failures are counted once; and
    every ok receipt is passed on to every subscriber in any run. -/
theorem receipts_exact (primary : MessagingState) (secondaries : List MessagingState) :
    (∀ a, Reaches step Counted (start primary secondaries) a →
      ∀ messageId, ∀ f ∈ a.fanout messageId, f.Exact) ∧
    ∀ a, Reaches step (fun _ _ => True) (start primary secondaries) a →
      ∀ child receipt a', receipt.isOk = true → a.step (.childReports child receipt) = some a' →
        a'.events = a.events ++
          .reported child receipt a.subscribers :: a.subscribers.map (.shown · receipt) := by
  constructor
  · intro a ha messageId f hf
    have hinv : FanoutInv a := ha.invariant (.start primary secondaries)
      fun _ _ _ h hcounted hstep => h.step hcounted hstep
    exact (hinv.follows messageId f hf).exact
  · intro a _ child receipt a' hok hstep
    simp only [step] at hstep
    split_ifs at hstep
    cases hstep
    exact childReports_ok child hok

def inboxMessage : Envelope := ⟨"m1", INBOX_MESSAGE_TYPE, ""⟩

def failedReceipt : DeliveryReceipt := ⟨"m1", .failed, none⟩

/-- One subscriber and two brokers that both report a failure. -/
theorem receipts_exact_all_failed : ∃ a, Reaches step Counted (start .connected [.connected]) a ∧
      ∀ f ∈ a.fanout "m1", f.Exact ∧ f.settledFor = some [0] := by
  obtain ⟨a, ha, hsettled⟩ := Reaches.of_exec step Counted (start .connected [.connected])
    [.onReceipt, .send inboxMessage, .childReports 0 failedReceipt, .childReports 1 failedReceipt]
    (fun a => (a.fanout "m1").all fun f => f.settledFor == some [0]) (by decide +kernel)
  refine ⟨a, ha, fun f hf => ⟨(receipts_exact _ _).1 a ha "m1" f hf, ?_⟩⟩
  rw [hf] at hsettled
  simpa using hsettled

/-- With two subscribers the first failure is shown to one of them while the other broker may
    still accept; and of two failures nobody is shown one if one of them is a rejected send. -/
theorem failure_shown_early_or_never :
    (∃ a, Reaches step (fun _ _ => True) (start .connected [.connected]) a ∧
      ∃ f ∈ a.fanout "m1", f.settledFor = none ∧ f.shown = [1] ∧ ¬ f.Exact) ∧
    ∃ a, Reaches step (fun _ _ => True) (start .connected [.connected]) a ∧
      ∃ f ∈ a.fanout "m1", f.settledFor = some [0] ∧ f.shown = [] ∧ ¬ f.Exact := by
  constructor
  · obtain ⟨a, ha, htest⟩ := Reaches.of_exec step (fun _ _ => True) (start .connected [.connected])
      [.onReceipt, .onReceipt, .send inboxMessage, .childReports 0 failedReceipt]
      (fun a => decide (∃ f ∈ a.fanout "m1", f.settledFor = none ∧ f.shown = [1]))
      (by decide +kernel)
    obtain ⟨f, hf, hnone, hshown⟩ := of_decide_eq_true htest
    refine ⟨a, ha, f, hf, hnone, hshown, fun hexact => ?_⟩
    have := hexact.silent hnone 1
    rw [hshown] at this
    exact absurd this (by decide)
  · obtain ⟨a, ha, htest⟩ := Reaches.of_exec step (fun _ _ => True) (start .connected [.connected])
      [.onReceipt, .send inboxMessage, .childReports 0 failedReceipt,
        .childSettles 0 1 (.error "Send timeout")]
      (fun a => decide (∃ f ∈ a.fanout "m1", f.settledFor = some [0] ∧ f.shown = []))
      (by decide +kernel)
    obtain ⟨f, hf, hsettled, hshown⟩ := of_decide_eq_true htest
    refine ⟨a, ha, f, hf, hsettled, hshown, fun hexact => ?_⟩
    have := (hexact.once [0] hsettled).2 0
    rw [hshown] at this
    exact absurd this (by decide)

end MultiBrokerMessagingAdapter

end WebOfTrust
