/-
  **What the app keeps beside the library** (`adapters/rltp/app-data.ts`): the lines of the
  conversations, the encounter cache, and the ledger of what was last booked for a contact.
-/
import WebOfTrust.KeyedTable

namespace WebOfTrust

open KeyedTable

/-! ## 1. Lines -/

abbrev ContactId := String
abbrev PromptId := String

inductive SystemKind where
  | mutual
  | nowMutual
  | remet
  | incoming
  | outgoing
  | trustOut
  | trustIn
  | trustWithdrawn
  | blocked
  | unblocked
deriving DecidableEq

inductive LineBasis where
  | event
  | observed

/-- The id of a line: `sys:…`, `dec:…`, `msg:in:…` and `msg:out:…`. -/
inductive LineId where
  | system (contactId : ContactId) (commitSeq : Nat) (kind : SystemKind)
  | decision (promptId : PromptId)
  | received (inboxId : String)
  | own (draftKey : String)
deriving DecidableEq

inductive HeldReason where
  | notReady
  | blocked
  | noOwnChannel
deriving DecidableEq

inductive QueuedReason where
  | offline
  | transportUnreachable
  | carrierRetry
deriving DecidableEq

inductive FailedReason where
  | unroutable
  | oversize
  | rejected (code : Option String)
  | expired
deriving DecidableEq

inductive DeliveryState where
  | held (reason : HeldReason)
  | expired
  | queued (reason : QueuedReason)
  | submitted
  | accepted (held : Bool)
  | delivered (late : Bool)
  | failed (reason : FailedReason)
deriving DecidableEq

inductive LineDirection where
  | incoming
  | outgoing
deriving DecidableEq

/-- A message in the history; `digest`, `held` and `status` are of own messages. -/
structure MessageLine where
  id : LineId
  contactId : ContactId
  at_ : Nat
  dir : LineDirection
  text : String
  mid : Option String
  replyTo : Option String
  sentAt : Nat
  receivedAt : Option Nat
  digest : Option String
  held : Option HeldReason
  status : Option DeliveryState
deriving DecidableEq

inductive DecisionChoice where
  | accept
  | decline

inductive LogLine where
  | system (contactId : ContactId) (commitSeq : Nat) (kind : SystemKind) (at_ : Nat)
      (basis : LineBasis)
  | decision (promptId : PromptId) (contactId : ContactId) (at_ : Nat)
      (resolution : Option DecisionChoice)
  | message (line : MessageLine)

def LogLine.id : LogLine → LineId
  | .system contactId commitSeq kind _ _ => .system contactId commitSeq kind
  | .decision promptId _ _ _ => .decision promptId
  | .message line => line.id

abbrev LogStore := KeyedTable LogLine.id

def LogStore.writeLines (log : LogStore) (lines : List LogLine) : LogStore :=
  lines.foldl put log

/-! ## 2. Encounters and ledger -/

structure OwnCard where
  challenge : String
  qr : String
  issuedAt : Nat
  expiresAt : Nat

structure SentCard where
  contactId : ContactId
  qr : String

structure MetContact where
  contactId : ContactId
  metAt : Nat
  lastMetAt : Nat

structure CapturedCard where
  anchor : String
  contactId : ContactId

structure CounterWindow where
  contactId : ContactId
  until_ : Nat

structure EncounterCache where
  own : KeyedTable OwnCard.challenge
  sent : KeyedTable SentCard.contactId
  met : KeyedTable MetContact.contactId
  capturedBy : KeyedTable CapturedCard.anchor
  counter : KeyedTable CounterWindow.contactId

def EncounterCache.empty : EncounterCache := ⟨.empty, .empty, .empty, .empty, .empty⟩

inductive Verification where
  | unverified
  | outgoing
  | incoming
  | mutual
deriving DecidableEq

structure ShownProfile where
  name : Option String
  image : Option String

/-- One booked contact; `shown` is absent in entries of older versions. -/
structure LedgerContact where
  id : ContactId
  verification : Verification
  given : Bool
  received : Bool
  blocked : Bool
  shown : Option ShownProfile

inductive PromptKind where
  | encounterConfirm
  | other

structure LedgerPrompt where
  id : PromptId
  contactId : Option ContactId
  kind : PromptKind
  openedAt : Nat

structure Ledger where
  contacts : KeyedTable LedgerContact.id
  prompts : KeyedTable LedgerPrompt.id

def Ledger.empty : Ledger := ⟨.empty, .empty⟩

/-! ## 3. Writes -/

variable {log : LogStore} {line : LogLine} {lines : List LogLine} {id : LineId}

theorem get?_writeLines_cases (log : LogStore) (lines : List LogLine) (id : LineId) :
    (∃ line ∈ lines, line.id = id ∧ (log.writeLines lines).get? id = some line) ∨
      (∀ line ∈ lines, line.id ≠ id) ∧ (log.writeLines lines).get? id = log.get? id :=
  log.get?_foldl_put lines id

theorem has_writeLines (h : log.has id = true) : (log.writeLines lines).has id = true := by
  rcases get?_writeLines_cases log lines id with ⟨line, -, -, hget⟩ | ⟨-, hget⟩
  · simp [has, hget]
  · simpa [has, hget] using h

end WebOfTrust
