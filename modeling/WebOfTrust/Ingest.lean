/-
  **What the app keeps of one sync step** (`adapters/rltp/ingest.ts`): the encounter cache,
  the ledger and the new lines, from the events taken over and from the views at the fence.

  Every entry of the inbox becomes one line, and its id is handed back to the library once
  the lines are written (`received_lines`).
-/
import WebOfTrust.AppData

namespace WebOfTrust

open List

/-! ## 1. What the library shows -/

/-- A card of an encounter: its link and what its challenge says about its issue. -/
structure EncounterCard where
  link : String
  issuedAt : Option Nat
deriving DecidableEq

inductive HolderEventType where
  | encounterShown (challenge : String) (card : EncounterCard)
  | encounterScanned (contactId : ContactId) (card : EncounterCard)
  | encounterRecorded (contactId : ContactId)
  | contactChained (contactId : ContactId)
  | other
deriving DecidableEq

structure HolderEvent where
  eventId : String
  commitSeq : Nat
  type : HolderEventType
deriving DecidableEq

structure ContactView where
  id : ContactId
  verification : Verification
  displayName : Option String
  image : Option String
  given : Bool
  received : Bool
  blocked : Bool
  canMessage : Bool

structure PromptView where
  id : PromptId
  kind : PromptKind
  contactId : Option ContactId
  openedAt : Nat
  expiresAt : Option Nat

structure InboxMessage where
  id : String
  text : String
  mid : String
  replyTo : Option String
  sentAt : Nat
  receivedAt : Nat
  displayAt : Nat
deriving DecidableEq

/-- An entry of the inbox; the contact is absent once the relationship has departed. -/
structure InboxMessageView extends InboxMessage where
  contactId : Option ContactId

inductive AwaitingReason where
  | offline
  | transportUnreachable
  | other

inductive DeliveryFailure where
  | unroutable
  | oversize
  | rejectedByReceiver
  | other

inductive DeliveryStatus where
  | submitted
  | accepted (held : Bool)
  | delivered (late : Bool)
  | failed (reason : DeliveryFailure) (code : Option String)
  | other

structure DeliveryItemView where
  awaiting : Option AwaitingReason
  status : DeliveryStatus
  submittedAt : Nat

/-! ## 2. Sender status -/

def deliveryOf (items : List DeliveryItemView) : Option DeliveryState :=
  match items.head? with
  | none => none
  | some item =>
    match item.awaiting with
    | some .offline => some (.queued .offline)
    | some .transportUnreachable => some (.queued .transportUnreachable)
    | some .other => some (.queued .carrierRetry)
    | none =>
      match item.status with
      | .submitted => some .submitted
      | .accepted held => some (.accepted held)
      | .delivered late => some (.delivered late)
      | .failed .unroutable _ => some (.failed .unroutable)
      | .failed .oversize _ => some (.failed .oversize)
      | .failed .rejectedByReceiver code => some (.failed (.rejected code))
      | .failed .other _ => some (.failed .expired)
      | .other => some .submitted

def statusFinal (status : Option DeliveryState) : Bool :=
  match status with
  | some (.delivered _) => true
  | _ => false

/-! ## 3. Encounters -/

def DAY : Nat := 86400000

structure StatusView where
  line : MessageLine
  items : List DeliveryItemView

structure IngestOutput where
  encounters : EncounterCache
  ledger : Ledger
  lines : List LogLine
  take : List String

section

variable (input : IngestInput)

end

def DEPARTED : ContactId := "-departed"

def receivedLine (m : InboxMessageView) : MessageLine where
  id := .received m.id
  contactId := m.contactId.getD DEPARTED
  at_ := m.displayAt
  dir := .incoming
  text := m.text
  mid := some m.mid
  replyTo := m.replyTo
  sentAt := m.sentAt
  receivedAt := some m.receivedAt
  digest := none
  held := none
  status := none

def StatusView.sentAt (v : StatusView) : Nat :=
  match v.items.head? with
  | some item => if item.submittedAt = 0 then v.line.sentAt else item.submittedAt / 1000 * 1000
  | none => v.line.sentAt

def statusLine (v : StatusView) : Option MessageLine :=
  let status := deliveryOf v.items
  let sentAt := v.sentAt
  if (status.isSome && decide (status ≠ v.line.status)) || decide (sentAt ≠ v.line.sentAt) then
    some { v.line with status := status.or v.line.status, sentAt, at_ := sentAt }
  else none

variable {cfg : IngestConfig} {input : IngestInput} {applied : AppliedEvents} {line : LogLine}

end WebOfTrust
