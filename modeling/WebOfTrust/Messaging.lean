/-
  **What the messaging adapters exchange** (`types/messaging.ts`, `ports/MessagingAdapter.ts`,
  `protocol/`): envelopes, receipts and the states of a connection.
-/
import WebOfTrust.LogEntry

namespace WebOfTrust

inductive ReceiptStatus where
  | accepted
  | delivered
  | failed
deriving DecidableEq

structure DeliveryReceipt where
  messageId : String
  status : ReceiptStatus
  reason : Option String
deriving DecidableEq

/-- `accepted` or `delivered`. -/
def DeliveryReceipt.isOk (receipt : DeliveryReceipt) : Bool :=
  receipt.status = .accepted || receipt.status = .delivered

inductive MessagingState where
  | disconnected
  | connecting
  | connected
  | error
deriving DecidableEq

/-- A wire message as far as the adapters read it; its body is opaque to them. -/
structure Envelope where
  id : String
  type : String
  body : String
deriving DecidableEq

/-! ## Message types -/

def INBOX_MESSAGE_TYPE : String := "https://web-of-trust.de/protocols/inbox/1.0"
def SPACE_INVITE_MESSAGE_TYPE : String := "https://web-of-trust.de/protocols/space-invite/1.0"
def MEMBER_UPDATE_MESSAGE_TYPE : String := "https://web-of-trust.de/protocols/member-update/1.0"
def KEY_ROTATION_MESSAGE_TYPE : String := "https://web-of-trust.de/protocols/key-rotation/1.0"
def ACK_MESSAGE_TYPE : String := "https://web-of-trust.de/protocols/ack/1.0"
def LOG_ENTRY_MESSAGE_TYPE : String := "https://web-of-trust.de/protocols/log-entry/1.0"
def SYNC_REQUEST_MESSAGE_TYPE : String := "https://web-of-trust.de/protocols/sync-request/1.0"
def SPACE_SYNC_REQUEST_MESSAGE_TYPE : String := "space-sync-request"

end WebOfTrust
