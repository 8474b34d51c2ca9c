/-
  **The broker's error codes and what a client does about them**
  (`protocol/sync/broker-error.ts`, `classifyRejectDisposition`).
-/
import Mathlib.Tactic.Common

namespace WebOfTrust

/-- `KNOWN_BROKER_ERROR_CODES`. -/
inductive BrokerErrorCode where
  | docNotFound
  | capabilityRequired
  | capabilityInvalid
  | capabilityExpired
  | capabilityGenerationStale
  | spaceAlreadyRegistered
  | authorMismatch
  | personalDocOwnerMismatch
  | deviceNotRegistered
  | deviceRevoked
  | deviceIdConflict
  | seqCollisionDetected
  | keyGenerationStale
  | generationTaken
  | generationGap
  | malformedMessage
  | authInvalid
  | nonceReplay
  | rateLimited
  | internalError
deriving DecidableEq

inductive RejectDisposition where
  | capabilityRePresent
  | deviceReRegister
  | restoreClone
  | hardStop
  | keyGenerationCatchUpAndReemit
  | retry
  | unknown
deriving DecidableEq

def classifyRejectDisposition : BrokerErrorCode → RejectDisposition
  | .capabilityRequired => .capabilityRePresent
  | .capabilityExpired => .capabilityRePresent
  | .capabilityGenerationStale => .capabilityRePresent
  | .capabilityInvalid => .capabilityRePresent
  | .deviceNotRegistered => .deviceReRegister
  | .deviceRevoked => .restoreClone
  | .seqCollisionDetected => .restoreClone
  | .authorMismatch => .hardStop
  | .personalDocOwnerMismatch => .hardStop
  | .deviceIdConflict => .deviceReRegister
  | .keyGenerationStale => .keyGenerationCatchUpAndReemit
  | .nonceReplay => .retry
  | .rateLimited => .retry
  | .internalError => .retry
  | _ => .unknown

end WebOfTrust
