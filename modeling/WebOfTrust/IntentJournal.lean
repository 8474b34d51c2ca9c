/-
  **The intent journal** (`adapters/rltp/journal.ts`): one record for each gesture of the user,
  written before its first effect.
-/
import WebOfTrust.KeyedTable

namespace WebOfTrust

/-- `entropy.uuid()`; the ids are numbered in the order in which they are drawn. -/
abbrev ActId := Nat

inductive IntentPolicy where
  | replay
  | confirmAgain
  | discard
deriving DecidableEq

inductive IntentState where
  | journaled
  | running
  | outcomeUnknown
  | needsConfirmation
  | partly
  | expired
  | done
deriving DecidableEq

inductive IntentOutcome where
  | ok
  | refused
  | superseded
deriving DecidableEq

/-- The record of a gesture; `gesture` is the command with its canonical inputs, which a
    finished record has no more (`hasInput`). -/
structure IntentRecord (γ : Type) where
  actId : ActId
  gesture : γ
  policy : IntentPolicy
  state : IntentState
  hasInput : Bool
  createdAt : Nat
  seq : Option Nat
  attempts : Nat
  outcome : Option IntentOutcome
  finishedAt : Option Nat
deriving DecidableEq

section

variable {γ : Type}

def IntentRecord.isOpen (r : IntentRecord γ) : Bool :=
  decide (r.state ≠ .done ∧ r.state ≠ .expired)

def IntentRecord.place (r : IntentRecord γ) : Nat := r.seq.getD 0

abbrev IntentStore (γ : Type) := KeyedTable (IntentRecord.actId (γ := γ))

end

def DONE_RETENTION_MS : Nat := 7 * 86400000

def RETRY_HORIZON_MS : Nat := 7 * 86400000

end WebOfTrust
