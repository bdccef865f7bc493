import PredictionEdge.Core.Types
import PredictionEdge.EventLog.Envelope

/-!
# Accounts, instants and retained evidence

What every live record is made of, as `core-types` has it: the account it belongs to, the
instant it is stamped with, and the responses or transport failures it retains.
-/

namespace PredictionEdge

/-- An instant, in nanoseconds since the epoch. -/
structure OffsetDateTime where
  nanos : Int
  deriving DecidableEq, Repr

namespace OffsetDateTime

instance : LE OffsetDateTime := ⟨fun a b => a.nanos ≤ b.nanos⟩
instance : LT OffsetDateTime := ⟨fun a b => a.nanos < b.nanos⟩
instance (a b : OffsetDateTime) : Decidable (a ≤ b) := inferInstanceAs (Decidable (a.nanos ≤ b.nanos))
instance (a b : OffsetDateTime) : Decidable (a < b) := inferInstanceAs (Decidable (a.nanos < b.nanos))

/-- The whole second an instant falls in. -/
def unixTimestamp (t : OffsetDateTime) : Int := t.nanos / 1000000000

end OffsetDateTime

/-- A validated account slug. -/
structure AccountId where
  val : String
  deriving DecidableEq, Repr

/-- Identity of one synchronized frame of an event log. -/
structure AppendReceipt where
  sequence : EventLog.EventSeq
  thisHash : EventLog.Hash
  deriving DecidableEq

inductive TransportErrorClass where
  | timeout
  | connect
  | bodyRead
  | requestBuild
  | cancelled
  | other
  deriving DecidableEq, Repr

/-- A complete sanitized response. -/
structure RawHttpResponse where
  sourceId : String
  endpointKind : String
  method : String
  path : String
  orderedQuery : List (String × String)
  status : UInt16
  headers : List (String × String)
  body : List UInt8
  attemptOrdinal : UInt32
  sourceAt : Option OffsetDateTime
  observedAt : OffsetDateTime
  receivedAt : OffsetDateTime
  schemaVersion : UInt16
  parserVersion : UInt16
  adapterVersion : String
  deriving DecidableEq

/-- A transport failure, with the request identity a response would have. -/
structure RawTransportFailure where
  sourceId : String
  endpointKind : String
  method : String
  path : String
  orderedQuery : List (String × String)
  attemptOrdinal : UInt32
  observedAt : OffsetDateTime
  receivedAt : OffsetDateTime
  errorClass : TransportErrorClass
  schemaVersion : UInt16
  parserVersion : UInt16
  adapterVersion : String
  deriving DecidableEq

/-- Exactly one response or transport failure for an attempted request. -/
inductive RawHttpAttempt where
  | response (response : RawHttpResponse)
  | transportFailure (failure : RawTransportFailure)
  deriving DecidableEq

/-- The failures of the journal that the modelled functions report. -/
inductive LiveJournalError where
  | invalidControlEvidence
  | io
  | eventLog
  | encoding
  | unexpectedEnvelope
  | sequenceMismatch
  | orderFactConflict
  | requestBinding
  | invalidFinalityEvidence
  | poisoned
  | unpublished
  deriving DecidableEq, Repr

end PredictionEdge
