import PredictionEdge.Activity.Aggregate
import PredictionEdge.EventLog.Envelope

/-!
# Normalized activity rows

One row of the venue's public activity, normalized, beside where it came from; and the row
kept as evidence when its numbers or its outcome cannot be represented. A row is identified
by the key of its group and compared by its canonical encoding.

Decimals are printed by a library: that is the parameter `decimalText`.
-/

namespace PredictionEdge

open EventLog (Bytes SourceId ReceivedAt)

inductive ActivityTransport where
  | rest
  | activityWebsocket
  | replay
  deriving DecidableEq, Repr

def activitySchemaVersion : Nat := 2
def activityParserVersion : Nat := 2

/-- One fully normalized source row. -/
structure NormalizedActivity where
  activityType : ActivityType
  sourceId : SourceId
  wallet : WalletAddress
  transactionHash : String
  conditionId : Option PolymarketConditionId
  asset : Option PolymarketTokenId
  outcome : Option OutcomeId
  side : Option Side
  price : Price
  shareAmount : ShareAmount
  sourceUsdcAmount : CollateralAmount
  isCombo : Bool
  sourceTime : SourceTimestamp
  observedAt : SourceTimestamp
  receivedAt : ReceivedAt
  rawRowHash : String
  rawRowJson : String
  parserVersion : Nat
  schemaVersion : Nat
  transport : ActivityTransport
  deriving DecidableEq

/-- The supported reasons for retaining a row as anomaly evidence. -/
inductive ActivityRowAnomalyKind where
  | priceOutOfRange
  | unmappedOutcome
  | unrepresentableDecimal
  deriving DecidableEq, Repr

/-- An anomaly as it is read: where it stood in its page, and what is wrong with it. -/
structure ReadAnomaly extends ActivityRowAnomaly where
  rowIndex : Nat
  kind : ActivityRowAnomalyKind
  field : String
  transactionHash : String
  side : Option Side
  isCombo : Bool
  deriving DecidableEq, Repr

/-- One accepted row or non-executable anomaly. -/
inductive ParsedActivityRow where
  | row (value : NormalizedActivity)
  | anomaly (value : ReadAnomaly)
  deriving DecidableEq

def NormalizedActivity.second (row : NormalizedActivity) : Int := row.sourceTime.unixTimestamp

def ReadAnomaly.second (anomaly : ReadAnomaly) : Int := anomaly.sourceTime.unixTimestamp

/-- The second a parsed row happened in. -/
def ParsedActivityRow.second : ParsedActivityRow → Int
  | .row r => r.second
  | .anomaly a => a.second

namespace NormalizedActivity

def groupId (blake3 : Bytes → String) (row : NormalizedActivity) :
    Except ActivityIdentityError SourceActivityGroupId :=
  SourceActivityGroupId.derive blake3 ⟨row.activityType, row.wallet, row.transactionHash, row.conditionId, row.asset,
    row.outcome, row.side⟩

/-- An `i64` as eight bytes, negative ones in two's complement. -/
def secondBytes (second : Int) : Bytes := toBeBytes 8 (second % 2 ^ 64).toNat

def encodeEffectComponents (row : NormalizedActivity) (bytes : Bytes) :
    Except ActivityIdentityError Bytes := do
  let bytes ← encodeOptional (row.conditionId.map fun v => utf8 v.val) bytes
  let bytes ← encodeOptional (row.asset.map fun v => utf8 v.val) bytes
  let bytes ← encodeOptional (row.outcome.map fun v => toBeBytes 2 v.val.toNat) bytes
  encodeOptional (row.side.map sideBytes) bytes

/-- The canonical bytes a row counts by in its group. -/
def semanticRowEncoding (decimalText : Decimal → String) (row : NormalizedActivity) :
    Except ActivityIdentityError Bytes := do
  let bytes ← encodePresent (secondBytes row.second) []
  let bytes ← encodePresent (toBeBytes 8 row.shareAmount.atomic) bytes
  let bytes ← encodePresent (utf8 (decimalText row.price.val)) bytes
  let bytes ← encodePresent (utf8 (if row.isCombo then "combo" else "ordinary")) bytes
  match row.activityType with
  | .trade => encodePresent (utf8 "trade") bytes >>= row.encodeEffectComponents
  | .split => encodePresent (utf8 "split") bytes >>= row.encodeEffectComponents
  | .merge => encodePresent (utf8 "merge") bytes >>= row.encodeEffectComponents
  | .redeem => encodePresent (utf8 "redeem") bytes >>= row.encodeEffectComponents
  | .conversion => encodePresent (utf8 "conversion") bytes >>= row.encodeEffectComponents
  | .reward | .deposit | .withdrawal | .yield | .makerRebate | .takerRebate | .referralReward =>
    encodePresent (utf8 "raw_only") bytes
  | .unknown _ => encodePresent (utf8 "unknown") bytes >>= row.encodeEffectComponents

end NormalizedActivity

end PredictionEdge
