import PredictionEdge.Core.Types

/-!
# Reconciled activity

The rows of one wallet's public activity are grouped by what they say and summed into
aggregates. A group carries its canonical components next to a key derived from them
by a cryptographic hash. The hash belongs to a library: it is the parameter `blake3`,
which returns the lowercase hex text of a digest.
-/

namespace PredictionEdge

inductive ActivityType where
  | trade
  | split
  | merge
  | redeem
  | reward
  | conversion
  | deposit
  | withdrawal
  | yield
  | makerRebate
  | takerRebate
  | referralReward
  | unknown (value : String)
  deriving DecidableEq, Repr

namespace ActivityType

def asStr : ActivityType → String
  | trade => "TRADE"
  | split => "SPLIT"
  | merge => "MERGE"
  | redeem => "REDEEM"
  | reward => "REWARD"
  | conversion => "CONVERSION"
  | deposit => "DEPOSIT"
  | withdrawal => "WITHDRAWAL"
  | yield => "YIELD"
  | makerRebate => "MAKER_REBATE"
  | takerRebate => "TAKER_REBATE"
  | referralReward => "REFERRAL_REWARD"
  | unknown value => value

def requiresWalletFence : ActivityType → Bool
  | conversion => true
  | unknown _ => true
  | _ => false

end ActivityType

inductive ActivityIdentityError where
  | componentTooLong
  | componentMismatch (stored derived : String)
  deriving DecidableEq, Repr

/-- What a group key is derived from. -/
structure SourceActivityGroupComponents where
  activityType : ActivityType
  wallet : WalletAddress
  transactionHash : String
  conditionId : Option PolymarketConditionId
  asset : Option PolymarketTokenId
  outcome : Option OutcomeId
  side : Option Side
  deriving DecidableEq, Repr

/-- A group's key beside the components it was derived from. -/
structure SourceActivityGroupId where
  key : SourceTradeId
  components : SourceActivityGroupComponents
  deriving DecidableEq, Repr

/-! ## The canonical encoding -/

/-- The `n` low bytes of `v`, most significant first. -/
def toBeBytes : Nat → Nat → List UInt8
  | 0, _ => []
  | n + 1, v => toBeBytes n (v / 256) ++ [UInt8.ofNat (v % 256)]

def utf8 (s : String) : List UInt8 := s.toUTF8.toList

/-- A present component: a one, its length as eight bytes, its bytes. -/
def encodePresent (value : List UInt8) (bytes : List UInt8) :
    Except ActivityIdentityError (List UInt8) :=
  if value.length < 2 ^ 64 then .ok (bytes ++ 1 :: (toBeBytes 8 value.length ++ value))
  else .error .componentTooLong

/-- A component that may be absent: then a zero and eight zero bytes stand for it. -/
def encodeOptional (value : Option (List UInt8)) (bytes : List UInt8) :
    Except ActivityIdentityError (List UInt8) :=
  match value with
  | some value => encodePresent value bytes
  | none => .ok (bytes ++ 0 :: toBeBytes 8 0)

def hexDigit (n : Nat) : Char :=
  if n < 10 then Char.ofNat (48 + n) else Char.ofNat (87 + n)

/-- The `n` low hex digits of `v`, most significant first. -/
def hexDigits : Nat → Nat → List Char
  | 0, _ => []
  | n + 1, v => hexDigits n (v / 16) ++ [hexDigit (v % 16)]

/-- A wallet prints as `0x` and forty lowercase hex digits. -/
def WalletAddress.text (w : WalletAddress) : String :=
  String.ofList ('0' :: 'x' :: hexDigits 40 w.val.toNat)

def sideBytes : Side → List UInt8
  | .buy => utf8 "BUY"
  | .sell => utf8 "SELL"

def activityGroupDomain : List UInt8 :=
  utf8 "prediction-edge/source-polymarket-public/activity-group/v2" ++ [0]

def canonicalGroupComponents (c : SourceActivityGroupComponents) :
    Except ActivityIdentityError (List UInt8) := do
  let bytes ← encodePresent activityGroupDomain []
  let bytes ← encodePresent (utf8 c.activityType.asStr) bytes
  let bytes ← encodePresent (utf8 c.wallet.text) bytes
  let bytes ← encodePresent (utf8 c.transactionHash) bytes
  let bytes ← encodeOptional (c.conditionId.map fun v => utf8 v.val) bytes
  let bytes ← encodeOptional (c.asset.map fun v => utf8 v.val) bytes
  let bytes ← encodeOptional (c.outcome.map fun v => toBeBytes 2 v.val.toNat) bytes
  encodeOptional (c.side.map sideBytes) bytes

namespace SourceActivityGroupId

/-- The key is `g2:` and the hex digest of the canonical components. -/
def derive (blake3 : List UInt8 → String) (components : SourceActivityGroupComponents) :
    Except ActivityIdentityError SourceActivityGroupId := do
  let canonical ← canonicalGroupComponents components
  return ⟨⟨"g2:" ++ blake3 canonical⟩, components⟩

/-- Rederive the key from the stored components and reject a mismatch. -/
def verifyComponents (blake3 : List UInt8 → String) (id : SourceActivityGroupId) :
    Except ActivityIdentityError Unit := do
  let derived ← derive blake3 id.components
  if derived.key = id.key then return ()
  else throw (.componentMismatch id.key.val derived.key.val)

end SourceActivityGroupId

/-! ## Aggregates and anomalies -/

inductive ActivityAggregationError where
  | priceWeightedSumOverflow (groupId : String)
  | zeroShareSum (groupId : String)
  | invalidWeightedPrice (groupId : String) (value : Decimal)
  deriving DecidableEq

/-- The sum of every row of one group in a complete response. -/
structure ActivityAggregate where
  groupId : SourceActivityGroupId
  shareSum : ShareAmount
  priceWeightedShareSum : Decimal
  sourceTime : SourceTimestamp
  isCombo : Bool
  deriving DecidableEq

/-- The volume-weighted price of the whole aggregate. -/
def ActivityAggregate.volumeWeightedPrice (arith : DecimalArith) (a : ActivityAggregate) :
    Except ActivityAggregationError Price :=
  if a.shareSum = .zero then .error (.zeroShareSum a.groupId.key.val)
  else
    match arith.checkedDiv a.priceWeightedShareSum a.shareSum.toDecimal with
    | none => .error (.priceWeightedSumOverflow a.groupId.key.val)
    | some value =>
      match Price.new value with
      | .ok price => .ok price
      | .error _ => .error (.invalidWeightedPrice a.groupId.key.val value)

/-- A row whose numbers or outcome cannot be represented, kept as evidence. -/
structure ActivityRowAnomaly where
  wallet : WalletAddress
  sourceTime : SourceTimestamp
  activityType : ActivityType
  conditionId : Option PolymarketConditionId
  asset : Option PolymarketTokenId
  rawRowHash : String
  deriving DecidableEq, Repr

end PredictionEdge
