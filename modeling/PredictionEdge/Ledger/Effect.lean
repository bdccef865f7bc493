import PredictionEdge.Activity.Aggregate
import PredictionEdge.Lib.Fallible

/-!
# Ledger effects

A reconciled activity group becomes one ledger mutation: a trade, a split, a merge or
a redemption of shares, or one of the effects that move no shares. An identity proved
by venue metadata may replace the stamped market and outcome; the effect then keeps
both identities, and only the verified one counts.
-/

namespace PredictionEdge

/-- Metadata proof that rebinds a stamped identity. -/
structure IdentityCorrection where
  stamped : MarketOutcomeId
  verified : MarketOutcomeId
  evidenceHash : String
  deriving DecidableEq, Repr

inductive LedgerEffect where
  | trade (marketId : MarketId) (outcomeId : OutcomeId) (side : Side) (amount : ShareAmount)
      (price : Price)
  | split (marketId : MarketId) (amount : ShareAmount)
  | merge (marketId : MarketId) (amount : ShareAmount)
  | redeem (marketId : MarketId) (outcomeId : OutcomeId) (amount : ShareAmount)
  | requiresAnchor
  | conversion
  | rawOnly
  | unknownEffect
  | corrected (effect : LedgerEffect) (correction : IdentityCorrection)
  deriving DecidableEq

/-- One exact position effect of a complete activity group. -/
structure LedgerMutation where
  sourceTradeId : SourceTradeId
  transactionHash : String
  wallet : WalletAddress
  sourceTime : SourceTimestamp
  effect : LedgerEffect
  deriving DecidableEq

/-- What applying one effect did: the effect, and a redemption's clamped residual. -/
structure AppliedEffect where
  effect : LedgerEffect
  clampedResidual : Option Nat
  deriving DecidableEq

inductive LedgerError where
  | invalidMapping (sourceTradeId : SourceTradeId)
  | underflow (sourceTradeId : SourceTradeId)
  | overflow (sourceTradeId : SourceTradeId)
  | conversion (sourceTradeId : SourceTradeId)
  | unknownEffect (sourceTradeId : SourceTradeId)
  deriving DecidableEq, Repr

/-- What displaying the error prints. -/
def LedgerError.display : LedgerError → String
  | invalidMapping id => "activity group " ++ id.val ++ " has an invalid position mapping"
  | underflow id => "activity group " ++ id.val ++ " would underflow leader position"
  | overflow id => "activity group " ++ id.val ++ " would overflow leader position"
  | conversion id =>
    "activity group " ++ id.val ++ " is a conversion with unknown affected conditions"
  | unknownEffect id => "activity group " ++ id.val ++ " has an unknown position effect"

namespace LedgerEffect

def correction : LedgerEffect → Option IdentityCorrection
  | corrected _ c => some c
  | _ => none

/-- The effect that counts: a correction already holds the verified identity. -/
def effective : LedgerEffect → LedgerEffect
  | corrected e _ => e.effective
  | e => e

/-- The market and outcome of an effect on a single outcome. -/
def identity (e : LedgerEffect) : Option MarketOutcomeId :=
  match e.effective with
  | trade m o _ _ _ => some ⟨m, o⟩
  | redeem m o _ => some ⟨m, o⟩
  | _ => none

def withIdentity (e : LedgerEffect) (verified : MarketOutcomeId) : LedgerEffect :=
  match e with
  | trade _ _ side amount price => trade verified.market verified.outcome side amount price
  | redeem _ _ amount => redeem verified.market verified.outcome amount
  | e => e

/-- The market an effect moves shares in. -/
def effectMarket (e : LedgerEffect) : Option MarketId :=
  match e.effective with
  | trade m _ _ _ _ => some m
  | split m _ => some m
  | merge m _ => some m
  | redeem m _ _ => some m
  | _ => none

/-- A purchase of one outcome. -/
def isBuyTrade (e : LedgerEffect) : Bool :=
  match e.effective with
  | trade _ _ .buy _ _ => true
  | _ => false

/-- An effect that counts is never itself a correction. -/
theorem effective_ne_corrected : ∀ (e d : LedgerEffect) (c : IdentityCorrection),
    e.effective ≠ corrected d c
  | corrected e _, d, c => effective_ne_corrected e d c
  | trade .., _, _ | split .., _, _ | merge .., _, _ | redeem .., _, _ | requiresAnchor, _, _
  | conversion, _, _ | rawOnly, _, _ | unknownEffect, _, _ => by simp [effective]

@[simp] theorem effective_effective : ∀ e : LedgerEffect, e.effective.effective = e.effective
  | corrected e _ => effective_effective e
  | trade .. | split .. | merge .. | redeem .. | requiresAnchor | conversion | rawOnly
  | unknownEffect => rfl

end LedgerEffect

namespace LedgerMutation

/-- The market-outcome keys a mutation reads and writes. -/
def touchedKeys (m : LedgerMutation) : List MarketOutcomeId :=
  match m.effect.effective with
  | .trade market outcome _ _ _ => [⟨market, outcome⟩]
  | .redeem market outcome _ => [⟨market, outcome⟩]
  | .split market _ => [⟨market, ⟨0⟩⟩, ⟨market, ⟨1⟩⟩]
  | .merge market _ => [⟨market, ⟨0⟩⟩, ⟨market, ⟨1⟩⟩]
  | .requiresAnchor | .conversion | .rawOnly | .unknownEffect => []
  | .corrected _ _ => []

def isRedeem (m : LedgerMutation) : Bool :=
  match m.effect.effective with
  | .redeem .. => true
  | _ => false

/-- The market a group's own stamp names. -/
def stampedMarket (aggregate : ActivityAggregate) : Except LedgerError MarketId :=
  match aggregate.groupId.components.conditionId with
  | some condition => .ok ⟨⟨condition.val⟩⟩
  | none => .error (.invalidMapping aggregate.groupId.key)

/-- The effect of an aggregate of a supported type that does move shares. -/
def positionEffect (arith : DecimalArith) (aggregate : ActivityAggregate) :
    Except LedgerError LedgerEffect := do
  let components := aggregate.groupId.components
  let invalid : LedgerError := .invalidMapping aggregate.groupId.key
  match components.activityType with
  | .trade =>
    let marketId ← stampedMarket aggregate
    let some outcomeId := components.outcome | throw invalid
    let some side := components.side | throw invalid
    match aggregate.volumeWeightedPrice arith with
    | .ok price => return .trade marketId outcomeId side aggregate.shareSum price
    | .error _ => throw invalid
  | .split => return .split (← stampedMarket aggregate) aggregate.shareSum
  | .merge => return .merge (← stampedMarket aggregate) aggregate.shareSum
  | .redeem =>
    match components.outcome with
    | some outcomeId => return .redeem (← stampedMarket aggregate) outcomeId aggregate.shareSum
    | none => return .requiresAnchor
  | _ => return .rawOnly

/-- The effect of an aggregate. -/
def activityEffect (arith : DecimalArith) (aggregate : ActivityAggregate) :
    Except LedgerError LedgerEffect :=
  match aggregate.groupId.components.activityType with
  | .conversion => .ok (if aggregate.shareSum = .zero then .rawOnly else .conversion)
  | .unknown _ => .ok .unknownEffect
  | .reward | .deposit | .withdrawal | .yield | .makerRebate | .takerRebate
  | .referralReward => .ok .rawOnly
  | kind =>
    if aggregate.isCombo then .ok .rawOnly
    else if kind = .redeem ∧ aggregate.shareSum = .zero then .ok .requiresAnchor
    -- other rows of no shares are arithmetically nothing
    else if aggregate.shareSum = .zero then .ok .rawOnly
    else positionEffect arith aggregate

/-- Map a reconciled aggregate to its mutation. -/
def fromActivity (blake3 : List UInt8 → String) (arith : DecimalArith)
    (aggregate : ActivityAggregate) : Except LedgerError LedgerMutation :=
  match aggregate.groupId.verifyComponents blake3 with
  | .error _ => .error (.invalidMapping aggregate.groupId.key)
  | .ok () => do
    let effect ← activityEffect arith aggregate
    return ⟨aggregate.groupId.key, aggregate.groupId.components.transactionHash,
      aggregate.groupId.components.wallet, aggregate.sourceTime, effect⟩

/-- Rebind a trade or a redemption to the identity the venue's metadata proves. -/
def withVerifiedIdentity (m : LedgerMutation) (verified : MarketOutcomeId)
    (evidenceHash : String) : LedgerMutation :=
  match m.effect.identity with
  | none => m
  | some current =>
    if current = verified then m
    else
      let stamped := (m.effect.correction.map (·.stamped)).getD current
      let effect := m.effect.effective.withIdentity verified
      { m with effect := .corrected effect ⟨stamped, verified, evidenceHash⟩ }

variable {m : LedgerMutation}

theorem fromActivity_ok {blake3 : List UInt8 → String} {arith : DecimalArith}
    {aggregate : ActivityAggregate} (h : fromActivity blake3 arith aggregate = .ok m) :
    m.sourceTradeId = aggregate.groupId.key ∧ m.wallet = aggregate.groupId.components.wallet
      ∧ activityEffect arith aggregate = .ok m.effect := by
  unfold fromActivity at h
  split at h
  · simp at h
  · obtain ⟨effect, heffect, h⟩ := Lib.bind_eq_ok.mp h
    obtain rfl := Lib.pure_eq_ok.mp h
    exact ⟨rfl, rfl, heffect⟩

theorem withVerifiedIdentity_keeps (m : LedgerMutation) (i : MarketOutcomeId) (hash : String) :
    (m.withVerifiedIdentity i hash).sourceTradeId = m.sourceTradeId
      ∧ (m.withVerifiedIdentity i hash).wallet = m.wallet := by
  unfold withVerifiedIdentity
  split
  · exact ⟨rfl, rfl⟩
  · split <;> exact ⟨rfl, rfl⟩

theorem touchedKeys_market {k : MarketOutcomeId} (h : k ∈ m.touchedKeys) :
    m.effect.effectMarket = some k.market := by
  unfold touchedKeys at h
  unfold LedgerEffect.effectMarket
  cases he : m.effect.effective <;> rw [he] at h <;> simp only at h ⊢
  case trade | redeem => rw [List.mem_singleton.mp h]
  case split | merge =>
    rcases List.mem_cons.mp h with rfl | h
    · rfl
    · rw [List.mem_singleton.mp h]
  all_goals exact absurd h (by simp)

theorem touchedKeys_ne_nil_iff : m.touchedKeys ≠ [] ↔ m.effect.effectMarket.isSome := by
  unfold touchedKeys LedgerEffect.effectMarket
  cases m.effect.effective <;> simp

end LedgerMutation

end PredictionEdge
