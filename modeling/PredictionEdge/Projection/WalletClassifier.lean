import Mathlib.Data.Prod.Lex
import Mathlib.Data.String.Basic
import PredictionEdge.Ledger.Locality
import PredictionEdge.Lib.Replay

/-!
# The verified history pass of one wallet

A wallet's certified history is replayed second by second. Each second is classified
against a ledger of just the market outcomes its mutations touch, its problems drop their
scopes from then on, its scored entries become projection rows, and the touched positions
are written back.

A row is kept as the values it is rendered from. Reading the rows of the payout table and
the stored drops from their text is left to the database and the serializer.
-/

namespace PredictionEdge

/-- The failures of the bootstrap that the history pass can meet. -/
inductive BootstrapError where
  | invalid (message : String)
  | internal
  deriving DecidableEq, Repr

/-! ## Payout evidence -/

/-- A market's tokens, the page they were read from, and whether its payout can be scored. -/
structure PayoutTokens where
  tokens : List String
  page : String
  eligible : Bool

structure PayoutMarket where
  group : Option String
  endDateUnix : Option Int
  payoutVectorJson : Option String
  deriving DecidableEq

/-- The payout evidence by market, and what it says of tokens and groups. -/
structure BoundPayouts where
  tokens : String → Option PayoutTokens
  markets : String → Option PayoutMarket
  tokenMarkets : String → Option String
  groups : String → Bool

/-- One row of the payout evidence, its tokens by their ids. -/
structure PayoutRow where
  marketId : String
  tokenIds : List (Option String)
  rawPageSha256 : String
  negRiskMarketId : Option String
  endDateUnix : Option Int
  payoutVectorJson : Option String
  eligible : Bool

/-- A token without an id keeps its place, under no name. -/
def PayoutRow.tokens (row : PayoutRow) : List String := row.tokenIds.map (·.getD "")

namespace BoundPayouts

def empty : BoundPayouts := ⟨fun _ => none, fun _ => none, fun _ => none, fun _ => false⟩

def insertRow (bound : BoundPayouts) (row : PayoutRow) : BoundPayouts where
  tokens market :=
    if market = row.marketId then some ⟨row.tokens, row.rawPageSha256, row.eligible⟩
    else bound.tokens market
  markets market :=
    if market = row.marketId then
      some ⟨row.negRiskMarketId, row.endDateUnix, row.payoutVectorJson⟩
    else bound.markets market
  tokenMarkets token :=
    if token ∈ row.tokens ∧ token ≠ "" then some row.marketId else bound.tokenMarkets token
  groups id := decide (row.negRiskMarketId = some id) || bound.groups id

/-- The evidence of all rows, a later row of a market or a token over an earlier one. -/
def read (rows : List PayoutRow) : BoundPayouts := rows.foldl insertRow empty

end BoundPayouts

def BoundPayouts.lookups (payout : BoundPayouts) : ScopeLookups where
  market condition :=
    match payout.markets condition with
    | none => .unknown
    | some market =>
      match market.group with
      | some group => .grouped group
      | none => .ungrouped
  tokenMarket := payout.tokenMarkets
  isGroup := payout.groups

/-- The outcome of a token of a market. -/
def outcomeOf (tokens : List String) (asset : String) : Option OutcomeId :=
  (tokens.findIdx? (· = asset)).bind fun index =>
    if index < 2 ^ 16 then some ⟨UInt16.ofNat index⟩ else none

/-- Rebind a trade or a redemption of a market whose tokens are known. -/
def rebind (mutation : LedgerMutation) (condition : PolymarketConditionId)
    (asset : PolymarketTokenId) (market : PayoutTokens) : LedgerMutation :=
  match mutation.effect.effective with
  | .trade .. | .redeem .. =>
    match outcomeOf market.tokens asset.val with
    | some outcome => mutation.withVerifiedIdentity ⟨⟨⟨condition.val⟩⟩, outcome⟩ market.page
    -- a token that is none of the market's moves nothing
    | none => { mutation with effect := .rawOnly }
  | _ => mutation

def verifiedMutation (blake3 : List UInt8 → String) (arith : DecimalArith)
    (payoutMarkets : String → Option PayoutTokens) (aggregate : ActivityAggregate) :
    Except LedgerError LedgerMutation := do
  let mutation ← LedgerMutation.fromActivity blake3 arith aggregate
  let components := aggregate.groupId.components
  match components.asset, components.conditionId with
  | some asset, some condition =>
    match payoutMarkets condition.val with
    | some market => return rebind mutation condition asset market
    | none => return mutation
  | _, _ => return mutation

/-! ## Seconds -/

/-- The aggregates and the anomalies of one second. -/
structure HistoricalSecond where
  second : Int
  aggregates : List ActivityAggregate
  anomalies : List ActivityRowAnomaly

/-- The second an aggregate happened in. -/
def ActivityAggregate.second (a : ActivityAggregate) : Int := a.sourceTime.unixTimestamp

def ActivityRowAnomaly.second (a : ActivityRowAnomaly) : Int := a.sourceTime.unixTimestamp

/-- The earlier of the seconds that the two streams continue with. -/
def nextSecond (aggregates : List ActivityAggregate) (anomalies : List ActivityRowAnomaly) :
    Option Int :=
  ((aggregates.head?.map ActivityAggregate.second).toList
    ++ (anomalies.head?.map ActivityRowAnomaly.second).toList).min?

/-- Merge the two streams, both sorted by time, one second after the other. -/
def mergeSeconds : Nat → List ActivityAggregate → List ActivityRowAnomaly → List HistoricalSecond
  | 0, _, _ => []
  | fuel + 1, aggregates, anomalies =>
    match nextSecond aggregates anomalies with
    | none => []
    | some second =>
      ⟨second, aggregates.takeWhile (·.second = second),
          anomalies.takeWhile (·.second = second)⟩
        :: mergeSeconds fuel (aggregates.dropWhile (·.second = second))
          (anomalies.dropWhile (·.second = second))

/-- Every second takes at least one aggregate or anomaly. -/
def historicalSeconds (aggregates : List ActivityAggregate) (anomalies : List ActivityRowAnomaly) :
    List HistoricalSecond :=
  mergeSeconds (aggregates.length + anomalies.length) aggregates anomalies

/-! ## The classifier of a wallet -/

structure ScopeDrop where
  cause : DropCause
  droppedAtUnix : Int
  scopeId : String
  scopeKind : ScopeKind
  deriving DecidableEq, Repr

def ScopeDrop.scope (drop : ScopeDrop) : Scope := ⟨drop.scopeKind, drop.scopeId⟩

abbrev Drops := Std.ExtTreeMap Scope ScopeDrop Scope.compare

structure UnresolvedAnomaly where
  walletHex : String
  sourceTimeUnix : Int
  anomaly : ActivityRowAnomaly
  deriving DecidableEq, Repr

/-- A scored entry, with everything its row is rendered from. -/
structure ProjectionRow where
  activityGeneration : Nat
  classifierVersion : Nat
  walletHex : String
  sourceTimeUnix : Int
  decision : TradeDecision
  aggregate : ActivityAggregate
  endDateUnix : Option Int
  payoutVectorJson : Option String
  deriving DecidableEq

/-- What the pass carries from second to second besides the positions. -/
structure ClassifierState where
  wallet : WalletAddress
  walletHex : String
  generation : Nat
  drops : Drops
  /-- The scopes whose drop is at or before the last second classified. -/
  dropped : Finset Scope
  /-- The stored drops not yet in `dropped`, the next due first. -/
  upcoming : List (Int × Scope)
  history : Finset String
  ignored : Std.ExtTreeMap String Nat
  quality : ReconstructionQuality
  classifierVersion : Nat
  anomalies : List ActivityRowAnomaly
  unresolvedAnomalies : List UnresolvedAnomaly

structure WalletClassifier extends ClassifierState where
  positions : Positions

namespace ClassifierState

/-- An earlier drop is due first, and of two at one time the one of the smaller scope. -/
def dueFirst (a b : Int × Scope) : Prop :=
  a.1 < b.1 ∨ a.1 = b.1 ∧ (a.2.compare b.2).isLE = true

instance (a b : Int × Scope) : Decidable (dueFirst a b) := inferInstanceAs (Decidable (_ ∨ _))

/-- Take the drops that are due; a stored one that still stands at `second` certifies it. -/
def takeDue (drops : Drops) (second : Int) :
    List (Int × Scope) → Finset Scope → Bool → List (Int × Scope) × Finset Scope × Bool
  | [], dropped, certified => ([], dropped, certified)
  | (due, scope) :: rest, dropped, certified =>
    if due ≤ second then
      takeDue drops second rest (insert scope dropped)
        (certified || (decide (due = second)
          && (drops[scope]?).any fun drop => drop.droppedAtUnix = second))
    else ((due, scope) :: rest, dropped, certified)

/-- Bring `dropped` up to `second`, and tell whether a drop is at exactly `second`. -/
def advanceTo (self : ClassifierState) (second : Int) : ClassifierState × Bool :=
  let (upcoming, dropped, certified) :=
    takeDue self.drops second self.upcoming self.dropped false
  ({ self with upcoming := upcoming, dropped := dropped }, certified)

/-- Record a drop unless the scope already has one at or before it. -/
def recordDrop (self : ClassifierState) (scope : Scope) (drop : ScopeDrop) : ClassifierState :=
  if (self.drops[scope]?).all fun previous => drop.droppedAtUnix < previous.droppedAtUnix then
    { self with dropped := insert scope self.dropped, drops := self.drops.insert scope drop }
  else self

def recordProblem (second : Int) (self : ClassifierState) (problem : ScopeProblem) :
    ClassifierState :=
  self.recordDrop problem.scope ⟨problem.cause, second, problem.scope.id, problem.scope.kind⟩

def checkedActivityCount (total count : Nat) : Except BootstrapError Nat :=
  if total + count < 2 ^ 64 then .ok (total + count) else .error (.invalid "activity count overflow")

/-- An ignored anomaly is kept with its evidence. -/
def keepUnresolved (s : HistoricalSecond) (self : ClassifierState) (id : SourceTradeId) :
    Except BootstrapError ClassifierState :=
  if activityRowAnomalyNamespace.toList.isPrefixOf id.val.toList then do
    let anomaly ← Lib.okOr (s.anomalies.find? fun a => activityRowAnomalyTrigger a = id) .internal
    return { self with
      unresolvedAnomalies := self.unresolvedAnomalies ++ [⟨self.walletHex, s.second, anomaly⟩] }
  else .ok self

def recordIgnored (s : HistoricalSecond) (self : ClassifierState)
    (entry : SourceTradeId × ActivityType) : Except BootstrapError ClassifierState := do
  let self ← keepUnresolved s self entry.1
  let count ← checkedActivityCount ((self.ignored[entry.2.asStr]?).getD 0) 1
  return { self with ignored := self.ignored.insert entry.2.asStr count }

/-- The decision is scored: an admitted entry of a market that pays out. -/
def isScored (payout : BoundPayouts) (decision : TradeDecision) : Bool :=
  decide (decision.entry = .admitted) && !decision.actionOrderDependent
    && decide (decision.amount ≠ .zero)
    && (payout.tokens decision.marketId.text).any (·.eligible)

section

variable (self : ClassifierState) (payout : BoundPayouts)

def projectionRow (s : HistoricalSecond) (decision : TradeDecision) :
    Except BootstrapError ProjectionRow := do
  let aggregate ← Lib.okOr
    (s.aggregates.find? fun a => a.groupId.key = decision.sourceTradeId) .internal
  let market ← Lib.okOr (payout.markets decision.marketId.text) .internal
  return ⟨self.generation, self.classifierVersion, self.walletHex, s.second, decision, aggregate,
    market.endDateUnix, market.payoutVectorJson⟩

def projectionRows (s : HistoricalSecond) (decisions : List TradeDecision) :
    Except BootstrapError (List ProjectionRow) :=
  (decisions.filter (isScored payout)).mapM (self.projectionRow payout s)

/-- Classify a second with the canonical signal defaults and complete history. -/
def classify (ledger : PositionLedger) (s : HistoricalSecond) (records : List SecondRecord)
    (certifiedProblemSecond : Bool) : Except LedgerError ScopedSecond :=
  let config : SecondConfig :=
    ⟨.homogeneousPieces, self.quality, .default, true, fun market => market.text ∈ self.history⟩
  -- anomalies count from the seventh version on
  if self.classifierVersion = 7 then
    classifyScopedSecondWithAnomalies config payout.lookups ledger self.wallet s.second records
      s.anomalies self.dropped certifiedProblemSecond
  else
    classifyScopedSecond config payout.lookups ledger self.wallet records self.dropped
      certifiedProblemSecond

end

def classifierFailure (stage : String) (self : ClassifierState) (second : Int)
    (error : LedgerError) : BootstrapError :=
  .invalid ("scoped classifier " ++ stage ++ " for " ++ self.walletHex ++ " at " ++ toString second
    ++ ": " ++ error.display)

/-- Apply what a second hands back. -/
def applySecond (self : ClassifierState) (ledger : PositionLedger) (second : Int)
    (mutations : List LedgerMutation) : Except BootstrapError PositionLedger :=
  match ledger.applyAllOrNone mutations with
  | (ledger, .ok _) => .ok ledger
  | (_, .error e) => .error (self.classifierFailure "application failed" second e)

def consume (self : ClassifierState) (consumed : List MarketId) : ClassifierState :=
  { self with history := self.history ∪ (consumed.map MarketId.text).toFinset }

/-- What the replay shows of a second. -/
structure ClassifiedSecond where
  classified : ScopedSecond
  rows : List ProjectionRow
  deriving DecidableEq

/-- The part of a second that is the same whatever ledger it is classified against. -/
def secondAgainst (self : ClassifierState) (payout : BoundPayouts) (ledger : PositionLedger)
    (s : HistoricalSecond) (records : List SecondRecord) :
    Except BootstrapError ((ClassifierState × PositionLedger) × ClassifiedSecond) := do
  let (self, certified) := self.advanceTo s.second
  let classified ← (self.classify payout ledger s records certified).mapError
    (self.classifierFailure "failed" s.second)
  let self := classified.problems.foldl (recordProblem s.second) self
  let self ← classified.ignored.foldlM (recordIgnored s) self
  let rows ← self.projectionRows payout s classified.decisions
  let ledger ← self.applySecond ledger s.second classified.apply
  return ((self.consume classified.consumed, ledger), ⟨classified, rows⟩)

end ClassifierState

/-- The records of a second: each aggregate beside its mutation. -/
def HistoricalSecond.records (s : HistoricalSecond)
    (mutationOf : ActivityAggregate → Except LedgerError LedgerMutation) : List SecondRecord :=
  s.aggregates.map fun aggregate => ⟨aggregate, mutationOf aggregate⟩

/-- The keys that the mutations of the records touch. -/
def touchedByRecords (records : List SecondRecord) : List MarketOutcomeId :=
  records.flatMap fun record =>
    match record.mutation with
    | .ok mutation => mutation.touchedKeys
    | .error _ => []

/-- Take over a stored position, if there is one. -/
def Positions.keep (positions restricted : Positions) (key : MarketOutcomeId) : Positions :=
  match positions.lookup key with
  | some state => restricted.insert key state
  | none => restricted

/-- The stored positions at the given keys. -/
def Positions.restrict (positions : Positions) (keys : List MarketOutcomeId) : Positions :=
  keys.foldl positions.keep ∅

namespace WalletClassifier

theorem full_quality : 100 ≤ 100 := Nat.le_refl 100

def new (wallet : WalletAddress) (walletHex : String) (generation : Nat) (stored : List ScopeDrop)
    (classifierVersion : Nat) (anomalies : List ActivityRowAnomaly) : WalletClassifier :=
  -- of two stored drops of one scope the later one stands
  let drops : Drops := stored.foldl (fun drops drop => drops.insert drop.scope drop) ∅
  let upcoming := drops.toList.map fun entry => (entry.2.droppedAtUnix, entry.1)
  { wallet := wallet
    walletHex := walletHex
    generation := generation
    drops := drops
    dropped := ∅
    upcoming := upcoming.insertionSort ClassifierState.dueFirst
    history := ∅
    ignored := ∅
    quality := ⟨100, full_quality⟩
    classifierVersion := classifierVersion
    anomalies := anomalies
    unresolvedAnomalies := []
    positions := ∅ }

/-- The ledger a second is classified against: the wallet's positions at its keys. -/
def restrictedLedger (self : WalletClassifier) (records : List SecondRecord) : PositionLedger :=
  PositionLedger.new.replaceWalletSnapshot self.wallet
    (self.positions.restrict (touchedByRecords records))

/-- The wallet's positions with those of the ledger written over them. -/
def writeBack (self : WalletClassifier) (ledger : PositionLedger) : Positions :=
  match ledger.position self.wallet with
  | some snapshot => snapshot.positions ∪ self.positions
  | none => self.positions

/-- One second of the pass. -/
def second (payout : BoundPayouts)
    (mutationOf : ActivityAggregate → Except LedgerError LedgerMutation) (self : WalletClassifier)
    (s : HistoricalSecond) :
    Except BootstrapError (WalletClassifier × ClassifierState.ClassifiedSecond) := do
  let records := s.records mutationOf
  let ((state, ledger), classified) ←
    self.secondAgainst payout (self.restrictedLedger records) s records
  return (⟨state, self.writeBack ledger⟩, classified)

/-- The whole pass over complete seconds. -/
def replay (payout : BoundPayouts)
    (mutationOf : ActivityAggregate → Except LedgerError LedgerMutation) (self : WalletClassifier)
    (seconds : List HistoricalSecond) :
    List ClassifierState.ClassifiedSecond × Except BootstrapError WalletClassifier :=
  Lib.replay (second payout mutationOf) self seconds

/-- One chunk of whole seconds; the last one takes the anomalies that are left. -/
def seconds (blake3 : List UInt8 → String) (arith : DecimalArith) (self : WalletClassifier)
    (aggregates : List ActivityAggregate) (payout : BoundPayouts) (last : Bool) :
    Except BootstrapError (WalletClassifier × List ProjectionRow) :=
  let finish := aggregates.getLast?.map ActivityAggregate.second
  let due := fun a : ActivityRowAnomaly => last || finish.any (a.second ≤ ·)
  let anomalies := self.anomalies.takeWhile due
  let self := { self with anomalies := self.anomalies.dropWhile due }
  let (classified, result) := self.replay payout (verifiedMutation blake3 arith payout.tokens)
    (historicalSeconds aggregates anomalies)
  result.map fun self => (self, Lib.sortOn
    (fun row => toLex (row.sourceTimeUnix, row.decision.sourceTradeId.val))
    (classified.flatMap (·.rows)))

end WalletClassifier

end PredictionEdge
