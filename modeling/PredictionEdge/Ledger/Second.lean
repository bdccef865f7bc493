import PredictionEdge.Ledger.Apply
import PredictionEdge.Lib.Components
import PredictionEdge.Lib.OrderedMap
import PredictionEdge.Lib.Orders

/-!
# One complete second of a wallet

All the groups a wallet's activity shows within one second arrive together and carry
no order among themselves. The classifier proves that the order does not matter before
it uses one: mutations that share a market outcome form a component, and each component
must come out the same in every order. Only then are the trades named against the
position before the second, and the first entries into each market picked out.
-/

namespace PredictionEdge

inductive EntryClassification where
  | admitted
  | notFirstEntry
  | notBuy
  | notAnEntry
  | ambiguousFirstEntrySameSecond
  | walletHistoryIncomplete
  deriving DecidableEq, Repr

/-- One ordinary trade, named against the position before the second. -/
structure TradeDecision where
  sourceTradeId : SourceTradeId
  marketId : MarketId
  outcomeId : OutcomeId
  side : Side
  amount : ShareAmount
  price : Price
  action : LeaderAction
  actionOrderDependent : Bool
  entry : EntryClassification
  deriving DecidableEq

inductive SecondVerdict where
  | orderIndependent (applied : List AppliedEffect) (decisions : List TradeDecision)
      (firstEntries : List (MarketId × SourceTradeId))
  /-- The trigger is the first mutation of the first failing component. -/
  | orderDependent (trigger : SourceTradeId)
  deriving DecidableEq

inductive SameSecondEntryPolicy where
  | legacy
  | homogeneousPieces
  deriving DecidableEq, Repr

/-- The original proof enumerates every component; the repaired one folds same-side trades. -/
inductive SecondProof where
  | legacy
  | repaired
  deriving DecidableEq, Repr

/-- What the classification of a second takes besides the ledger and the mutations. -/
structure SecondConfig where
  entryPolicy : SameSecondEntryPolicy
  reconstructionQuality : ReconstructionQuality
  signalConfig : SignalConfig
  historyComplete : Bool
  hasMarket : MarketId → Bool

/-! ## The order proof -/

def mutationComponents (mutations : List LedgerMutation) : List (List LedgerMutation) :=
  Lib.components LedgerMutation.touchedKeys mutations

def enumerateMutationOrders (component : List LedgerMutation) : List (List LedgerMutation) :=
  Lib.enumerateOrders component.length component []

/-- A trade of this wallet on this side of this market outcome. -/
def isSameSideTrade (wallet : WalletAddress) (market : MarketId) (outcome : OutcomeId)
    (side : Side) (mutation : LedgerMutation) : Bool :=
  decide (mutation.wallet = wallet) &&
    match mutation.effect.effective with
    | .trade m o s _ _ => decide (m = market ∧ o = outcome ∧ s = side)
    | _ => false

/-- The checked fold of a component's trades over one position. -/
def foldSameSide (side : Side) : List LedgerMutation → PositionState →
    Except LedgerError PositionState
  | [], state => .ok state
  | mutation :: rest, state =>
    match mutation.effect.effective with
    | .trade _ _ _ amount _ => do
      let state ← applyTrade state side amount mutation.sourceTradeId
      foldSameSide side rest state
    | _ => foldSameSide side rest state

/-- Nothing is said of a component that is not all trades on one side of one outcome. -/
def sameSideComponentValidity (ledger : PositionLedger) (wallet : WalletAddress)
    (component : List LedgerMutation) : Option (Except LedgerError Unit) :=
  match component with
  | [] => none
  | first :: _ =>
    match first.effect.effective with
    | .trade market outcome side _ _ =>
      if component.all (isSameSideTrade wallet market outcome side) then
        let state := (ledger.stateAt wallet ⟨market, outcome⟩).getD .default
        some ((foldSameSide side component state).map fun _ => ())
      else none
    | _ => none

/-- What two orders of a component are compared on. -/
abbrev OrderResult := Option PositionSnapshot × List (Option Nat)

def ordersMatch (ledger : PositionLedger) (wallet : WalletAddress) (single : Bool) :
    Option OrderResult → List (List LedgerMutation) → Except LedgerError Bool
  | _, [] => .ok true
  | expected, sequence :: rest =>
    match ledger.simulateAllOrNone sequence with
    | .error e => if single then .error e else .ok false
    | .ok (candidate, applied) =>
      let result : OrderResult :=
        (candidate.position wallet, applied.map (·.clampedResidual))
      -- each order is compared with the one before it, position by position
      if expected.any (· ≠ result) then .ok false
      else ordersMatch ledger wallet single (some result) rest

section

variable (ledger : PositionLedger) (wallet : WalletAddress) (component : List LedgerMutation)

def allComponentOrdersMatch : Except LedgerError Bool :=
  ordersMatch ledger wallet (component.length = 1) none (enumerateMutationOrders component)

def componentOrderIndependent (proof : SecondProof) : Except LedgerError Bool :=
  let valid := match proof with
    | .repaired => sameSideComponentValidity ledger wallet component
    | .legacy => none
  match valid with
  | some (.ok ()) => .ok true
  -- only a single mutation reports its own failure
  | some (.error e) => if component.length = 1 then .error e else .ok false
  | none =>
    -- other components are decided by running all their orders, up to four mutations
    if component.length ≤ 4 then allComponentOrdersMatch ledger wallet component
    else .ok false

end

/-- The first mutation of the first component that depends on the order, if any does. -/
def firstOrderDependent (ledger : PositionLedger) (wallet : WalletAddress) (proof : SecondProof) :
    List (List LedgerMutation) → Except LedgerError (Option SourceTradeId)
  | [] => .ok none
  | [] :: rest => firstOrderDependent ledger wallet proof rest
  | (first :: more) :: rest => do
    if ← componentOrderIndependent ledger wallet (first :: more) proof then
      firstOrderDependent ledger wallet proof rest
    else return some first.sourceTradeId

def orderIndependentValidity (ledger : PositionLedger) (wallet : WalletAddress)
    (mutations : List LedgerMutation) (proof : SecondProof) :
    Except LedgerError (Option SourceTradeId) :=
  firstOrderDependent ledger wallet proof (mutationComponents mutations)

/-! ## Decisions -/

/-- How many times the mutations touch a key. -/
def touchedCount (mutations : List LedgerMutation) (key : MarketOutcomeId) : Nat :=
  (mutations.flatMap LedgerMutation.touchedKeys).count key

section

variable (config : SecondConfig) (ledger : PositionLedger) (wallet : WalletAddress)
  (mutations : List LedgerMutation)

/-- The decision on one mutation, before first entries are settled; `none` for no trade. -/
def tradeDecision (mutation : LedgerMutation) : Option TradeDecision :=
  match mutation.effect.effective with
  | .trade marketId outcomeId side amount price =>
    let trade : IncomingTrade :=
      ⟨wallet, marketId, outcomeId, side, price, amount, mutation.sourceTime,
        mutation.sourceTradeId, some mutation.transactionHash⟩
    -- the action is read off the position before the second
    let action := classifyLeaderAction trade (ledger.position wallet)
      config.reconstructionQuality config.signalConfig
    some ⟨mutation.sourceTradeId, marketId, outcomeId, side, amount, price, action,
      1 < touchedCount mutations ⟨marketId, outcomeId⟩, .notAnEntry⟩
  | _ => none

/-- The decisions on a batch, in its order. -/
def openDecisions : List TradeDecision :=
  mutations.filterMap (tradeDecision config ledger wallet mutations)

end

/-- A buy that opens a position is a candidate for the first entry into its market. -/
def TradeDecision.isCandidate (d : TradeDecision) : Bool := d.side = .buy ∧ d.action = .entry

/-- Sales are settled at once; the others wait for their market. -/
def TradeDecision.withInitialEntry (d : TradeDecision) : TradeDecision :=
  if d.side ≠ .buy then { d with entry := .notBuy } else { d with entry := .notAnEntry }

/-- Add a candidate's index to its market's group. -/
def pushCandidate (p : TradeDecision × Nat) :
    Option (MarketId × List Nat) → MarketId × List Nat
  | none => (p.1.marketId, [p.2])
  | some (market, indices) => (market, indices ++ [p.2])

/-- The candidates' indices by market, in the order of the markets' texts. -/
def candidateGroups (decisions : List TradeDecision) :
    Std.ExtTreeMap String (MarketId × List Nat) :=
  Lib.foldInto compare (fun p => p.1.marketId.text) pushCandidate
    (decisions.zipIdx.filter fun p => p.1.isCandidate) ∅

/-- The first of the elements with the least text. -/
def minBy {α : Type} (f : α → String) : List α → Option α
  | [] => none
  | x :: xs => some (xs.foldl (fun a b => if f b < f a then b else a) x)

/-- The identifier of a decision, as its text. -/
def idAt (decisions : List TradeDecision) (index : Nat) : String :=
  ((decisions[index]?).map fun d => d.sourceTradeId.val).getD ""

/--
Every trade in the market is an opening buy of the representative's outcome, and
nothing else in the second touches the market.
-/
def isHomogeneous (wallet : WalletAddress) (mutations : List LedgerMutation)
    (decisions : List TradeDecision) (market : MarketId) (representative : Option Nat) : Bool :=
  (representative.bind (decisions[·]?)).any (fun first =>
    (decisions.filter fun d => d.marketId = market).all fun d =>
      d.side = .buy ∧ d.action = .entry ∧ d.outcomeId = first.outcomeId) &&
  mutations.all fun m =>
    decide (m.wallet = wallet) &&
      mutations.head?.any (fun first => m.sourceTime = first.sourceTime) &&
      (!m.touchedKeys.any (fun k => k.market = market) || m.effect.isBuyTrade)

/-- The verdict on a market's candidates as a group. -/
def groupEntry (config : SecondConfig) (count : Nat) (homogeneous : Bool) : EntryClassification :=
  if !config.historyComplete then .walletHistoryIncomplete
  else if 2 ≤ count ∧ ¬ homogeneous then .ambiguousFirstEntrySameSecond
  else .admitted

/-- The settled entry of one candidate. -/
def settleCandidate (homogeneous : Bool) (entry : EntryClassification)
    (isRepresentative : Bool) (d : TradeDecision) : TradeDecision :=
  if homogeneous ∧ entry = .admitted then
    if isRepresentative then
      { d with actionOrderDependent := false, entry := .admitted }
    else { d with entry := .notFirstEntry }
  else { d with entry := entry }

section

variable (config : SecondConfig) (wallet : WalletAddress) (mutations : List LedgerMutation)

/-- Settle one market's candidates and record its first entry. -/
def settleMarket (s : List TradeDecision × List (MarketId × SourceTradeId))
    (group : MarketId × List Nat) : List TradeDecision × List (MarketId × SourceTradeId) :=
  let (decisions, firstEntries) := s
  let (market, indices) := group
  -- a market entered in an earlier second admits nothing more
  if config.hasMarket market then
    (indices.foldl (fun ds i => ds.modify i fun d => { d with entry := .notFirstEntry }) decisions,
      firstEntries)
  else
    let representative := minBy (idAt decisions) indices
    let homogeneous := decide (config.entryPolicy = .homogeneousPieces) &&
      isHomogeneous wallet mutations decisions market representative
    -- the first entry is recorded even when nothing is admitted
    let firstId := minBy SourceTradeId.val
      (indices.filterMap fun i => (decisions[i]?).map (·.sourceTradeId))
    let entry := groupEntry config indices.length homogeneous
    (indices.foldl (fun ds i =>
        ds.modify i (settleCandidate homogeneous entry (some i = representative))) decisions,
      firstEntries ++ (firstId.map fun id => (market, id)).toList)

/-- Settle every market with candidates. -/
def settleEntries (decisions : List TradeDecision) :
    List TradeDecision × List (MarketId × SourceTradeId) :=
  (Lib.intoValues (candidateGroups decisions)).foldl (settleMarket config wallet mutations)
    (decisions.map TradeDecision.withInitialEntry, [])

end

/-! ## The verdict -/

def classifyWithSecondProof (proof : SecondProof) (config : SecondConfig)
    (ledger : PositionLedger) (wallet : WalletAddress) (mutations : List LedgerMutation) :
    Except LedgerError SecondVerdict := do
  match ← orderIndependentValidity ledger wallet mutations proof with
  | some trigger => return .orderDependent trigger
  | none =>
    -- one order stands for all of them
    let (_, applied) ← ledger.simulateAllOrNone mutations
    let decisions := openDecisions config ledger wallet mutations
    let (decisions, firstEntries) := settleEntries config wallet mutations decisions
    return .orderIndependent applied decisions firstEntries

section

variable (config : SecondConfig) (ledger : PositionLedger) (wallet : WalletAddress)
  (mutations : List LedgerMutation)

def classifyCompleteSecond : Except LedgerError SecondVerdict :=
  classifyWithSecondProof .repaired config ledger wallet mutations

/-- The original proof and policy, kept for replaying old continuations. -/
def classifyCompleteSecondLegacy : Except LedgerError SecondVerdict :=
  classifyWithSecondProof .legacy { config with entryPolicy := .legacy } ledger wallet mutations

end

end PredictionEdge
