import PredictionEdge.Ledger.Second
import PredictionEdge.Lib.StableSort

/-!
# A second with scoped drops

A record that cannot be reconstructed does not stop the wallet. It drops a *scope*: the
market, or the whole neg-risk group, that the recorded evidence resolves to. Drops are
cumulative and include the second they start in. What lies outside every drop is applied,
and only that is decided on. A problem that resolves to no scope is ignored and counted.
-/

namespace PredictionEdge

open Lib

inductive ScopeKind where
  | event
  | market
  deriving DecidableEq, Repr

/-- A neg-risk group or a market, by its canonical lowercase `0x` hex. -/
structure Scope where
  kind : ScopeKind
  id : String
  deriving DecidableEq, Repr

/-- Kinds stand in the order of their wire names. -/
def ScopeKind.rank : ScopeKind → Nat
  | event => 0
  | market => 1

/-- Scopes are ordered by kind, then by id. -/
def Scope.compare : Scope → Scope → Ordering :=
  compareLex (compareOn fun s => s.kind.rank) (compareOn Scope.id)

instance : Std.TransCmp Scope.compare :=
  inferInstanceAs (Std.TransCmp (compareLex (compareOn fun s : Scope => s.kind.rank)
    (compareOn Scope.id)))

instance : Std.LawfulEqCmp Scope.compare where
  compare_self {a} := Std.ReflCmp.compare_self
  eq_of_compare {a b} h := by
    obtain ⟨k, i⟩ := a
    obtain ⟨k', i'⟩ := b
    simp only [Scope.compare, compareLex, compareOn, Ordering.then_eq_eq,
      Std.LawfulEqOrd.compare_eq_iff_eq] at h
    cases k <;> cases k' <;> simp_all [ScopeKind.rank]

inductive DropCause where
  | conversion
  | orderDependent
  | overflow
  | underflow
  | unknownCondition
  | unknownType
  | unmapped
  | unrepresentable
  deriving DecidableEq, Repr

/-- Causes stand in the order of their wire names, which settles ties within a second. -/
def DropCause.rank : DropCause → Nat
  | conversion => 0
  | orderDependent => 1
  | overflow => 2
  | underflow => 3
  | unknownCondition => 4
  | unknownType => 5
  | unmapped => 6
  | unrepresentable => 7

structure ScopeProblem where
  scope : Scope
  cause : DropCause
  trigger : SourceTradeId
  deriving DecidableEq, Repr

inductive MarketLookup where
  | unknown
  | ungrouped
  | grouped (group : String)
  deriving DecidableEq, Repr

/-- The market and token evidence the caller supplies. -/
structure ScopeLookups where
  market : String → MarketLookup
  tokenMarket : String → Option String
  isGroup : String → Bool

/-- An aggregate beside the mutation it maps to, or the failure to map it. -/
structure SecondRecord where
  aggregate : ActivityAggregate
  mutation : Except LedgerError LedgerMutation
  deriving DecidableEq

structure ScopedSecond where
  problemSecond : Bool
  problems : List ScopeProblem
  ignored : List (SourceTradeId × ActivityType)
  apply : List LedgerMutation
  decisions : List TradeDecision
  consumed : List MarketId
  deriving DecidableEq

def activityRowAnomalyNamespace : String := "activity-row-anomaly:v1:"

/-- An anomaly's evidence id, from its raw row's hash. -/
def activityRowAnomalyTrigger (anomaly : ActivityRowAnomaly) : SourceTradeId :=
  ⟨activityRowAnomalyNamespace ++ anomaly.rawRowHash⟩

/-! ## Resolving a scope -/

def canonicalScopeId (id : String) : Bool :=
  match id.toList with
  | '0' :: 'x' :: hex =>
    !hex.isEmpty && hex.all fun c => c.isDigit || (decide ('a' ≤ c) && decide (c ≤ 'f'))
  | _ => false

/-- Lowercase, with a leading `\x` read as `0x`: for lookup only. -/
def normalizeCondition (condition : PolymarketConditionId) : String :=
  match condition.val.toList.map Char.toLower with
  | '\\' :: 'x' :: hex => String.ofList ('0' :: 'x' :: hex)
  | lowercase => String.ofList lowercase

/-- Conversions and unknown types drop a whole group where there is one. -/
def isEventCause (activityType : ActivityType) (cause : DropCause) : Bool :=
  cause = .conversion || cause = .unknownType ||
    (cause = .unrepresentable && activityType.requiresWalletFence)

/-- The scope a known market stands for. -/
def knownMarketScope (eventCause : Bool) (id : String) : MarketLookup → Option Scope
  | .grouped group => if eventCause then some ⟨.event, group⟩ else some ⟨.market, id⟩
  | .ungrouped => some ⟨.market, id⟩
  | .unknown => none

/-- The condition's own evidence: a group, a known market, or nothing. -/
def conditionScope (eventCause : Bool) (lookups : ScopeLookups) (id : String) : Option Scope :=
  if eventCause && lookups.isGroup id then some ⟨.event, id⟩
  else knownMarketScope eventCause id (lookups.market id)

/-- A verified token names a market even when the market is unknown. -/
def tokenScope (eventCause : Bool) (lookups : ScopeLookups) (token : PolymarketTokenId) :
    Option Scope :=
  (lookups.tokenMarket token.val).map fun market =>
    match lookups.market market with
    | .grouped group => if eventCause then ⟨.event, group⟩ else ⟨.market, market⟩
    | _ => ⟨.market, market⟩

/-- The condition is tried first, then the token. -/
def resolveScope (activityType : ActivityType) (condition : Option PolymarketConditionId)
    (asset : Option PolymarketTokenId) (cause : DropCause) (lookups : ScopeLookups) :
    Option Scope :=
  let eventCause := isEventCause activityType cause
  -- a stamp that is not canonical says nothing, and the token is asked
  let condition := (condition.map normalizeCondition).filter canonicalScopeId
  (condition.bind (conditionScope eventCause lookups)).or
    (asset.bind (tokenScope eventCause lookups))

/-- The scope of a record's problem, from its stamped evidence. -/
def resolveProblemScope (aggregate : ActivityAggregate) (cause : DropCause)
    (lookups : ScopeLookups) : Option Scope :=
  let components := aggregate.groupId.components
  resolveScope components.activityType components.conditionId components.asset cause lookups

def resolveAnomalyScope (anomaly : ActivityRowAnomaly) (lookups : ScopeLookups) : Option Scope :=
  resolveScope anomaly.activityType anomaly.conditionId anomaly.asset .unrepresentable lookups

/-! ## Drops -/

/-- The market a record belongs to, after any rebinding. -/
def recordMarket (mutation : LedgerMutation) (aggregate : ActivityAggregate) : Option String :=
  match mutation.effect.effectMarket with
  | some market => some market.text
  | none =>
    if mutation.effect.effective = .requiresAnchor then
      aggregate.groupId.components.conditionId.map (·.val)
    else none

def marketIsDropped (market : String) (dropped : Finset Scope) (lookups : ScopeLookups) : Bool :=
  ⟨.market, market⟩ ∈ dropped ||
    match lookups.market market with
    | .grouped group => ⟨.event, group⟩ ∈ dropped
    | _ => false

def scopeIsDropped (scope : Scope) (dropped : Finset Scope) (lookups : ScopeLookups) : Bool :=
  match scope.kind with
  | .event => scope ∈ dropped
  | .market => marketIsDropped scope.id dropped lookups

/-- Problems by scope, in the order of scopes. -/
abbrev Problems := Std.ExtTreeMap Scope ScopeProblem Scope.compare

/-- The smaller trigger comes first, and for one trigger the smaller cause. -/
def ScopeProblem.precedes (p q : ScopeProblem) : Prop :=
  p.trigger.val < q.trigger.val ∨ p.trigger.val = q.trigger.val ∧ p.cause.rank < q.cause.rank

instance (p q : ScopeProblem) : Decidable (p.precedes q) :=
  inferInstanceAs (Decidable (_ ∨ _))

/-- A scope keeps its first problem. -/
def pushProblem (p : ScopeProblem) : Option ScopeProblem → ScopeProblem
  | none => p
  | some q => if p.precedes q then { q with cause := p.cause, trigger := p.trigger } else q

def recordScopeProblem (problems : Problems) (p : ScopeProblem) : Problems :=
  problems.alter p.scope fun old => some (pushProblem p old)

/-! ## Scanning a second -/

/-- What the passes over a second have gathered. -/
structure Scan where
  problems : Problems
  ignored : List (SourceTradeId × ActivityType)
  mutations : List LedgerMutation
  consumed : Std.ExtTreeMap String MarketId
  effectiveRecords : Finmap fun _ : String => ActivityAggregate
  failed : Finset String

namespace Scan

def empty : Scan := ⟨∅, [], [], ∅, ∅, ∅⟩

def ignore (s : Scan) (id : SourceTradeId) (activityType : ActivityType) : Scan :=
  { s with ignored := s.ignored ++ [(id, activityType)] }

def report (s : Scan) (p : ScopeProblem) : Scan :=
  { s with problems := recordScopeProblem s.problems p }

def push (s : Scan) (mutation : LedgerMutation) : Scan :=
  { s with mutations := s.mutations ++ [mutation] }

def consume (s : Scan) (id : SourceTradeId) (market : MarketId) : Scan :=
  { s with consumed := s.consumed.insert id.val market }

def addEffective (s : Scan) (mutation : LedgerMutation) (aggregate : ActivityAggregate) : Scan :=
  { s with effectiveRecords := s.effectiveRecords.insert mutation.sourceTradeId.val aggregate }

end Scan

def anomalyStep (lookups : ScopeLookups) (dropped : Finset Scope) (s : Scan)
    (anomaly : ActivityRowAnomaly) : Scan :=
  let trigger := activityRowAnomalyTrigger anomaly
  match resolveAnomalyScope anomaly lookups with
  | some scope =>
    if scopeIsDropped scope dropped lookups then s
    else s.report ⟨scope, .unrepresentable, trigger⟩
  | none => s.ignore trigger anomaly.activityType

/-- What a record's own data decides about it. -/
inductive RecordRoute where
  /-- It moves no shares and passes through. -/
  | raw (mutation : LedgerMutation)
  /-- A trade of shares of no named token. -/
  | tokenless
  | problem (cause : DropCause)
  | effective (mutation : LedgerMutation)
  deriving DecidableEq

/-- A trade of a positive amount without its token. -/
def isTokenlessTrade (aggregate : ActivityAggregate) : Bool :=
  aggregate.groupId.components.activityType = .trade && aggregate.shareSum ≠ .zero &&
    aggregate.groupId.components.asset.isNone

/-- Why a mapped record is a problem, if it is one. -/
def mutationCause (aggregate : ActivityAggregate) (mutation : LedgerMutation) : Option DropCause :=
  let condition := aggregate.groupId.components.conditionId
  match mutation.effect.effective with
  | .conversion => some .conversion
  | .unknownEffect => some .unknownType
  | .requiresAnchor => if condition.isNone then some .unknownCondition else none
  | effect =>
    let canonical := condition.any fun c => canonicalScopeId c.val
    if effect.effectMarket.isSome && !canonical then some .unmapped else none

def SecondRecord.route (record : SecondRecord) : Except LedgerError RecordRoute :=
  match record.mutation with
  | .ok mutation =>
    if mutation.effect.effective = .rawOnly then .ok (.raw mutation)
    else if isTokenlessTrade record.aggregate then .ok .tokenless
    else
      match mutationCause record.aggregate mutation with
      | some cause => .ok (.problem cause)
      | none => .ok (.effective mutation)
  | .error e =>
    if isTokenlessTrade record.aggregate then .ok .tokenless
    else
      match e with
      | .invalidMapping _ => .ok (.problem .unmapped)
      | e => .error e

/-- The mutation of a record buys. -/
def SecondRecord.isBuy (record : SecondRecord) : Bool :=
  match record.mutation with
  | .ok mutation => mutation.effect.isBuyTrade
  | .error _ => false

/-- A problem record drops its scope; a purchase consumes there all the same. -/
def problemStep (lookups : ScopeLookups) (dropped : Finset Scope) (record : SecondRecord)
    (cause : DropCause) (s : Scan) : Scan :=
  let key := record.aggregate.groupId.key
  match resolveProblemScope record.aggregate cause lookups with
  | none => s.ignore key record.aggregate.groupId.components.activityType
  | some scope =>
    -- the purchase is consumed under the scope, which may be an event
    let s := if record.isBuy then s.consume key ⟨⟨scope.id⟩⟩ else s
    if scopeIsDropped scope dropped lookups then s else s.report ⟨scope, cause, key⟩

/-- A purchase consumes the market of its effect. -/
def consumeEffective (mutation : LedgerMutation) (s : Scan) : Scan :=
  match mutation.effect.effective with
  | .trade market _ .buy _ _ => s.consume mutation.sourceTradeId market
  | _ => s

/-- An effective record outside every earlier drop goes on to the order proof. -/
def effectiveStep (lookups : ScopeLookups) (dropped : Finset Scope)
    (aggregate : ActivityAggregate) (mutation : LedgerMutation) (s : Scan) : Scan :=
  let s := consumeEffective mutation s
  -- a market dropped before consumes its purchases, but applies nothing
  if (recordMarket mutation aggregate).any (marketIsDropped · dropped lookups) then s
  else (s.addEffective mutation aggregate).push mutation

def recordStep (lookups : ScopeLookups) (dropped : Finset Scope) (s : Scan)
    (record : SecondRecord) : Except LedgerError Scan :=
  record.route.map fun
    | .raw mutation => s.push mutation
    | .tokenless => s.ignore record.aggregate.groupId.key .trade
    | .problem cause => problemStep lookups dropped record cause s
    | .effective mutation => effectiveStep lookups dropped record.aggregate mutation s

/-! ## Failing components -/

/-- Why a component fails, if it does: a single mutation keeps its own arithmetic failure. -/
def componentCause (ledger : PositionLedger) (wallet : WalletAddress)
    (component : List LedgerMutation) : Except LedgerError (Option DropCause) :=
  match componentOrderIndependent ledger wallet component .repaired with
  | .ok true => .ok none
  | .ok false => .ok (some .orderDependent)
  | .error (.underflow id) =>
    if component.length = 1 then .ok (some .underflow) else .error (.underflow id)
  | .error (.overflow id) =>
    if component.length = 1 then .ok (some .overflow) else .error (.overflow id)
  | .error e => .error e

/-- Ignore a recorded mutation and take back what it consumed. -/
def retractStep (s : Scan) (mutation : LedgerMutation) : Scan :=
  let s := match s.effectiveRecords.lookup mutation.sourceTradeId.val with
    | some aggregate => s.ignore mutation.sourceTradeId aggregate.groupId.components.activityType
    | none => s
  { s with consumed := s.consumed.erase mutation.sourceTradeId.val }

/-- A component that fails and resolves to no scope is ignored and consumes nothing. -/
def retract (s : Scan) (component : List LedgerMutation) : Scan := component.foldl retractStep s

def failComponent (lookups : ScopeLookups) (dropped : Finset Scope) (s : Scan)
    (component : List LedgerMutation) (aggregate : ActivityAggregate) (cause : DropCause)
    (trigger : SourceTradeId) : Scan :=
  -- the scope comes from the stamped evidence of the component's first record
  let s := match resolveProblemScope aggregate cause lookups with
    | some scope => if scope ∈ dropped then s else s.report ⟨scope, cause, trigger⟩
    | none => retract s component
  { s with failed := s.failed ∪ (component.map (·.sourceTradeId.val)).toFinset }

def componentStep (lookups : ScopeLookups) (dropped : Finset Scope) (ledger : PositionLedger)
    (wallet : WalletAddress) (s : Scan) (component : List LedgerMutation) :
    Except LedgerError Scan :=
  match component with
  | [] => .ok s
  | first :: _ => do
    match ← componentCause ledger wallet component with
    | none => return s
    | some cause =>
      match s.effectiveRecords.lookup first.sourceTradeId.val with
      | none => throw (.invalidMapping first.sourceTradeId)
      | some aggregate =>
        return failComponent lookups dropped s component aggregate cause first.sourceTradeId

/-! ## The scoped classification -/

/-- Outside every failing component and every new drop. -/
def Scan.survives (lookups : ScopeLookups) (s : Scan) (newDrops : Finset Scope)
    (mutation : LedgerMutation) : Bool :=
  let id := mutation.sourceTradeId.val
  decide (id ∉ s.failed) &&
    ((s.effectiveRecords.lookup id).bind (recordMarket mutation)).all
      fun market => !marketIsDropped market newDrops lookups

def Scan.newDrops (s : Scan) : Finset Scope := s.problems.keys.toFinset

/-- In a problem second nothing is scored. -/
def TradeDecision.unscored (d : TradeDecision) : TradeDecision :=
  if d.entry = .admitted then { d with entry := .notAnEntry } else d

/-- The consumed markets, each once, in the order of their texts. -/
def consumedMarkets (consumed : Std.ExtTreeMap String MarketId) : List MarketId :=
  intoValues (foldInto compare MarketId.text (fun market _ => market)
    (intoValues consumed) ∅)

/-- Everything that is read off a finished scan. -/
def concludeSecond (config : SecondConfig) (lookups : ScopeLookups) (ledger : PositionLedger)
    (wallet : WalletAddress) (certifiedProblemSecond : Bool) (s : Scan) :
    Except LedgerError ScopedSecond := do
  let apply := s.mutations.filter (s.survives lookups s.newDrops)
  -- one problem makes the whole second a problem second
  let problemSecond := certifiedProblemSecond || !s.problems.isEmpty
  match ← classifyCompleteSecond config ledger wallet apply with
  | .orderDependent trigger => throw (.invalidMapping trigger)
  | .orderIndependent _ decisions _ =>
    let decisions := if problemSecond then decisions.map TradeDecision.unscored else decisions
    return ⟨problemSecond, intoValues s.problems, sortOn (fun e => e.1.val) s.ignored,
      apply, decisions, consumedMarkets s.consumed⟩

/-- Every anomaly must be of the wallet and the second it comes with. -/
def checkAnomalies (wallet : WalletAddress) (sourceSecond : Int) :
    List ActivityRowAnomaly → Except LedgerError Unit
  | [] => .ok ()
  | anomaly :: rest =>
    if anomaly.wallet ≠ wallet ∨ anomaly.sourceTime.unixTimestamp ≠ sourceSecond then
      .error (.invalidMapping (activityRowAnomalyTrigger anomaly))
    else checkAnomalies wallet sourceSecond rest

/-- The scan of a second: its anomalies, its records by key, its components. -/
def scanSecond (lookups : ScopeLookups) (ledger : PositionLedger) (wallet : WalletAddress)
    (dropped : Finset Scope) (records : List SecondRecord)
    (anomalies : List ActivityRowAnomaly) : Except LedgerError Scan := do
  -- records are visited by group key, anomalies as they come
  let ordered := sortOn (fun r : SecondRecord => r.aggregate.groupId.key.val) records
  let s := anomalies.foldl (anomalyStep lookups dropped) .empty
  let s ← ordered.foldlM (recordStep lookups dropped) s
  (mutationComponents s.mutations).foldlM (componentStep lookups dropped ledger wallet) s

section

variable (config : SecondConfig) (lookups : ScopeLookups) (ledger : PositionLedger)
  (wallet : WalletAddress)

def classifyScopedSecondWithAnomalies (sourceSecond : Int) (records : List SecondRecord)
    (anomalies : List ActivityRowAnomaly) (dropped : Finset Scope) (certifiedProblemSecond : Bool) :
    Except LedgerError ScopedSecond := do
  checkAnomalies wallet sourceSecond anomalies
  let s ← scanSecond lookups ledger wallet dropped records anomalies
  concludeSecond config lookups ledger wallet certifiedProblemSecond s

def classifyScopedSecond (records : List SecondRecord) (dropped : Finset Scope)
    (certifiedProblemSecond : Bool) : Except LedgerError ScopedSecond :=
  let sourceSecond := (records.head?.map (·.aggregate.sourceTime.unixTimestamp)).getD 0
  classifyScopedSecondWithAnomalies config lookups ledger wallet sourceSecond records [] dropped
    certifiedProblemSecond

end

end PredictionEdge
