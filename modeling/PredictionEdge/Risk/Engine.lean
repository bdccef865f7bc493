import PredictionEdge.Core.Types

/-!
# The risk gate

The gate every proposed trade passes, as `risk-engine/src/engine.rs` has it: a fixed order of
stops over a snapshot of exposures and profits, all in basis points of the bankroll.
-/

namespace PredictionEdge

/-- Basis points, an `i32`. -/
structure BasisPoints where
  val : Int32
  deriving DecidableEq

inductive RiskBlock where
  | leaderConcentrationExceeded
  | marketConcentrationExceeded
  | familyConcentrationExceeded
  | totalCopyExposureExceeded
  | intradayDrawdownStop
  | rolling7dDrawdownStop
  | killSwitchDrawdown
  | copyLatencyKillSwitch
  | perTradeSizeExceeded
  deriving DecidableEq, Repr

inductive RiskDecision where
  | approved
  | blocked (reason : RiskBlock)
  deriving DecidableEq, Repr

structure ConcentrationCaps where
  maxLeaderBps : Int32
  maxMarketBps : Int32
  maxFamilyBps : Int32
  maxTotalCopyBps : Int32
  deriving DecidableEq

inductive DrawdownPolicy where
  | stops
  | killOnly
  deriving DecidableEq, Repr

def killSwitchDrawdownBps : Int32 := -1000
def killOnlyDrawdownBps : Int32 := -3000
def intradayStopBps : Int32 := -200
def rolling7dStopBps : Int32 := -600

def DrawdownPolicy.absoluteLossBps : DrawdownPolicy → Int32
  | stops => killSwitchDrawdownBps
  | killOnly => killOnlyDrawdownBps

/-- All risk inputs for one proposed trade. -/
structure RiskSnapshot where
  leaderExposureBps : BasisPoints
  marketExposureBps : BasisPoints
  familyExposureBps : BasisPoints
  totalCopyExposureBps : BasisPoints
  intradayPnlBps : BasisPoints
  rolling7dPnlBps : BasisPoints
  absolutePnlBps : BasisPoints
  copyLatencyKillSwitchActive : Bool
  proposedTradeBps : BasisPoints
  perTradeCapBps : Int32
  drawdownPolicy : DrawdownPolicy
  concentrationCaps : Option ConcentrationCaps
  deriving DecidableEq

/-- A sum that leaves the range of an `i32` counts as above every cap. -/
def exceedsConcentrationCap (existing proposed cap : Int32) : Bool :=
  let total := existing.toInt + proposed.toInt
  if -2 ^ 31 ≤ total ∧ total < 2 ^ 31 then cap.toInt < total else true

def evaluateConcentration (s : RiskSnapshot) (caps : ConcentrationCaps) : RiskDecision :=
  let proposed := s.proposedTradeBps.val
  if exceedsConcentrationCap s.leaderExposureBps.val proposed caps.maxLeaderBps then
    .blocked .leaderConcentrationExceeded
  else if exceedsConcentrationCap s.marketExposureBps.val proposed caps.maxMarketBps then
    .blocked .marketConcentrationExceeded
  else if exceedsConcentrationCap s.familyExposureBps.val proposed caps.maxFamilyBps then
    .blocked .familyConcentrationExceeded
  else if exceedsConcentrationCap s.totalCopyExposureBps.val proposed caps.maxTotalCopyBps then
    .blocked .totalCopyExposureExceeded
  else .approved

def evaluateRisk (s : RiskSnapshot) : RiskDecision :=
  if s.absolutePnlBps.val ≤ s.drawdownPolicy.absoluteLossBps then .blocked .killSwitchDrawdown
  else if s.drawdownPolicy = .stops ∧ s.intradayPnlBps.val ≤ intradayStopBps then
    .blocked .intradayDrawdownStop
  else if s.drawdownPolicy = .stops ∧ s.rolling7dPnlBps.val ≤ rolling7dStopBps then
    .blocked .rolling7dDrawdownStop
  else if s.copyLatencyKillSwitchActive then .blocked .copyLatencyKillSwitch
  else if s.perTradeCapBps < s.proposedTradeBps.val then .blocked .perTradeSizeExceeded
  else
    match s.concentrationCaps with
    | some caps => evaluateConcentration s caps
    | none => .approved

end PredictionEdge
