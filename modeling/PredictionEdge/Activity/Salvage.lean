import PredictionEdge.Activity.FlatRows

/-!
# Salvage is conservative

The salvaging modes read the index and the numbers of a row one by one, and put stand-ins
where one cannot be read, so that every other defect is still found. A row comes out of them
only when no reading left a problem behind. Each reading without a problem is the strict
reading, and the last step is the strict step, so the row is the one the strict mode makes.

The salvaging modes read the whole row once more as a value, since page evidence is read so,
and refuse it when some number is out of range, be it in a field that nothing uses. There the
strict modes make a row and the salvaging ones do not.
-/

namespace PredictionEdge

open Lib

variable {libs : ActivityLibraries} {text : String} {problem : Option Problem}

/-! ## Readings without a problem -/

/-- An index without a problem was read, and is a number. -/
theorem salvageIndex_clean {value : Option String} {index : Option UInt16} :
    salvageIndex libs value = .ok (index, none) ↔ ∃ flexible,
      value.mapM (fun index => (libs.flexibleU16 index).toOption) = some flexible
        ∧ flexible.mapM FlexibleU16.parse = .ok index := by
  unfold salvageIndex
  cases value with
  | none => simp [pure, Except.pure, eq_comm]
  | some raw =>
    cases hread : libs.flexibleU16 raw with
    | error message =>
      by_cases hnumeric : looksNumeric raw <;> simp [hread, hnumeric, Except.toOption]
    | ok flexible =>
      cases hparse : flexible.parse <;>
      simp [hread, hparse, Except.toOption, Functor.map, Except.map]

theorem salvageOutcome_clean {index : Option UInt16} {label : Bool} {outcome : Option OutcomeId} :
    salvageOutcome index label problem = (outcome, none) ↔
      parseOutcome (index.map .number) label = .ok outcome ∧ problem = none := by
  unfold salvageOutcome
  cases parseOutcome (index.map .number) label <;> simp

theorem salvageDecimal_clean {value : Option String} {field : String} {number : Option Decimal} :
    salvageDecimal libs value field problem = .ok (number, none) ↔
      value.mapM libs.exactDecimal = some number ∧ number.isSome ∧ problem = none := by
  unfold salvageDecimal
  cases value with
  | none =>
    simp only [okOr, bind, Except.bind, Option.mapM_none]
    grind
  | some raw =>
    cases hread : libs.exactDecimal raw <;>
    · simp only [okOr, ok_bind, hread, pure_eq_ok, Option.mapM_some]
      grind

theorem salvagePrice_clean {price : Option Decimal} :
    salvagePrice price problem = none ↔
      (∀ value ∈ price, ∃ p, Price.new value = .ok p) ∧ problem = none := by
  unfold salvagePrice
  cases price with
  | none => simp
  | some value => cases hprice : Price.new value <;> simp [hprice]

theorem salvageMapping_clean {check : Except ActivityValidationError Unit}
    {outcome : Option OutcomeId} :
    salvageMapping check outcome problem = .ok none ↔ check = .ok () ∧ problem = none := by
  unfold salvageMapping
  split <;> simp

/-! ## The last step -/

variable {raw : RawActivity String String} {index : Option FlexibleU16} {number : Option UInt16}
  {price size usdcSize : Option Decimal} {plain tolerant : ActivityRowAcceptance}
  {wallet : Option WalletAddress} {context : ActivityParseContext} {rowIndex : Nat}
  {row : NormalizedActivity} {activityType : ActivityType}
  {conditionId : Option PolymarketConditionId} {asset : Option PolymarketTokenId}
  {outcome : Option OutcomeId} {label : Bool} {side : Option Side} {shares : ShareAmount}
  {isCombo : Bool}

/-- Two modes that keep the same rows ask the same of an effect. -/
theorem validateTypeSpecific_mode (h : plain.mappingRelaxed = tolerant.mappingRelaxed) :
    validateTypeSpecific activityType conditionId asset outcome label side shares isCombo plain
      = validateTypeSpecific activityType conditionId asset outcome label side shares isCombo
        tolerant := by
  unfold validateTypeSpecific
  rw [h]

/-- An effect that is accepted is accepted with any outcome that is mapped. -/
theorem validateTypeSpecific_mapped
    (h : validateTypeSpecific activityType conditionId asset outcome label side shares isCombo
      tolerant = .ok ()) :
    validateTypeSpecific activityType conditionId asset (some ⟨0⟩) true side shares isCombo tolerant
      = .ok () := by
  unfold validateTypeSpecific at h ⊢
  split at h
  · rw [if_pos ‹_›]
  · rw [if_neg ‹_›]
    cases activityType <;> grind

theorem parseOutcome_number (h : index.mapM FlexibleU16.parse = .ok number) (label : Bool) :
    parseOutcome (number.map .number) label = parseOutcome index label := by
  cases index with
  | none =>
    obtain rfl := pure_eq_ok.mp h
    rfl
  | some flexible =>
    obtain ⟨value, hparse, rfl⟩ := map_eq_ok.mp h
    simp only [Option.map_some, parseOutcome, hparse]
    rfl

theorem parseOutcome_ok (h : parseOutcome index label = .ok outcome) :
    ∃ number, index.mapM FlexibleU16.parse = .ok number := by
  cases index with
  | none => exact ⟨none, rfl⟩
  | some flexible =>
    obtain ⟨value, hvalue, -⟩ := bind_eq_ok.mp h
    exact ⟨some value, map_eq_ok.mpr ⟨value, hvalue, rfl⟩⟩

section

variable (hmode : plain.mappingRelaxed = tolerant.mappingRelaxed)

include hmode

/-- The last step of both modes is the same. -/
theorem normalizeRow_read {wallet : WalletAddress}
    (hindex : index.mapM FlexibleU16.parse = .ok number) :
    normalizeRow libs ⟨none, raw.timestamp, raw.activityType, raw.transactionHash, raw.conditionId,
        raw.asset, number.map .number, raw.outcome, raw.side, price, size, usdcSize, raw.isCombo⟩
        wallet context text tolerant
      = normalizeRow libs (raw.read index price size usdcSize) wallet context text plain := by
  simp only [normalizeRow, RawActivity.read, parseOutcome_number hindex,
    validateTypeSpecific_mode hmode]

variable (hsalvage : tolerant.salvageEnabled = true)

include hsalvage

/-- **A row of the strict mode is a row of the salvaging one**, once its numbers are in range. -/
theorem salvaged_of_parseRow (h : parseRow libs text wallet context rowIndex plain = .ok row) :
    parseRowWithAcceptance libs text wallet context rowIndex tolerant
      = ((libs.value text).mapError fun message => .json (rowMessage rowIndex message)).map
        fun _ => .row row := by
  obtain ⟨_, hread, h⟩ := bind_eq_ok.mp h
  obtain ⟨payer, hwallet, h⟩ := bind_eq_ok.mp h
  obtain ⟨raw, index, price, size, usdcSize, hraw, hindex, hprice, hsize, husdcSize, rfl⟩ :=
    strictFields_eq_ok.mp (mapError_eq_ok.mp hread)
  have hpayer : parseWallet raw.proxyWallet wallet rowIndex = .ok payer := hwallet
  have hrow := mapError_eq_ok.mp h
  have hsteps := hrow
  simp only [normalizeRow, bind_eq_ok, pure_eq_ok, mapError_eq_ok, okOr_eq_ok,
    RawActivity.read] at hsteps
  obtain ⟨name, hname, hash, hhash, side, hside, outcome, houtcome, price, rfl, p, hp, size, rfl,
    shares, hshares, usdcSize, rfl, usdc, husdc, time, htime, _, heffect, -⟩ := hsteps
  obtain ⟨number, hnumber⟩ := parseOutcome_ok houtcome
  -- every reading of the salvaging mode is the strict one, and none leaves a problem
  have hindex := salvageIndex_clean.mpr ⟨index, hindex, hnumber⟩
  have houtcome := salvageOutcome_clean.mpr
    ⟨(parseOutcome_number hnumber _).trans houtcome, rfl⟩
  have hpriced : salvagePrice (some price) none = none := salvagePrice_clean.mpr ⟨by simp [hp], rfl⟩
  rw [validateTypeSpecific_mode hmode] at heffect
  unfold parseRowWithAcceptance
  rw [if_neg (by simp [hsalvage]), hraw]
  simp only [Except.mapError, ok_bind, hpayer, hname, hhash, htime]
  cases hvalue : libs.value text with
  | error message => rfl
  | ok u =>
    simp only [Except.mapError, ok_bind, hside, hindex, houtcome,
      salvageDecimal_clean.mpr ⟨hprice, rfl, rfl⟩, salvageDecimal_clean.mpr ⟨hsize, rfl, rfl⟩,
      salvageDecimal_clean.mpr ⟨husdcSize, rfl, rfl⟩, hpriced,
      salvageShares, hshares, checkCollateral, husdc, Except.map, validateTypeSpecific_mapped heffect,
      salvageMapping_clean.mpr ⟨heffect, rfl⟩, normalizeRow_read hmode hnumber, hrow]

/-- **A row of the salvaging mode is the row of the strict one.** -/
theorem parseRow_of_salvaged
    (h : parseRowWithAcceptance libs text wallet context rowIndex tolerant = .ok (.row row)) :
    parseRow libs text wallet context rowIndex plain = .ok row ∧ libs.value text = .ok () := by
  unfold parseRowWithAcceptance at h
  rw [if_neg (by simp [hsalvage])] at h
  obtain ⟨raw, hraw, h⟩ := bind_eq_ok.mp h
  obtain ⟨payer, hwallet, h⟩ := bind_eq_ok.mp h
  iterate 3 obtain ⟨_, -, h⟩ := bind_eq_ok.mp h
  obtain ⟨_, hvalue, h⟩ := bind_eq_ok.mp h
  obtain ⟨_, -, h⟩ := bind_eq_ok.mp h
  obtain ⟨⟨number, p₁⟩, hindex, h⟩ := bind_eq_ok.mp h
  obtain ⟨⟨price, p₂⟩, hprice, h⟩ := bind_eq_ok.mp h
  obtain ⟨⟨size, p₃⟩, hsize, h⟩ := bind_eq_ok.mp h
  obtain ⟨⟨usdcSize, p₄⟩, husdcSize, h⟩ := bind_eq_ok.mp h
  iterate 3 obtain ⟨_, -, h⟩ := bind_eq_ok.mp h
  obtain ⟨_ | problem, hmapping, h⟩ := bind_eq_ok.mp h
  swap
  · cases pure_eq_ok.mp h
  obtain ⟨_, hrow, heq⟩ := map_eq_ok.mp (mapError_eq_ok.mp h)
  obtain rfl := ParsedActivityRow.row.inj heq
  -- no problem at the end means no problem at any reading
  obtain ⟨-, hnone⟩ := salvageMapping_clean.mp (mapError_eq_ok.mp hmapping)
  obtain ⟨-, rfl⟩ := salvagePrice_clean.mp hnone
  obtain ⟨hu, -, rfl⟩ := salvageDecimal_clean.mp (mapError_eq_ok.mp husdcSize)
  obtain ⟨hs, -, rfl⟩ := salvageDecimal_clean.mp (mapError_eq_ok.mp hsize)
  obtain ⟨hp, -, hnone⟩ := salvageDecimal_clean.mp (mapError_eq_ok.mp hprice)
  obtain ⟨-, rfl⟩ := salvageOutcome_clean.mp (Prod.ext rfl hnone)
  obtain ⟨index, hi, hnumber⟩ := salvageIndex_clean.mp (mapError_eq_ok.mp hindex)
  have hread := strictFields_eq_ok.mpr
    ⟨raw, index, price, size, usdcSize, mapError_eq_ok.mp hraw, hi, hp, hs, hu, rfl⟩
  rw [normalizeRow_read hmode hnumber] at hrow
  refine ⟨bind_eq_ok.mpr ⟨_, mapError_eq_ok.mpr hread, ?_⟩, mapError_eq_ok.mp hvalue⟩
  exact bind_eq_ok.mpr ⟨payer, hwallet, mapError_eq_ok.mpr hrow⟩

end

/-- The strict mode beside each salvaging one. -/
def salvagingModes : List (ActivityRowAcceptance × ActivityRowAcceptance) :=
  [(.strictWithAnomalies, .strict), (.acquisition4, .acquisition3)]

/--
**Salvage is conservative.**

A salvaging mode yields a row exactly when its strict mode yields that row and every number
of the text is in range; and where it yields an anomaly the strict mode fails.
-/
theorem parseRowWithAcceptance_conservative (libs : ActivityLibraries) (text : String)
    (wallet : Option WalletAddress) (context : ActivityParseContext) (rowIndex : Nat) :
    ∀ modes ∈ salvagingModes,
      (∀ row, parseRowWithAcceptance libs text wallet context rowIndex modes.1 = .ok (.row row)
        ↔ parseRow libs text wallet context rowIndex modes.2 = .ok row ∧ libs.value text = .ok ())
      ∧ ∀ anomaly,
        parseRowWithAcceptance libs text wallet context rowIndex modes.1 = .ok (.anomaly anomaly) →
        ∃ error, parseRow libs text wallet context rowIndex modes.2 = .error error := by
  intro modes hmem
  have hmodes : modes.2.mappingRelaxed = modes.1.mappingRelaxed ∧ modes.1.salvageEnabled = true := by
    revert modes
    decide
  refine ⟨fun row => ⟨parseRow_of_salvaged hmodes.1 hmodes.2, ?_⟩, ?_⟩
  · rintro ⟨hrow, hvalue⟩
    rw [salvaged_of_parseRow hmodes.1 hmodes.2 hrow, hvalue]
    rfl
  · intro anomaly hanomaly
    cases hrow : parseRow libs text wallet context rowIndex modes.2 with
    | error error => exact ⟨error, rfl⟩
    | ok row =>
      rw [salvaged_of_parseRow hmodes.1 hmodes.2 hrow] at hanomaly
      cases hvalue : libs.value text <;> rw [hvalue] at hanomaly <;> cases hanomaly

/-! Redemptions that are told apart by their prices, and by a field that nothing uses. -/

namespace PricedRows

def redemption (price rest : String) : String :=
  "\x7b\"proxyWallet\":\"0x00000000000000000000000000000000000000aa\",\"timestamp\":17," ++
    "\"type\":\"REDEEM\",\"transactionHash\":\"0xABC\",\"conditionId\":\"0xb2\"," ++
    "\"size\":1,\"usdcSize\":0,\"price\":" ++ price ++ rest ++ "\x7d"

def here : ActivityParseContext := ⟨⟨""⟩, ⟨0⟩, ⟨0⟩, .rest⟩

/-- A price below one gives the same row in both modes, one above it is an anomaly or fails. -/
theorem rows_agree :
    (∃ parsed, parseRowWithAcceptance FlatRows.libraries (redemption "0.5" "") none here 0 .acquisition4
        = .ok (.row parsed)
      ∧ parseRow FlatRows.libraries (redemption "0.5" "") none here 0 .acquisition3 = .ok parsed)
    ∧ ∃ anomaly error,
      parseRowWithAcceptance FlatRows.libraries (redemption "1.5" "") none here 0 .strictWithAnomalies
        = .ok (.anomaly anomaly)
      ∧ parseRow FlatRows.libraries (redemption "1.5" "") none here 0 .strict = .error error := by
  constructor
  · obtain ⟨parsed, hparsed, -⟩ := exists_ok_of_any
      (x := parseRow FlatRows.libraries (redemption "0.5" "") none here 0 .acquisition3) (p := fun _ => true)
      (by decide +kernel)
    exact ⟨parsed, ((parseRowWithAcceptance_conservative FlatRows.libraries _ none here 0
      (.acquisition4, .acquisition3) (by decide)).1 parsed).mpr ⟨hparsed, by decide +kernel⟩, hparsed⟩
  · obtain ⟨parsed, hparsed, hp⟩ := exists_ok_of_any
      (x := parseRowWithAcceptance FlatRows.libraries (redemption "1.5" "") none here 0 .strictWithAnomalies)
      (p := fun parsed => parsed matches .anomaly _) (by decide +kernel)
    cases parsed with
    | row parsed => cases hp
    | anomaly anomaly =>
      obtain ⟨error, herror⟩ := (parseRowWithAcceptance_conservative FlatRows.libraries _ none here 0
        (.strictWithAnomalies, .strict) (by decide)).2 anomaly hparsed
      exact ⟨anomaly, error, hparsed, herror⟩

/-- A redemption with a number that no float holds, in a field that nothing uses. -/
def noted : String := redemption "0.5" ",\"note\":1e999"

/-- It is a row in the strict modes, and an error in the salvaging ones. -/
theorem noted_refused :
    (∃ parsed, parseRow FlatRows.libraries noted none here 0 .strict = .ok parsed)
      ∧ parseRowWithAcceptance FlatRows.libraries noted none here 0 .strictWithAnomalies
        = .error (.json "row 0: number out of range")
      ∧ (∃ parsed, parseRow FlatRows.libraries noted none here 0 .acquisition3 = .ok parsed)
      ∧ parseRowWithAcceptance FlatRows.libraries noted none here 0 .acquisition4
        = .error (.json "row 0: number out of range") := by
  obtain ⟨strict, hstrict, -⟩ := exists_ok_of_any
    (x := parseRow FlatRows.libraries noted none here 0 .strict) (p := fun _ => true)
    (by decide +kernel)
  obtain ⟨relaxed, hrelaxed, -⟩ := exists_ok_of_any
    (x := parseRow FlatRows.libraries noted none here 0 .acquisition3) (p := fun _ => true)
    (by decide +kernel)
  exact ⟨⟨strict, hstrict⟩, by decide +kernel, ⟨relaxed, hrelaxed⟩, by decide +kernel⟩

end PricedRows

end PredictionEdge
