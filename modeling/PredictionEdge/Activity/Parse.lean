import PredictionEdge.Activity.Row

/-!
# Parsing activity rows

The exact-lexeme parser of `source-polymarket-public/src/activity.rs`. A row is strict by
default: any defect fails its whole page. The salvaging modes keep a row whose numbers or
outcome cannot be represented as evidence, once everything else about it is sound.

JSON is read by a library. A row is first split into its fields; the outcome index and the
three numbers stay raw texts, which the strict modes read at once and the salvaging modes
one by one.
-/

namespace PredictionEdge

open Lib

open EventLog (Bytes SourceId ReceivedAt)

/-! ## Texts -/

/-- `char::is_whitespace`. -/
def isWhitespace (c : Char) : Bool :=
  (9 ≤ c.toNat && c.toNat ≤ 13) || (0x2000 ≤ c.toNat && c.toNat ≤ 0x200a)
    || c.toNat ∈ [0x20, 0x85, 0xa0, 0x1680, 0x2028, 0x2029, 0x202f, 0x205f, 0x3000]

def trim (s : String) : String :=
  String.ofList ((((s.toList.dropWhile isWhitespace).reverse).dropWhile isWhitespace).reverse)

def toAsciiLowercase (s : String) : String := String.ofList (s.toList.map Char.toLower)

def eqIgnoreAsciiCase (a b : String) : Bool := toAsciiLowercase a = toAsciiLowercase b

def toAsciiUppercase (s : String) : String := String.ofList (s.toList.map Char.toUpper)

/-- The number that decimal digits spell; there is at least one digit. -/
def parseDigits (digits : List Char) : Option Nat :=
  if digits ≠ [] ∧ digits.all Char.isDigit then
    some (digits.foldl (fun n c => 10 * n + (c.toNat - 48)) 0)
  else none

/-- `str::parse::<i64>`. -/
def parseI64 (s : String) : Option Int :=
  let value : Option Int :=
    match s.toList with
    | '-' :: digits => (parseDigits digits).map fun n => -(n : Int)
    | '+' :: digits => (parseDigits digits).map Int.ofNat
    | digits => (parseDigits digits).map Int.ofNat
  value.filter fun v => -2 ^ 63 ≤ v ∧ v < 2 ^ 63

/-- `str::parse::<u16>`. -/
def parseU16 (s : String) : Option UInt16 :=
  let value : Option Nat :=
    match s.toList with
    | '+' :: digits => parseDigits digits
    | digits => parseDigits digits
  (value.filter (· < 2 ^ 16)).map UInt16.ofNat

def hexNibble (c : Char) : Option Nat :=
  if '0' ≤ c ∧ c ≤ '9' then some (c.toNat - 48)
  else if 'a' ≤ c ∧ c ≤ 'f' then some (c.toNat - 87)
  else if 'A' ≤ c ∧ c ≤ 'F' then some (c.toNat - 55)
  else none

/-- Parse `0x` and forty hex digits, in either case. -/
def WalletAddress.fromHex (s : String) : Option WalletAddress :=
  match s.toList with
  | '0' :: 'x' :: digits =>
    if digits.length = 40 then
      (digits.mapM hexNibble).map fun nibbles =>
        ⟨BitVec.ofNat 160 (nibbles.foldl (fun n d => 16 * n + d) 0)⟩
    else none
  | _ => none

def ActivityType.ofText : String → ActivityType
  | "TRADE" => trade
  | "SPLIT" => split
  | "MERGE" => merge
  | "REDEEM" => redeem
  | "REWARD" => reward
  | "CONVERSION" => conversion
  | "DEPOSIT" => deposit
  | "WITHDRAWAL" => withdrawal
  | "YIELD" => yield
  | "MAKER_REBATE" => makerRebate
  | "TAKER_REBATE" => takerRebate
  | "REFERRAL_REWARD" => referralReward
  | value => unknown value

/-! ## Failures and modes -/

inductive ActivityWindowInvalidation where
  | missingWallet (rowIndex : Nat)
  | invalidWallet (rowIndex : Nat) (value : String)
  | walletMismatch (rowIndex : Nat) (requestedWallet payloadWallet : WalletAddress)
  deriving DecidableEq, Repr

inductive ActivityValidationError where
  | missingField (field : String)
  | emptyField (field : String)
  | invalidSide (value : String)
  | invalidPrice (value : Decimal) (reason : CoreError)
  | invalidShareAmount (value : Decimal) (reason : CoreError)
  | invalidCollateralAmount (value : Decimal) (reason : CoreError)
  | invalidConditionOutcomeMapping
  | invalidTimestamp (epoch : Int)
  | invalidTimestampValue (value : String)
  deriving DecidableEq

inductive ActivityParseError where
  | json (message : String)
  | windowInvalidated (reason : ActivityWindowInvalidation)
  | invalidRow (rowIndex : Nat) (source : ActivityValidationError)
  deriving DecidableEq

/-- Row acceptance selected by the acquisition contract. -/
inductive ActivityRowAcceptance where
  | strict
  | acquisition3
  | strictWithAnomalies
  | acquisition4
  deriving DecidableEq, Repr

/-- Whether absent condition identifiers and trade assets are retained. -/
def ActivityRowAcceptance.mappingRelaxed : ActivityRowAcceptance → Bool
  | acquisition3 | acquisition4 => true
  | _ => false

/-- Whether supported representation failures become anomalies. -/
def ActivityRowAcceptance.salvageEnabled : ActivityRowAcceptance → Bool
  | strictWithAnomalies | acquisition4 => true
  | _ => false

/-- Envelope-owned metadata supplied to the pure parser. -/
structure ActivityParseContext where
  sourceId : SourceId
  observedAt : SourceTimestamp
  receivedAt : ReceivedAt
  transport : ActivityTransport
  deriving DecidableEq

/-! ## Raw rows -/

inductive FlexibleI64 where
  | number (value : Int)
  | text (value : String)
  deriving DecidableEq, Repr

def FlexibleI64.parse : FlexibleI64 → Except ActivityValidationError Int
  | number value => .ok value
  | text value => okOr (parseI64 (trim value)) (.invalidTimestampValue value)

inductive FlexibleU16 where
  | number (value : UInt16)
  | text (value : String)
  deriving DecidableEq, Repr

def FlexibleU16.parse : FlexibleU16 → Except ActivityValidationError UInt16
  | number value => .ok value
  | text value => okOr (parseU16 (trim value)) .invalidConditionOutcomeMapping

/-- The fields of a row; `I` is what an index is read as, `N` what a number is read as. -/
structure RawActivity (I N : Type) where
  proxyWallet : Option String
  timestamp : Option FlexibleI64
  activityType : Option String
  transactionHash : Option String
  conditionId : Option String
  asset : Option String
  outcomeIndex : Option I
  outcome : Option String
  side : Option String
  price : Option N
  size : Option N
  usdcSize : Option N
  isCombo : Option Bool

/-- The JSON reader and the other libraries the parser rests on. -/
structure ActivityLibraries where
  /-- Split a page into the raw texts of its rows. -/
  rows : Bytes → Except String (List String)
  /-- Split a row into its fields, leaving the index and the numbers as raw texts. -/
  fields : String → Except String (RawActivity String String)
  flexibleU16 : String → Except String FlexibleU16
  /-- What is said of a row that cannot be read with its index and its numbers at once. -/
  rejection : String → String
  /-- Whether a text is a JSON value with every number in range. -/
  value : String → Except String Unit
  /-- A page in its canonical form. -/
  canonical : Bytes → Except String Bytes
  fromStrExact : String → Option Decimal
  decimalText : Decimal → String
  arith : DecimalArith
  /-- The lowercase hex text of a digest. -/
  blake3 : Bytes → String

namespace ActivityLibraries

variable (libs : ActivityLibraries)

/-- A number from its raw text, every digit of it, with or without quotes. -/
def exactDecimal (raw : String) : Option Decimal :=
  let lexeme := (trim raw).toList
  libs.fromStrExact (String.ofList
    (match lexeme with
      | '"' :: rest => if rest.getLast? = some '"' then rest.dropLast else lexeme
      | _ => lexeme))

/-- The strict reading of a row: everything at once, or nothing. -/
def strictFields (text : String) : Except String (RawActivity FlexibleU16 Decimal) :=
  let number := fun raw : Option String => raw.mapM libs.exactDecimal
  match libs.fields text with
  | .error _ => .error (libs.rejection text)
  | .ok raw =>
    match raw.outcomeIndex.mapM fun index => (libs.flexibleU16 index).toOption, number raw.price,
        number raw.size, number raw.usdcSize with
    | some index, some price, some size, some usdcSize =>
      .ok ⟨raw.proxyWallet, raw.timestamp, raw.activityType, raw.transactionHash,
        raw.conditionId, raw.asset, index, raw.outcome, raw.side, price, size, usdcSize,
        raw.isCombo⟩
    | _, _, _, _ => .error (libs.rejection text)

end ActivityLibraries

/-! ## Fields -/

def requiredString (value : Option String) (field : String) :
    Except ActivityValidationError String := do
  let value ← okOr value (.missingField field)
  if trim value = "" then throw (.emptyField field)
  else return trim value

def optionalNonempty (value : Option String) : Option String :=
  value.bind fun value => if trim value = "" then none else some (trim value)

def parseSide (value : Option String) : Except ActivityValidationError (Option Side) :=
  match optionalNonempty value with
  | none => .ok none
  | some value =>
    if toAsciiUppercase value = "BUY" then .ok (some .buy)
    else if toAsciiUppercase value = "SELL" then .ok (some .sell)
    else .error (.invalidSide value)

/-- An index without a label is a sentinel when it is 999. -/
def parseOutcome (value : Option FlexibleU16) (outcomeLabelPresent : Bool) :
    Except ActivityValidationError (Option OutcomeId) :=
  match value with
  | none => if outcomeLabelPresent then .error .invalidConditionOutcomeMapping else .ok none
  | some value => do
    let value ← value.parse
    if value = 999 ∧ outcomeLabelPresent = false then return none
    else return some ⟨value⟩

/-- Milliseconds are told from seconds by their size. -/
def normalizeEpochSeconds (timestamp : Int) : Int :=
  if 9999999999 < timestamp then timestamp.tdiv 1000 else timestamp

/-- The first and the last second of the calendar. -/
def firstSecond : Int := -377705116800
def lastSecond : Int := 253402300799

/-- `OffsetDateTime::from_unix_timestamp`. -/
def fromUnixTimestamp (epoch : Int) : Option SourceTimestamp :=
  if firstSecond ≤ epoch ∧ epoch ≤ lastSecond then some ⟨epoch * 1000000000⟩ else none

/-- The time of a row. -/
def parseSourceTime (timestamp : Option FlexibleI64) :
    Except ActivityValidationError SourceTimestamp := do
  let timestamp ← okOr timestamp (.missingField "timestamp")
  let epoch ← timestamp.parse
  okOr (fromUnixTimestamp (normalizeEpochSeconds epoch))
    (.invalidTimestamp (normalizeEpochSeconds epoch))

theorem one_lt_word : 1 < 2 ^ 64 := by decide

def oneAtomicShare : ShareAmount := ⟨1, one_lt_word⟩

/-- What a row of each type has to say about its effect. -/
def validateTypeSpecific (activityType : ActivityType) (conditionId : Option PolymarketConditionId)
    (asset : Option PolymarketTokenId) (outcome : Option OutcomeId) (outcomeLabelPresent : Bool)
    (side : Option Side) (shareAmount : ShareAmount) (isCombo : Bool)
    (acceptance : ActivityRowAcceptance) : Except ActivityValidationError Unit :=
  -- rows that cannot change a position need no mapping
  if shareAmount = .zero ∨ isCombo then .ok ()
  else
    match activityType with
    | .trade =>
      if conditionId = none ∧ acceptance.mappingRelaxed = false then
        .error (.missingField "conditionId")
      else if asset = none ∧ acceptance.mappingRelaxed = false then .error (.missingField "asset")
      else if outcome = none then .error .invalidConditionOutcomeMapping
      else if side = none then .error (.missingField "side")
      else .ok ()
    | .split | .merge =>
      if conditionId = none ∧ acceptance.mappingRelaxed = false then
        .error (.missingField "conditionId")
      else .ok ()
    | .redeem =>
      if conditionId = none ∧ acceptance.mappingRelaxed = false then
        .error (.missingField "conditionId")
      -- a stamped outcome still requires its label
      else if outcome.isSome ∧ outcomeLabelPresent = false then
        .error .invalidConditionOutcomeMapping
      else .ok ()
    | _ => .ok ()

def parseWallet (rawWallet : Option String) (requestedWallet : Option WalletAddress)
    (rowIndex : Nat) : Except ActivityParseError WalletAddress := do
  let value ← okOr (rawWallet.filter fun value => trim value ≠ "")
    (.windowInvalidated (.missingWallet rowIndex))
  let wallet ← okOr (WalletAddress.fromHex (trim value))
    (.windowInvalidated (.invalidWallet rowIndex value))
  match requestedWallet with
  | some requested =>
    if wallet = requested then return wallet
    else throw (.windowInvalidated (.walletMismatch rowIndex requested wallet))
  | none => return wallet

/-! ## Rows -/

section

variable (libs : ActivityLibraries)

def normalizeRow (raw : RawActivity FlexibleU16 Decimal) (wallet : WalletAddress)
    (context : ActivityParseContext) (rawRow : String) (acceptance : ActivityRowAcceptance) :
    Except ActivityValidationError NormalizedActivity := do
  let activityType := ActivityType.ofText (← requiredString raw.activityType "type")
  let transactionHash := toAsciiLowercase (← requiredString raw.transactionHash "transactionHash")
  let conditionId : Option PolymarketConditionId :=
    (optionalNonempty raw.conditionId).map fun value => ⟨toAsciiLowercase value⟩
  let asset : Option PolymarketTokenId := (optionalNonempty raw.asset).map fun value => ⟨value⟩
  let side ← parseSide raw.side
  let outcomeLabelPresent := (optionalNonempty raw.outcome).isSome
  let outcome ← parseOutcome raw.outcomeIndex outcomeLabelPresent
  let priceDecimal ← okOr raw.price (.missingField "price")
  let price ← (Price.new priceDecimal).mapError (.invalidPrice priceDecimal)
  let shareDecimal ← okOr raw.size (.missingField "size")
  let shareAmount ← (ExactAmount.fromDecimalExact libs.arith shareDecimal).mapError
    (.invalidShareAmount shareDecimal)
  let collateralDecimal ← okOr raw.usdcSize (.missingField "usdcSize")
  let sourceUsdcAmount ← (ExactAmount.fromDecimalExact libs.arith collateralDecimal).mapError
    (.invalidCollateralAmount collateralDecimal)
  let sourceTime ← parseSourceTime raw.timestamp
  validateTypeSpecific activityType conditionId asset outcome outcomeLabelPresent side shareAmount
    (raw.isCombo.getD false) acceptance
  return ⟨activityType, context.sourceId, wallet, transactionHash, conditionId, asset, outcome, side,
    price, shareAmount, sourceUsdcAmount, raw.isCombo.getD false, sourceTime, context.observedAt,
    context.receivedAt, libs.blake3 (utf8 rawRow), rawRow, activityParserVersion,
    activitySchemaVersion, context.transport⟩

def rowMessage (rowIndex : Nat) (message : String) : String :=
  "row " ++ toString rowIndex ++ ": " ++ message

def parseRow (rawRow : String) (requestedWallet : Option WalletAddress)
    (context : ActivityParseContext) (rowIndex : Nat) (acceptance : ActivityRowAcceptance) :
    Except ActivityParseError NormalizedActivity := do
  let raw ← (libs.strictFields rawRow).mapError fun message => .json (rowMessage rowIndex message)
  let wallet ← parseWallet raw.proxyWallet requestedWallet rowIndex
  (normalizeRow libs raw wallet context rawRow acceptance).mapError (.invalidRow rowIndex)

/-- What makes a row an anomaly, and in which field. -/
abbrev Problem := ActivityRowAnomalyKind × String

def unmappedIndex : Problem := (.unmappedOutcome, "outcomeIndex")

/-- The text begins as a JSON number does. -/
def looksNumeric (raw : String) : Bool :=
  raw.toList.head?.any fun c => c = '-' || c.isDigit

/-- An index that is a number or a text but no index is a problem; anything else is malformed. -/
def salvageIndex (value : Option String) : Except String (Option UInt16 × Option Problem) :=
  match value with
  | none => .ok (none, none)
  | some raw =>
    match libs.flexibleU16 raw with
    | .ok index =>
      match index.parse with
      | .ok value => .ok (some value, none)
      | .error _ => .ok (none, some unmappedIndex)
    | .error message =>
      if looksNumeric raw then .ok (none, some unmappedIndex) else .error message

def salvageOutcome (index : Option UInt16) (labelPresent : Bool) (problem : Option Problem) :
    Option OutcomeId × Option Problem :=
  match parseOutcome (index.map .number) labelPresent with
  | .ok outcome => (outcome, problem)
  | .error _ => (none, some unmappedIndex)

/-- A number that cannot be represented is a problem, unless there is one already. -/
def salvageDecimal (value : Option String) (field : String) (problem : Option Problem) :
    Except ActivityValidationError (Option Decimal × Option Problem) := do
  let raw ← okOr value (.missingField field)
  match libs.exactDecimal raw with
  | some value => return (some value, problem)
  | none => return (none, problem.or (some (.unrepresentableDecimal, field)))

def salvagePrice (price : Option Decimal) (problem : Option Problem) : Option Problem :=
  match price with
  | some value =>
    match Price.new value with
    | .ok _ => problem
    | .error _ => problem.or (some (.priceOutOfRange, "price"))
  | none => problem

/-- An amount that could be read has to be one; none stands for some shares. -/
def salvageShares (size : Option Decimal) : Except ActivityValidationError ShareAmount :=
  match size with
  | some value => (ExactAmount.fromDecimalExact libs.arith value).mapError (.invalidShareAmount value)
  | none => .ok oneAtomicShare

def checkCollateral (usdcSize : Option Decimal) : Except ActivityValidationError Unit :=
  match usdcSize with
  | some value =>
    ((ExactAmount.fromDecimalExact libs.arith value : Except CoreError CollateralAmount).map
      fun _ => ()).mapError (.invalidCollateralAmount value)
  | none => .ok ()

/-- Only the outcome's mapping may be what is wrong with the effect. -/
def salvageMapping (check : Except ActivityValidationError Unit) (outcome : Option OutcomeId)
    (problem : Option Problem) : Except ActivityValidationError (Option Problem) :=
  match check with
  | .ok () => .ok problem
  | .error .invalidConditionOutcomeMapping =>
    .ok (problem.or (some (.unmappedOutcome, if outcome.isSome then "outcome" else "outcomeIndex")))
  | .error error => .error error

def parseRowWithAcceptance (rawRow : String) (requestedWallet : Option WalletAddress)
    (context : ActivityParseContext) (rowIndex : Nat) (acceptance : ActivityRowAcceptance) :
    Except ActivityParseError ParsedActivityRow :=
  if acceptance.salvageEnabled = false then
    (parseRow libs rawRow requestedWallet context rowIndex acceptance).map .row
  else do
    let raw ← (libs.fields rawRow).mapError fun message => .json (rowMessage rowIndex message)
    let wallet ← parseWallet raw.proxyWallet requestedWallet rowIndex
    let invalid := ActivityParseError.invalidRow rowIndex
    let activityType := ActivityType.ofText
      (← (requiredString raw.activityType "type").mapError invalid)
    let transactionHash := toAsciiLowercase
      (← (requiredString raw.transactionHash "transactionHash").mapError invalid)
    let sourceTime ← (parseSourceTime raw.timestamp).mapError invalid
    -- page evidence reads the row once more, so its numbers have to be in range
    let _ ← (libs.value rawRow).mapError fun message => .json (rowMessage rowIndex message)
    let conditionId : Option PolymarketConditionId :=
      (optionalNonempty raw.conditionId).map fun value => ⟨toAsciiLowercase value⟩
    let asset : Option PolymarketTokenId := (optionalNonempty raw.asset).map fun value => ⟨value⟩
    let side ← (parseSide raw.side).mapError invalid
    let isCombo := raw.isCombo.getD false
    let labelPresent := (optionalNonempty raw.outcome).isSome
    let (index, problem) ← (salvageIndex libs raw.outcomeIndex).mapError
      fun message => .json (rowMessage rowIndex message)
    let (outcome, problem) := salvageOutcome index labelPresent problem
    let (price, problem) ← (salvageDecimal libs raw.price "price" problem).mapError invalid
    let (size, problem) ← (salvageDecimal libs raw.size "size" problem).mapError invalid
    let (usdcSize, problem) ← (salvageDecimal libs raw.usdcSize "usdcSize" problem).mapError invalid
    let problem := salvagePrice price problem
    let shareAmount ← (salvageShares libs size).mapError invalid
    (checkCollateral libs usdcSize).mapError invalid
    -- a missing effect field is an error whatever the outcome
    (validateTypeSpecific activityType conditionId asset (some ⟨0⟩) true side shareAmount isCombo
      acceptance).mapError invalid
    let problem ← (salvageMapping (validateTypeSpecific activityType conditionId asset outcome
      labelPresent side shareAmount isCombo acceptance) outcome problem).mapError invalid
    match problem with
    | some (kind, field) =>
      return .anomaly ⟨⟨wallet, sourceTime, activityType, conditionId, asset,
        libs.blake3 (utf8 rawRow)⟩, rowIndex, kind, field, transactionHash, side, isCombo⟩
    | none =>
      ((normalizeRow libs ⟨none, raw.timestamp, raw.activityType, raw.transactionHash,
        raw.conditionId, raw.asset, index.map .number, raw.outcome, raw.side, price, size, usdcSize,
        raw.isCombo⟩ wallet context rawRow acceptance).map .row).mapError invalid

/-- The rows and the anomalies of one page. -/
structure NormalizedActivityWindow where
  rows : List NormalizedActivity
  anomalies : List ReadAnomaly

/-- Parse the raw rows of a page in order; the first that is not accepted fails all of it. -/
def parseRows (requestedWallet : WalletAddress) (context : ActivityParseContext)
    (acceptance : ActivityRowAcceptance) :
    Nat → List String → Except ActivityParseError NormalizedActivityWindow
  | _, [] => .ok ⟨[], []⟩
  | rowIndex, rawRow :: rest => do
    let parsed ← parseRowWithAcceptance libs rawRow (some requestedWallet) context rowIndex
      acceptance
    let window ← parseRows requestedWallet context acceptance (rowIndex + 1) rest
    match parsed with
    | .row r => return { window with rows := r :: window.rows }
    | .anomaly a => return { window with anomalies := a :: window.anomalies }

def parseActivityResponseWithAcceptance (raw : Bytes) (requestedWallet : WalletAddress)
    (context : ActivityParseContext) (acceptance : ActivityRowAcceptance) :
    Except ActivityParseError NormalizedActivityWindow := do
  let rawRows ← (libs.rows raw).mapError .json
  parseRows libs requestedWallet context acceptance 0 rawRows

/-! ## The time of a row -/

/-- The time a raw row carries, if it can be read. -/
def rowTime (rawRow : String) : Option SourceTimestamp :=
  (libs.fields rawRow).toOption.bind fun raw => (parseSourceTime raw.timestamp).toOption

end

variable {acceptance : ActivityRowAcceptance} {context : ActivityParseContext}
  {wallet : Option WalletAddress} {text : String} {parsed : ParsedActivityRow} {index : Nat}
  {raw : RawActivity FlexibleU16 Decimal} {row : NormalizedActivity} {t : SourceTimestamp}
  {libs : ActivityLibraries}

theorem fromUnixTimestamp_some {epoch : Int} (h : fromUnixTimestamp epoch = some t) :
    t.unixTimestamp = epoch ∧ firstSecond ≤ epoch ∧ epoch ≤ lastSecond := by
  unfold fromUnixTimestamp at h
  split at h
  · rename_i hrange
    rw [← Option.some.inj h, SourceTimestamp.unixTimestamp]
    exact ⟨by simp, hrange⟩
  · simp at h

/-- A time that was read is one of the calendar. -/
theorem parseSourceTime_range {timestamp : Option FlexibleI64}
    (h : parseSourceTime timestamp = .ok t) :
    firstSecond ≤ t.unixTimestamp ∧ t.unixTimestamp ≤ lastSecond := by
  obtain ⟨value, _, h⟩ := bind_eq_ok.mp h
  obtain ⟨epoch, _, h⟩ := bind_eq_ok.mp h
  obtain ⟨hsecond, hrange⟩ := fromUnixTimestamp_some (okOr_eq_ok.mp h)
  rw [hsecond]
  exact hrange

/-- The row with its index and its numbers as they were read. -/
def RawActivity.read (raw : RawActivity String String) (index : Option FlexibleU16)
    (price size usdcSize : Option Decimal) : RawActivity FlexibleU16 Decimal :=
  ⟨raw.proxyWallet, raw.timestamp, raw.activityType, raw.transactionHash, raw.conditionId,
    raw.asset, index, raw.outcome, raw.side, price, size, usdcSize, raw.isCombo⟩

theorem strictFields_eq_ok {out : RawActivity FlexibleU16 Decimal} :
    libs.strictFields text = .ok out ↔ ∃ raw index price size usdcSize,
      libs.fields text = .ok raw
        ∧ raw.outcomeIndex.mapM (fun index => (libs.flexibleU16 index).toOption) = some index
        ∧ raw.price.mapM libs.exactDecimal = some price
        ∧ raw.size.mapM libs.exactDecimal = some size
        ∧ raw.usdcSize.mapM libs.exactDecimal = some usdcSize
        ∧ raw.read index price size usdcSize = out := by
  unfold ActivityLibraries.strictFields
  dsimp only
  constructor
  · intro h
    split at h
    · simp at h
    · rename_i raw hraw
      split at h
      · rename_i index price size usdcSize hindex hprice hsize husdcSize
        exact ⟨raw, index, price, size, usdcSize, hraw, hindex, hprice, hsize, husdcSize,
          Except.ok.inj h⟩
      · simp at h
  · rintro ⟨raw, index, price, size, usdcSize, hraw, hindex, hprice, hsize, husdcSize, rfl⟩
    simp only [hraw, hindex, hprice, hsize, husdcSize]
    rfl

/-- Where the type and the time of a row come from. -/
theorem normalizeRow_ok {wallet : WalletAddress}
    (h : normalizeRow libs raw wallet context text acceptance = .ok row) :
    (∃ name, row.activityType = .ofText name)
      ∧ parseSourceTime raw.timestamp = .ok row.sourceTime := by
  simp only [normalizeRow, bind_eq_ok, pure_eq_ok] at h
  obtain ⟨name, -, _, -, _, -, _, -, _, -, _, -, _, -, _, -, _, -, _, -, _, htime, _, -, rfl⟩ := h
  exact ⟨⟨name, rfl⟩, htime⟩

theorem parseRow_sourceTime (h : parseRow libs text wallet context index acceptance = .ok row) :
    ∃ raw, libs.fields text = .ok raw ∧ parseSourceTime raw.timestamp = .ok row.sourceTime := by
  obtain ⟨raw, hraw, h⟩ := bind_eq_ok.mp h
  obtain ⟨_, _, h⟩ := bind_eq_ok.mp h
  obtain ⟨split, _, _, _, _, hsplit, -, -, -, -, rfl⟩ :=
    strictFields_eq_ok.mp (mapError_eq_ok.mp hraw)
  exact ⟨split, hsplit, (normalizeRow_ok (mapError_eq_ok.mp h)).2⟩

def ParsedActivityRow.sourceTime : ParsedActivityRow → SourceTimestamp
  | .row r => r.sourceTime
  | .anomaly a => a.sourceTime

theorem salvaged_sourceTime (hsalvage : acceptance.salvageEnabled = true)
    (h : parseRowWithAcceptance libs text wallet context index acceptance = .ok parsed) :
    ∃ raw, libs.fields text = .ok raw ∧ parseSourceTime raw.timestamp = .ok parsed.sourceTime := by
  unfold parseRowWithAcceptance at h
  rw [if_neg (by simp [hsalvage])] at h
  obtain ⟨raw, hraw, h⟩ := bind_eq_ok.mp h
  iterate 3 obtain ⟨_, _, h⟩ := bind_eq_ok.mp h
  obtain ⟨sourceTime, htime, h⟩ := bind_eq_ok.mp h
  iterate 2 obtain ⟨_, _, h⟩ := bind_eq_ok.mp h
  iterate 4 obtain ⟨⟨_, _⟩, _, h⟩ := bind_eq_ok.mp h
  iterate 3 obtain ⟨_, _, h⟩ := bind_eq_ok.mp h
  obtain ⟨problem, _, h⟩ := bind_eq_ok.mp h
  refine ⟨raw, mapError_eq_ok.mp hraw, ?_⟩
  split at h
  · rw [← pure_eq_ok.mp h]
    exact mapError_eq_ok.mp htime
  · obtain ⟨row, hrow, rfl⟩ := map_eq_ok.mp (mapError_eq_ok.mp h)
    exact (normalizeRow_ok hrow).2

section

variable (h : parseRowWithAcceptance libs text wallet context index acceptance = .ok parsed)

include h

/-- **A parsed row happened when its text says.** -/
theorem parseRowWithAcceptance_sourceTime :
    ∃ raw, libs.fields text = .ok raw ∧ parseSourceTime raw.timestamp = .ok parsed.sourceTime := by
  cases hsalvage : acceptance.salvageEnabled with
  | true => exact salvaged_sourceTime hsalvage h
  | false =>
    rw [parseRowWithAcceptance, if_pos hsalvage] at h
    obtain ⟨row, hrow, rfl⟩ := map_eq_ok.mp h
    exact parseRow_sourceTime hrow

theorem rowTime_eq : rowTime libs text = some parsed.sourceTime := by
  obtain ⟨raw, hraw, htime⟩ := parseRowWithAcceptance_sourceTime h
  rw [rowTime, hraw]
  simp [Except.toOption, htime]

end

/-! ## Where and when a row is read

Whether a row is accepted depends on its text alone. -/

/-- The row as it is read elsewhere. -/
def NormalizedActivity.stamp (context : ActivityParseContext) (row : NormalizedActivity) :
    NormalizedActivity :=
  { row with
    sourceId := context.sourceId
    observedAt := context.observedAt
    receivedAt := context.receivedAt
    transport := context.transport }

def ParsedActivityRow.stamp (context : ActivityParseContext) (index : Nat) :
    ParsedActivityRow → ParsedActivityRow
  | .row r => .row (r.stamp context)
  | .anomaly a => .anomaly { a with rowIndex := index }

theorem normalizeRow_stamp (raw : RawActivity FlexibleU16 Decimal) (wallet : WalletAddress)
    (context context' : ActivityParseContext) (text : String) (acceptance : ActivityRowAcceptance) :
    normalizeRow libs raw wallet context' text acceptance
      = (normalizeRow libs raw wallet context text acceptance).map (·.stamp context') := by
  unfold normalizeRow
  simp only [map_bind, map_pure, NormalizedActivity.stamp]

theorem parseWallet_toOption (raw : Option String) (requested : Option WalletAddress)
    (index index' : Nat) :
    (parseWallet raw requested index').toOption = (parseWallet raw requested index).toOption := by
  unfold parseWallet
  cases raw.filter (fun value => decide (trim value ≠ "")) with
  | none => rfl
  | some value =>
    simp only [okOr, ok_bind]
    cases WalletAddress.fromHex (trim value) with
    | none => rfl
    | some wallet =>
      cases requested with
      | none => rfl
      | some requested =>
        simp only [ok_bind]
        split <;> rfl

theorem parseRow_stamp (text : String) (wallet : Option WalletAddress)
    (context context' : ActivityParseContext) (index index' : Nat)
    (acceptance : ActivityRowAcceptance) :
    (parseRow libs text wallet context' index' acceptance).toOption
      = (parseRow libs text wallet context index acceptance).toOption.map (·.stamp context') := by
  refine toOption_bind_map toOption_relabel fun raw => ?_
  refine toOption_bind_map (parseWallet_toOption _ _ index index') fun wallet => ?_
  rw [toOption_mapError, toOption_mapError, normalizeRow_stamp _ _ context context',
    toOption_map]

/-- **A row is accepted everywhere or nowhere.** -/
theorem parseRowWithAcceptance_stamp (libs : ActivityLibraries) (text : String) (wallet : Option WalletAddress)
    (context context' : ActivityParseContext) (index index' : Nat)
    (acceptance : ActivityRowAcceptance) :
    (parseRowWithAcceptance libs text wallet context' index' acceptance).toOption
      = (parseRowWithAcceptance libs text wallet context index acceptance).toOption.map
        (·.stamp context' index') := by
  unfold parseRowWithAcceptance
  split
  · rw [toOption_map, toOption_map, parseRow_stamp text wallet context context' index index',
      Option.map_map, Option.map_map]
    rfl
  · -- up to the last step only the failures know the index
    refine toOption_bind_map toOption_relabel fun raw => ?_
    refine toOption_bind_map (parseWallet_toOption _ _ index index') fun wallet => ?_
    refine toOption_bind_map toOption_relabel fun activityType => ?_
    refine toOption_bind_map toOption_relabel fun transactionHash => ?_
    refine toOption_bind_map toOption_relabel fun sourceTime => ?_
    refine toOption_bind_map toOption_relabel fun _ => ?_
    refine toOption_bind_map toOption_relabel fun side => ?_
    refine toOption_bind_map toOption_relabel fun outcomeIndex => ?_
    refine toOption_bind_map toOption_relabel fun price => ?_
    refine toOption_bind_map toOption_relabel fun size => ?_
    refine toOption_bind_map toOption_relabel fun usdcSize => ?_
    refine toOption_bind_map toOption_relabel fun shareAmount => ?_
    refine toOption_bind_map toOption_relabel fun _ => ?_
    refine toOption_bind_map toOption_relabel fun _ => ?_
    refine toOption_bind_map toOption_relabel fun problem => ?_
    cases problem with
    | some problem => rfl
    | none =>
      rw [toOption_mapError, toOption_mapError, toOption_map, toOption_map,
        normalizeRow_stamp _ _ context context', toOption_map, Option.map_map, Option.map_map]
      rfl

end PredictionEdge
