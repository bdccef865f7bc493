import PredictionEdge.Lib.OrderedMap
import PredictionEdge.Live.Account
import PredictionEdge.Live.Receipt

/-!
# Finality of a fill

How the chain's responses decide what became of a submitted order, as
`execution-core/src/live_journal.rs` has it: one classifier, used on responses just collected and
on responses that a record retains, and the two verifiers that read a record's responses back.
-/

namespace PredictionEdge

open Lib

/-- What the finality readers use of other libraries. -/
structure FinalityLibraries extends ReceiptLibraries where
  hashes : JournalHashes
  /-- `serde_json::from_str` into a value. -/
  fromStr : String → Option Json

abbrev ReceiptObservation := Except ReceiptError (Option MatchedReceipt)
abbrev ReceiptObservations := Std.ExtTreeMap String ReceiptObservation compare
abbrev BlockObservation := Except ReceiptError FinalizedBlock
abbrev BlockObservations := Std.ExtTreeMap UInt64 BlockObservation compare
abbrev ImmutableReceipts := Std.ExtTreeMap String MatchedReceipt compare

/-! ## Requests to the chain -/

/-- A request as its record names it. -/
structure RpcCall where
  endpointKind : String
  method : String
  params : Json

def chainIdCall : RpcCall := ⟨"polygon-chain-id", "eth_chainId", .array []⟩

def receiptCall (hash : String) : RpcCall :=
  ⟨"polygon-transaction-receipt", "eth_getTransactionReceipt", .array [.string hash]⟩

def headCall : RpcCall :=
  ⟨"polygon-finalized-block", "eth_getBlockByNumber", .array [.string "finalized", .bool false]⟩

/-- A height in hexadecimal, as `format!("0x\x7bheight:x\x7d")` writes it. -/
def heightText (height : UInt64) : String := String.ofList ('0' :: 'x' :: Nat.toDigits 16 height.toNat)

def blockCall (height : UInt64) : RpcCall :=
  ⟨"polygon-canonical-block", "eth_getBlockByNumber",
    .array [.string (heightText height), .bool false]⟩

section

variable (libraries : FinalityLibraries) (call : RpcCall)

def validQuery (query : List (String × String)) : Bool :=
  match query with
  | [method, params] => method = ("rpc_method", call.method) && params.1 = "rpc_params"
      && libraries.fromStr params.2 = some call.params
  | _ => false

/-- The part of an attempt that responses and failures share. -/
def validRpcIdentity (sourceId endpointKind method path : String) (query : List (String × String))
    (attemptOrdinal : UInt32) (observedAt receivedAt : OffsetDateTime)
    (schemaVersion parserVersion : UInt16) (adapterVersion : String) : Bool :=
  sourceId = "polygon-receipt-rpc" && endpointKind = call.endpointKind && method = "POST"
    && path ≠ "" && validQuery libraries call query && attemptOrdinal = 1
    && observedAt ≤ receivedAt && schemaVersion = 1 && parserVersion = 1 && adapterVersion ≠ ""

def validRpcAttempt : RawHttpAttempt → Bool
  | .response r => validRpcIdentity libraries call r.sourceId r.endpointKind r.method r.path
      r.orderedQuery r.attemptOrdinal r.observedAt r.receivedAt r.schemaVersion r.parserVersion
      r.adapterVersion
  | .transportFailure f => validRpcIdentity libraries call f.sourceId f.endpointKind f.method f.path
      f.orderedQuery f.attemptOrdinal f.observedAt f.receivedAt f.schemaVersion f.parserVersion
      f.adapterVersion

end

/-- The body of a successful response. -/
def responseBody : RawHttpAttempt → Option (List UInt8)
  | .response r => if isSuccess r.status then some r.body else none
  | .transportFailure _ => none

/-- The body of an attempt at the given request. -/
def verifiedRpcBody (libraries : FinalityLibraries) (attempt : RawHttpAttempt) (call : RpcCall) :
    Except LiveJournalError (Option (List UInt8)) := do
  refuseIf (validRpcAttempt libraries call attempt = false) .invalidFinalityEvidence
  pure (responseBody attempt)

/-- A body that is not there is a malformed response. -/
def parsed {α : Type} (parse : List UInt8 → Except ReceiptError α) :
    Option (List UInt8) → Except ReceiptError α
  | some body => parse body
  | none => .error .malformedRpc

/-! ## The classifier -/

inductive PolygonFinalityClassification where
  | pending (reason : String)
  | conflict (reason : String)
  | finalized (principal : CollateralAmount) (quantity : ShareAmount) (fee : CollateralAmount)
      (matchedLogs : List MatchedLogIdentity) (chainId finalizedHead : UInt64)
  deriving DecidableEq

def unavailablePolygonError : ReceiptError → Bool
  | .malformedRpc | .rpcError | .missingResult | .unsupportedFinalizedTag => true
  | _ => false

abbrev FillMap := Std.ExtTreeMap (String × UInt64) DecodedOrderFill comparePair

/-- The fills found so far. -/
structure FillScan where
  fills : FillMap
  hasUnfinalized : Bool

/-- One more decoded fill; a log that comes back must be the same. -/
def FillScan.takeFill (scan : FillScan) (fill : DecodedOrderFill) :
    Except PolygonFinalityClassification FillScan :=
  match scan.fills[(fill.transactionHash, fill.logIndex)]? with
  | some existing =>
    if existing = fill then .ok scan
    else .error (.conflict "OrderFilled log identity was reused with different content")
  | none => .ok { scan with fills := scan.fills.insert (fill.transactionHash, fill.logIndex) fill }

/-- The receipt is in the chain up to the finalized head, or the scan ends here. -/
def checkCanonical (head : FinalizedBlock) (blocks : BlockObservations) (receipt : MatchedReceipt) :
    Except PolygonFinalityClassification Unit :=
  if receipt.blockNumber = head.number then
    if receipt.blockHash ≠ head.hash then
      .error (.conflict "receipt block hash conflicts with finalized head")
    else .ok ()
  else
    match blocks[receipt.blockNumber]? with
    | none => .error (.conflict "canonical lower block evidence is missing")
    | some (.ok canonical) =>
      if canonical.hash = receipt.blockHash then .ok ()
      else .error (.conflict "receipt block hash is not canonical")
    | some (.error error) =>
      if unavailablePolygonError error then
        .error (.pending ("canonical block unavailable: " ++ error.text))
      else .error (.conflict ("canonical block conflict: " ++ error.text))

/-- One transaction of the order. -/
def FillScan.takeTransaction (libraries : FinalityLibraries) (prepared : PreparedPolymarketBuy)
    (head : FinalizedBlock) (receipts : ReceiptObservations) (blocks : BlockObservations)
    (immutableReceipts : ImmutableReceipts) (scan : FillScan) (hash : String) :
    Except PolygonFinalityClassification FillScan :=
  match receipts[hash]? with
  | none =>
    .error (.conflict ("receipt request missing for authenticated transaction " ++ hash))
  | some (.ok none) => .ok { scan with hasUnfinalized := true }
  | some (.error error) =>
    if unavailablePolygonError error then
      .error (.pending ("transaction receipt unavailable: " ++ error.text))
    else .error (.conflict ("transaction receipt conflict: " ++ error.text))
  | some (.ok (some receipt)) => do
    refuseIf (immutableReceipts[hash]?.any (· ≠ receipt))
      (.conflict "transaction receipt changed after becoming an immutable observation")
    if head.number < receipt.blockNumber then return { scan with hasUnfinalized := true }
    checkCanonical head blocks receipt
    let decoded ← (decodeOrderFills libraries.toReceiptLibraries receipt prepared).mapError
      fun error => .conflict ("OrderFilled conflict: " ++ error.text)
    decoded.foldlM FillScan.takeFill scan

/-- The sums of the fills. -/
structure FillTotals where
  principal : CollateralAmount
  quantity : ShareAmount
  fee : CollateralAmount

def FillTotals.add (totals : FillTotals) (fill : DecodedOrderFill) : Except CoreError FillTotals := do
  let principal ← totals.principal.checkedAdd fill.principal
  let quantity ← totals.quantity.checkedAdd fill.quantity
  let fee ← totals.fee.checkedAdd fill.fee
  pure ⟨principal, quantity, fee⟩

/-- What finalized fills come to for the prepared order. -/
def classifyTotals (prepared : LiveOrderPreparedAudit) (fills : FillMap) (chainId : UInt64)
    (head : FinalizedBlock) : Except PolygonFinalityClassification PolygonFinalityClassification := do
  let totals ← ((intoValues fills).foldlM FillTotals.add ⟨.zero, .zero, .zero⟩).mapError
    fun _ => .conflict "finalized fill aggregation overflow"
  refuseIf (prepared.economic.sizing.principal ≠ prepared.prepared.makerCollateral
    ∨ prepared.economic.ladder.minimumShares ≠ prepared.prepared.takerShares)
    (.conflict "prepared economics disagree with the signed order")
  refuseIf (totals.principal < prepared.prepared.makerCollateral)
    (.pending "finalized principal remains below the signed principal")
  refuseIf (prepared.prepared.makerCollateral < totals.principal)
    (.conflict "finalized principal exceeds the signed principal")
  refuseIf (totals.quantity < prepared.economic.ladder.minimumShares)
    (.conflict "full-principal finalized quantity is below the signed minimum")
  refuseIf (feeWithinReserve totals.fee prepared.economic.fee.reserve = false)
    (.conflict "finalized fee exceeds the prepared reserve")
  pure (.finalized totals.principal totals.quantity totals.fee
    (fills.keys.map fun key => ⟨key.1, key.2⟩) chainId head.number)

section

variable (libraries : FinalityLibraries) (prepared : LiveOrderPreparedAudit)
  (transactionHashes : List String) (chainId : Except ReceiptError UInt64)
  (head : Except ReceiptError FinalizedBlock) (receipts : ReceiptObservations)
  (blocks : BlockObservations) (immutableReceipts : ImmutableReceipts)

include head

/-- The classification, up to the point at which it is settled. -/
def finalitySteps : Except PolygonFinalityClassification PolygonFinalityClassification := do
  let chainId ← chainId.mapError fun _ =>
    .pending "polygon chain identity unavailable or not 137"
  refuseIf (chainId ≠ finalizedChainId) (.pending "polygon chain identity unavailable or not 137")
  let head ← head.mapError fun _ => .pending "polygon finalized head unavailable"
  refuseIf (transactionHashes = [])
    (.pending "authenticated match has no nonzero transaction hash yet")
  let scan ← transactionHashes.foldlM (FillScan.takeTransaction libraries prepared.prepared head
    receipts blocks immutableReceipts) ⟨∅, false⟩
  refuseIf scan.hasUnfinalized
    (.pending "one or more authenticated transactions are not finalized")
  refuseIf scan.fills.isEmpty
    (.conflict "finalized receipts contain zero matching OrderFilled logs")
  classifyTotals prepared scan.fills chainId head

def classifyPolygonFinality : PolygonFinalityClassification :=
  match finalitySteps libraries prepared transactionHashes chainId head receipts blocks
    immutableReceipts with
  | .ok classification => classification
  | .error classification => classification

end

/-! ## Reading a record's evidence back -/

/-- The receipts of the transactions in order, each from the next attempt. -/
def readReceipts (libraries : FinalityLibraries) : List String → List RawHttpAttempt →
    Except LiveJournalError (ReceiptObservations × List RawHttpAttempt)
  | [], attempts => .ok (∅, attempts)
  | _ :: _, [] => .error .invalidFinalityEvidence
  | hash :: hashes, attempt :: attempts => do
    let body ← verifiedRpcBody libraries attempt (receiptCall hash)
    let (receipts, attempts) ← readReceipts libraries hashes attempts
    pure (receipts.insert hash
      (parsed (parseReceiptResponse libraries.toReceiptLibraries · hash) body), attempts)

/-- The block hash that the first receipt of a height names. -/
def expectedBlockHash (receipts : ReceiptObservations) (height : UInt64) : Option String :=
  (intoValues receipts).findSome? fun
    | .ok (some receipt) => if receipt.blockNumber = height then some receipt.blockHash else none
    | _ => none

/-- The heights below the head that the receipts name, each once, in ascending order. -/
def lowerHeights (head : Except ReceiptError FinalizedBlock) (receipts : ReceiptObservations) :
    List UInt64 :=
  match head with
  | .ok head => (Std.ExtTreeSet.ofList ((intoValues receipts).filterMap fun
      | .ok (some receipt) =>
        if receipt.blockNumber < head.number then some receipt.blockNumber else none
      | _ => none) compare).toList
  | .error _ => []

def readBlocks (libraries : FinalityLibraries) (receipts : ReceiptObservations) : List UInt64 →
    List RawHttpAttempt → Except LiveJournalError (BlockObservations × List RawHttpAttempt)
  | [], attempts => .ok (∅, attempts)
  | height :: heights, attempts => do
    let expectedHash ← okOr (expectedBlockHash receipts height) .invalidFinalityEvidence
    match attempts with
    | [] => throw .invalidFinalityEvidence
    | attempt :: attempts =>
      let body ← verifiedRpcBody libraries attempt (blockCall height)
      let (blocks, attempts) ← readBlocks libraries receipts heights attempts
      pure (blocks.insert height (parsed (canonicalBlockMatches libraries.toReceiptLibraries ·
        height expectedHash) body), attempts)

/-- The classification that a reconciliation records. -/
def recordedClassification : LiveJournalOrderOutcome → Option PolygonFinalityClassification
  | .finalityPending reason => some (.pending reason)
  | .finalityConflict reason => some (.conflict reason)
  | _ => none

/-- A receipt in the chain up to the head, which no later observation may change. -/
def isCanonical (head : FinalizedBlock) (blocks : BlockObservations) (receipt : MatchedReceipt) : Bool :=
  if head.number < receipt.blockNumber then false
  else if receipt.blockNumber = head.number then receipt.blockHash = head.hash
  else blocks[receipt.blockNumber]?.any fun
    | .ok block => block.hash = receipt.blockHash
    | .error _ => false

def observedImmutable (chainId : Except ReceiptError UInt64) (head : Except ReceiptError FinalizedBlock)
    (receipts : ReceiptObservations) (blocks : BlockObservations) : ImmutableReceipts :=
  match chainId, head with
  | .ok chainId, .ok head =>
    if chainId = finalizedChainId then
      receipts.filterMap fun _ observation =>
        match observation with
        | .ok (some receipt) => if isCanonical head blocks receipt then some receipt else none
        | _ => none
    else ∅
  | _, _ => ∅

/-- Execute a retained pending or conflicting fact again. It returns the receipts it observed
that may not change any more. -/
def verifyPolygonReconciliation (libraries : FinalityLibraries) (prepared : LiveOrderPreparedAudit)
    (transactionHashes : List String) (reconciled : LiveOrderReconciliationAudit)
    (immutableReceipts : ImmutableReceipts) : Except LiveJournalError ImmutableReceipts := do
  refuseIf (reconciled.source ≠ .polygonFinality) .invalidFinalityEvidence
  let evidenceHashes ← httpAttemptHashes libraries.hashes reconciled.evidence
  refuseIf (evidenceHashes ≠ reconciled.evidenceHashes) .invalidFinalityEvidence
  let orderedHashes := (Std.ExtTreeSet.ofList transactionHashes compare).toList
  refuseIf (orderedHashes.length ≠ transactionHashes.length) .invalidFinalityEvidence
  match reconciled.evidence with
  | [] => throw .invalidFinalityEvidence
  | chainAttempt :: attempts => do
    let chainBody ← verifiedRpcBody libraries chainAttempt chainIdCall
    let chainId := parsed (parseChainIdResponse libraries.toReceiptLibraries) chainBody
    let (receipts, attempts) ← readReceipts libraries orderedHashes attempts
    match attempts with
    | [] => throw .invalidFinalityEvidence
    | headAttempt :: attempts => do
      let headBody ← verifiedRpcBody libraries headAttempt headCall
      let head := parsed (parseFinalizedBlockResponse libraries.toReceiptLibraries) headBody
      let (blocks, attempts) ← readBlocks libraries receipts (lowerHeights head receipts) attempts
      refuseIf (attempts ≠ []) .invalidFinalityEvidence
      let derived := classifyPolygonFinality libraries prepared orderedHashes chainId head
        receipts blocks immutableReceipts
      let expected ← okOr (recordedClassification reconciled.outcome) .invalidFinalityEvidence
      refuseIf (derived ≠ expected) .invalidFinalityEvidence
      pure (observedImmutable chainId head receipts blocks)

/-! ## Reading a finalized fill back -/

/-- The parameters of a retained request. -/
def strictRpcParams (libraries : FinalityLibraries) (response : RawHttpResponse) :
    Except LiveJournalError Json :=
  match response.orderedQuery with
  | [method, params] =>
    if method.1 ≠ "rpc_method" ∨ params.1 ≠ "rpc_params" then .error .invalidFinalityEvidence
    else okOr (libraries.fromStr params.2) .invalidFinalityEvidence
  | _ => .error .invalidFinalityEvidence

/-- A body that must be there and must parse. -/
def strictParsed {α : Type} (libraries : FinalityLibraries) (attempt : RawHttpAttempt) (call : RpcCall)
    (parse : List UInt8 → Except ReceiptError α) : Except LiveJournalError α := do
  let body ← verifiedRpcBody libraries attempt call
  let body ← okOr body .invalidFinalityEvidence
  (parse body).mapError fun _ => .invalidFinalityEvidence

/-- The chain and the receipts that a finalized fill retains. -/
structure FinalizedReceipts where
  chainId : Option UInt64
  receipts : Std.ExtTreeMap String MatchedReceipt compare

def FinalizedReceipts.take (libraries : FinalityLibraries) (found : FinalizedReceipts) :
    RawHttpAttempt → Except LiveJournalError FinalizedReceipts
  | .transportFailure _ => .error .invalidFinalityEvidence
  | .response response => do
    if response.endpointKind = "polygon-chain-id" then
      let chainId ← strictParsed libraries (.response response) chainIdCall
        (parseChainIdResponse libraries.toReceiptLibraries)
      refuseIf found.chainId.isSome .invalidFinalityEvidence
      pure { found with chainId := some chainId }
    else if response.endpointKind = "polygon-transaction-receipt" then
      match ← strictRpcParams libraries response with
      | .array [.string hash] =>
        let receipt ← strictParsed libraries (.response response) (receiptCall hash)
          (parseReceiptResponse libraries.toReceiptLibraries · hash)
        let receipt ← okOr receipt .invalidFinalityEvidence
        refuseIf (found.receipts.contains hash) .invalidFinalityEvidence
        pure { found with receipts := found.receipts.insert hash receipt }
      | _ => throw .invalidFinalityEvidence
    else throw .invalidFinalityEvidence

/-- The head and the blocks that a finalized fill retains. -/
structure FinalizedBlocks where
  head : Option FinalizedBlock
  blocks : Std.ExtTreeMap UInt64 FinalizedBlock compare

/-- `u64::from_str_radix` with radix 16, after its mark; a leading plus is taken. -/
def parseHeight (raw : String) : Option UInt64 :=
  let value : Option Nat := match raw.toList with
    | '0' :: 'x' :: '+' :: digits => hexNumber digits
    | '0' :: 'x' :: digits => hexNumber digits
    | _ => none
  (value.filter (· < 2 ^ 64)).map UInt64.ofNat
where
  hexNumber (digits : List Char) : Option Nat :=
    if digits ≠ [] ∧ digits.all isHexDigit then some (hexValue digits) else none

def FinalizedBlocks.take (libraries : FinalityLibraries)
    (receipts : Std.ExtTreeMap String MatchedReceipt compare) (found : FinalizedBlocks) :
    RawHttpAttempt → Except LiveJournalError FinalizedBlocks
  | .transportFailure _ => .error .invalidFinalityEvidence
  | .response response => do
    if response.endpointKind = "polygon-finalized-block" then
      let head ← strictParsed libraries (.response response) headCall
        (parseFinalizedBlockResponse libraries.toReceiptLibraries)
      refuseIf found.head.isSome .invalidFinalityEvidence
      pure { found with head := some head }
    else if response.endpointKind = "polygon-canonical-block" then
      match ← strictRpcParams libraries response with
      | .array [.string raw, .bool false] =>
        let number ← okOr (parseHeight raw) .invalidFinalityEvidence
        let expectedHash ← okOr (((intoValues receipts).find? fun receipt =>
          receipt.blockNumber = number).map MatchedReceipt.blockHash) .invalidFinalityEvidence
        let block ← strictParsed libraries (.response response) (blockCall number)
          (canonicalBlockMatches libraries.toReceiptLibraries · number expectedHash)
        refuseIf (found.blocks.contains number) .invalidFinalityEvidence
        pure { found with blocks := found.blocks.insert number block }
      | _ => throw .invalidFinalityEvidence
    else throw .invalidFinalityEvidence

/-- The record says what the evidence comes to. -/
def matchesFinalized (finalized : OrderFillFinalizedAudit) : PolygonFinalityClassification → Bool
  | .finalized principal quantity fee matchedLogs chainId finalizedHead =>
    finalized.principal = principal && finalized.quantity = quantity && finalized.fee = fee
      && finalized.matchedLogs = matchedLogs && finalized.chainId = chainId
      && finalized.finalizedHead = finalizedHead
  | _ => false

/-- Execute a retained finalized fill again. -/
def verifyPolygonFinalized (libraries : FinalityLibraries) (prepared : LiveOrderPreparedAudit)
    (authenticatedTransactionHashes : Std.ExtTreeSet String compare)
    (finalized : OrderFillFinalizedAudit) (immutableReceipts : ImmutableReceipts) :
    Except LiveJournalError Unit := do
  let found ← finalized.receipts.foldlM (FinalizedReceipts.take libraries) ⟨none, ∅⟩
  let chainId ← okOr found.chainId .invalidFinalityEvidence
  refuseIf (authenticatedTransactionHashes.isEmpty
    ∨ found.receipts.size ≠ authenticatedTransactionHashes.size
    ∨ found.receipts.keys.any fun hash => !authenticatedTransactionHashes.contains hash)
    .invalidFinalityEvidence
  refuseIf (immutableReceipts.keys.any fun hash => !found.receipts.contains hash)
    .invalidFinalityEvidence
  let foundBlocks ← finalized.blocks.foldlM (FinalizedBlocks.take libraries found.receipts) ⟨none, ∅⟩
  let head ← okOr foundBlocks.head .invalidFinalityEvidence
  let receipts : ReceiptObservations := found.receipts.map fun _ receipt => .ok (some receipt)
  refuseIf (foundBlocks.blocks.keys ≠ lowerHeights (.ok head) receipts) .invalidFinalityEvidence
  let derived := classifyPolygonFinality libraries prepared authenticatedTransactionHashes.toList
    (.ok chainId) (.ok head) receipts (foundBlocks.blocks.map fun _ block => .ok block)
    immutableReceipts
  refuseIf (matchesFinalized finalized derived = false) .invalidFinalityEvidence

end PredictionEdge
