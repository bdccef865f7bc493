import PredictionEdge.Activity.Parse
import PredictionEdge.Lib.Fallible
import PredictionEdge.Live.Journal

/-!
# Receipts of the chain

What the retained responses of the chain's endpoint say, as `venue-polymarket/src/receipt.rs` has
it: the chain, its finalized head, a block, a transaction's receipt, and the fills that the logs
of a receipt report for one prepared order.
-/

namespace PredictionEdge

open Lib

abbrev Address := BitVec 160
abbrev B256 := BitVec 256

/-- The chain that ordinary live finality requires. -/
def finalizedChainId : UInt64 := 137

def ctfExchangeV2 : Address := 0xE111180000d2663C0091e4f400237545B87B996B
def negRiskCtfExchangeV2 : Address := 0xe2222d279d744050d28e00520010520000310F59
def topicOrderFilledV2 : B256 := 0xd543adfd945773f1a62f74f0ee55a5e3b9b1a28262980ba90b1a89f2ea84d8ee

structure FinalizedBlock where
  number : UInt64
  hash : String
  deriving DecidableEq, Repr

structure ReceiptLog where
  transactionHash : String
  blockNumber : UInt64
  blockHash : String
  logIndex : UInt64
  address : Address
  topics : List B256
  data : String
  removed : Bool
  rawHash : String
  deriving DecidableEq, Repr

structure MatchedReceipt where
  transactionHash : String
  blockNumber : UInt64
  blockHash : String
  logs : List ReceiptLog
  deriving DecidableEq, Repr

structure DecodedOrderFill where
  transactionHash : String
  logIndex : UInt64
  principal : CollateralAmount
  quantity : ShareAmount
  fee : CollateralAmount
  rawLogHash : String
  deriving DecidableEq

inductive ReceiptError where
  | malformedRpc
  | rpcError
  | missingResult
  | unsupportedFinalizedTag
  | malformedHex
  | transactionMismatch
  | reverted
  | blockIdentityMismatch
  | logIdentityConflict
  | removedLog
  | malformedOrderFilled
  | orderIdentityMismatch
  | amountOverflow
  deriving DecidableEq, Repr

def ReceiptError.text : ReceiptError → String
  | malformedRpc => "malformed JSON-RPC response"
  | rpcError => "JSON-RPC returned an error"
  | missingResult => "JSON-RPC result is missing"
  | unsupportedFinalizedTag => "the finalized block tag is unsupported"
  | malformedHex => "hexadecimal quantity or identity is malformed"
  | transactionMismatch => "JSON-RPC transaction identity disagrees with the request"
  | reverted => "receipt reports a reverted transaction"
  | blockIdentityMismatch => "receipt or log block identity is inconsistent"
  | logIdentityConflict => "a receipt log identity is reused with different raw content"
  | removedLog => "an OrderFilled log was removed"
  | malformedOrderFilled => "an OrderFilled log has a malformed ABI shape"
  | orderIdentityMismatch => "an OrderFilled log conflicts with the prepared order"
  | amountOverflow => "an OrderFilled amount exceeds the exact six-decimal representation"

/-- What the receipt readers use of other libraries. -/
structure ReceiptLibraries where
  /-- `serde_json::from_slice` into a value. -/
  fromSlice : List UInt8 → Option Json
  /-- The hash of a log's serialised value. -/
  rawLogHash : Json → Option String
  /-- `from_str` of the chain library's words. -/
  addressFromStr : String → Option Address
  b256FromStr : String → Option B256
  u256FromStr : String → Option B256

/-! ## Words and quantities -/

def isHexDigit (c : Char) : Bool := (hexNibble c).isSome

def hexValue (digits : List Char) : Nat :=
  digits.foldl (fun n c => 16 * n + (hexNibble c).getD 0) 0

/-- `0x` and at most sixteen hex digits. -/
def parseQuantity (raw : String) : Except ReceiptError UInt64 :=
  match raw.toList with
  | '0' :: 'x' :: digits =>
    if digits = [] ∨ 16 < digits.length ∨ digits.all isHexDigit = false then .error .malformedHex
    else .ok (UInt64.ofNat (hexValue digits))
  | _ => .error .malformedHex

def B256.text (word : B256) : String := String.ofList ('0' :: 'x' :: hexDigits 64 word.toNat)

def canonicalB256 (libraries : ReceiptLibraries) (raw : String) : Except ReceiptError String :=
  okOr ((libraries.b256FromStr raw).map B256.text) .malformedHex

/-- The address that a topic holds in its low bytes. -/
def topicAddress (word : B256) : Except ReceiptError Address :=
  if word.toNat < 2 ^ 160 then .ok (word.setWidth 160) else .error .malformedOrderFilled

/-- The seven words of the log's data. -/
def dataWords (data : String) : Except ReceiptError (List B256) :=
  match data.toList with
  | '0' :: 'x' :: digits =>
    if digits.length ≠ 7 * 64 ∨ digits.all isHexDigit = false then .error .malformedOrderFilled
    else .ok ((List.range 7).map fun i => BitVec.ofNat 256 (hexValue ((digits.drop (64 * i)).take 64)))
  | _ => .error .malformedOrderFilled

/-- An amount in a word. -/
def wordAmount {field : String} (word : B256) : Except ReceiptError (ExactAmount field) :=
  if h : word.toNat < 2 ^ 64 then .ok ⟨word.toNat, h⟩ else .error .amountOverflow

/-! ## Responses -/

section

variable (libraries : ReceiptLibraries)

def rpcResult (bytes : List UInt8) : Except ReceiptError Json := do
  let value ← okOr (libraries.fromSlice bytes) .malformedRpc
  let object ← okOr value.asObject .malformedRpc
  refuseIf ((object.lookup "jsonrpc").bind Json.asText ≠ some "2.0") .malformedRpc
  refuseIf ((object.lookup "error").any (· ≠ .null)) .rpcError
  okOr (object.lookup "result") .missingResult

def parseBlock (value : Json) : Except ReceiptError FinalizedBlock := do
  let object ← okOr value.asObject .malformedRpc
  let number ← okOr ((object.lookup "number").bind Json.asText) .malformedRpc
  let number ← parseQuantity number
  let hash ← okOr ((object.lookup "hash").bind Json.asText) .malformedRpc
  let hash ← canonicalB256 libraries hash
  pure ⟨number, hash⟩

def parseChainIdResponse (bytes : List UInt8) : Except ReceiptError UInt64 := do
  let result ← rpcResult libraries bytes
  let raw ← okOr result.asText .malformedRpc
  parseQuantity raw

def parseFinalizedBlockResponse (bytes : List UInt8) : Except ReceiptError FinalizedBlock := do
  let result ← rpcResult libraries bytes
  refuseIf (result = .null) .unsupportedFinalizedTag
  parseBlock libraries result

/-- A block response is of the height and the hash that a receipt names. -/
def canonicalBlockMatches (bytes : List UInt8) (expectedNumber : UInt64) (expectedHash : String) :
    Except ReceiptError FinalizedBlock := do
  let result ← rpcResult libraries bytes
  refuseIf (result = .null) .missingResult
  let block ← parseBlock libraries result
  refuseIf (block.number ≠ expectedNumber) .blockIdentityMismatch
  let hash ← canonicalB256 libraries expectedHash
  refuseIf (block.hash ≠ hash) .blockIdentityMismatch
  pure block

end

/-- A text field of a wire object. -/
def wireText (value : Json) (field : String) : Except ReceiptError String :=
  okOr ((value.field field).bind Json.asText) .malformedRpc

/-- One more log of a receipt. A log index that comes back comes back with the same raw content. -/
def takeReceiptLog (libraries : ReceiptLibraries) (transactionHash : String) (blockNumber : UInt64)
    (blockHash : String) (logs : List ReceiptLog) (raw : Json) :
    Except ReceiptError (List ReceiptLog) := do
  let rawHash ← okOr (libraries.rawLogHash raw) .malformedRpc
  let wireTransactionHash ← wireText raw "transactionHash"
  let wireBlockNumber ← wireText raw "blockNumber"
  let wireBlockHash ← wireText raw "blockHash"
  let wireLogIndex ← wireText raw "logIndex"
  let wireAddress ← wireText raw "address"
  let wireTopics ← okOr (((raw.field "topics").bind Json.asArray).bind
    fun topics => topics.mapM Json.asText) .malformedRpc
  let data ← wireText raw "data"
  let removed ← okOr ((raw.field "removed").bind Json.asBool) .malformedRpc
  let logTransactionHash ← canonicalB256 libraries wireTransactionHash
  let logBlockNumber ← parseQuantity wireBlockNumber
  let logBlockHash ← canonicalB256 libraries wireBlockHash
  let logIndex ← parseQuantity wireLogIndex
  refuseIf (logTransactionHash ≠ transactionHash ∨ logBlockNumber ≠ blockNumber
    ∨ logBlockHash ≠ blockHash) .blockIdentityMismatch
  refuseIf (logs.any fun earlier => earlier.logIndex = logIndex ∧ earlier.rawHash ≠ rawHash)
    .logIdentityConflict
  let address ← okOr (libraries.addressFromStr wireAddress) .malformedHex
  let topics ← okOr (wireTopics.mapM libraries.b256FromStr) .malformedHex
  pure (logs ++ [⟨logTransactionHash, logBlockNumber, logBlockHash, logIndex, address, topics, data,
    removed, rawHash⟩])

/-- A null result is a transaction that has no receipt yet. -/
def parseReceiptResponse (libraries : ReceiptLibraries) (bytes : List UInt8)
    (requestedTransactionHash : String) : Except ReceiptError (Option MatchedReceipt) := do
  let result ← rpcResult libraries bytes
  if result = .null then return none
  let wireTransactionHash ← wireText result "transactionHash"
  let wireBlockNumber ← wireText result "blockNumber"
  let wireBlockHash ← wireText result "blockHash"
  let wireStatus ← wireText result "status"
  let wireLogs ← okOr ((result.field "logs").bind Json.asArray) .malformedRpc
  let transactionHash ← canonicalB256 libraries wireTransactionHash
  let requested ← canonicalB256 libraries requestedTransactionHash
  refuseIf (transactionHash ≠ requested) .transactionMismatch
  let status ← parseQuantity wireStatus
  refuseIf (status ≠ 1) .reverted
  let blockNumber ← parseQuantity wireBlockNumber
  let blockHash ← canonicalB256 libraries wireBlockHash
  let logs ← wireLogs.foldlM (takeReceiptLog libraries transactionHash blockNumber blockHash) []
  pure (some ⟨transactionHash, blockNumber, blockHash, logs⟩)

/-! ## Fills of a prepared order -/

/-- What every fill of a prepared order has to show. -/
structure ExpectedFill where
  exchange : Address
  orderHash : B256
  maker : Address
  token : B256
  builder : B256
  metadata : B256

def expectedFill (libraries : ReceiptLibraries) (prepared : PreparedPolymarketBuy) :
    Except ReceiptError ExpectedFill := do
  let exchange ← okOr (libraries.addressFromStr prepared.verifyingContract) .orderIdentityMismatch
  let supported := if prepared.negRisk then negRiskCtfExchangeV2 else ctfExchangeV2
  refuseIf (prepared.exchangeDomainVersion ≠ 2 ∨ exchange ≠ supported ∨ prepared.side ≠ "BUY")
    .orderIdentityMismatch
  let orderHash ← okOr (libraries.b256FromStr prepared.orderHash) .orderIdentityMismatch
  let maker ← okOr (libraries.addressFromStr prepared.maker) .orderIdentityMismatch
  let token ← okOr (libraries.u256FromStr prepared.tokenId.val) .orderIdentityMismatch
  let builder ← okOr (libraries.b256FromStr prepared.builder) .orderIdentityMismatch
  let metadata ← okOr (libraries.b256FromStr prepared.metadata) .orderIdentityMismatch
  refuseIf (builder ≠ 0) .orderIdentityMismatch
  pure ⟨exchange, orderHash, maker, token, builder, metadata⟩

/-- The fill a log reports for the order; other contracts, topics and orders are passed over. -/
def decodeOrderFill (expected : ExpectedFill) (log : ReceiptLog) :
    Except ReceiptError (Option DecodedOrderFill) := do
  if log.address ≠ expected.exchange ∨ log.topics.head? ≠ some topicOrderFilledV2 then return none
  if log.topics[1]? ≠ some expected.orderHash then return none
  refuseIf log.removed .removedLog
  match log.topics, dataWords log.data with
  | [_, _, maker, _], words => do
    let maker ← topicAddress maker
    refuseIf (maker ≠ expected.maker) .orderIdentityMismatch
    match ← words with
    | [side, token, principal, quantity, fee, builder, metadata] => do
      refuseIf (2 ^ 64 ≤ side.toNat) .amountOverflow
      refuseIf (side ≠ 0 ∨ token ≠ expected.token ∨ builder ≠ expected.builder
        ∨ metadata ≠ expected.metadata) .orderIdentityMismatch
      let principal ← wordAmount principal
      let quantity ← wordAmount quantity
      let fee ← wordAmount fee
      pure (some ⟨log.transactionHash, log.logIndex, principal, quantity, fee, log.rawHash⟩)
    | _ => throw .malformedOrderFilled
  | _, _ => throw .orderIdentityMismatch

def decodeOrderFills (libraries : ReceiptLibraries) (receipt : MatchedReceipt)
    (prepared : PreparedPolymarketBuy) : Except ReceiptError (List DecodedOrderFill) := do
  let expected ← expectedFill libraries prepared
  let fills ← receipt.logs.mapM (decodeOrderFill expected)
  pure (fills.filterMap id)

end PredictionEdge
