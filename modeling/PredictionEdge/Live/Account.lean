import PredictionEdge.Activity.Parse
import PredictionEdge.Lib.Fallible
import PredictionEdge.Live.Journal

/-!
# Reading an account

How the three responses of an account read become an account state or a failed read, as
`execution-core/src/live_executor.rs` has it. The same function classifies a read that was just
made and one that a record retains, so whatever a read was classified as, it is classified as
again.
-/

namespace PredictionEdge

open Lib

/-! ## Bindings -/

namespace LiveAccountBindingAudit

section

variable (binding : LiveAccountBindingAudit)

def isValidFor (accountId : AccountId) : Bool :=
  binding.accountId = accountId
    && (WalletAddress.fromHex binding.custodyWallet).any (fun wallet => wallet.text = binding.custodyWallet)
    && binding.credentialFingerprint.toList.length = 64
    && binding.credentialFingerprint.toList.all fun c => c.isDigit || ('a' ≤ c && c ≤ 'f')

def isValidForFrozenCredential (accountId : AccountId) (frozen : CredentialBindingIdentity) :
    Bool :=
  binding.isValidFor accountId && binding.credential = frozen

def requestDescriptor (method path partition : String) (offset : UInt64)
    (orderedQuery : List (String × String)) : SanitizedHttpRequestDescriptor :=
  ⟨binding.accountId.val, binding.credentialFingerprint, binding.custodyWallet, method, path,
    partition, offset, orderedQuery⟩

/-- What a retained response or failure says was requested. -/
def requestDescriptorForAttempt : RawHttpAttempt → SanitizedHttpRequestDescriptor
  | .response r => binding.requestDescriptor r.method r.path r.endpointKind 0 r.orderedQuery
  | .transportFailure f => binding.requestDescriptor f.method f.path f.endpointKind 0 f.orderedQuery

end

end LiveAccountBindingAudit

/-- What the account readers use of other libraries. -/
structure AccountLibraries where
  hashes : JournalHashes
  /-- `serde_json::from_slice` into a value. -/
  fromSlice : List UInt8 → Option Json
  /-- The exchange contracts that the client library is configured with. -/
  standardSpender : Option String
  negriskSpender : Option String

def verifyHttpResponseRequest (hashes : JournalHashes) (descriptor : SanitizedHttpRequestDescriptor)
    (retainedDescriptorHash : String) : Except LiveJournalError Unit := do
  let hash ← hashes.requestDescriptorHash descriptor
  refuseIf (hash ≠ retainedDescriptorHash) .requestBinding

/-! ## Account states -/

/-- An account state as the venue reported it. -/
structure LiveVenueAccountState where
  observedAt : OffsetDateTime
  closedOnly : Bool
  geoblocked : Bool
  selectedSpender : String
  collateralBalance : CollateralAmount
  allowance : CollateralAmount
  reconciledFreeCollateral : CollateralAmount
  schemaVersion : UInt16
  parserVersion : UInt16
  evidence : List RawHttpAttempt
  requestDescriptorHashes : List String
  deriving DecidableEq

def LiveVenueAccountState.audit (hashes : JournalHashes) (state : LiveVenueAccountState) :
    Except LiveJournalError LiveAccountStateAudit := do
  let evidenceHashes ← httpAttemptHashes hashes state.evidence
  pure ⟨state.observedAt, state.closedOnly, state.geoblocked, state.selectedSpender,
    state.collateralBalance, state.allowance, state.reconciledFreeCollateral, state.schemaVersion,
    state.parserVersion, state.evidence, state.requestDescriptorHashes, evidenceHashes⟩

/-- A recorded state retains the evidence of the read, with its hashes. -/
theorem LiveVenueAccountState.audit_retains {hashes : JournalHashes} {state : LiveVenueAccountState}
    {audit : LiveAccountStateAudit} (h : state.audit hashes = .ok audit) :
    audit.evidence = state.evidence ∧ audit.requestDescriptorHashes = state.requestDescriptorHashes
    ∧ httpAttemptHashes hashes state.evidence = .ok audit.evidenceHashes := by
  obtain ⟨evidenceHashes, hhashes, hpure⟩ := bind_eq_ok.mp h
  rw [pure_eq_ok] at hpure
  subst hpure
  exact ⟨rfl, rfl, hhashes⟩

structure LiveVenueAccountReadError where
  kind : LiveAccountReadFailure
  evidence : List RawHttpAttempt
  requestDescriptorHashes : List String
  deriving DecidableEq

inductive LiveAccountResponseClassification where
  | state (state : LiveVenueAccountState)
  | readFailure (error : LiveVenueAccountReadError)
  deriving DecidableEq

/-- What a classified read retains. -/
def LiveAccountResponseClassification.evidence : LiveAccountResponseClassification → List RawHttpAttempt
  | state s => s.evidence
  | readFailure e => e.evidence

def LiveAccountResponseClassification.requestDescriptorHashes :
    LiveAccountResponseClassification → List String
  | state s => s.requestDescriptorHashes
  | readFailure e => e.requestDescriptorHashes

/-! ## The responses of a read -/

def responseOfKind (endpointKind : String) : RawHttpAttempt → Option RawHttpResponse
  | .response r => if r.endpointKind = endpointKind then some r else none
  | .transportFailure _ => none

/-- The only response of its kind. -/
def accountResponseByKind (evidence : List RawHttpAttempt) (endpointKind : String) :
    Option RawHttpResponse :=
  match evidence.filterMap (responseOfKind endpointKind) with
  | [response] => some response
  | _ => none

def isKnownAccountSpender (libraries : AccountLibraries) (selectedSpender : String) : Bool :=
  [libraries.standardSpender, libraries.negriskSpender].any (· = some selectedSpender)

def sdkVersion : String := "0.7.0"

def isSuccess (status : UInt16) : Bool := 200 ≤ status && status < 300

def validAccountResponse (response : RawHttpResponse) (endpointKind path : String)
    (orderedQuery : List (String × String)) : Bool :=
  response.sourceId = "polymarket-clob-v2" && response.endpointKind = endpointKind
    && response.method = "GET" && response.path = path && response.orderedQuery = orderedQuery
    && isSuccess response.status && response.attemptOrdinal = 1
    && response.observedAt ≤ response.receivedAt
    && response.schemaVersion = 1 && response.parserVersion = 1
    && response.adapterVersion = sdkVersion

def accountResponseJson (libraries : AccountLibraries) (response : RawHttpResponse) :
    Option Json :=
  if isSuccess response.status then libraries.fromSlice response.body else none

/-- `str::parse::<u64>`, which takes a leading plus. -/
def parseU64 (s : String) : Option CollateralAmount := do
  let value ← match s.toList with
    | '+' :: digits => parseDigits digits
    | digits => parseDigits digits
  if h : value < 2 ^ 64 then some ⟨value, h⟩ else none

/-- A text is parsed, and so is what any other value is written as: of these, only a number can
be an amount. -/
def accountAtomicAmount : Json → Option CollateralAmount
  | .string s => parseU64 s
  | .number n => if h : 0 ≤ n ∧ n.toNat < 2 ^ 64 then some ⟨n.toNat, h.2⟩ else none
  | _ => none

def uint256MaxDecimal : String :=
  "115792089237316195423570985008687907853269984665640564039457584007913129639935"

theorem maxCollateral_lt : 2 ^ 64 - 1 < 2 ^ 64 := by decide

def maxCollateral : CollateralAmount := ⟨2 ^ 64 - 1, maxCollateral_lt⟩

/-- An allowance above every order reads as the largest amount. -/
def accountAllowanceAmount (value : Json) : Option CollateralAmount :=
  match accountAtomicAmount value with
  | some amount => some amount
  | none => do
    let digits ← value.asText
    let significant := digits.toList.dropWhile (· = '0')
    let withinUint256 := significant.length < uint256MaxDecimal.length
      || (significant.length = uint256MaxDecimal.length
        && String.ofList significant ≤ uint256MaxDecimal)
    if digits ≠ "" ∧ digits.toList.all Char.isDigit ∧ withinUint256 then some maxCollateral
    else none

/-- The allowance of the selected spender; a spender without one has none. -/
def selectedAllowance (allowances : List (String × Json)) (selectedSpender : String) :
    Option CollateralAmount :=
  match allowances.find? fun entry => eqIgnoreAsciiCase entry.1 selectedSpender with
  | some entry => accountAllowanceAmount entry.2
  | none => some .zero

def isTransportFailure : RawHttpAttempt → Bool
  | .transportFailure _ => true
  | .response _ => false

/-- The countries from which a blocked account may still trade. -/
def permittedCountries : List String := ["IE", "JP", "MT", "NL"]

def OffsetDateTime.min (a b : OffsetDateTime) : OffsetDateTime := if b < a then b else a

/-! ## Classifying a read -/

def accountEndpointKinds : List String := ["geoblock", "closed-only", "balance-allowance"]

section

variable (libraries : AccountLibraries) (evidence : List RawHttpAttempt) (selectedSpender : String)
  (requestDescriptorHashes : List String)

/-- The three responses together are an account state; any other read is a failure of its kind. -/
def classifyRawAccountResponses : Except LiveVenueAccountReadError LiveVenueAccountState := do
  let accountError (kind : LiveAccountReadFailure) : LiveVenueAccountReadError :=
    ⟨kind, evidence, requestDescriptorHashes⟩
  refuseIf (evidence.any isTransportFailure) (accountError .transport)
  refuseIf (evidence.length ≠ 3 ∨ isKnownAccountSpender libraries selectedSpender = false
    ∨ accountEndpointKinds.any fun kind => (accountResponseByKind evidence kind).isNone)
    (accountError .protocol)
  let geoblock ← okOr (accountResponseByKind evidence "geoblock") (accountError .protocol)
  let closedOnlyResponse ←
    okOr (accountResponseByKind evidence "closed-only") (accountError .protocol)
  let balance ←
    okOr (accountResponseByKind evidence "balance-allowance") (accountError .protocol)
  refuseIf ([geoblock, closedOnlyResponse, balance].any fun response =>
    response.status = 401 ∨ response.status = 403) (accountError .authentication)
  refuseIf (validAccountResponse geoblock "geoblock" "/api/geoblock" [] = false
    ∨ validAccountResponse closedOnlyResponse "closed-only" "/auth/ban-status/closed-only" [] = false
    ∨ validAccountResponse balance "balance-allowance" "/balance-allowance"
      [("asset_type", "COLLATERAL"), ("signature_type", "3")] = false) (accountError .protocol)
  let geoblockJson ← okOr (accountResponseJson libraries geoblock) (accountError .protocol)
  let closedJson ←
    okOr (accountResponseJson libraries closedOnlyResponse) (accountError .protocol)
  let balanceJson ← okOr (accountResponseJson libraries balance) (accountError .protocol)
  let blocked ←
    okOr ((geoblockJson.field "blocked").bind Json.asBool) (accountError .protocol)
  let country ←
    okOr ((geoblockJson.field "country").bind Json.asText) (accountError .protocol)
  let closedOnly ←
    okOr ((closedJson.field "closed_only").bind Json.asBool) (accountError .protocol)
  let collateralBalance ←
    okOr ((balanceJson.field "balance").bind accountAtomicAmount) (accountError .protocol)
  let allowances ←
    okOr ((balanceJson.field "allowances").bind Json.asObject) (accountError .protocol)
  let allowance ← okOr (selectedAllowance allowances selectedSpender) (accountError .protocol)
  pure {
    observedAt := (geoblock.observedAt.min closedOnlyResponse.observedAt).min balance.observedAt
    closedOnly := closedOnly
    geoblocked := blocked && !permittedCountries.contains country
    selectedSpender := selectedSpender
    collateralBalance := collateralBalance
    allowance := allowance
    reconciledFreeCollateral := collateralBalance
    schemaVersion := 1
    parserVersion := 1
    evidence := evidence
    requestDescriptorHashes := requestDescriptorHashes }

def classified : LiveAccountResponseClassification :=
  match classifyRawAccountResponses libraries evidence selectedSpender requestDescriptorHashes with
  | .ok state => .state state
  | .error error => .readFailure error

end

/-- The hashes a record retains are those of the evidence it retains. -/
def checkEvidenceHashes (hashes : JournalHashes) (evidence : List RawHttpAttempt) :
    Option (List String) → Except LiveJournalError Unit
  | none => pure ()
  | some retained => do
    let derived ← httpAttemptHashes hashes evidence
    refuseIf (derived ≠ retained) .requestBinding

/--
Verify and classify a read. A caller that has just read passes no evidence hashes, one that
replays a record passes those it retains.
-/
def classifyLiveAccountResponses (libraries : AccountLibraries) (evidence : List RawHttpAttempt)
    (selectedSpender : String) (requestDescriptorHashes : List String)
    (evidenceHashes : Option (List String)) (binding : LiveAccountBindingAudit) :
    Except LiveJournalError LiveAccountResponseClassification := do
  refuseIf (evidence = [] ∨ binding.isValidFor binding.accountId = false
    ∨ evidence.length ≠ requestDescriptorHashes.length) .requestBinding
  (evidence.zip requestDescriptorHashes).forM fun (attempt, retainedHash) =>
    verifyHttpResponseRequest libraries.hashes (binding.requestDescriptorForAttempt attempt)
      retainedHash
  checkEvidenceHashes libraries.hashes evidence evidenceHashes
  pure (classified libraries evidence selectedSpender requestDescriptorHashes)

/-! ## Classifying it again -/

variable {c : LiveAccountResponseClassification}

section

variable {libraries : AccountLibraries} {evidence : List RawHttpAttempt} {spender : String}
  {descriptorHashes : List String} {binding : LiveAccountBindingAudit}

/-- A classified read retains what it was classified from. -/
theorem classifyRawAccountResponses_retains :
    Yields
      (fun state => state.evidence = evidence ∧ state.requestDescriptorHashes = descriptorHashes)
      (fun error => error.evidence = evidence ∧ error.requestDescriptorHashes = descriptorHashes)
      (classifyRawAccountResponses libraries evidence spender descriptorHashes) := by
  unfold classifyRawAccountResponses
  iterate 2 refine yields_refuseIf ⟨rfl, rfl⟩ ?_
  iterate 3 refine yields_okOr ⟨rfl, rfl⟩ fun _ => ?_
  iterate 2 refine yields_refuseIf ⟨rfl, rfl⟩ ?_
  iterate 9 refine yields_okOr ⟨rfl, rfl⟩ fun _ => ?_
  exact ⟨rfl, rfl⟩

/-- The descriptor hashes are those of the requests that the evidence answers. -/
def DescriptorsBound (libraries : AccountLibraries) (evidence : List RawHttpAttempt)
    (descriptorHashes : List String) (binding : LiveAccountBindingAudit) : Prop :=
  ((evidence.zip descriptorHashes).forM fun (attempt, retainedHash) =>
    verifyHttpResponseRequest libraries.hashes (binding.requestDescriptorForAttempt attempt)
      retainedHash) = .ok ()

theorem classifyLiveAccountResponses_eq_ok {evidenceHashes : Option (List String)} :
    classifyLiveAccountResponses libraries evidence spender descriptorHashes evidenceHashes binding
        = .ok c ↔
      (evidence ≠ [] ∧ binding.isValidFor binding.accountId = true
        ∧ evidence.length = descriptorHashes.length)
      ∧ DescriptorsBound libraries evidence descriptorHashes binding
      ∧ checkEvidenceHashes libraries.hashes evidence evidenceHashes = .ok ()
      ∧ c = classified libraries evidence spender descriptorHashes := by
  simp only [classifyLiveAccountResponses, bind_eq_ok, refuseIf_eq_ok, pure_eq_ok,
    DescriptorsBound, not_or, ne_eq, not_not, Bool.not_eq_false]
  constructor
  · rintro ⟨_, hguards, _, hbound, _, hhashes, rfl⟩
    exact ⟨hguards, hbound, hhashes, rfl⟩
  · rintro ⟨hguards, hbound, hhashes, rfl⟩
    exact ⟨(), hguards, (), hbound, (), hhashes, rfl⟩

theorem classified_retains :
    (classified libraries evidence spender descriptorHashes).evidence = evidence
    ∧ (classified libraries evidence spender descriptorHashes).requestDescriptorHashes
      = descriptorHashes := by
  have h : Yields _ _ (classifyRawAccountResponses libraries evidence spender descriptorHashes) :=
    classifyRawAccountResponses_retains
  unfold classified
  cases hc : classifyRawAccountResponses libraries evidence spender descriptorHashes with
  | ok state =>
    rw [hc] at h
    exact h
  | error error =>
    rw [hc] at h
    exact h

/--
**A read is classified the same way again.**

What a read was classified as retains the evidence and the descriptor hashes it came from, and
from these, with the hashes of the evidence, it is classified as the same.
-/
theorem classifyLiveAccountResponses_again {evidenceHashes : List String}
    (h : classifyLiveAccountResponses libraries evidence spender descriptorHashes none binding = .ok c)
    (hhashes : httpAttemptHashes libraries.hashes c.evidence = .ok evidenceHashes) :
    classifyLiveAccountResponses libraries c.evidence spender c.requestDescriptorHashes
      (some evidenceHashes) binding = .ok c := by
  obtain ⟨hguards, hbound, -, rfl⟩ := classifyLiveAccountResponses_eq_ok.mp h
  rw [classified_retains.1] at hhashes
  rw [classified_retains.1, classified_retains.2]
  refine classifyLiveAccountResponses_eq_ok.mpr ⟨hguards, hbound, ?_, rfl⟩
  simp only [checkEvidenceHashes, hhashes, ok_bind, refuseIf_eq_ok, ne_eq, not_true_eq_false,
    not_false_eq_true]

/-- A classified read has evidence, and its binding is one. -/
theorem classifyLiveAccountResponses_bound
    (h : classifyLiveAccountResponses libraries evidence spender descriptorHashes none binding = .ok c) :
    c.evidence ≠ [] ∧ binding.isValidFor binding.accountId = true := by
  obtain ⟨⟨hne, hvalid, -⟩, -, -, rfl⟩ := classifyLiveAccountResponses_eq_ok.mp h
  rw [classified_retains.1]
  exact ⟨hne, hvalid⟩

end

end PredictionEdge
