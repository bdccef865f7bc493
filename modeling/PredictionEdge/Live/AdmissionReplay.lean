import PredictionEdge.Live.Executor

/-!
# Replaying an admission

The executor evaluates an admission at the readings of its clock: once before the account is
known, and once more when it is. The verifier that reads the record back has only the record's
own instant. Where the gates refuse at the first reading the two see the same gates; where they
pass, the record is of the second reading, and the verifier follows it only if the gates still
pass there.
-/

namespace PredictionEdge

open Lib

/-- What a record of the request is classified from when it is read back: the market, the
artifact and the ladder are those of the recorded economics. -/
def LiveOrderRequest.recordedInput (request : LiveOrderRequest) (evaluatedAt : OffsetDateTime)
    (account : LiveAdmissionAccountEvidence) : LiveAdmissionClassificationInput :=
  { request.classificationInput evaluatedAt account with
    conditionId := request.economic.market.conditionId
    outcomeId := ⟨request.economic.market.outcomeIndex.toUInt16⟩
    tokenId := request.economic.market.tokenId
    admission := request.economic.admission
    ladder := request.economic.ladder }

/-- An answer of the venue whose account read is a classified one. -/
def ReadsAccount (libraries : AccountLibraries) (binding : LiveAccountBindingAudit) (negRisk : Bool)
    (answer : Except LiveVenueAccountReadError LiveVenueAccountState) : Prop :=
  ∃ spender evidence descriptorHashes, libraries.selectedSpender negRisk = some spender
    ∧ classifyLiveAccountResponses libraries evidence spender descriptorHashes none binding
      = .ok (match answer with
        | .ok state => .state state
        | .error error => .readFailure error)

/-- The account reads among the answers are classified ones. -/
def AdmitsReads (libraries : AccountLibraries) (binding : LiveAccountBindingAudit)
    {Submission : Type} : (q : ExecutorQuestion Submission) → ExecutorAnswer Submission q → Prop
  | .readBalanceAndAllowance negRisk, answer => ReadsAccount libraries binding negRisk answer
  | .append _ _ _, _ => True
  | .prepare _, _ => True
  | .postOnce _ _, _ => True
  | .reconcileAndCancelByOrderHash _, _ => True

/--
The first reading decides alike for the request and for its record, and evidence that passes it
is still fresh at the second.
-/
structure ReplaysAlike (arith : DecimalArith) (request : LiveOrderRequest)
    (clock : Nat → OffsetDateTime) : Prop where
  same : preAccountGates arith (request.recordedInput (clock 0) .notRead)
    = preAccountGates arith (request.classificationInput (clock 0) .notRead)
  fresh : ∀ required, preAccountGates arith (request.classificationInput (clock 0) .notRead)
    = .ok required → request.admissionAudit.validateFresh (clock 1) = .ok ()

/-! ## What the verifier makes of a record -/

variable {required : CollateralAmount} {admission : LiveAdmissionEvaluationAudit}
  {reason : LiveAdmissionRefusal} {error : LiveVenueAccountReadError} {spender : String}
  {audit : LiveAccountStateAudit} {verdict : LiveAdmissionVerdict}

section

variable {libraries : AccountLibraries} {arith : DecimalArith} {request : LiveOrderRequest}
  {binding : LiveAccountBindingAudit} {now : OffsetDateTime}

/-- The request carries its key, an approved risk decision and the credential of the binding. -/
structure ForBinding (request : LiveOrderRequest) (binding : LiveAccountBindingAudit) : Prop where
  account : binding.accountId = request.target.accountId
  key : request.identity.idempotencyKey
    = LiveOrderIdentity.idempotencyKeyFor request.identity.dispatchId request.target.accountId
  evaluated : request.economic.risk.decision = evaluateRisk request.economic.risk.snapshot
  approved : request.economic.risk.decision = .approved
  credential : request.currentCredentialBinding = binding.credential

section

variable {accountState : Option LiveAccountStateAudit} {evidence : List RawHttpAttempt}
  {descriptorHashes hashes : List String} {record : LiveAdmissionEvaluationAudit}

section

variable (hrequest : ForBinding request binding)
  (hrecord : record = request.evaluation accountState evidence descriptorHashes hashes verdict)

include hrequest hrecord

/-- Past its key and its risk decision, a record of the request is decided by its gates. -/
theorem verify_gates :
    verifyLiveAdmissionEvaluation libraries arith record now (some binding) =
      match preAccountGates arith (request.recordedInput now .notRead) with
      | .error reason => refuseIf (accountState.isSome ∨ record.hasFailureEvidence
          ∨ verdict ≠ .refused reason) .invalidAccountEvidence
      | .ok required =>
        refuseIf (binding.isValidForFrozenCredential binding.accountId
            request.target.credentialBinding = false
          ∨ request.currentCredentialBinding ≠ binding.credential
          ∨ accountState.isSome = record.hasFailureEvidence) .invalidAccountEvidence >>= fun _ =>
        okOr (libraries.selectedSpender request.economic.admission.market.negRisk)
          .invalidAccountEvidence >>= fun spender =>
        replayedAccount libraries record spender binding >>= fun account =>
        (accountEvidenceVerdict required account).mapError (fun _ => .invalidAccountEvidence)
          >>= fun expected =>
        refuseIf (expected ≠ verdict) .invalidAccountEvidence := by
  have hkey : ¬ record.identity.idempotencyKey
      ≠ LiveOrderIdentity.idempotencyKeyFor record.identity.dispatchId binding.accountId := by
    rw [hrecord, hrequest.account]
    exact not_not.mpr hrequest.key
  have hrisk : ¬ (record.economic.risk.decision ≠ evaluateRisk record.economic.risk.snapshot
      ∨ record.verdict = .approved ∧ evaluateRisk record.economic.risk.snapshot ≠ .approved) := by
    have hdecision : record.economic.risk = request.economic.risk := by rw [hrecord]; rfl
    rw [hdecision, ← hrequest.evaluated, hrequest.approved]
    simp
  unfold verifyLiveAdmissionEvaluation
  simp only [okOr, ok_bind]
  rw [refuseIf_of_not hkey, ok_bind, refuseIf_of_not hrisk, ok_bind]
  subst hrecord
  cases hgates : preAccountGates arith (request.recordedInput now .notRead) with
  | error reason =>
    have hclassify : classifyLiveAdmission arith ((request.evaluation accountState evidence
        descriptorHashes hashes verdict).classificationInput now .notRead) = _ :=
      classifyLiveAdmission_refused hgates
    rw [hclassify]
    rfl
  | ok required =>
    have hclassify (account : LiveAdmissionAccountEvidence) :
        classifyLiveAdmission arith ((request.evaluation accountState evidence
          descriptorHashes hashes verdict).classificationInput now account) = _ :=
      classifyLiveAdmission_passed hgates
    simp only [hclassify]
    rfl

/-- A record whose gates refuse is accepted if it has no account and says the same refusal. -/
theorem verify_refusing
    (hgates : preAccountGates arith (request.recordedInput now .notRead) = .error reason) :
    verifyLiveAdmissionEvaluation libraries arith record now (some binding) = .ok () ↔
      accountState = none ∧ (evidence = [] ∧ descriptorHashes = [] ∧ hashes = [])
        ∧ verdict = .refused reason := by
  rw [verify_gates hrequest hrecord, hgates]
  simp [hrecord, refuseIf_eq_ok, LiveAdmissionEvaluationAudit.hasFailureEvidence,
    LiveOrderRequest.evaluation, and_assoc]

/-- A record whose gates pass is accepted if the account it retains is classified again and comes
to the recorded verdict. -/
theorem verify_passing
    (hgates : preAccountGates arith (request.recordedInput now .notRead) = .ok required)
    {account : LiveAdmissionAccountEvidence}
    (hvalid : binding.isValidFor binding.accountId = true)
    (hone : accountState.isSome ≠ record.hasFailureEvidence)
    (hspender : libraries.selectedSpender request.economic.admission.market.negRisk = some spender)
    (hreplayed : replayedAccount libraries record spender binding = .ok account)
    (hverdict : accountEvidenceVerdict required account = .ok verdict) :
    verifyLiveAdmissionEvaluation libraries arith record now (some binding) = .ok () := by
  have hfrozen : request.target.credentialBinding = request.currentCredentialBinding :=
    (preAccountGates_eq_ok.mp hgates).1.2.1
  rw [verify_gates hrequest hrecord, hgates]
  simp only [hspender, okOr, ok_bind, hreplayed, hverdict, Except.mapError]
  rw [refuseIf_of_not, ok_bind]
  · exact refuseIf_of_not (not_not.mpr rfl)
  · simp [LiveAccountBindingAudit.isValidForFrozenCredential, hvalid, hfrozen, hrequest.credential, hone]

/-- A record whose gates pass must hold an account or a failed read. -/
theorem verify_passing_needs_account
    (hgates : preAccountGates arith (request.recordedInput now .notRead) = .ok required)
    (hnone : accountState.isSome = record.hasFailureEvidence) :
    verifyLiveAdmissionEvaluation libraries arith record now (some binding) ≠ .ok () := by
  intro h
  rw [verify_gates hrequest hrecord, hgates] at h
  obtain ⟨_, hrefuse, -⟩ := bind_eq_ok.mp h
  rw [refuseIf_eq_ok] at hrefuse
  exact hrefuse (.inr (.inr hnone))

end

end

/-! ## The account a record retains -/

/-- A recorded state is the state it was read as. -/
theorem replayedAccount_state {evidence : List RawHttpAttempt} {descriptorHashes : List String}
    {account : LiveVenueAccountState}
    (hclassify : classifyLiveAccountResponses libraries evidence spender descriptorHashes none binding
      = .ok (.state account)) (haudit : account.audit libraries.hashes = .ok audit)
    (hstate : admission.accountState = some audit) :
    replayedAccount libraries admission spender binding = .ok (.state audit) := by
  obtain ⟨hevidence, hdescriptors, hhashes⟩ := LiveVenueAccountState.audit_retains haudit
  have hagain : classifyLiveAccountResponses libraries audit.evidence spender
      audit.requestDescriptorHashes (some audit.evidenceHashes) binding = .ok (.state account) := by
    rw [hevidence, hdescriptors]
    exact classifyLiveAccountResponses_again hclassify hhashes
  unfold replayedAccount
  simp only [hstate, hagain, Except.mapError, ok_bind, haudit]
  rw [refuseIf_of_not (not_not.mpr rfl), ok_bind]
  rfl

/-- A recorded failure is the failure it was read as. -/
theorem replayedAccount_failure {evidence : List RawHttpAttempt} {descriptorHashes : List String}
    (hclassify : classifyLiveAccountResponses libraries evidence spender descriptorHashes none binding
      = .ok (.readFailure error)) (hnone : admission.accountState = none)
    (hevidence : admission.accountReadFailureEvidence = error.evidence)
    (hdescriptors : admission.accountReadFailureRequestDescriptorHashes = error.requestDescriptorHashes)
    (hhashes : httpAttemptHashes libraries.hashes error.evidence
      = .ok admission.accountReadFailureEvidenceHashes) :
    replayedAccount libraries admission spender binding = .ok (.readFailure error.kind) := by
  have hagain : classifyLiveAccountResponses libraries error.evidence spender
      error.requestDescriptorHashes (some admission.accountReadFailureEvidenceHashes) binding
      = .ok (.readFailure error) := classifyLiveAccountResponses_again hclassify hhashes
  unfold replayedAccount
  simp only [hnone, hevidence, hdescriptors, hagain, Except.mapError, ok_bind]
  rfl

/-! ## What the executor records -/

variable {clock : Nat → OffsetDateTime}

/-- Refused before the account: the verifier sees the same instant. -/
theorem verify_refused_before (hrequest : ForBinding request binding)
    (hgates : preAccountGates arith (request.classificationInput (clock 0) .notRead) = .error reason) :
    verifyLiveAdmissionEvaluation libraries arith
        (request.evaluation none [] [] [] (.refused reason)) (clock 0) (some binding) = .ok () ↔
      ReplaysAlike arith request clock := by
  cases hrecorded : preAccountGates arith (request.recordedInput (clock 0) .notRead) with
  | error reason' =>
    rw [verify_refusing hrequest rfl hrecorded]
    constructor
    · rintro ⟨-, -, hsame⟩
      injection hsame with hsame
      exact ⟨by rw [hrecorded, hgates, hsame], fun required hok => by
        rw [hgates] at hok
        exact absurd hok (by simp)⟩
    · rintro ⟨hsame, -⟩
      rw [hrecorded, hgates] at hsame
      injection hsame with hsame
      exact ⟨rfl, ⟨rfl, rfl, rfl⟩, by rw [hsame]⟩
  | ok required =>
    constructor
    · intro h
      exact absurd h (verify_passing_needs_account hrequest rfl hrecorded rfl)
    · intro halike
      have hsame := halike.same
      rw [hrecorded, hgates] at hsame
      simp at hsame

/-- A request that passed is recorded with the parts it was classified with. -/
theorem recordedInput_of_passed
    (hpassed : preAccountGates arith (request.classificationInput now .notRead) = .ok required)
    (later : OffsetDateTime) (account : LiveAdmissionAccountEvidence) :
    request.recordedInput later account = request.classificationInput later account := by
  obtain ⟨hadmission, hcondition, houtcome, htoken, hladder⟩ := preAccountGates_own hpassed
  simp only [LiveOrderRequest.classificationInput] at hadmission hcondition houtcome htoken hladder
  simp only [LiveOrderRequest.recordedInput, LiveOrderRequest.classificationInput, ← hadmission,
    hcondition, houtcome, htoken, ← hladder]

variable (hrequest : ForBinding request binding)
  (hpassed : preAccountGates arith (request.classificationInput (clock 0) .notRead) = .ok required)

include hpassed

/-- Once a request has passed, its record depends on the freshness at the second reading. -/
theorem replaysAlike_of_passed :
    ReplaysAlike arith request clock ↔ request.admissionAudit.validateFresh (clock 1) = .ok () := by
  constructor
  · intro halike
    exact halike.fresh required hpassed
  · intro hfresh
    exact ⟨by rw [recordedInput_of_passed hpassed], fun _ _ => hfresh⟩

/-- The gates of the record at the second reading, if the request passed at the first. -/
theorem recordedGates_of_passed :
    (∃ r, preAccountGates arith (request.recordedInput (clock 1) .notRead) = .ok r)
      ↔ ReplaysAlike arith request clock := by
  rw [replaysAlike_of_passed hpassed, recordedInput_of_passed hpassed]
  exact preAccountGates_later hpassed (clock 1)

include hrequest

/-- A record of what was read is accepted if the gates still pass at its instant. -/
theorem verify_with_account {accountState : Option LiveAccountStateAudit}
    {evidence : List RawHttpAttempt} {descriptorHashes hashes : List String}
    {record : LiveAdmissionEvaluationAudit} {account : LiveAdmissionAccountEvidence}
    (hrecord : record = request.evaluation accountState evidence descriptorHashes hashes verdict)
    (hspender : libraries.selectedSpender request.admission.market.negRisk = some spender)
    (hvalid : binding.isValidFor binding.accountId = true)
    (hone : accountState.isSome ≠ record.hasFailureEvidence)
    (hreplayed : replayedAccount libraries record spender binding = .ok account)
    (hverdict : classifyLiveAdmission arith (request.classificationInput (clock 1) account)
      = .ok verdict) :
    verifyLiveAdmissionEvaluation libraries arith record (clock 1) (some binding) = .ok () ↔
      ReplaysAlike arith request clock := by
  rw [← recordedGates_of_passed hpassed]
  cases hgates : preAccountGates arith (request.recordedInput (clock 1) .notRead) with
  | error reason =>
    rw [verify_refusing hrequest hrecord hgates]
    refine iff_of_false ?_ (by simp)
    rintro ⟨rfl, ⟨rfl, rfl, rfl⟩, -⟩
    exact hone (by rw [hrecord]; rfl)
  | ok required' =>
    refine iff_of_true ?_ ⟨required', rfl⟩
    have hadmission : request.admissionAudit = request.economic.admission :=
      (preAccountGates_own hpassed).1
    have hgates' : preAccountGates arith (request.recordedInput (clock 1) account) = .ok required' :=
      hgates
    rw [← recordedInput_of_passed hpassed, classifyLiveAdmission_passed hgates'] at hverdict
    exact verify_passing hrequest hrecord hgates hvalid hone (hadmission ▸ hspender) hreplayed hverdict

theorem verify_with_state {account : LiveVenueAccountState}
    (hread : ReadsAccount libraries binding request.admission.market.negRisk (.ok account))
    (haudit : account.audit libraries.hashes = .ok audit)
    (hverdict : classifyLiveAdmission arith (request.classificationInput (clock 1) (.state audit))
      = .ok verdict) : verifyLiveAdmissionEvaluation libraries arith
        (request.evaluation (some audit) [] [] [] verdict) (clock 1) (some binding) = .ok () ↔
      ReplaysAlike arith request clock := by
  obtain ⟨spender, evidence, descriptorHashes, hspender, hclassify⟩ := hread
  refine verify_with_account hrequest hpassed rfl hspender
    (classifyLiveAccountResponses_bound hclassify).2 ?_
    (replayedAccount_state hclassify haudit rfl) hverdict
  simp [LiveAdmissionEvaluationAudit.hasFailureEvidence, LiveOrderRequest.evaluation]

theorem verify_with_failure {hashes : List String}
    (hread : ReadsAccount libraries binding request.admission.market.negRisk (.error error))
    (hhashes : httpAttemptHashes libraries.hashes error.evidence = .ok hashes)
    (hverdict : classifyLiveAdmission arith
      (request.classificationInput (clock 1) (.readFailure error.kind)) = .ok (.refused reason)) :
    verifyLiveAdmissionEvaluation libraries arith (request.evaluation none error.evidence
        error.requestDescriptorHashes hashes (.refused reason)) (clock 1) (some binding) = .ok () ↔
      ReplaysAlike arith request clock := by
  obtain ⟨spender, evidence, descriptorHashes, hspender, hclassify⟩ := hread
  obtain ⟨hsome, hvalid⟩ := classifyLiveAccountResponses_bound hclassify
  have hsome : error.evidence ≠ [] := hsome
  refine verify_with_account hrequest hpassed rfl hspender hvalid ?_
    (replayedAccount_failure hclassify rfl rfl rfl hhashes) hverdict
  simp [LiveAdmissionEvaluationAudit.hasFailureEvidence, LiveOrderRequest.evaluation, hsome]

end

/-! ## Every record of a run -/

section

variable {Submission : Type} {libraries : AccountLibraries} {arith : DecimalArith}
  {request : LiveOrderRequest} {binding : LiveAccountBindingAudit} {clock : Nat → OffsetDateTime}

section

variable (libraries : AccountLibraries) (arith : DecimalArith) (request : LiveOrderRequest)
  (binding : LiveAccountBindingAudit) (clock : Nat → OffsetDateTime)

/-- An admission that is handed to the journal is accepted on replay exactly if the request
replays alike. -/
def AcceptedIffAlike : ExecutorQuestion Submission → Prop
  | .append _ now (.admissionEvaluated admission) =>
    verifyLiveAdmissionEvaluation libraries arith admission now (some binding) = .ok () ↔
      ReplaysAlike arith request clock
  | _ => True

/-- A program that hands such admissions only, as far as the account reads are classified ones. -/
abbrev RecordsAlike {α : Type} (p : ExecutorProgram Submission α) : Prop :=
  p.Asks (AdmitsReads libraries binding) (AcceptedIffAlike libraries arith request binding clock)

end

variable {now : OffsetDateTime} {accountState : Option LiveAccountStateAudit}

theorem recordsAlike_journalAdmission {evidence : List RawHttpAttempt}
    {descriptorHashes : List String}
    (h : ∀ hashes, httpAttemptHashes libraries.hashes evidence = .ok hashes →
      (verifyLiveAdmissionEvaluation libraries arith (request.evaluation accountState evidence
        descriptorHashes hashes verdict) now (some binding) = .ok () ↔ ReplaysAlike arith request clock)) :
    RecordsAlike libraries arith request binding clock (journalAdmission libraries request now
      accountState evidence descriptorHashes verdict : ExecutorProgram Submission Unit) := by
  unfold journalAdmission ExecutorProgram.ofJournal
  cases hhashes : httpAttemptHashes libraries.hashes evidence with
  | error e => trivial
  | ok hashes => exact ⟨h hashes hhashes, fun answer _ => by cases answer <;> trivial⟩

theorem recordsAlike_refuse {evidence : List RawHttpAttempt} {descriptorHashes : List String}
    (h : ∀ hashes, httpAttemptHashes libraries.hashes evidence = .ok hashes →
      (verifyLiveAdmissionEvaluation libraries arith (request.evaluation accountState evidence
        descriptorHashes hashes (.refused reason)) now (some binding) = .ok ()
        ↔ ReplaysAlike arith request clock)) :
    RecordsAlike libraries arith request binding clock (refuse libraries request now
      accountState evidence descriptorHashes reason : ExecutorProgram Submission _) :=
  (recordsAlike_journalAdmission h).bind fun _ => trivial

/-- Signing and recording an order evaluates no admission. -/
theorem recordsAlike_signAndRecord {accountId : AccountId} {identity : LiveOrderIdentity}
    {venueRequest : LiveVenuePrepareRequest} {isAsRequested : PreparedPolymarketBuy → Bool}
    {record : PreparedPolymarketBuy → LiveOrderPreparedAudit} :
    RecordsAlike libraries arith request binding clock (signAndRecord accountId identity venueRequest
      isAsRequested record now : ExecutorProgram Submission _) := by
  have hfail (failure : LiveOrderPreparationFailure) :
      RecordsAlike libraries arith request binding clock
        (failPreparation accountId identity now failure none : ExecutorProgram Submission _) :=
    ⟨trivial, fun answer _ => by cases answer <;> trivial⟩
  refine ⟨trivial, fun answer _ => ?_⟩
  cases answer with
  | error e => exact (hfail .venue).bind fun _ => trivial
  | ok venuePrepared =>
    simp only [Program.bind]
    split
    · exact (hfail .preparedAuditMismatch).bind fun _ => trivial
    · exact ⟨trivial, fun answer _ => by cases answer <;> trivial⟩

section

variable (hrequest : ForBinding request binding)
  (hpassed : preAccountGates arith (request.classificationInput (clock 0) .notRead) = .ok required)

include hrequest hpassed

theorem recordsAlike_prepareWithAccount {account : LiveVenueAccountState}
    (hread : ReadsAccount libraries binding request.admission.market.negRisk (.ok account)) :
    RecordsAlike libraries arith request binding clock (prepareWithAccount libraries arith request
      account clock : ExecutorProgram Submission _) := by
  unfold prepareWithAccount ExecutorProgram.ofJournal
  cases haudit : account.audit libraries.hashes with
  | error e => trivial
  | ok audit =>
    have haccepted {verdict : LiveAdmissionVerdict} (hverdict : classifyLiveAdmission arith
        (request.classificationInput (clock 1) (.state audit)) = .ok verdict) :
        ∀ hashes, httpAttemptHashes libraries.hashes [] = .ok hashes →
          (verifyLiveAdmissionEvaluation libraries arith
            (request.evaluation (some audit) [] [] hashes verdict) (clock 1) (some binding) = .ok ()
            ↔ ReplaysAlike arith request clock) := by
      intro hashes hhashes
      cases hhashes
      exact verify_with_state hrequest hpassed hread haudit hverdict
    simp only [Program.done_ok_bind]
    split
    next hneeded => exact absurd hneeded (classifyLiveAdmission_state_ne_error rfl)
    next hverdict => exact recordsAlike_refuse (haccepted hverdict)
    next hverdict =>
      exact (recordsAlike_journalAdmission (haccepted hverdict)).bind fun _ =>
        recordsAlike_signAndRecord

theorem recordsAlike_refuseUnread
    (hread : ReadsAccount libraries binding request.admission.market.negRisk (.error error)) :
    RecordsAlike libraries arith request binding clock (refuseUnread libraries arith request
      error clock : ExecutorProgram Submission _) := by
  refine recordsAlike_refuse fun hashes hhashes => ?_
  obtain ⟨reason, hverdict⟩ := classifyLiveAdmission_readFailure arith
    (request.classificationInput (clock 1) (.readFailure error.kind)) rfl
  simp only [hverdict]
  exact verify_with_failure hrequest hpassed hread hhashes hverdict

end

theorem recordsAlike_prepare (hrequest : ForBinding request binding)
    {observed : Option LiveVenueAccountState}
    (hobserved : ∀ account, observed = some account →
      ReadsAccount libraries binding request.admission.market.negRisk (.ok account)) :
    RecordsAlike libraries arith request binding clock (prepareWithOptionalAccount libraries arith
      request observed clock : ExecutorProgram Submission _) := by
  unfold prepareWithOptionalAccount
  cases hgates : preAccountGates arith (request.classificationInput (clock 0) .notRead) with
  | error reason =>
    rw [classifyLiveAdmission_refused hgates]
    have hrefuse : RecordsAlike libraries arith request binding clock
        (refuse libraries request (clock 0) none [] [] reason : ExecutorProgram Submission _) := by
      refine recordsAlike_refuse fun hashes hhashes => ?_
      cases hhashes
      exact verify_refused_before hrequest hgates
    simp only
    split
    · refine ⟨trivial, fun answer _ => ?_⟩
      cases answer with
      | error e => trivial
      | ok event => exact hrefuse
    · exact hrefuse
  | ok required =>
    rw [classifyLiveAdmission_passed hgates]
    cases observed with
    | some account => exact recordsAlike_prepareWithAccount hrequest hgates (hobserved account rfl)
    | none =>
      refine ⟨trivial, fun answer hread => ?_⟩
      cases answer with
      | ok account => exact recordsAlike_prepareWithAccount hrequest hgates hread
      | error error => exact recordsAlike_refuseUnread hrequest hgates hread

/--
**When a recorded admission can be read back.**

Take a request that carries its key, economics that were composed with an approved risk
decision, and the credential of the account's binding, and a venue whose account reads are
classified ones. Then every admission the executor hands to the journal is accepted by the
verifier, at its own instant and with that binding, exactly if the gates decide alike for the
request and for its record at the first reading of the clock and, where they pass, the market and
the settlement evidence are still fresh at the second.
-/
theorem admission_record_replays_iff (libraries : AccountLibraries) (arith : DecimalArith)
    (request : LiveOrderRequest) (inputs : EconomicInputs) (binding : LiveAccountBindingAudit)
    (observed : Option LiveVenueAccountState) (clock : Nat → OffsetDateTime)
    (haccount : binding.accountId = request.target.accountId)
    (hkey : request.identity.idempotencyKey
      = LiveOrderIdentity.idempotencyKeyFor request.identity.dispatchId request.target.accountId)
    (hcomposed : EconomicPrepared.Composed arith inputs request.economic)
    (happroved : request.economic.risk.decision = .approved)
    (hcredential : request.currentCredentialBinding = binding.credential)
    (hobserved : ∀ account, observed = some account →
      ReadsAccount libraries binding request.admission.market.negRisk (.ok account))
    (log : List ((q : ExecutorQuestion Submission) × ExecutorAnswer Submission q))
    (hrun : (prepareWithOptionalAccount libraries arith request observed clock :
      ExecutorProgram Submission _).Answered log)
    (hreads : ∀ asked ∈ log, AdmitsReads libraries binding asked.1 asked.2)
    (accountId : AccountId) (now : OffsetDateTime) (admission : LiveAdmissionEvaluationAudit)
    (answer : ExecutorAnswer Submission (.append accountId now (.admissionEvaluated admission)))
    (hrecord : ⟨.append accountId now (.admissionEvaluated admission), answer⟩ ∈ log) :
    verifyLiveAdmissionEvaluation libraries arith admission now (some binding) = .ok () ↔
      ReplaysAlike arith request clock :=
  (recordsAlike_prepare ⟨haccount, hkey, hcomposed.isOf.decision, happroved, hcredential⟩ hobserved).answered
    hrun hreads _ hrecord

/-- A request whose economics were composed from its own market, artifact and ladder is decided
alike for itself and for its record. -/
theorem recordedInput_of_composed {inputs : EconomicInputs}
    (hcomposed : EconomicPrepared.Composed arith inputs request.economic)
    (hadmission : inputs.admission = request.admission) (hplan : inputs.plan = request.ladder)
    (hcondition : inputs.market.conditionId = request.conditionId)
    (houtcome : inputs.market.outcomeIndex.toUInt16 = request.outcomeId.val)
    (htoken : inputs.market.tokenId = request.tokenId) (now : OffsetDateTime)
    (account : LiveAdmissionAccountEvidence) :
    request.recordedInput now account = request.classificationInput now account := by
  obtain ⟨-, hmarket, hartifact, hladder, -⟩ := hcomposed.isOf
  simp only [LiveOrderRequest.recordedInput, LiveOrderRequest.classificationInput, hmarket, hartifact,
    hladder, hadmission, hplan, hcondition, houtcome, htoken, LiveOrderRequest.admissionAudit]

end

/-! ## An account read that outlasts the evidence -/

namespace SlowRead

def instant (seconds : Int) : OffsetDateTime := ⟨seconds * 1000000000⟩

def attemptKind : RawHttpAttempt → String
  | .response r => r.endpointKind
  | .transportFailure f => f.endpointKind

def libraries : AccountLibraries where
  hashes := ⟨fun attempt => .ok (attemptKind attempt), fun descriptor => .ok descriptor.path, id⟩
  fromSlice bytes := (Json.wire.get bytes).map Prod.fst
  standardSpender := some "0xE1"
  negriskSpender := some "0xE2"

def binding : LiveAccountBindingAudit where
  accountId := ⟨"alice"⟩
  credential := ⟨1, "key"⟩
  custodyWallet := "0x00000000000000000000000000000000000000f0"
  credentialFingerprint := String.ofList (List.replicate 64 'a')

theorem length_ones : (List.replicate 32 (1 : UInt8)).length = 32 := List.length_replicate

def receipt : AppendReceipt := ⟨⟨1⟩, ⟨List.replicate 32 1, length_ones⟩⟩

theorem representable_cent : Representable (1 / 100) :=
  Decimal.representable_iff.mpr ⟨2, by decide, 1, by norm_num, by decide⟩

def tick : Price := ⟨⟨1 / 100, representable_cent⟩⟩

def market : LiveMarketEvidence where
  conditionId := ⟨"0xc1"⟩
  orderedOutcomeTokenIds := ⟨⟨"11"⟩, ⟨"22"⟩⟩
  negRisk := false
  negRiskMarketId := none
  seriesRecurrence := none
  minimumTickSize := tick
  minimumOrderSize := ⟨(1000000 : UInt64).toNat, UInt64.toNat_lt 1000000⟩
  scheduledEndUnix := none
  observedAtUnix := 0
  schemaVersion := 1
  parserVersion := 1
  freshnessWindowSecs := 60

def settlement : VenueSettlementRecord :=
  ⟨1, ⟨"0xc1"⟩, .unresolved, "evidence", none, 0, 1, 60⟩

def artifact : LiveAdmissionArtifact := ⟨market, settlement, .zero, ⟨receipt, receipt, receipt⟩⟩

def shares : ShareAmount := ⟨(10000000 : UInt64).toNat, UInt64.toNat_lt 10000000⟩
def principal : CollateralAmount := ⟨(5000000 : UInt64).toNat, UInt64.toNat_lt 5000000⟩
def cash : CollateralAmount := ⟨(9000000 : UInt64).toNat, UInt64.toNat_lt 9000000⟩

/-- Ten shares at a half. -/
def plan : LadderPlan := ⟨[⟨⟨half⟩, shares⟩], ⟨half⟩, ⟨half⟩, shares, principal⟩

def risk : RiskAudit where
  financialPrefix := receipt
  snapshot := ⟨⟨0⟩, ⟨0⟩, ⟨0⟩, ⟨0⟩, ⟨0⟩, ⟨0⟩, ⟨0⟩, false, ⟨0⟩, 100, .stops, none⟩
  decision := .approved
  priceReceipts := []
  evaluatedAtUnixMs := 0

def inputs : EconomicInputs where
  market := ⟨⟨"0xc1"⟩, 0, ⟨"11"⟩, .buy, "0xc1"⟩
  admission := artifact
  plan := plan
  bookReceipt := receipt
  observation := none
  sizingMode := .contract 10
  budget := principal
  slippageRate := .zero
  risk := risk
  cashBefore := cash
  priceImpactCapBps := 100
  chaseCeiling := .one
  bandFloor := tick
  bandCeilingExclusive := .one
  appliedConfigurationHash := "config"

theorem composes : (EconomicPrepared.compose .rounded inputs).toOption.isSome = true := by
  decide +kernel

def economic : EconomicPrepared := (EconomicPrepared.compose .rounded inputs).toOption.get composes

theorem composed : EconomicPrepared.Composed .rounded inputs economic := by
  left
  exact toOption_eq_some.mp (Option.some_get composes).symm

def request : LiveOrderRequest where
  target := ⟨⟨"alice"⟩, ⟨1, "key"⟩⟩
  currentCredentialBinding := ⟨1, "key"⟩
  mode := ⟨.liveTiny, .liveTiny⟩
  identity := ⟨"d1", "d1:alice", "quote", "config", "decision", ["e"], none, 1, 1⟩
  conditionId := ⟨"0xc1"⟩
  outcomeId := ⟨0⟩
  tokenId := ⟨"11"⟩
  admission := artifact
  ladder := plan
  economic := economic

def response (kind path : String) (query : List (String × String)) (body : Json) :
    RawHttpAttempt :=
  .response {
    sourceId := "polymarket-clob-v2"
    endpointKind := kind
    method := "GET"
    path := path
    orderedQuery := query
    status := 200
    headers := []
    body := Json.wire.put body
    attemptOrdinal := 1
    sourceAt := none
    observedAt := instant 30
    receivedAt := instant 30
    schemaVersion := 1
    parserVersion := 1
    adapterVersion := sdkVersion }

def evidence : List RawHttpAttempt :=
  [response "geoblock" "/api/geoblock" []
      (.object [("blocked", .bool false), ("country", .string "IE")]),
    response "closed-only" "/auth/ban-status/closed-only" [] (.object [("closed_only", .bool false)]),
    response "balance-allowance" "/balance-allowance"
      [("asset_type", "COLLATERAL"), ("signature_type", "3")]
      (.object [("allowances", .object [("0xe1", .string "7000000"), ("0xe2", .string "7000000")]),
        ("balance", .string "7000000")])]

def descriptorHashes : List String :=
  ["/api/geoblock", "/auth/ban-status/closed-only", "/balance-allowance"]

def balance : CollateralAmount := ⟨(7000000 : UInt64).toNat, UInt64.toNat_lt 7000000⟩

def account (negRisk : Bool) : LiveVenueAccountState where
  observedAt := instant 30
  closedOnly := false
  geoblocked := false
  selectedSpender := if negRisk then "0xE2" else "0xE1"
  collateralBalance := balance
  allowance := balance
  reconciledFreeCollateral := balance
  schemaVersion := 1
  parserVersion := 1
  evidence := evidence
  requestDescriptorHashes := descriptorHashes

theorem account_classified (negRisk : Bool) : classifyLiveAccountResponses libraries evidence
    (if negRisk then "0xE2" else "0xE1") descriptorHashes none binding = .ok (.state (account negRisk)) := by
  cases negRisk <;> decide +kernel

/-- The venue answers the account read; everything else it is asked fails. -/
def answers : (q : ExecutorQuestion Unit) → ExecutorAnswer Unit q
  | .append accountId timestamp payload => Except.ok ⟨accountId, 0, timestamp, payload⟩
  | .readBalanceAndAllowance negRisk => Except.ok (account negRisk)
  | .prepare _ => Except.error .venue
  | .postOnce _ _ => Except.ok (.notAttempted (instant 0))
  | .reconcileAndCancelByOrderHash _ => Except.error ⟨[]⟩

theorem answers_admitted : ∀ q, AdmitsReads libraries binding q (answers q)
  | .readBalanceAndAllowance negRisk =>
    ⟨_, evidence, descriptorHashes, by cases negRisk <;> rfl, account_classified negRisk⟩
  | .append _ _ _ => trivial
  | .prepare _ => trivial
  | .postOnce _ _ => trivial
  | .reconcileAndCancelByOrderHash _ => trivial

/-- The first admission that was handed to the journal. -/
def recordedIn : List ((q : ExecutorQuestion Unit) × ExecutorAnswer Unit q) →
    Option (OffsetDateTime × LiveAdmissionEvaluationAudit)
  | [] => none
  | ⟨.append _ now (.admissionEvaluated admission), _⟩ :: _ => some (now, admission)
  | _ :: log => recordedIn log

theorem mem_of_recordedIn {now : OffsetDateTime}
    {log : List ((q : ExecutorQuestion Unit) × ExecutorAnswer Unit q)}
    (h : recordedIn log = some (now, admission)) :
    ∃ accountId answer, ⟨.append accountId now (.admissionEvaluated admission), answer⟩ ∈ log := by
  fun_induction recordedIn log with
  | case1 => simp at h
  | case2 accountId now' admission' answer log =>
    obtain ⟨rfl, rfl⟩ := h
    exact ⟨accountId, answer, List.mem_cons_self⟩
  | case3 asked log hother ih =>
    obtain ⟨accountId, answer, hmem⟩ := ih h
    exact ⟨accountId, answer, List.mem_cons_of_mem _ hmem⟩

/-- The account read ends at the given second; the evidence is of second zero, for a minute. -/
def clock (readUntil : Int) (reading : Nat) : OffsetDateTime :=
  if reading = 0 then instant 30 else instant readUntil

def log (readUntil : Int) : List ((q : ExecutorQuestion Unit) × ExecutorAnswer Unit q) :=
  (prepareWithClock libraries .rounded request (clock readUntil)).transcript answers

theorem log_answered (readUntil : Int) : (prepareWithClock libraries .rounded request
    (clock readUntil) : ExecutorProgram Unit _).Answered (log readUntil) :=
  Program.answered_transcript answers _

theorem log_admitted (readUntil : Int) :
    ∀ asked ∈ log readUntil, AdmitsReads libraries binding asked.1 asked.2 :=
  Program.transcript_admits answers_admitted _

/-- The admission recorded in a run, and what the verifier says of it. -/
theorem recorded (readUntil : Int) (verified : Except LiveAdmissionEvaluationError Unit)
    (h : ((recordedIn (log readUntil)).any fun (now, admission) =>
      verifyLiveAdmissionEvaluation libraries .rounded admission now (some binding) = verified) = true) :
    ∃ accountId now admission answer,
      ⟨.append accountId now (.admissionEvaluated admission), answer⟩ ∈ log readUntil
      ∧ verifyLiveAdmissionEvaluation libraries .rounded admission now (some binding) = verified := by
  cases hrecord : recordedIn (log readUntil) with
  | none =>
    rw [hrecord] at h
    simp at h
  | some record =>
    rw [hrecord] at h
    obtain ⟨accountId, answer, hmem⟩ := mem_of_recordedIn hrecord
    exact ⟨accountId, record.1, record.2, answer, hmem, of_decide_eq_true h⟩

/-- The market and the settlement evidence ran out while the account was read, and the record
that refuses the order for it cannot be read back. -/
theorem unreadable : EconomicPrepared.Composed .rounded inputs request.economic
    ∧ request.economic.risk.decision = .approved
    ∧ request.identity.idempotencyKey
      = LiveOrderIdentity.idempotencyKeyFor request.identity.dispatchId request.target.accountId
    ∧ binding.accountId = request.target.accountId
    ∧ request.currentCredentialBinding = binding.credential
    ∧ (prepareWithClock libraries .rounded request (clock 90) : ExecutorProgram Unit _).Answered (log 90)
    ∧ (∀ asked ∈ log 90, AdmitsReads libraries binding asked.1 asked.2)
    ∧ clock 90 0 ≤ clock 90 1
    ∧ ∃ accountId now admission answer,
      ⟨.append accountId now (.admissionEvaluated admission), answer⟩ ∈ log 90
      ∧ verifyLiveAdmissionEvaluation libraries .rounded admission now (some binding)
        = .error .invalidAccountEvidence :=
  ⟨composed, by decide +kernel, by decide +kernel, rfl, rfl, log_answered 90, log_admitted 90,
    by decide, recorded 90 _ (by decide +kernel)⟩

/-- Ten seconds of reading leave the evidence fresh, and the record of the approval is read back. -/
theorem read_back : ∃ accountId now admission answer,
    ⟨.append accountId now (.admissionEvaluated admission), answer⟩ ∈ log 40
    ∧ verifyLiveAdmissionEvaluation libraries .rounded admission now (some binding) = .ok () := by
  obtain ⟨accountId, now, admission, answer, hmem, -⟩ := recorded 40 (.ok ()) (by decide +kernel)
  have halike : ReplaysAlike .rounded request (clock 40) :=
    ⟨by rw [recordedInput_of_composed composed rfl rfl rfl rfl rfl], fun _ _ => by decide +kernel⟩
  exact ⟨accountId, now, admission, answer, hmem, (admission_record_replays_iff libraries .rounded
    request inputs binding none (clock 40) rfl (by decide +kernel) composed (by decide +kernel) rfl
    (by simp) (log 40) (log_answered 40) (log_admitted 40) accountId now admission answer hmem).mpr
      halike⟩

end SlowRead

end PredictionEdge
