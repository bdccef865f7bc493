import PredictionEdge.Lib.StableSort
import PredictionEdge.Live.Admission
import PredictionEdge.Live.Finality

/-!
# What the journal leaves to recover

The recovery fold of `execution-core/src/live_journal.rs`: one pass over the records of the
journal that refuses a record which contradicts an earlier one, and keeps what a restart has to
take up again. An admission that was approved and not yet prepared can be resumed; an order that
was prepared and has no terminal fact is open.
-/

namespace PredictionEdge

open Lib

instance : Ord AccountId := ⟨compareOn AccountId.val⟩
instance : Std.TransOrd AccountId := inferInstanceAs (Std.TransCmp (compareOn AccountId.val))
instance : Std.LawfulEqOrd AccountId where
  compare_self := Std.ReflCmp.compare_self
  eq_of_compare {a b} h := by
    have hcompare : compare a.val b.val = .eq := h
    have hval := Std.LawfulEqOrd.compare_eq_iff_eq.mp hcompare
    cases a
    cases b
    exact congrArg AccountId.mk hval

/-- An account and a dispatch. -/
abbrev DispatchKey := AccountId × String

abbrev DispatchMap (V : Type) := Std.ExtTreeMap DispatchKey V comparePair
abbrev DispatchSet := Std.ExtTreeSet DispatchKey comparePair

/-- A record of the first schema, as far as recovery reads it. -/
inductive LegacyPayload where
  | orderPrepared (identity : LiveOrderIdentity) (orderHash : String)
  | other

/-- What the recovery fold uses of other libraries. -/
structure RecoveryLibraries where
  account : AccountLibraries
  arith : DecimalArith
  finality : FinalityLibraries
  /-- `serde_json::from_value` into a record of the first schema. -/
  legacyFromValue : Json → Option LegacyPayload

def legacyPreparedOrder (libraries : RecoveryLibraries) (raw : Json) :
    Except LiveJournalError (Option (LiveOrderIdentity × String)) :=
  match libraries.legacyFromValue raw with
  | some (.orderPrepared identity orderHash) => .ok (some (identity, orderHash))
  | some .other => .ok none
  | none => .error .encoding

/-! ## One order -/

structure OpenOrderInventoryEntry where
  identity : LiveOrderIdentity
  accountId : AccountId
  preparedJournalSeq : Nat
  deriving DecidableEq

structure OpenOrderState where
  entry : OpenOrderInventoryEntry
  orderHash : String
  prepared : Option LiveOrderPreparedAudit
  transactionHashes : Std.ExtTreeSet String compare
  immutableReceipts : ImmutableReceipts
  terminal : Bool
  finalityConflict : Bool
  terminalReconciliation : Option LiveOrderReconciliationAudit

namespace OpenOrderState

/-- An order that was just prepared. -/
def new (accountId : AccountId) (preparedJournalSeq : Nat) (identity : LiveOrderIdentity)
    (orderHash : String) (prepared : Option LiveOrderPreparedAudit) : OpenOrderState where
  entry := ⟨identity, accountId, preparedJournalSeq⟩
  orderHash := orderHash
  prepared := prepared
  transactionHashes := ∅
  immutableReceipts := ∅
  terminal := false
  finalityConflict := false
  terminalReconciliation := none

/-! A fact of an order names the prepared order exactly. -/

def postedMatches (order : OpenOrderState) (posted : LiveOrderPostAudit) : Bool :=
  posted.identity = order.entry.identity && posted.orderHash = order.orderHash

end OpenOrderState

/-- Which outcomes a source can report. -/
def sourceMatchesOutcome : LiveReconciliationSource → LiveJournalOrderOutcome → Bool
  | .postResponse, .matched _ _ _ | .postResponse, .killed _ | .postResponse, .rejected _ _
  | .postResponse, .ambiguous _ => true
  | .orderHashLookupAndCancel, .matched _ _ _ | .orderHashLookupAndCancel, .killed _
  | .orderHashLookupAndCancel, .rejected _ _ | .orderHashLookupAndCancel, .ambiguous _ => true
  | .polygonFinality, .finalityPending _ | .polygonFinality, .finalityConflict _ => true
  | _, _ => false

namespace OpenOrderState

def reconciledMatches (order : OpenOrderState) (reconciled : LiveOrderReconciliationAudit) : Bool :=
  reconciled.identity = order.entry.identity && reconciled.orderHash = order.orderHash
    && sourceMatchesOutcome reconciled.source reconciled.outcome

def finalizedMatches (order : OpenOrderState) (finalized : OrderFillFinalizedAudit) : Bool :=
  finalized.identity = order.entry.identity
    && finalized.preparedJournalSeq = order.entry.preparedJournalSeq

/-- A preparation that failed after the order was recorded. -/
def fail (order : OpenOrderState) (failed : LiveOrderPreparationFailedAudit) :
    Except LiveJournalError OpenOrderState := do
  refuseIf (order.entry.identity ≠ failed.identity ∨ order.terminal) .orderFactConflict
  pure { order with terminal := true }

/-- A submission changes nothing. -/
def post (order : OpenOrderState) (posted : LiveOrderPostAudit) :
    Except LiveJournalError OpenOrderState := do
  refuseIf (order.terminal ∨ order.postedMatches posted = false) .orderFactConflict
  pure order

/-- The receipts that may not change any more, after a finality observation. -/
def receiptsAfter (libraries : FinalityLibraries) (order : OpenOrderState)
    (reconciled : LiveOrderReconciliationAudit) : Except LiveJournalError ImmutableReceipts :=
  if reconciled.source = .polygonFinality then do
    let prepared ← okOr order.prepared .invalidFinalityEvidence
    let immutable ← verifyPolygonReconciliation libraries prepared order.transactionHashes.toList
      reconciled order.immutableReceipts
    match reconciled.outcome with
    | .finalityPending _ => pure (order.immutableReceipts.insertMany immutable.toList)
    | _ => pure order.immutableReceipts
  else pure order.immutableReceipts

/-- What the outcome of a reconciliation does to the order. -/
def take (order : OpenOrderState) (reconciled : LiveOrderReconciliationAudit) : OpenOrderState :=
  match reconciled.outcome with
  | .matched _ transactionHashes _ =>
    { order with transactionHashes := order.transactionHashes.insertMany transactionHashes }
  | .killed _ | .rejected _ _ =>
    { order with terminal := true, terminalReconciliation := some reconciled }
  | .finalityConflict _ => { order with
      terminal := true, finalityConflict := true, terminalReconciliation := some reconciled }
  | .ambiguous _ | .finalityPending _ => order

/-- A terminal reconciliation may be repeated; no other one may follow it. -/
def reconcile (libraries : FinalityLibraries) (order : OpenOrderState)
    (reconciled : LiveOrderReconciliationAudit) : Except LiveJournalError OpenOrderState := do
  if order.terminal then
    refuseIf (order.terminalReconciliation ≠ some reconciled) .orderFactConflict
    pure order
  else
    refuseIf (order.reconciledMatches reconciled = false) .orderFactConflict
    let receipts ← order.receiptsAfter libraries reconciled
    pure ({ order with immutableReceipts := receipts }.take reconciled)

def finalize (libraries : FinalityLibraries) (order : OpenOrderState)
    (finalized : OrderFillFinalizedAudit) : Except LiveJournalError OpenOrderState := do
  refuseIf (order.finalizedMatches finalized = false) .orderFactConflict
  refuseIf (order.terminal ∨ order.finalityConflict) .orderFactConflict
  let prepared ← okOr order.prepared .invalidFinalityEvidence
  verifyPolygonFinalized libraries prepared order.transactionHashes finalized order.immutableReceipts
  pure { order with terminal := true }

end OpenOrderState

/-! ## The fold -/

inductive TerminalAdmissionRecoveryOutcome where
  | refused (reason : LiveAdmissionRefusal)
  | preparationFailed (failed : LiveOrderPreparationFailedAudit)
  deriving DecidableEq

structure TerminalAdmissionRecoveryEntry where
  accountId : AccountId
  journalSeq : Nat
  identity : LiveOrderIdentity
  outcome : TerminalAdmissionRecoveryOutcome
  deriving DecidableEq

/-- The recovery builder's rules, one record at a time. -/
structure LiveRecoveryFold where
  orders : DispatchMap OpenOrderState
  accountIds : Std.ExtTreeSet AccountId compare
  accountBindings : Std.ExtTreeMap AccountId LiveAccountBindingAudit compare
  evaluatedAdmissions : DispatchSet
  approvedAdmissions : DispatchMap (Nat × LiveAdmissionEvaluationAudit)
  terminalAdmissions : List TerminalAdmissionRecoveryEntry
  terminalKeys : DispatchSet

/-- The prepared order is the one the admission approved. -/
def LiveAdmissionEvaluationAudit.isPreparedBy (admission : LiveAdmissionEvaluationAudit)
    (prepared : LiveOrderPreparedAudit) : Bool :=
  admission.identity = prepared.identity && admission.frozenBinding = prepared.frozenBinding
    && admission.economic = prepared.economic && admission.accountState = some prepared.accountState

/-- How the fold reports an admission that does not verify. -/
def admissionConflict : LiveAdmissionEvaluationError → LiveJournalError
  | .journal error => error
  | .invalidRiskDecision | .invalidAccountEvidence => .orderFactConflict

namespace LiveRecoveryFold

def empty : LiveRecoveryFold := ⟨∅, ∅, ∅, ∅, ∅, [], ∅⟩

def insertOpenOrder (fold : LiveRecoveryFold) (accountId : AccountId) (preparedJournalSeq : Nat)
    (identity : LiveOrderIdentity) (orderHash : String) (prepared : Option LiveOrderPreparedAudit) :
    Except LiveJournalError LiveRecoveryFold := do
  let key := (accountId, identity.dispatchId)
  refuseIf (fold.orders.contains key) .orderFactConflict
  let order := OpenOrderState.new accountId preparedJournalSeq identity orderHash prepared
  pure { fold with orders := fold.orders.insert key order }

/-- Change the order of a dispatch, which must be there. -/
def modifyOrder (fold : LiveRecoveryFold) (key : DispatchKey)
    (change : OpenOrderState → Except LiveJournalError OpenOrderState) :
    Except LiveJournalError LiveRecoveryFold := do
  let order ← okOr fold.orders[key]? .orderFactConflict
  let order ← change order
  pure { fold with orders := fold.orders.insert key order }

def applyPrepared (fold : LiveRecoveryFold) (accountId : AccountId) (seq : Nat)
    (prepared : LiveOrderPreparedAudit) : Except LiveJournalError LiveRecoveryFold := do
  let key := (accountId, prepared.identity.dispatchId)
  let (_, admission) ← okOr fold.approvedAdmissions[key]? .orderFactConflict
  refuseIf (admission.isPreparedBy prepared = false) .orderFactConflict
  insertOpenOrder { fold with approvedAdmissions := fold.approvedAdmissions.erase key } accountId seq
    prepared.identity prepared.prepared.orderHash (some prepared)

/-- A dispatch that ends without an order, or with a failed preparation. -/
def recordTerminal (fold : LiveRecoveryFold) (accountId : AccountId) (seq : Nat)
    (identity : LiveOrderIdentity) (outcome : TerminalAdmissionRecoveryOutcome) : LiveRecoveryFold :=
  { fold with
    terminalKeys := fold.terminalKeys.insert (accountId, identity.dispatchId)
    terminalAdmissions := fold.terminalAdmissions ++ [⟨accountId, seq, identity, outcome⟩] }

section

variable (libraries : RecoveryLibraries) (verifyAdmissions : Bool) (fold : LiveRecoveryFold)
  (accountId : AccountId)

/-- The admission's own evidence, evaluated again. -/
def verifyEvaluated (timestamp : OffsetDateTime) (admission : LiveAdmissionEvaluationAudit) :
    Except LiveJournalError Unit :=
  if verifyAdmissions then
    (verifyLiveAdmissionEvaluation libraries.account libraries.arith admission timestamp
      fold.accountBindings[accountId]?).mapError admissionConflict
  else .ok ()

def applyEvaluated (seq : Nat) (timestamp : OffsetDateTime)
    (admission : LiveAdmissionEvaluationAudit) : Except LiveJournalError LiveRecoveryFold := do
  verifyEvaluated libraries verifyAdmissions fold accountId timestamp admission
  let key := (accountId, admission.identity.dispatchId)
  refuseIf (fold.evaluatedAdmissions.contains key) .orderFactConflict
  let fold := { fold with evaluatedAdmissions := fold.evaluatedAdmissions.insert key }
  match admission.verdict with
  | .approved =>
    pure { fold with approvedAdmissions := fold.approvedAdmissions.insert key (seq, admission) }
  | .refused reason => pure (fold.recordTerminal accountId seq admission.identity (.refused reason))

end

/-- A failed preparation ends the approved admission, or else the order. -/
def failPending (fold : LiveRecoveryFold) (key : DispatchKey)
    (failed : LiveOrderPreparationFailedAudit) : Except LiveJournalError LiveRecoveryFold :=
  match fold.approvedAdmissions[key]? with
  | some (_, admission) => do
    refuseIf (admission.identity ≠ failed.identity) .orderFactConflict
    pure { fold with approvedAdmissions := fold.approvedAdmissions.erase key }
  | none => fold.modifyOrder key fun order => order.fail failed

def applyPreparationFailed (fold : LiveRecoveryFold) (accountId : AccountId) (seq : Nat)
    (failed : LiveOrderPreparationFailedAudit) : Except LiveJournalError LiveRecoveryFold := do
  let fold ← fold.failPending (accountId, failed.identity.dispatchId) failed
  pure (fold.recordTerminal accountId seq failed.identity (.preparationFailed failed))

def applyMarked (fold : LiveRecoveryFold) (accountId : AccountId) (mark : AccountPortfolioMarkedAudit) :
    Except LiveJournalError LiveRecoveryFold := do
  if mark.kind = .baseline then
    refuseIf (mark.accountBinding.isValidFor accountId = false
      ∨ fold.accountBindings.contains accountId) .requestBinding
    pure { fold with accountBindings := fold.accountBindings.insert accountId mark.accountBinding }
  else pure fold

section

variable (libraries : RecoveryLibraries) (verifyAdmissions : Bool)

/-- The rules for what a record says. -/
def applyPayload (fold : LiveRecoveryFold) (event : LiveJournalEvent) :
    Except LiveJournalError LiveRecoveryFold :=
  match event.payload with
  | .orderPrepared prepared => fold.applyPrepared event.accountId event.seq prepared
  | .admissionEvaluated admission => applyEvaluated libraries verifyAdmissions fold event.accountId
      event.seq event.timestamp admission
  | .orderPreparationFailed failed => fold.applyPreparationFailed event.accountId event.seq failed
  | .accountPortfolioMarked mark => fold.applyMarked event.accountId mark
  | .legacyV1 raw => do
    match ← legacyPreparedOrder libraries raw with
    | some (identity, orderHash) =>
      fold.insertOpenOrder event.accountId event.seq identity orderHash none
    | none => pure fold
  | .orderPosted posted => fold.modifyOrder (event.accountId, posted.identity.dispatchId)
      fun order => order.post posted
  | .orderReconciled reconciled => fold.modifyOrder (event.accountId, reconciled.identity.dispatchId)
      fun order => order.reconcile libraries.finality reconciled
  | .orderFillFinalized finalized => fold.modifyOrder (event.accountId, finalized.identity.dispatchId)
      fun order => order.finalize libraries.finality finalized
  | .stagedDispatchControl _ | .pendingTargetControl _ | .approvedRecoveryControlPause _
  | .redemptionRequested _ | .redemptionTransactionIdentified _ | .redemptionReceiptTransition _
  | .resolutionFinalized _ | .redemptionCustodyReconciled _ | .collateralCredited _
  | .credentialBindingMismatch _ _ | .modeTransitionApplied _ => pure fold

/-- Apply the next record. -/
def apply (fold : LiveRecoveryFold) (event : LiveJournalEvent) :
    Except LiveJournalError LiveRecoveryFold :=
  applyPayload libraries verifyAdmissions
    { fold with accountIds := fold.accountIds.insert event.accountId } event

/-- The fold of a journal. -/
def ofJournal (journal : List LiveJournalEvent) : Except LiveJournalError LiveRecoveryFold :=
  journal.foldlM (apply libraries verifyAdmissions) empty

end

end LiveRecoveryFold

/-! ## The inventory -/

/-- An open order with what recovering it needs. -/
structure OpenOrderRecoveryEntry where
  inventory : OpenOrderInventoryEntry
  prepared : Option LiveOrderPreparedAudit
  transactionHashes : List String
  immutableReceipts : ImmutableReceipts

/-- An approved admission whose preparation has no durable outcome. -/
structure ApprovedAdmissionRecoveryEntry where
  accountId : AccountId
  admissionJournalSeq : Nat
  admission : LiveAdmissionEvaluationAudit

structure LiveRecoveryInventory where
  accountIds : List AccountId
  approvedAdmissions : List ApprovedAdmissionRecoveryEntry
  terminalAdmissions : List TerminalAdmissionRecoveryEntry
  openOrders : List OpenOrderRecoveryEntry

def OpenOrderRecoveryEntry.key (entry : OpenOrderRecoveryEntry) : DispatchKey :=
  (entry.inventory.accountId, entry.inventory.identity.dispatchId)

def ApprovedAdmissionRecoveryEntry.key (entry : ApprovedAdmissionRecoveryEntry) : DispatchKey :=
  (entry.accountId, entry.admission.identity.dispatchId)

namespace LiveRecoveryFold

/-- The recovery work that the records so far imply. -/
def inventory (fold : LiveRecoveryFold) : LiveRecoveryInventory where
  accountIds := fold.accountIds.toList
  approvedAdmissions := sortOn ApprovedAdmissionRecoveryEntry.admissionJournalSeq
    (fold.approvedAdmissions.toList.map fun ((accountId, _), seq, admission) =>
      ⟨accountId, seq, admission⟩)
  terminalAdmissions := sortOn TerminalAdmissionRecoveryEntry.journalSeq fold.terminalAdmissions
  openOrders := sortOn (fun order => order.inventory.preparedJournalSeq)
    (((intoValues fold.orders).filter fun order => !order.terminal).map fun order =>
      ⟨order.entry, order.prepared, order.transactionHashes.toList, order.immutableReceipts⟩)

end LiveRecoveryFold

end PredictionEdge
