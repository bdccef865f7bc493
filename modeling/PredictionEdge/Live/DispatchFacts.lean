import PredictionEdge.Live.RecoveryFold

/-!
# The facts of one dispatch

The recovery fold treats every dispatch of every account on its own: what it holds of a dispatch
is what the facts of that dispatch alone have brought about, in the order of the journal. So a
property of all journals is a property of the lists of facts of one dispatch that `step` takes.
-/

namespace PredictionEdge

open Lib

/-- What a record says about the order of one dispatch. -/
inductive OrderFact where
  | evaluated (seq : Nat) (admission : LiveAdmissionEvaluationAudit)
  | prepared (seq : Nat) (prepared : LiveOrderPreparedAudit)
  | legacyPrepared (seq : Nat) (identity : LiveOrderIdentity) (orderHash : String)
  | preparationFailed (failed : LiveOrderPreparationFailedAudit)
  | posted (posted : LiveOrderPostAudit)
  | reconciled (reconciled : LiveOrderReconciliationAudit)
  | finalized (finalized : OrderFillFinalizedAudit)
  deriving DecidableEq

/-- The fact of a record, with its dispatch. -/
def factOf (libraries : RecoveryLibraries) (event : LiveJournalEvent) :
    Option (DispatchKey × OrderFact) :=
  match event.payload with
  | .admissionEvaluated admission =>
    some ((event.accountId, admission.identity.dispatchId), .evaluated event.seq admission)
  | .orderPrepared prepared =>
    some ((event.accountId, prepared.identity.dispatchId), .prepared event.seq prepared)
  | .legacyV1 raw =>
    match legacyPreparedOrder libraries raw with
    | .ok (some (identity, orderHash)) =>
      some ((event.accountId, identity.dispatchId), .legacyPrepared event.seq identity orderHash)
    | _ => none
  | .orderPreparationFailed failed =>
    some ((event.accountId, failed.identity.dispatchId), .preparationFailed failed)
  | .orderPosted posted => some ((event.accountId, posted.identity.dispatchId), .posted posted)
  | .orderReconciled reconciled =>
    some ((event.accountId, reconciled.identity.dispatchId), .reconciled reconciled)
  | .orderFillFinalized finalized =>
    some ((event.accountId, finalized.identity.dispatchId), .finalized finalized)
  | _ => none

/-- The fact of a record about a given dispatch. -/
def factAt (libraries : RecoveryLibraries) (key : DispatchKey) (event : LiveJournalEvent) :
    Option OrderFact :=
  (factOf libraries event).bind fun (named, fact) => if named = key then some fact else none

/-- The facts of a dispatch, in the order of the journal. -/
def factsOf (libraries : RecoveryLibraries) (key : DispatchKey) (journal : List LiveJournalEvent) :
    List OrderFact :=
  journal.filterMap (factAt libraries key)

/-! ## What the fold holds of a dispatch -/

structure DispatchView where
  evaluated : Bool
  approved : Option (Nat × LiveAdmissionEvaluationAudit)
  order : Option OpenOrderState

namespace DispatchView

/-- Nothing is known of the dispatch. -/
def fresh : DispatchView := ⟨false, none, none⟩

def insertOrder (view : DispatchView) (order : OpenOrderState) : Except LiveJournalError DispatchView := do
  refuseIf view.order.isSome .orderFactConflict
  pure { view with order := some order }

def modifyOrder (view : DispatchView) (change : OpenOrderState → Except LiveJournalError OpenOrderState) :
    Except LiveJournalError DispatchView := do
  let order ← okOr view.order .orderFactConflict
  let order ← change order
  pure { view with order := some order }

/-- The fold's rules for the facts of one dispatch. -/
def step (libraries : FinalityLibraries) (accountId : AccountId) (view : DispatchView) :
    OrderFact → Except LiveJournalError DispatchView
  | .evaluated seq admission => do
    refuseIf view.evaluated .orderFactConflict
    match admission.verdict with
    | .approved => pure { view with evaluated := true, approved := some (seq, admission) }
    | .refused _ => pure { view with evaluated := true }
  | .prepared seq prepared => do
    let (_, admission) ← okOr view.approved .orderFactConflict
    refuseIf (admission.isPreparedBy prepared = false) .orderFactConflict
    { view with approved := none }.insertOrder
      (.new accountId seq prepared.identity prepared.prepared.orderHash (some prepared))
  | .legacyPrepared seq identity orderHash =>
    view.insertOrder (.new accountId seq identity orderHash none)
  | .preparationFailed failed =>
    match view.approved with
    | some (_, admission) => do
      refuseIf (admission.identity ≠ failed.identity) .orderFactConflict
      pure { view with approved := none }
    | none => view.modifyOrder fun order => order.fail failed
  | .posted posted => view.modifyOrder fun order => order.post posted
  | .reconciled reconciled => view.modifyOrder fun order => order.reconcile libraries reconciled
  | .finalized finalized => view.modifyOrder fun order => order.finalize libraries finalized

end DispatchView

variable {accountId : AccountId} {seq : Nat} {identity : LiveOrderIdentity}
  {change : OpenOrderState → Except LiveJournalError OpenOrderState}
  {prepared : Option LiveOrderPreparedAudit} {admission : LiveAdmissionEvaluationAudit}
  {failed : LiveOrderPreparationFailedAudit} {timestamp : OffsetDateTime} {orderHash : String}

namespace LiveRecoveryFold

def view (fold : LiveRecoveryFold) (key : DispatchKey) : DispatchView :=
  ⟨fold.evaluatedAdmissions.contains key, fold.approvedAdmissions[key]?, fold.orders[key]?⟩

@[simp] theorem view_empty (key : DispatchKey) : empty.view key = .fresh := by
  simp [view, empty, DispatchView.fresh]

variable {libraries : RecoveryLibraries} {verify : Bool} {fold fold' : LiveRecoveryFold}
  {event : LiveJournalEvent} {key key' : DispatchKey} {fact : OrderFact}

/-! ## A dispatch takes its own facts -/

theorem insertOpenOrder_view :
    (fold.insertOpenOrder accountId seq identity orderHash prepared).map
        (view · (accountId, identity.dispatchId)) =
      (fold.view (accountId, identity.dispatchId)).insertOrder
        (.new accountId seq identity orderHash prepared) := by
  unfold insertOpenOrder DispatchView.insertOrder refuseIf
  by_cases h : fold.orders.contains (accountId, identity.dispatchId)
  · simp [view, h, Except.map, bind, Except.bind]
  · simp [view, h, Except.map, bind, Except.bind, pure, Except.pure]

theorem modifyOrder_view :
    (fold.modifyOrder key change).map (view · key) = (fold.view key).modifyOrder change := by
  unfold modifyOrder DispatchView.modifyOrder view
  simp only
  cases fold.orders[key]? with
  | none => rfl
  | some order =>
    simp only [okOr, ok_bind]
    cases change order with
    | error e => rfl
    | ok order => simp [Except.map, ok_bind, pure, Except.pure]

@[simp] theorem recordTerminal_view {outcome : TerminalAdmissionRecoveryOutcome} :
    (fold.recordTerminal accountId seq identity outcome).view key = fold.view key := rfl

theorem applyPrepared_view {prepared : LiveOrderPreparedAudit} :
    (fold.applyPrepared accountId seq prepared).map
        (view · (accountId, prepared.identity.dispatchId)) =
      (fold.view (accountId, prepared.identity.dispatchId)).step libraries.finality accountId
        (.prepared seq prepared) := by
  unfold applyPrepared DispatchView.step
  have hview : (fold.view (accountId, prepared.identity.dispatchId)).approved =
      fold.approvedAdmissions[(accountId, prepared.identity.dispatchId)]? := rfl
  simp only [hview]
  cases fold.approvedAdmissions[(accountId, prepared.identity.dispatchId)]? with
  | none => rfl
  | some approved =>
    simp only [okOr, ok_bind, map_bind]
    congr 1
    funext _
    rw [insertOpenOrder_view]
    simp [view]

theorem applyEvaluated_view :
    (applyEvaluated libraries false fold accountId seq timestamp admission).map
        (view · (accountId, admission.identity.dispatchId)) =
      (fold.view (accountId, admission.identity.dispatchId)).step libraries.finality accountId
        (.evaluated seq admission) := by
  unfold applyEvaluated verifyEvaluated DispatchView.step refuseIf
  have hself : ((fold.evaluatedAdmissions.insert (accountId, admission.identity.dispatchId)).contains
      (accountId, admission.identity.dispatchId)) = true := Std.ExtTreeSet.contains_insert_self
  by_cases h : fold.evaluatedAdmissions.contains (accountId, admission.identity.dispatchId)
  · simp [view, h, Except.map, bind, Except.bind]
  · cases hverdict : admission.verdict <;>
      simp only [view, h, hself, hverdict, Except.map, bind, Except.bind, pure, Except.pure, recordTerminal,
        reduceIte, Bool.false_eq_true, Std.ExtTreeMap.getElem?_insert_self]

theorem applyPreparationFailed_view :
    (fold.applyPreparationFailed accountId seq failed).map
        (view · (accountId, failed.identity.dispatchId)) =
      (fold.view (accountId, failed.identity.dispatchId)).step libraries.finality accountId
        (.preparationFailed failed) := by
  have hfail : (fold.applyPreparationFailed accountId seq failed).map
        (view · (accountId, failed.identity.dispatchId)) =
      (fold.failPending (accountId, failed.identity.dispatchId) failed).map
        (view · (accountId, failed.identity.dispatchId)) := by
    unfold applyPreparationFailed
    cases fold.failPending (accountId, failed.identity.dispatchId) failed <;> rfl
  rw [hfail]
  unfold failPending DispatchView.step
  have hview : (fold.view (accountId, failed.identity.dispatchId)).approved =
      fold.approvedAdmissions[(accountId, failed.identity.dispatchId)]? := rfl
  rw [hview]
  cases fold.approvedAdmissions[(accountId, failed.identity.dispatchId)]? with
  | none => exact modifyOrder_view
  | some approved =>
    simp only [map_bind]
    congr 1
    funext _
    simp [view, Except.map, pure, Except.pure]

/-- **A record of a dispatch has the effect of its fact on that dispatch.** -/
theorem apply_view (h : factOf libraries event = some (key, fact)) :
    (fold.apply libraries false event).map (view · key) =
      (fold.view key).step libraries.finality key.1 fact := by
  unfold factOf at h
  unfold apply applyPayload
  split at h
  case h_1 admission hpayload =>
    obtain ⟨rfl, rfl⟩ := Prod.mk.inj (Option.some.inj h)
    simp only [hpayload]
    exact applyEvaluated_view
  case h_2 prepared hpayload =>
    obtain ⟨rfl, rfl⟩ := Prod.mk.inj (Option.some.inj h)
    simp only [hpayload]
    exact applyPrepared_view
  case h_3 raw hpayload =>
    split at h
    · rename_i identity orderHash hlegacy
      obtain ⟨rfl, rfl⟩ := Prod.mk.inj (Option.some.inj h)
      simp only [hpayload, hlegacy]
      exact insertOpenOrder_view
    · simp at h
  case h_4 failed hpayload =>
    obtain ⟨rfl, rfl⟩ := Prod.mk.inj (Option.some.inj h)
    simp only [hpayload]
    exact applyPreparationFailed_view
  case h_8 => exact absurd h (by simp)
  -- posted, reconciled and finalized change the order of their dispatch
  all_goals
    rename_i hpayload
    obtain ⟨rfl, rfl⟩ := Prod.mk.inj (Option.some.inj h)
    simp only [hpayload]
    exact modifyOrder_view

/-! ## And no other dispatch does -/

theorem insertOpenOrder_other (hne : (accountId, identity.dispatchId) ≠ key)
    (h : fold.insertOpenOrder accountId seq identity orderHash prepared = .ok fold') :
    fold'.view key = fold.view key := by
  simp only [insertOpenOrder, bind_eq_ok, pure_eq_ok] at h
  obtain ⟨_, _, rfl⟩ := h
  simp only [view, getElem?_insert_of_ne hne]

theorem modifyOrder_other (hne : key' ≠ key) (h : fold.modifyOrder key' change = .ok fold') :
    fold'.view key = fold.view key := by
  simp only [modifyOrder, bind_eq_ok, pure_eq_ok] at h
  obtain ⟨_, _, _, _, rfl⟩ := h
  simp only [view, getElem?_insert_of_ne hne]

theorem applyPrepared_other {prepared : LiveOrderPreparedAudit}
    (hne : (accountId, prepared.identity.dispatchId) ≠ key)
    (h : fold.applyPrepared accountId seq prepared = .ok fold') :
    fold'.view key = fold.view key := by
  simp only [applyPrepared, bind_eq_ok] at h
  obtain ⟨_, _, _, _, h⟩ := h
  rw [insertOpenOrder_other hne h]
  simp only [view, getElem?_erase_of_ne hne]

theorem applyEvaluated_other (hne : (accountId, admission.identity.dispatchId) ≠ key)
    (h : applyEvaluated libraries verify fold accountId seq timestamp admission = .ok fold') :
    fold'.view key = fold.view key := by
  simp only [applyEvaluated, bind_eq_ok] at h
  obtain ⟨_, _, _, _, h⟩ := h
  split at h <;> obtain rfl := pure_eq_ok.mp h
  · simp only [view, getElem?_insert_of_ne hne, contains_insert_of_ne hne]
  · rw [recordTerminal_view]
    simp only [view, contains_insert_of_ne hne]

theorem applyPreparationFailed_other (hne : (accountId, failed.identity.dispatchId) ≠ key)
    (h : fold.applyPreparationFailed accountId seq failed = .ok fold') :
    fold'.view key = fold.view key := by
  simp only [applyPreparationFailed, bind_eq_ok, pure_eq_ok] at h
  obtain ⟨between, h, rfl⟩ := h
  rw [recordTerminal_view]
  unfold failPending at h
  split at h
  · simp only [bind_eq_ok, pure_eq_ok] at h
    obtain ⟨_, _, rfl⟩ := h
    simp only [view, getElem?_erase_of_ne hne]
  · exact modifyOrder_other hne h

theorem applyMarked_view {mark : AccountPortfolioMarkedAudit}
    (h : fold.applyMarked accountId mark = .ok fold') : fold'.view key = fold.view key := by
  unfold applyMarked at h
  split at h
  · simp only [bind_eq_ok, pure_eq_ok] at h
    obtain ⟨_, _, rfl⟩ := h
    rfl
  · rw [← pure_eq_ok.mp h]

theorem applyPayload_other (hfact : factAt libraries key event = none)
    (h : applyPayload libraries verify fold event = .ok fold') : fold'.view key = fold.view key := by
  have hne : ∀ {named fact}, factOf libraries event = some (named, fact) → named ≠ key := by
    intro named fact hof
    simpa [factAt, hof] using hfact
  unfold factOf at hne
  unfold applyPayload at h
  split at h
  case h_1 prepared hpayload => exact applyPrepared_other (hne (by rw [hpayload])) h
  case h_2 admission hpayload => exact applyEvaluated_other (hne (by rw [hpayload])) h
  case h_3 failed hpayload => exact applyPreparationFailed_other (hne (by rw [hpayload])) h
  case h_4 mark hpayload => exact applyMarked_view h
  case h_5 raw hpayload =>
    obtain ⟨found, hlegacy, h⟩ := bind_eq_ok.mp h
    cases found with
    | none => rw [← pure_eq_ok.mp h]
    | some found =>
      exact insertOpenOrder_other (hne (by simp only [hpayload, hlegacy]; rfl)) h
  case h_6 posted hpayload => exact modifyOrder_other (hne (by rw [hpayload])) h
  case h_7 reconciled hpayload => exact modifyOrder_other (hne (by rw [hpayload])) h
  case h_8 finalized hpayload => exact modifyOrder_other (hne (by rw [hpayload])) h
  -- the records that recovery does not read
  all_goals rw [← pure_eq_ok.mp h]

/-- A record leaves every dispatch alone that it is no fact of. -/
theorem apply_other (hfact : factAt libraries key event = none)
    (h : fold.apply libraries verify event = .ok fold') : fold'.view key = fold.view key :=
  (applyPayload_other hfact h :)

/-- Evaluating the evidence of admissions again can only refuse more. -/
theorem apply_unverified (h : fold.apply libraries verify event = .ok fold') :
    fold.apply libraries false event = .ok fold' := by
  unfold apply applyPayload at h ⊢
  cases hpayload : event.payload <;> simp only [hpayload] at h ⊢ <;> try exact h
  unfold applyEvaluated at h ⊢
  obtain ⟨_, _, h⟩ := bind_eq_ok.mp h
  exact bind_eq_ok.mpr ⟨(), rfl, h⟩

/-- **The fold takes a fact of a dispatch as that dispatch does.** -/
theorem apply_step (hfact : factAt libraries key event = some fact)
    (h : fold.apply libraries verify event = .ok fold') :
    (fold.view key).step libraries.finality key.1 fact = .ok (fold'.view key) := by
  obtain ⟨⟨named, fact'⟩, hof, hat⟩ := Option.bind_eq_some_iff.mp hfact
  have hnamed : named = key ∧ fact' = fact := by simpa using hat
  obtain ⟨rfl, rfl⟩ := hnamed
  rw [← apply_view hof, apply_unverified h]
  rfl

/-! ## Whole journals -/

theorem foldlM_view (key : DispatchKey) : ∀ {journal : List LiveJournalEvent} {fold fold' : LiveRecoveryFold},
    journal.foldlM (apply libraries verify) fold = .ok fold' →
    (factsOf libraries key journal).foldlM (DispatchView.step libraries.finality key.1) (fold.view key) =
      .ok (fold'.view key)
  | [], fold, fold', h => by
    rw [pure_eq_ok.mp h]
    rfl
  | event :: journal, fold, fold', h => by
    obtain ⟨between, hevent, hrest⟩ := foldlM_cons_ok.mp h
    have ih := foldlM_view key hrest
    cases hfact : factAt libraries key event with
    | none =>
      rw [factsOf, List.filterMap_cons_none hfact, ← apply_other hfact hevent]
      exact ih
    | some fact =>
      rw [factsOf, List.filterMap_cons_some hfact]
      exact foldlM_cons_ok.mpr ⟨_, apply_step hfact hevent, ih⟩

/-- **What the fold holds of a dispatch is what the facts of the dispatch bring about.** -/
theorem ofJournal_view {journal : List LiveJournalEvent}
    (h : ofJournal libraries verify journal = .ok fold) (key : DispatchKey) :
    (factsOf libraries key journal).foldlM (DispatchView.step libraries.finality key.1) .fresh =
      .ok (fold.view key) := by
  have hview := foldlM_view key h
  rwa [view_empty] at hview

end LiveRecoveryFold

end PredictionEdge
