import PredictionEdge.Live.DispatchFacts

/-!
# The life of a dispatch

What the facts of one dispatch can be, in order. A dispatch is admitted, then prepared, then
posted and reconciled, and ends with one terminal fact; a record of the first schema can open an
order without an admission. `Lifecycle` lists the histories the recovery fold takes, each with
what the fold then holds; the one thing that breaks it is an order of the first schema and an
admission of the second for the same dispatch, for neither is checked against the other.
-/

namespace PredictionEdge

open Lib

namespace OrderFact

/-- The order that a fact names. -/
def identity : OrderFact → LiveOrderIdentity
  | .evaluated _ audit => audit.identity
  | .prepared _ audit => audit.identity
  | .legacyPrepared _ named _ => named
  | .preparationFailed audit => audit.identity
  | .posted audit => audit.identity
  | .reconciled audit => audit.identity
  | .finalized audit => audit.identity

def isEvaluated : OrderFact → Bool
  | .evaluated _ _ => true
  | _ => false

def isApproved : OrderFact → Bool
  | .evaluated _ admission => admission.verdict = .approved
  | _ => false

def isLegacyPrepared : OrderFact → Bool
  | .legacyPrepared _ _ _ => true
  | _ => false

/-- An order was prepared, under either schema. -/
def isPrepared : OrderFact → Bool
  | .prepared _ _ | .legacyPrepared _ _ _ => true
  | _ => false

/-- The reconciliation ends the order. -/
def closes (audit : LiveOrderReconciliationAudit) : Bool :=
  match audit.outcome with
  | .killed _ | .rejected _ _ | .finalityConflict _ => true
  | .matched _ _ _ | .ambiguous _ | .finalityPending _ => false

/-- The fact ends its dispatch. -/
def isTerminal : OrderFact → Bool
  | .evaluated _ admission => admission.verdict ≠ .approved
  | .preparationFailed _ | .finalized _ => true
  | .reconciled audit => closes audit
  | .prepared _ _ | .legacyPrepared _ _ _ | .posted _ => false

/-- The fact neither opens nor ends anything. -/
def isPassing (fact : OrderFact) : Bool :=
  !fact.isEvaluated && !fact.isPrepared && !fact.isTerminal

/-- The reconciliation that may be repeated after the fact. -/
def repeatable : OrderFact → Option LiveOrderReconciliationAudit
  | .reconciled audit => if closes audit then some audit else none
  | _ => none

end OrderFact

/-- No order of the first schema together with an admission of the second. -/
def Unmixed (facts : List OrderFact) : Prop :=
  (∀ fact ∈ facts, fact.isLegacyPrepared = false) ∨ ∀ fact ∈ facts, fact.isEvaluated = false

theorem Unmixed.of_append {facts more : List OrderFact} (h : Unmixed (facts ++ more)) :
    Unmixed facts := by
  rcases h with h | h
  · exact .inl fun fact hmem => h fact (List.mem_append_left _ hmem)
  · exact .inr fun fact hmem => h fact (List.mem_append_left _ hmem)

theorem Unmixed.not_legacy {facts : List OrderFact} {fact : OrderFact} (h : Unmixed (facts ++ [fact]))
    (hevaluated : facts.any OrderFact.isEvaluated = true) : fact.isLegacyPrepared = false := by
  obtain ⟨earlier, hmem, hearlier⟩ := List.any_eq_true.mp hevaluated
  rcases h with h | h
  · exact h fact (by simp)
  · exact absurd (h earlier (List.mem_append_left _ hmem)) (by simp [hearlier])

theorem identity_of_factAt {libraries : RecoveryLibraries} {key : DispatchKey} {event : LiveJournalEvent}
    {fact : OrderFact} (h : factAt libraries key event = some fact) :
    fact.identity.dispatchId = key.2 := by
  obtain ⟨⟨named, fact'⟩, hof, hat⟩ := Option.bind_eq_some_iff.mp h
  have hnamed : named = key ∧ fact' = fact := by simpa using hat
  obtain ⟨rfl, rfl⟩ := hnamed
  unfold factOf at hof
  split at hof
  case h_3 raw hpayload =>
    split at hof
    · obtain ⟨rfl, rfl⟩ := Prod.mk.inj (Option.some.inj hof)
      rfl
    · simp at hof
  case h_8 => exact absurd hof (by simp)
  all_goals
    obtain ⟨rfl, rfl⟩ := Prod.mk.inj (Option.some.inj hof)
    rfl

/-! ## What a fact does to an order -/

variable {reconciled : LiveOrderReconciliationAudit}

namespace OpenOrderState

variable {libraries : FinalityLibraries} {order order' : OpenOrderState}

theorem fail_eq_ok {failed : LiveOrderPreparationFailedAudit} :
    order.fail failed = .ok order' ↔
      order.entry.identity = failed.identity ∧ order.terminal = false
      ∧ order' = { order with terminal := true } := by
  simp only [fail, bind_eq_ok, refuseIf_eq_ok, pure_eq_ok, not_or, ne_eq, not_not,
    Bool.not_eq_true, exists_const, eq_comm (b := order'), and_assoc]

theorem post_eq_ok {posted : LiveOrderPostAudit} :
    order.post posted = .ok order' ↔
      order.terminal = false ∧ order.postedMatches posted = true ∧ order' = order := by
  simp only [post, bind_eq_ok, refuseIf_eq_ok, pure_eq_ok, not_or,
    Bool.not_eq_true, Bool.not_eq_false, exists_const, eq_comm (b := order'), and_assoc]

theorem take_terminal (hopen : order.terminal = false) :
    (order.take reconciled).terminal = OrderFact.closes reconciled := by
  unfold take OrderFact.closes
  cases reconciled.outcome <;> first | rfl | exact hopen

theorem take_terminalReconciliation (hnone : order.terminalReconciliation = none) :
    (order.take reconciled).terminalReconciliation = (OrderFact.reconciled reconciled).repeatable := by
  cases houtcome : reconciled.outcome <;>
    simp [take, OrderFact.repeatable, OrderFact.closes, houtcome, hnone]

theorem take_entry : (order.take reconciled).entry = order.entry := by
  unfold take
  split <;> rfl

theorem reconcile_open (hopen : order.terminal = false)
    (h : order.reconcile libraries reconciled = .ok order') :
    ∃ receipts, order' = { order with immutableReceipts := receipts }.take reconciled := by
  unfold reconcile at h
  rw [if_neg (by simp [hopen])] at h
  obtain ⟨_, _, h⟩ := bind_eq_ok.mp h
  obtain ⟨receipts, _, h⟩ := bind_eq_ok.mp h
  exact ⟨receipts, (pure_eq_ok.mp h).symm⟩

theorem reconcile_closed (hclosed : order.terminal = true)
    (h : order.reconcile libraries reconciled = .ok order') :
    order.terminalReconciliation = some reconciled ∧ order' = order := by
  unfold reconcile at h
  rw [if_pos hclosed] at h
  obtain ⟨_, hrepeat, h⟩ := bind_eq_ok.mp h
  rw [refuseIf_eq_ok, ne_eq, not_not] at hrepeat
  exact ⟨hrepeat, (pure_eq_ok.mp h).symm⟩

theorem reconcile_entry (h : order.reconcile libraries reconciled = .ok order') :
    order'.entry = order.entry := by
  cases hterminal : order.terminal with
  | true => rw [(reconcile_closed hterminal h).2]
  | false =>
    obtain ⟨receipts, rfl⟩ := reconcile_open hterminal h
    exact take_entry

theorem finalize_ok {finalized : OrderFillFinalizedAudit}
    (h : order.finalize libraries finalized = .ok order') :
    order.terminal = false ∧ order' = { order with terminal := true } := by
  simp only [finalize, bind_eq_ok, refuseIf_eq_ok, pure_eq_ok, not_or,
    Bool.not_eq_true] at h
  obtain ⟨_, _, _, hopen, _, _, _, _, rfl⟩ := h
  exact ⟨hopen.1, rfl⟩

end OpenOrderState

namespace DispatchView

variable {libraries : FinalityLibraries} {accountId : AccountId} {view view' : DispatchView}
  {order order' : OpenOrderState} {evaluated : Bool} {fact : OrderFact}
  {change : OpenOrderState → Except LiveJournalError OpenOrderState}

theorem modifyOrder_some
    (h : DispatchView.modifyOrder ⟨evaluated, none, some order⟩ change = .ok view') :
    ∃ order', change order = .ok order' ∧ view' = ⟨evaluated, none, some order'⟩ := by
  simp only [modifyOrder, okOr, ok_bind] at h
  obtain ⟨order', hchange, h⟩ := bind_eq_ok.mp h
  exact ⟨order', hchange, (pure_eq_ok.mp h).symm⟩

/-- A fact of an order that no admission competes with: the order is open and ends with the fact or
not, or it has ended and the fact repeats the reconciliation that ended it. -/
theorem step_ordered (hevaluated : fact.isEvaluated = false)
    (h : step libraries accountId ⟨evaluated, none, some order⟩ fact = .ok view') :
    fact.isPrepared = false ∧ ∃ order', view' = ⟨evaluated, none, some order'⟩
      ∧ (order.terminal = false ∧ order'.terminal = fact.isTerminal
          ∧ (order.terminalReconciliation = none → order'.terminalReconciliation = fact.repeatable)
        ∨ order.terminal = true ∧ order' = order
          ∧ ∃ reconciled, fact = .reconciled reconciled
            ∧ order.terminalReconciliation = some reconciled) := by
  cases fact with
  | evaluated seq admission => simp [OrderFact.isEvaluated] at hevaluated
  | prepared seq prepared => simp [step, okOr, bind, Except.bind] at h
  | legacyPrepared seq identity orderHash =>
    simp [step, insertOrder, refuseIf, bind, Except.bind] at h
  | preparationFailed failed =>
    obtain ⟨order', hchange, rfl⟩ := modifyOrder_some h
    obtain ⟨_, hopen, rfl⟩ := OpenOrderState.fail_eq_ok.mp hchange
    exact ⟨rfl, _, rfl, .inl ⟨hopen, rfl, id⟩⟩
  | posted posted =>
    obtain ⟨order', hchange, rfl⟩ := modifyOrder_some h
    obtain ⟨hopen, _, rfl⟩ := OpenOrderState.post_eq_ok.mp hchange
    exact ⟨rfl, _, rfl, .inl ⟨hopen, hopen, id⟩⟩
  | reconciled reconciled =>
    obtain ⟨order', hchange, rfl⟩ := modifyOrder_some h
    refine ⟨rfl, _, rfl, ?_⟩
    cases hterminal : order.terminal with
    | false =>
      obtain ⟨receipts, rfl⟩ := OpenOrderState.reconcile_open hterminal hchange
      exact .inl ⟨rfl, OpenOrderState.take_terminal hterminal,
        fun hnone => OpenOrderState.take_terminalReconciliation hnone⟩
    | true =>
      obtain ⟨hrepeat, rfl⟩ := OpenOrderState.reconcile_closed hterminal hchange
      exact .inr ⟨rfl, rfl, reconciled, rfl, hrepeat⟩
  | finalized finalized =>
    obtain ⟨order', hchange, rfl⟩ := modifyOrder_some h
    obtain ⟨hopen, rfl⟩ := OpenOrderState.finalize_ok hchange
    exact ⟨rfl, _, rfl, .inl ⟨hopen, rfl, id⟩⟩

/-- An admission that was not evaluated before. -/
theorem step_evaluated {seq : Nat} {admission : LiveAdmissionEvaluationAudit}
    (h : step libraries accountId view (.evaluated seq admission) = .ok view') :
    view.evaluated = false ∧ view' = { view with
      evaluated := true
      approved := if admission.verdict = .approved then some (seq, admission) else view.approved } := by
  obtain ⟨_, hnew, h⟩ := bind_eq_ok.mp h
  rw [refuseIf_eq_ok, Bool.not_eq_true] at hnew
  refine ⟨hnew, ?_⟩
  split at h
  · rename_i hverdict
    rw [if_pos hverdict]
    exact (pure_eq_ok.mp h).symm
  · rename_i reason hverdict
    rw [if_neg (by simp [hverdict])]
    exact (pure_eq_ok.mp h).symm

theorem step_prepared {seq : Nat} {prepared : LiveOrderPreparedAudit}
    (h : step libraries accountId view (.prepared seq prepared) = .ok view') :
    ∃ seq' admission, view.approved = some (seq', admission) ∧ admission.isPreparedBy prepared = true
      ∧ view.order = none ∧ view' = ⟨view.evaluated, none, some (.new accountId seq prepared.identity
        prepared.prepared.orderHash (some prepared))⟩ := by
  obtain ⟨approved, happroved, h⟩ := bind_eq_ok.mp h
  obtain ⟨_, hmatches, h⟩ := bind_eq_ok.mp h
  obtain ⟨_, hnone, h⟩ := bind_eq_ok.mp h
  refine ⟨approved.1, approved.2, okOr_eq_ok.mp happroved, ?_, ?_, (pure_eq_ok.mp h).symm⟩
  · simpa [refuseIf_eq_ok] using hmatches
  · simpa [refuseIf_eq_ok] using hnone

theorem step_legacyPrepared {seq : Nat} {identity : LiveOrderIdentity} {orderHash : String}
    (h : step libraries accountId view (.legacyPrepared seq identity orderHash) = .ok view') :
    view.order = none ∧ view' = { view with order := some (.new accountId seq identity orderHash none) } := by
  obtain ⟨_, hnone, h⟩ := bind_eq_ok.mp h
  exact ⟨by simpa [refuseIf_eq_ok] using hnone, (pure_eq_ok.mp h).symm⟩

theorem modifyOrder_ok
    (hentry : ∀ order order', change order = .ok order' → order'.entry = order.entry)
    (h : view.modifyOrder change = .ok view') : ∃ order order', view.order = some order
      ∧ order'.entry = order.entry ∧ view' = { view with order := some order' } := by
  obtain ⟨order, horder, h⟩ := bind_eq_ok.mp h
  obtain ⟨order', hchange, h⟩ := bind_eq_ok.mp h
  exact ⟨order, order', okOr_eq_ok.mp horder, hentry order order' hchange, (pure_eq_ok.mp h).symm⟩

/-- A fact that opens nothing: the preparation of what was approved fails, or an order goes on. -/
theorem step_passing (hevaluated : fact.isEvaluated = false) (hprepared : fact.isPrepared = false)
    (h : step libraries accountId view fact = .ok view') :
    (∃ seq admission failed, view.approved = some (seq, admission) ∧ fact = .preparationFailed failed
      ∧ admission.identity = failed.identity ∧ view' = { view with approved := none })
    ∨ ∃ order order', view.order = some order ∧ order'.entry = order.entry
      ∧ view' = { view with order := some order' } := by
  cases fact with
  | evaluated seq admission => simp [OrderFact.isEvaluated] at hevaluated
  | prepared seq prepared | legacyPrepared seq identity orderHash =>
    simp [OrderFact.isPrepared] at hprepared
  | preparationFailed failed =>
    simp only [step] at h
    split at h
    · rename_i seq admission happroved
      obtain ⟨_, hsame, h⟩ := bind_eq_ok.mp h
      rw [refuseIf_eq_ok, ne_eq, not_not] at hsame
      exact .inl ⟨seq, admission, failed, happroved, rfl, hsame, (pure_eq_ok.mp h).symm⟩
    · refine .inr (modifyOrder_ok (fun order order' hchange => ?_) h)
      rw [(OpenOrderState.fail_eq_ok.mp hchange).2.2]
  | posted posted =>
    refine .inr (modifyOrder_ok (fun order order' hchange => ?_) h)
    rw [(OpenOrderState.post_eq_ok.mp hchange).2.2]
  | reconciled reconciled =>
    exact .inr (modifyOrder_ok (fun _ _ hchange => OpenOrderState.reconcile_entry hchange) h)
  | finalized finalized =>
    refine .inr (modifyOrder_ok (fun order order' hchange => ?_) h)
    rw [(OpenOrderState.finalize_ok hchange).2]

/-- Without an order, only an admission, a preparation or its failure can be next. -/
theorem step_unopened (hnone : view.order = none) (hevaluated : fact.isEvaluated = false)
    (hprepared : fact.isPrepared = false) (h : step libraries accountId view fact = .ok view') :
    ∃ seq admission failed, view.approved = some (seq, admission) ∧ fact = .preparationFailed failed
      ∧ admission.identity = failed.identity ∧ view' = { view with approved := none } := by
  rcases step_passing hevaluated hprepared h with h | ⟨order, _, horder, _⟩
  · exact h
  · rw [hnone] at horder
    cases horder

/-- An admitted dispatch without an order is prepared, or its preparation fails. -/
theorem step_admitted (hevaluated : view.evaluated = true) (hnone : view.order = none)
    (hlegacy : fact.isLegacyPrepared = false) (h : step libraries accountId view fact = .ok view') :
    ∃ seq admission, view.approved = some (seq, admission)
      ∧ ((∃ failed, fact = .preparationFailed failed ∧ view' = { view with approved := none })
        ∨ ∃ seq' prepared, fact = .prepared seq' prepared ∧ view' = ⟨view.evaluated, none,
          some (.new accountId seq' prepared.identity prepared.prepared.orderHash (some prepared))⟩) := by
  cases fact with
  | evaluated seq admission => exact absurd (step_evaluated h).1 (by simp [hevaluated])
  | prepared seq prepared =>
    obtain ⟨seq', admission, happroved, _, _, rfl⟩ := step_prepared h
    exact ⟨seq', admission, happroved, .inr ⟨seq, prepared, rfl, rfl⟩⟩
  | legacyPrepared seq identity orderHash =>
    simp [OrderFact.isLegacyPrepared] at hlegacy
  | _ =>
    obtain ⟨seq, admission, failed, happroved, hfact, _, rfl⟩ := step_unopened hnone rfl rfl h
    exact ⟨seq, admission, happroved, .inl ⟨failed, hfact, rfl⟩⟩

end DispatchView

/-! ## The histories of a dispatch -/

/-- How an order comes to be, and whether an admission of the dispatch was evaluated for it. -/
inductive Opening : List OrderFact → Bool → Prop where
  | admitted {seq seq' : Nat} {admission : LiveAdmissionEvaluationAudit}
      {prepared : LiveOrderPreparedAudit} (hverdict : admission.verdict = .approved) :
      Opening [.evaluated seq admission, .prepared seq' prepared] true
  | legacy {seq : Nat} {identity : LiveOrderIdentity} {orderHash : String} :
      Opening [.legacyPrepared seq identity orderHash] false

/-- The histories that the fold takes, with what it then holds. -/
inductive Lifecycle : List OrderFact → DispatchView → Prop where
  | fresh : Lifecycle [] .fresh
  | refused {seq : Nat} {admission : LiveAdmissionEvaluationAudit}
      (hverdict : admission.verdict ≠ .approved) : Lifecycle [.evaluated seq admission] ⟨true, none, none⟩
  | approved {seq : Nat} {admission : LiveAdmissionEvaluationAudit}
      (hverdict : admission.verdict = .approved) :
      Lifecycle [.evaluated seq admission] ⟨true, some (seq, admission), none⟩
  | failed {seq : Nat} {admission : LiveAdmissionEvaluationAudit}
      {failed : LiveOrderPreparationFailedAudit} (hverdict : admission.verdict = .approved) :
      Lifecycle [.evaluated seq admission, .preparationFailed failed] ⟨true, none, none⟩
  | running {opening passing : List OrderFact} {evaluated : Bool} {order : OpenOrderState}
      (hopening : Opening opening evaluated) (hpassing : ∀ fact ∈ passing, fact.isPassing = true)
      (hopen : order.terminal = false) (hnone : order.terminalReconciliation = none) :
      Lifecycle (opening ++ passing) ⟨evaluated, none, some order⟩
  | closed {opening passing again : List OrderFact} {last : OrderFact} {evaluated : Bool}
      {order : OpenOrderState} (hopening : Opening opening evaluated)
      (hpassing : ∀ fact ∈ passing, fact.isPassing = true) (hlast : last.isTerminal = true)
      (hkind : last.isEvaluated = false ∧ last.isPrepared = false)
      (hagain : ∀ fact ∈ again, fact = last ∧ ∃ reconciled, last = .reconciled reconciled)
      (hclosed : order.terminal = true) (hrepeat : order.terminalReconciliation = last.repeatable) :
      Lifecycle (opening ++ passing ++ last :: again) ⟨evaluated, none, some order⟩

variable {libraries : RecoveryLibraries} {verify : Bool} {journal : List LiveJournalEvent}
  {fold : LiveRecoveryFold} {accountId : AccountId} {key : DispatchKey} {facts : List OrderFact}
  {view view' : DispatchView} {fact : OrderFact}

theorem OrderFact.repeatable_some (h : fact.repeatable = some reconciled) :
    fact = .reconciled reconciled := by
  cases fact with
  | reconciled other =>
    simp only [OrderFact.repeatable] at h
    split at h
    · exact congrArg OrderFact.reconciled (Option.some.inj h)
    · simp at h
  | _ => simp [OrderFact.repeatable] at h

variable {opening : List OrderFact} {evaluated : Bool}

/-- An opened dispatch takes no admission: it has one, or it has an order of the first schema. -/
theorem Opening.not_evaluated {more : List OrderFact} (hopening : Opening opening evaluated)
    {order : Option OpenOrderState} (hunmixed : Unmixed (opening ++ more ++ [fact]))
    (h : DispatchView.step libraries.finality accountId ⟨evaluated, none, order⟩ fact = .ok view') :
    fact.isEvaluated = false := by
  cases fact with
  | evaluated seq admission =>
    have hnew := (DispatchView.step_evaluated h).1
    cases hopening with
    | admitted hverdict => simp at hnew
    | legacy =>
      rcases hunmixed with hunmixed | hunmixed
      · exact absurd (hunmixed _ List.mem_cons_self) (by simp [OrderFact.isLegacyPrepared])
      · exact hunmixed _ (by simp)
  | _ => rfl

/-- The next fact of an open order. -/
theorem Lifecycle.step_running {passing : List OrderFact} {order : OpenOrderState}
    (hopening : Opening opening evaluated) (hpassing : ∀ fact ∈ passing, fact.isPassing = true)
    (hopen : order.terminal = false) (hnone : order.terminalReconciliation = none)
    (hunmixed : Unmixed (opening ++ passing ++ [fact]))
    (h : DispatchView.step libraries.finality accountId ⟨evaluated, none, some order⟩ fact = .ok view') :
    Lifecycle (opening ++ passing ++ [fact]) view' := by
  have hevaluated := hopening.not_evaluated hunmixed h
  obtain ⟨hprepared, order', rfl, ⟨_, hterminal, hrepeat⟩ | ⟨hclosed, _⟩⟩ :=
    DispatchView.step_ordered hevaluated h
  swap
  · simp [hopen] at hclosed
  have hrepeat := hrepeat hnone
  cases hend : fact.isTerminal with
  | true =>
    rw [hend] at hterminal
    exact .closed hopening hpassing hend ⟨hevaluated, hprepared⟩ (by simp) hterminal hrepeat
  | false =>
    rw [hend] at hterminal
    rw [List.append_assoc]
    refine .running hopening ?_ hterminal ?_
    · intro passed hmem
      rcases List.mem_append.mp hmem with hmem | hmem
      · exact hpassing passed hmem
      · rw [List.mem_singleton.mp hmem]
        simp [OrderFact.isPassing, hevaluated, hprepared, hend]
    · rw [hrepeat]
      cases fact with
      | reconciled reconciled =>
        have hcloses : OrderFact.closes reconciled = false := hend
        simp [OrderFact.repeatable, hcloses]
      | _ => rfl

/-- **One more fact of the dispatch.** -/
theorem Lifecycle.step (hlife : Lifecycle facts view) (hunmixed : Unmixed (facts ++ [fact]))
    (h : view.step libraries.finality accountId fact = .ok view') : Lifecycle (facts ++ [fact]) view' := by
  cases hlife with
  | fresh =>
    cases fact with
    | evaluated seq admission =>
      obtain ⟨_, rfl⟩ := DispatchView.step_evaluated h
      by_cases hverdict : admission.verdict = .approved
      · rw [if_pos hverdict]
        exact .approved hverdict
      · rw [if_neg hverdict]
        exact .refused hverdict
    | prepared seq prepared =>
      obtain ⟨_, _, happroved, _⟩ := DispatchView.step_prepared h
      simp [DispatchView.fresh] at happroved
    | legacyPrepared seq identity orderHash =>
      obtain ⟨_, rfl⟩ := DispatchView.step_legacyPrepared h
      rw [List.nil_append, ← List.append_nil [_]]
      exact .running .legacy (by simp) rfl rfl
    | _ =>
      obtain ⟨_, _, _, happroved, _⟩ := DispatchView.step_unopened rfl rfl rfl h
      simp [DispatchView.fresh] at happroved
  | refused hverdict =>
    obtain ⟨_, _, happroved, _⟩ := DispatchView.step_admitted rfl rfl (hunmixed.not_legacy rfl) h
    simp at happroved
  | failed hverdict =>
    obtain ⟨_, _, happroved, _⟩ := DispatchView.step_admitted rfl rfl (hunmixed.not_legacy rfl) h
    simp at happroved
  | approved hverdict =>
    obtain ⟨_, _, _, hnext⟩ := DispatchView.step_admitted rfl rfl (hunmixed.not_legacy rfl) h
    rcases hnext with ⟨failed, rfl, rfl⟩ | ⟨seq', prepared, rfl, rfl⟩
    · exact .failed hverdict
    · rw [← List.append_nil ([_] ++ [_])]
      exact .running (.admitted hverdict) (by simp) rfl rfl
  | running hopening hpassing hopen hnone =>
    exact step_running hopening hpassing hopen hnone hunmixed h
  | @closed opening passing again last evaluated order hopening hpassing hlast hkind hagain hclosed hrepeat =>
    rw [List.append_assoc opening passing] at hunmixed
    have hevaluated := hopening.not_evaluated hunmixed h
    obtain ⟨_, order', rfl, ⟨hopen, _⟩ | ⟨_, rfl, reconciled, rfl, hsame⟩⟩ :=
      DispatchView.step_ordered hevaluated h
    · simp [hclosed] at hopen
    have hlast_eq := OrderFact.repeatable_some (hrepeat.symm.trans hsame)
    rw [List.append_assoc, List.cons_append]
    refine .closed hopening hpassing hlast hkind ?_ hclosed hrepeat
    intro repeated hmem
    rcases List.mem_append.mp hmem with hmem | hmem
    · exact hagain repeated hmem
    · rw [List.mem_singleton.mp hmem]
      exact ⟨hlast_eq.symm, reconciled, hlast_eq⟩

/-- **Every history the fold takes is one of these, where the schemas do not mix.** -/
theorem lifecycle_of_steps (hunmixed : Unmixed facts)
    (h : facts.foldlM (DispatchView.step libraries.finality accountId) .fresh = .ok view) :
    Lifecycle facts view := by
  have hhistory : Unmixed facts → Lifecycle facts view := foldlM_history
    (P := fun facts view => Unmixed facts → Lifecycle facts view) (fun _ => .fresh)
    (fun taken s fact s' hs hstep hmix => (hs hmix.of_append).step hmix hstep) h
  exact hhistory hunmixed

/-! ## What a history tells -/

namespace Opening

variable {opening : List OrderFact} {evaluated : Bool}

theorem not_terminal (h : Opening opening evaluated) : ∀ fact ∈ opening, fact.isTerminal = false := by
  cases h with
  | admitted hverdict => simp [OrderFact.isTerminal, hverdict]
  | legacy => simp [OrderFact.isTerminal]

theorem prepared (h : Opening opening evaluated) : ∃ fact ∈ opening, fact.isPrepared = true := by
  cases h with
  | admitted hverdict => exact ⟨_, List.mem_cons_of_mem _ List.mem_cons_self, rfl⟩
  | legacy => exact ⟨_, List.mem_cons_self, rfl⟩

end Opening

theorem OrderFact.not_terminal_of_passing (h : fact.isPassing = true) : fact.isTerminal = false := by
  simp only [OrderFact.isPassing, Bool.and_eq_true, Bool.not_eq_true'] at h
  exact h.2

namespace Lifecycle

theorem not_terminal_of_running {passing : List OrderFact} (hopening : Opening opening evaluated)
    (hpassing : ∀ fact ∈ passing, fact.isPassing = true) :
    ∀ fact ∈ opening ++ passing, fact.isTerminal = false := by
  intro fact hmem
  rcases List.mem_append.mp hmem with hmem | hmem
  · exact hopening.not_terminal fact hmem
  · exact OrderFact.not_terminal_of_passing (hpassing fact hmem)

/-- Only the terminal reconciliation itself can follow a terminal fact. -/
theorem pairwise (h : Lifecycle facts view) : facts.Pairwise fun earlier later =>
    earlier.isTerminal = true → later = earlier ∧ ∃ reconciled, later = .reconciled reconciled := by
  cases h with
  | fresh => exact .nil
  | refused hverdict | approved hverdict => exact List.pairwise_singleton _ _
  | failed hverdict =>
    refine List.pairwise_pair.mpr fun hterminal => ?_
    simp [OrderFact.isTerminal, hverdict] at hterminal
  | running hopening hpassing hopen hnone =>
    have hnot := not_terminal_of_running hopening hpassing
    refine List.pairwise_of_forall_mem_list fun earlier hmem later _ hterminal => ?_
    simp [hnot earlier hmem] at hterminal
  | @closed opening passing again last evaluated order hopening hpassing hlast hkind hagain hclosed hrepeat =>
    have hnot := not_terminal_of_running hopening hpassing
    have hsame : ∀ later ∈ again, later = last ∧ ∃ reconciled, later = .reconciled reconciled := by
      intro later hmem
      obtain ⟨rfl, hreconciled⟩ := hagain later hmem
      exact ⟨rfl, hreconciled⟩
    rw [List.pairwise_append, List.pairwise_cons]
    refine ⟨?_, ⟨fun later hmem _ => hsame later hmem, ?_⟩, ?_⟩
    · refine List.pairwise_of_forall_mem_list fun earlier hmem later _ hterminal => ?_
      simp [hnot earlier hmem] at hterminal
    · refine List.pairwise_of_forall_mem_list fun earlier hmem later hmem' _ => ?_
      rw [(hsame earlier hmem).1]
      exact hsame later hmem'
    · intro earlier hmem later _ hterminal
      simp [hnot earlier hmem] at hterminal

theorem terminal_unique (h : Lifecycle facts view) {a b : OrderFact} (ha : a ∈ facts) (hb : b ∈ facts)
    (hta : a.isTerminal = true) (htb : b.isTerminal = true) : a = b := by
  have hsymm : facts.Pairwise fun a b => a.isTerminal = true → b.isTerminal = true → a = b :=
    h.pairwise.imp fun hpair ht _ => (hpair ht).1.symm
  have : Std.Symm fun a b : OrderFact => a.isTerminal = true → b.isTerminal = true → a = b :=
    ⟨fun a b hab hb ha => (hab ha hb).symm⟩
  exact hsymm.forall_of_forall (fun _ _ _ _ => rfl) ha hb hta htb

/-- The order is open exactly when the dispatch was prepared and has not ended. -/
theorem open_iff (h : Lifecycle facts view) :
    (∃ order, view.order = some order ∧ order.terminal = false) ↔
      (∃ fact ∈ facts, fact.isPrepared = true) ∧ ∀ fact ∈ facts, fact.isTerminal = false := by
  cases h with
  | fresh => simp [DispatchView.fresh]
  | refused hverdict | approved hverdict | failed hverdict => simp [OrderFact.isPrepared]
  | running hopening hpassing hopen hnone =>
    obtain ⟨fact, hmem, hprepared⟩ := hopening.prepared
    exact ⟨fun _ => ⟨⟨fact, List.mem_append_left _ hmem, hprepared⟩,
      not_terminal_of_running hopening hpassing⟩, fun _ => ⟨_, rfl, hopen⟩⟩
  | @closed opening passing again last evaluated order hopening hpassing hlast hkind hagain hclosed hrepeat =>
    constructor
    · intro h
      obtain ⟨order', horder, hopen⟩ := h
      rw [← Option.some.inj horder, hclosed] at hopen
      simp at hopen
    · intro h
      obtain ⟨_, hnot⟩ := h
      exact absurd (hnot last (by simp)) (by simp [hlast])

/-- An admission is to be resumed exactly when it was approved and nothing came of it yet. -/
theorem approved_iff (h : Lifecycle facts view) :
    view.approved.isSome = true ↔ (∃ fact ∈ facts, fact.isApproved = true)
      ∧ (∀ fact ∈ facts, fact.isPrepared = false) ∧ ∀ fact ∈ facts, fact.isTerminal = false := by
  cases h with
  | fresh => simp [DispatchView.fresh]
  | refused hverdict => simp [OrderFact.isApproved, hverdict]
  | approved hverdict => simp [OrderFact.isApproved, OrderFact.isPrepared, OrderFact.isTerminal, hverdict]
  | failed hverdict => simp [OrderFact.isTerminal]
  | running hopening hpassing hopen hnone =>
    obtain ⟨fact, hmem, hprepared⟩ := hopening.prepared
    refine ⟨fun happroved => absurd happroved (by simp), fun hnone => ?_⟩
    obtain ⟨_, hnot, _⟩ := hnone
    exact absurd (hnot fact (List.mem_append_left _ hmem)) (by simp [hprepared])
  | closed hopening hpassing hlast hkind hagain hclosed hrepeat =>
    obtain ⟨fact, hmem, hprepared⟩ := hopening.prepared
    refine ⟨fun happroved => absurd happroved (by simp), fun hnone => ?_⟩
    obtain ⟨_, hnot, _⟩ := hnone
    exact absurd (hnot fact (by simp [hmem])) (by simp [hprepared])

end Lifecycle

end PredictionEdge
