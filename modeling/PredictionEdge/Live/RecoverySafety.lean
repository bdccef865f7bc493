import PredictionEdge.Live.AdmissionReplay
import PredictionEdge.Live.Lifecycle

/-!
# The inventory agrees with the journal

What the recovery inventory reports of a dispatch is what the facts of the dispatch say, for
every journal that the fold takes.
-/

namespace PredictionEdge

open Lib

section

variable {libraries : RecoveryLibraries} {verify : Bool} {journal : List LiveJournalEvent}
  {fold : LiveRecoveryFold} {accountId : AccountId} {key : DispatchKey} {facts : List OrderFact}
  {view view' : DispatchView} {fact : OrderFact}

/-! ## Prepared once, and after an approval -/

/-- How many orders the facts so far prepared, and where the approved admission comes from. -/
structure OpenedBy (facts : List OrderFact) (view : DispatchView) : Prop where
  count : facts.countP OrderFact.isPrepared = if view.order.isSome then 1 else 0
  approved : ∀ seq admission, view.approved = some (seq, admission) →
    .evaluated seq admission ∈ facts ∧ admission.verdict = .approved

theorem OpenedBy.passing (h : OpenedBy facts view) (hevaluated : fact.isEvaluated = false)
    (hprepared : fact.isPrepared = false)
    (hstep : view.step libraries.finality accountId fact = .ok view') :
    OpenedBy (facts ++ [fact]) view' := by
  have hcount := h.count
  rcases DispatchView.step_passing hevaluated hprepared hstep with
    ⟨_, _, _, _, _, _, rfl⟩ | ⟨order, order', horder, _, rfl⟩
  · exact ⟨by simpa [hprepared] using hcount, fun _ _ happroved => absurd happroved (by simp)⟩
  · refine ⟨?_, fun seq admission happroved => ?_⟩
    · simp only [horder, Option.isSome_some, reduceIte] at hcount
      simp [hcount, hprepared]
    · obtain ⟨hmem, hverdict⟩ := h.approved seq admission happroved
      exact ⟨List.mem_append_left _ hmem, hverdict⟩

theorem OpenedBy.step (h : OpenedBy facts view)
    (hstep : view.step libraries.finality accountId fact = .ok view') :
    OpenedBy (facts ++ [fact]) view' := by
  cases fact with
  | evaluated seq admission =>
    obtain ⟨_, rfl⟩ := DispatchView.step_evaluated hstep
    refine ⟨?_, fun seq' admission' happroved => ?_⟩
    · simpa [OrderFact.isPrepared] using h.count
    · split at happroved
      · rename_i hverdict
        obtain ⟨rfl, rfl⟩ := Prod.mk.inj (Option.some.inj happroved)
        exact ⟨by simp, hverdict⟩
      · obtain ⟨hmem, hverdict⟩ := h.approved seq' admission' happroved
        exact ⟨List.mem_append_left _ hmem, hverdict⟩
  | prepared seq prepared =>
    obtain ⟨_, _, _, _, hnone, rfl⟩ := DispatchView.step_prepared hstep
    have hcount := h.count
    simp only [hnone, Option.isSome_none, Bool.false_eq_true, reduceIte] at hcount
    exact ⟨by simp [hcount, OrderFact.isPrepared], fun _ _ happroved => absurd happroved (by simp)⟩
  | legacyPrepared seq identity orderHash =>
    obtain ⟨hnone, rfl⟩ := DispatchView.step_legacyPrepared hstep
    have hcount := h.count
    simp only [hnone, Option.isSome_none, Bool.false_eq_true, reduceIte] at hcount
    refine ⟨by simp [hcount, OrderFact.isPrepared], fun seq' admission happroved => ?_⟩
    obtain ⟨hmem, hverdict⟩ := h.approved seq' admission happroved
    exact ⟨List.mem_append_left _ hmem, hverdict⟩
  | preparationFailed failed | posted posted | reconciled reconciled | finalized finalized =>
    exact h.passing rfl rfl hstep

theorem openedBy_of_steps
    (h : facts.foldlM (DispatchView.step libraries.finality accountId) .fresh = .ok view) :
    OpenedBy facts view :=
  foldlM_history (P := OpenedBy)
    ⟨rfl, fun _ _ happroved => absurd happroved (by simp [DispatchView.fresh])⟩
    (fun _ _ _ _ hs hstep => hs.step hstep) h

/-- An order of the second schema follows the approval it was prepared for. -/
theorem prepared_follows_approval {before after : List OrderFact} {seq : Nat}
    {prepared : LiveOrderPreparedAudit}
    (h : (before ++ .prepared seq prepared :: after).foldlM
      (DispatchView.step libraries.finality accountId) .fresh = .ok view) :
    ∃ seq' admission, .evaluated seq' admission ∈ before ∧ admission.verdict = .approved
      ∧ admission.isPreparedBy prepared = true := by
  obtain ⟨between, hbefore, h⟩ := foldlM_append_ok.mp h
  obtain ⟨_, hprepared, _⟩ := foldlM_cons_ok.mp h
  obtain ⟨seq', admission, happroved, hmatches, _⟩ := DispatchView.step_prepared hprepared
  obtain ⟨hmem, hverdict⟩ := (openedBy_of_steps hbefore).approved seq' admission happroved
  exact ⟨seq', admission, hmem, hverdict, hmatches⟩

/-! ## What stands under a key names it -/

/-- What is held of a dispatch names its account and dispatch. -/
structure Named (key : DispatchKey) (view : DispatchView) : Prop where
  order : ∀ order, view.order = some order →
    (order.entry.accountId, order.entry.identity.dispatchId) = key
  approved : ∀ seq admission, view.approved = some (seq, admission) →
    admission.identity.dispatchId = key.2

theorem Named.passing (h : Named key view) (hevaluated : fact.isEvaluated = false)
    (hprepared : fact.isPrepared = false)
    (hstep : view.step libraries.finality key.1 fact = .ok view') : Named key view' := by
  rcases DispatchView.step_passing hevaluated hprepared hstep with
    ⟨_, _, _, _, _, _, rfl⟩ | ⟨order, order', horder, hentry, rfl⟩
  · exact ⟨h.order, fun _ _ happroved => absurd happroved (by simp)⟩
  · refine ⟨fun found hfound => ?_, h.approved⟩
    rw [← Option.some.inj hfound, hentry]
    exact h.order order horder

theorem Named.step (h : Named key view) (hfact : fact.identity.dispatchId = key.2)
    (hstep : view.step libraries.finality key.1 fact = .ok view') : Named key view' := by
  have hnew : ∀ (seq : Nat) (orderHash : String) (prepared : Option LiveOrderPreparedAudit) (order),
      some (OpenOrderState.new key.1 seq fact.identity orderHash prepared) = some order →
      (order.entry.accountId, order.entry.identity.dispatchId) = key := by
    intro seq orderHash prepared order horder
    rw [← Option.some.inj horder]
    exact Prod.ext rfl hfact
  cases fact with
  | evaluated seq admission =>
    obtain ⟨_, rfl⟩ := DispatchView.step_evaluated hstep
    refine ⟨h.order, fun seq' admission' happroved => ?_⟩
    split at happroved
    · obtain ⟨rfl, rfl⟩ := Prod.mk.inj (Option.some.inj happroved)
      exact hfact
    · exact h.approved seq' admission' happroved
  | prepared seq prepared =>
    obtain ⟨_, _, _, _, _, rfl⟩ := DispatchView.step_prepared hstep
    exact ⟨hnew seq _ _, fun _ _ happroved => absurd happroved (by simp)⟩
  | legacyPrepared seq identity orderHash =>
    obtain ⟨_, rfl⟩ := DispatchView.step_legacyPrepared hstep
    exact ⟨hnew seq _ _, h.approved⟩
  | preparationFailed failed | posted posted | reconciled reconciled | finalized finalized =>
    exact h.passing rfl rfl hstep

theorem dispatchId_of_mem_factsOf (h : fact ∈ factsOf libraries key journal) :
    fact.identity.dispatchId = key.2 := by
  obtain ⟨event, _, hfact⟩ := List.mem_filterMap.mp h
  exact identity_of_factAt hfact

theorem named_view (h : LiveRecoveryFold.ofJournal libraries verify journal = .ok fold)
    (key : DispatchKey) : Named key (fold.view key) := by
  refine foldlM_rel (R := fun view view' => Named key view → Named key view') (fun _ h => h)
    (fun h h' hs => h' (h hs)) (fun view fact hmem view' hstep hs => ?_)
    (LiveRecoveryFold.ofJournal_view h key) ?_
  · exact hs.step (dispatchId_of_mem_factsOf hmem) hstep
  · exact ⟨fun _ horder => absurd horder (by simp [DispatchView.fresh]),
      fun _ _ happroved => absurd happroved (by simp [DispatchView.fresh])⟩

/-! ## What the inventory reports -/

/-- The inventory reports an order of the dispatch as open. -/
def LiveRecoveryInventory.reportsOpen (inventory : LiveRecoveryInventory) (key : DispatchKey) : Prop :=
  ∃ entry ∈ inventory.openOrders, entry.key = key

/-- The inventory reports an approved admission of the dispatch as unprepared. -/
def LiveRecoveryInventory.reportsApproved (inventory : LiveRecoveryInventory) (key : DispatchKey) : Prop :=
  ∃ entry ∈ inventory.approvedAdmissions, entry.key = key

theorem mem_openOrders {entry : OpenOrderRecoveryEntry} : entry ∈ fold.inventory.openOrders ↔
    ∃ (key : DispatchKey) (order : OpenOrderState), fold.orders[key]? = some order
      ∧ order.terminal = false
      ∧ entry = ⟨order.entry, order.prepared, order.transactionHashes.toList, order.immutableReceipts⟩ := by
  simp only [LiveRecoveryFold.inventory, (sortOn_perm _ _).mem_iff, List.mem_map, List.mem_filter,
    mem_intoValues, Bool.not_eq_true']
  constructor
  · intro h
    obtain ⟨order, ⟨⟨key, horder⟩, hopen⟩, hentry⟩ := h
    exact ⟨key, order, horder, hopen, hentry.symm⟩
  · intro h
    obtain ⟨key, order, horder, hopen, hentry⟩ := h
    exact ⟨order, ⟨⟨key, horder⟩, hopen⟩, hentry.symm⟩

theorem mem_approvedAdmissions {entry : ApprovedAdmissionRecoveryEntry} :
    entry ∈ fold.inventory.approvedAdmissions ↔
      ∃ (key : DispatchKey) (seq : Nat) (admission : LiveAdmissionEvaluationAudit),
        fold.approvedAdmissions[key]? = some (seq, admission) ∧ entry = ⟨key.1, seq, admission⟩ := by
  simp only [LiveRecoveryFold.inventory, (sortOn_perm _ _).mem_iff, List.mem_map]
  constructor
  · intro h
    obtain ⟨⟨key, seq, admission⟩, hmem, hentry⟩ := h
    exact ⟨key, seq, admission, Std.ExtTreeMap.mem_toList_iff_getElem?_eq_some.mp hmem, hentry.symm⟩
  · intro h
    obtain ⟨key, seq, admission, hmem, hentry⟩ := h
    exact ⟨(key, seq, admission), Std.ExtTreeMap.mem_toList_iff_getElem?_eq_some.mpr hmem, hentry.symm⟩

section

variable (h : LiveRecoveryFold.ofJournal libraries verify journal = .ok fold) (key : DispatchKey)

include h

theorem reportsOpen_iff : fold.inventory.reportsOpen key ↔
      ∃ order, (fold.view key).order = some order ∧ order.terminal = false := by
  constructor
  · intro hreports
    obtain ⟨entry, hmem, hkey⟩ := hreports
    obtain ⟨key', order, horder, hopen, rfl⟩ := mem_openOrders.mp hmem
    have hnamed := (named_view h key').order order horder
    have hsame : key' = key := hnamed.symm.trans hkey
    exact ⟨order, hsame ▸ horder, hopen⟩
  · intro hheld
    obtain ⟨order, horder, hopen⟩ := hheld
    exact ⟨_, mem_openOrders.mpr ⟨key, order, horder, hopen, rfl⟩, (named_view h key).order order horder⟩

theorem reportsApproved_iff : fold.inventory.reportsApproved key ↔
      (fold.view key).approved.isSome = true := by
  constructor
  · intro hreports
    obtain ⟨entry, hmem, hkey⟩ := hreports
    obtain ⟨key', seq, admission, happroved, rfl⟩ := mem_approvedAdmissions.mp hmem
    have hnamed := (named_view h key').approved seq admission happroved
    have hsame : key' = key := by
      rw [← hkey]
      exact Prod.ext rfl hnamed.symm
    rw [← hsame]
    exact Option.isSome_iff_exists.mpr ⟨_, happroved⟩
  · intro hsome
    obtain ⟨⟨seq, admission⟩, happroved⟩ := Option.isSome_iff_exists.mp hsome
    exact ⟨_, mem_approvedAdmissions.mpr ⟨key, seq, admission, happroved, rfl⟩,
      Prod.ext rfl ((named_view h key).approved seq admission happroved)⟩

end

/--
**What the journal says of a dispatch, and what recovery takes up.**

For every journal that the fold takes, with or without evaluating the admissions again, and
every dispatch: at most one order was prepared, and one of the second schema follows an approved
admission with the same facts. Where no order of the first schema meets an admission of the
second, there is at most one terminal fact; only its own repetition as a reconciliation follows
it; the inventory reports the dispatch as open exactly when it was prepared and has not ended,
and as approved exactly when it was approved and neither prepared nor ended.
-/
theorem recovery_facts (libraries : RecoveryLibraries) (verify : Bool) (journal : List LiveJournalEvent)
    (fold : LiveRecoveryFold) (h : LiveRecoveryFold.ofJournal libraries verify journal = .ok fold)
    (key : DispatchKey) :
    (factsOf libraries key journal).countP OrderFact.isPrepared ≤ 1
    ∧ (∀ before seq prepared after,
        factsOf libraries key journal = before ++ .prepared seq prepared :: after →
        ∃ seq' admission, .evaluated seq' admission ∈ before ∧ admission.verdict = .approved
          ∧ admission.isPreparedBy prepared = true)
    ∧ (Unmixed (factsOf libraries key journal) →
        (∀ a ∈ factsOf libraries key journal, ∀ b ∈ factsOf libraries key journal,
          a.isTerminal = true → b.isTerminal = true → a = b)
        ∧ ((factsOf libraries key journal).Pairwise fun earlier later => earlier.isTerminal = true →
          later = earlier ∧ ∃ reconciled, later = .reconciled reconciled)
        ∧ (fold.inventory.reportsOpen key ↔
          (∃ fact ∈ factsOf libraries key journal, fact.isPrepared = true)
          ∧ ∀ fact ∈ factsOf libraries key journal, fact.isTerminal = false)
        ∧ (fold.inventory.reportsApproved key ↔
          (∃ fact ∈ factsOf libraries key journal, fact.isApproved = true)
          ∧ (∀ fact ∈ factsOf libraries key journal, fact.isPrepared = false)
          ∧ ∀ fact ∈ factsOf libraries key journal, fact.isTerminal = false)) := by
  have hsteps := LiveRecoveryFold.ofJournal_view h key
  refine ⟨?_, ?_, ?_⟩
  · rw [(openedBy_of_steps hsteps).count]
    split <;> omega
  · intro before seq prepared after hfacts
    rw [hfacts] at hsteps
    exact prepared_follows_approval hsteps
  · intro hunmixed
    have hlife := lifecycle_of_steps hunmixed hsteps
    refine ⟨fun a ha b hb => hlife.terminal_unique ha hb, hlife.pairwise, ?_, ?_⟩
    · rw [reportsOpen_iff h, hlife.open_iff]
    · rw [reportsApproved_iff h, hlife.approved_iff]

end

/-! ## An order of the first schema -/

namespace FirstSchema

def textField (document : Json) (name : String) : Option String :=
  (document.field name).bind Json.asText

/-- The order of a first-schema record, as far as recovery reads it. -/
def orderFromValue (order : Json) : Option LegacyPayload := do
  let identity ← order.field "identity"
  let prepared ← order.field "prepared"
  let evidence ← (← identity.field "evidence_hashes").asArray
  pure (.orderPrepared ⟨← textField identity "dispatch_id", ← textField identity "idempotency_key",
    ← textField identity "quote_id", ← textField identity "config_hash",
    ← textField identity "decision_hash", ← evidence.mapM Json.asText, none, 1, 1⟩
    (← textField prepared "order_hash"))

def fromValue (event : Json) : Option LegacyPayload := do
  let payload ← event.field "payload"
  if (← textField payload "kind") = "order_prepared" then
    orderFromValue (← payload.field "payload")
  else pure .other

def libraries : RecoveryLibraries where
  account := SlowRead.libraries
  arith := .rounded
  finality := {
    fromSlice := fun _ => none
    rawLogHash := fun _ => none
    addressFromStr := fun _ => none
    b256FromStr := fun _ => none
    u256FromStr := fun _ => none
    hashes := SlowRead.libraries.hashes
    fromStr := fun _ => none }
  legacyFromValue := fromValue

def document : Json :=
  .object [("payload", .object [("kind", .string "order_prepared"), ("payload", .object [
    ("identity", .object [("dispatch_id", .string "d1"), ("idempotency_key", .string "d1:alice"),
      ("quote_id", .string "quote"), ("config_hash", .string "config"),
      ("decision_hash", .string "decision"), ("evidence_hashes", .array [.string "e"])]),
    ("prepared", .object [("order_hash", .string "0xaa")])])])]

def key : DispatchKey := (⟨"alice"⟩, "d1")

def legacyOrder (seq : Nat) : LiveJournalEvent := ⟨⟨"alice"⟩, seq, ⟨0⟩, .legacyV1 document⟩

def approval (seq : Nat) : LiveJournalEvent :=
  ⟨⟨"alice"⟩, seq, ⟨0⟩, .admissionEvaluated (SlowRead.request.evaluation none [] [] [] .approved)⟩

def failure (seq : Nat) : LiveJournalEvent :=
  ⟨⟨"alice"⟩, seq, ⟨0⟩, .orderPreparationFailed ⟨SlowRead.request.identity, .venue, none⟩⟩

/--
A record of the first schema opens an order without any admission; and together with an approved
admission of its dispatch the inventory reports the dispatch as open and as unprepared at once.
-/
theorem order_without_approval :
    (∃ fold, LiveRecoveryFold.ofJournal libraries false [legacyOrder 0] = .ok fold
      ∧ (factsOf libraries key [legacyOrder 0]).any OrderFact.isPrepared = true
      ∧ (factsOf libraries key [legacyOrder 0]).any OrderFact.isApproved = false)
    ∧ ∃ fold, LiveRecoveryFold.ofJournal libraries false [approval 0, legacyOrder 1] = .ok fold
      ∧ fold.inventory.reportsOpen key ∧ fold.inventory.reportsApproved key := by
  constructor
  · obtain ⟨fold, hfold, _⟩ := exists_ok_of_any
      (x := LiveRecoveryFold.ofJournal libraries false [legacyOrder 0]) (p := fun _ => true)
      (by decide +kernel)
    exact ⟨fold, hfold, by decide +kernel, by decide +kernel⟩
  · obtain ⟨fold, hfold, hreports⟩ := exists_ok_of_any
      (x := LiveRecoveryFold.ofJournal libraries false [approval 0, legacyOrder 1])
      (p := fun fold => fold.inventory.openOrders.any (fun entry => entry.key = key)
        && fold.inventory.approvedAdmissions.any fun entry => entry.key = key)
      (by decide +kernel)
    rw [Bool.and_eq_true, List.any_eq_true, List.any_eq_true] at hreports
    obtain ⟨⟨order, horder, hkey⟩, admission, hadmission, hkey'⟩ := hreports
    exact ⟨fold, hfold, ⟨order, horder, of_decide_eq_true hkey⟩,
      ⟨admission, hadmission, of_decide_eq_true hkey'⟩⟩

/-- An approved admission whose preparation failed is not taken up; an order without a result is. -/
theorem journals_reported :
    (∃ fold, LiveRecoveryFold.ofJournal libraries false [approval 0, failure 1] = .ok fold
      ∧ ¬ fold.inventory.reportsApproved key)
    ∧ ∃ fold, LiveRecoveryFold.ofJournal libraries false [legacyOrder 0] = .ok fold
      ∧ fold.inventory.reportsOpen key := by
  constructor
  · obtain ⟨fold, hfold, _⟩ := exists_ok_of_any
      (x := LiveRecoveryFold.ofJournal libraries false [approval 0, failure 1]) (p := fun _ => true)
      (by decide +kernel)
    obtain ⟨_, _, hfacts⟩ := recovery_facts libraries false [approval 0, failure 1] fold hfold key
    have hunmixed : Unmixed (factsOf libraries key [approval 0, failure 1]) := .inl (by decide +kernel)
    refine ⟨fold, hfold, fun hreports => ?_⟩
    obtain ⟨_, _, hnot⟩ := (hfacts hunmixed).2.2.2.mp hreports
    exact absurd (hnot (.preparationFailed ⟨SlowRead.request.identity, .venue, none⟩)
      (by decide +kernel)) (by decide)
  · obtain ⟨fold, hfold, _⟩ := exists_ok_of_any
      (x := LiveRecoveryFold.ofJournal libraries false [legacyOrder 0]) (p := fun _ => true)
      (by decide +kernel)
    obtain ⟨_, _, hfacts⟩ := recovery_facts libraries false [legacyOrder 0] fold hfold key
    have hunmixed : Unmixed (factsOf libraries key [legacyOrder 0]) := .inr (by decide +kernel)
    exact ⟨fold, hfold, (hfacts hunmixed).2.2.1.mpr ⟨by decide +kernel, by decide +kernel⟩⟩

end FirstSchema

end PredictionEdge
