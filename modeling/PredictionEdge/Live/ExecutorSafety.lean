import PredictionEdge.Live.ExecutorWorld

/-!
# What a call relies on

A call that is alone with its dispatch finds the dispatch as it left it, whatever others write
about other dispatches. Each record it asks for is then one that the recovery fold takes, and it
submits only an order that it knows to be open and unsubmitted. `SafeFrom` says this of a program
from what the fold holds of the dispatch and the number of its submissions.
-/

namespace PredictionEdge

open Lib

variable {Submission : Type} {recovery : RecoveryLibraries} {key key' : DispatchKey}
  {view view' : DispatchView} {n : Nat} {log log' : ExecutorLog}

/-! ## What the log says of a dispatch -/

def ExecutorLog.postCount (log : ExecutorLog) (key : DispatchKey) : Nat :=
  log.posts.countP fun post => post.1 = key

/-- The journal is one that recovery takes, and this is what it and the submissions come to. -/
def HoldsAt (recovery : RecoveryLibraries) (key : DispatchKey) (view : DispatchView) (n : Nat)
    (log : ExecutorLog) : Prop :=
  (∃ fold, LiveRecoveryFold.ofJournal recovery false log.journal = .ok fold ∧ fold.view key = view)
    ∧ log.postCount key = n

theorem HoldsAt.unique {m : Nat} (h : HoldsAt recovery key view n log)
    (h' : HoldsAt recovery key view' m log) : view = view' ∧ n = m := by
  obtain ⟨⟨fold, hfold, rfl⟩, rfl⟩ := h
  obtain ⟨⟨fold', hfold', rfl⟩, rfl⟩ := h'
  rw [hfold] at hfold'
  rw [Except.ok.inj hfold']
  exact ⟨rfl, rfl⟩

/-- What can be left behind at any time: an order was submitted at most once, and an approved
admission has no order. -/
structure Rested (view : DispatchView) (n : Nat) : Prop where
  once : n ≤ 1
  ordered : n = 1 → view.order.isSome = true
  unordered : view.approved.isSome = true → view.order = none

section

variable (recovery : RecoveryLibraries)

def Stands (key : DispatchKey) (view : DispatchView) (n : Nat) (log : ExecutorLog) : Prop :=
  HoldsAt recovery key view n log ∧ Rested view n

def Resting (key : DispatchKey) (log : ExecutorLog) : Prop :=
  ∃ view n, Stands recovery key view n log

/-- No order of the first schema. -/
def SecondSchema (journal : List LiveJournalEvent) : Prop :=
  ∀ event ∈ journal, ∀ key fact, factOf recovery event = some (key, fact) → fact.isLegacyPrepared = false

/-- A submission found the order prepared and open. -/
def FoundOpen (post : DispatchKey × List LiveJournalEvent) : Prop :=
  SecondSchema recovery post.2 ∧ ∃ fold order,
    LiveRecoveryFold.ofJournal recovery false post.2 = .ok fold
      ∧ (fold.view post.1).order = some order ∧ order.terminal = false

/-- What is true of every log. -/
structure Clean (log : ExecutorLog) : Prop where
  secondSchema : SecondSchema recovery log.journal
  posts : ∀ post ∈ log.posts, FoundOpen recovery post

/-! ## How the log moves -/

/-- Others leave a dispatch as it is. -/
def Untouched (key : DispatchKey) (log log' : ExecutorLog) : Prop :=
  ∀ view n, HoldsAt recovery key view n log → HoldsAt recovery key view n log'

/-- What a call for a dispatch does. -/
structure Moved (key : DispatchKey) (log log' : ExecutorLog) : Prop where
  others : ∀ key', key' ≠ key → Untouched recovery key' log log'
  resting : Resting recovery key log'
  clean : Clean recovery log → Clean recovery log'

end

theorem HoldsAt.untouched (h : HoldsAt recovery key view n log)
    (hothers : Relation.ReflTransGen (Untouched recovery key) log log') :
    HoldsAt recovery key view n log' := by
  induction hothers with
  | refl => exact h
  | tail _ hstep ih => exact hstep view n ih

theorem Stands.untouched (h : Stands recovery key view n log)
    (hothers : Relation.ReflTransGen (Untouched recovery key) log log') :
    Stands recovery key view n log' :=
  ⟨h.1.untouched hothers, h.2⟩

variable {event : LiveJournalEvent} {control : Option LiveControlObservation}
  {failure : LiveOrderPreparationFailure} {fact : OrderFact}

theorem ofJournal_append {verify : Bool} {journal : List LiveJournalEvent}
    {fold fold' : LiveRecoveryFold}
    (h : LiveRecoveryFold.ofJournal recovery verify journal = .ok fold)
    (happly : fold.apply recovery verify event = .ok fold') :
    LiveRecoveryFold.ofJournal recovery verify (journal ++ [event]) = .ok fold' :=
  foldlM_append_ok.mpr ⟨fold, h, foldlM_cons_ok.mpr ⟨fold', happly, rfl⟩⟩

theorem factAt_of_factOf (h : factOf recovery event = some (key, fact)) :
    factAt recovery key event = some fact ∧ ∀ key', key' ≠ key → factAt recovery key' event = none := by
  unfold factAt
  rw [h]
  exact ⟨by simp, fun key' hne => by simp [hne.symm]⟩

/-- A record leaves every dispatch alone that it is no fact of. -/
theorem untouched_append {fold fold' : LiveRecoveryFold}
    (hfold : LiveRecoveryFold.ofJournal recovery false log.journal = .ok fold)
    (happly : fold.apply recovery false event = .ok fold')
    (hfact : factAt recovery key event = none) :
    Untouched recovery key log { log with journal := log.journal ++ [event] } := by
  intro view n hholds
  obtain ⟨⟨fold₀, hfold₀, hview⟩, hcount⟩ := hholds
  rw [hfold] at hfold₀
  obtain rfl := Except.ok.inj hfold₀
  refine ⟨⟨fold', ofJournal_append hfold happly, ?_⟩, hcount⟩
  rw [LiveRecoveryFold.apply_other hfact happly, hview]

/-- A fact that the dispatch takes. -/
theorem HoldsAt.append (h : HoldsAt recovery key view n log)
    (hfact : factOf recovery event = some (key, fact))
    (hstep : view.step recovery.finality key.1 fact = .ok view') :
    HoldsAt recovery key view' n { log with journal := log.journal ++ [event] }
      ∧ ∀ key', key' ≠ key →
        Untouched recovery key' log { log with journal := log.journal ++ [event] } := by
  obtain ⟨⟨fold, hfold, rfl⟩, hcount⟩ := h
  rw [← LiveRecoveryFold.apply_view hfact, map_eq_ok] at hstep
  obtain ⟨fold', happly, hview⟩ := hstep
  refine ⟨⟨⟨fold', ofJournal_append hfold happly, hview⟩, hcount⟩, fun key' hne => ?_⟩
  exact untouched_append hfold happly ((factAt_of_factOf hfact).2 key' hne)

theorem Clean.append (h : Clean recovery log)
    (hfact : ∀ key fact, factOf recovery event = some (key, fact) → fact.isLegacyPrepared = false) :
    Clean recovery { log with journal := log.journal ++ [event] } := by
  refine ⟨fun earlier hmem => ?_, h.posts⟩
  rcases List.mem_append.mp hmem with hmem | hmem
  · exact h.secondSchema earlier hmem
  · rw [List.mem_singleton.mp hmem]
    exact hfact

/-- A call records a fact of its dispatch. -/
theorem moved_append (h : HoldsAt recovery key view n log)
    (hfact : factOf recovery event = some (key, fact)) (hschema : fact.isLegacyPrepared = false)
    (hstep : view.step recovery.finality key.1 fact = .ok view') (hrested : Rested view' n) :
    Moved recovery key log { log with journal := log.journal ++ [event] } := by
  obtain ⟨hholds, hothers⟩ := h.append hfact hstep
  refine ⟨hothers, ⟨view', n, hholds, hrested⟩, fun hclean => hclean.append fun key' fact' hfact' => ?_⟩
  rw [hfact] at hfact'
  rw [← (Prod.mk.inj (Option.some.inj hfact')).2]
  exact hschema

theorem moved_same (h : Stands recovery key view n log) : Moved recovery key log log :=
  ⟨fun _ _ _ _ hholds => hholds, ⟨view, n, h⟩, fun hclean => hclean⟩

/-! ## Facts that a dispatch takes -/

variable {failed : LiveOrderPreparationFailedAudit} {payload : LiveJournalPayload}
  {timestamp : OffsetDateTime}

namespace DispatchView

variable {libraries : FinalityLibraries} {accountId : AccountId} {seq : Nat}
  {admission : LiveAdmissionEvaluationAudit} {state : OpenOrderState}

theorem takes_evaluated (hnew : view.evaluated = false) :
    view.step libraries accountId (.evaluated seq admission) = .ok { view with
      evaluated := true
      approved := if admission.verdict = .approved then some (seq, admission) else view.approved } := by
  simp only [step, hnew, Bool.false_eq_true, refuseIf_of_not not_false, ok_bind]
  cases hverdict : admission.verdict with
  | approved | refused reason => simp [pure, Except.pure]

theorem takes_prepared {seq' : Nat} {prepared : LiveOrderPreparedAudit}
    (happroved : view.approved = some (seq', admission)) (hmatches : admission.isPreparedBy prepared = true)
    (hnone : view.order = none) :
    view.step libraries accountId (.prepared seq prepared) = .ok ⟨view.evaluated, none,
      some (.new accountId seq prepared.identity prepared.prepared.orderHash (some prepared))⟩ := by
  simp [step, happroved, hmatches, hnone, okOr, ok_bind, insertOrder, refuseIf, pure,
    Except.pure]

theorem takes_failure (happroved : view.approved = some (seq, admission))
    (hsame : admission.identity = failed.identity) :
    view.step libraries accountId (.preparationFailed failed) = .ok { view with approved := none } := by
  simp [step, happroved, hsame, ok_bind, refuseIf, pure, Except.pure]

variable (happroved : view.approved = none) (hstate : view.order = some state)
  (hopen : state.terminal = false)

include happroved hstate hopen

theorem takes_failure_open (hsame : state.entry.identity = failed.identity) :
    view.step libraries accountId (.preparationFailed failed) =
      .ok { view with order := some { state with terminal := true } } := by
  simp [step, happroved, modifyOrder, hstate, okOr, ok_bind, OpenOrderState.fail, hsame, hopen,
    refuseIf, pure, Except.pure]

omit happroved in
theorem takes_posted {posted : LiveOrderPostAudit} (hmatches : state.postedMatches posted = true) :
    view.step libraries accountId (.posted posted) = .ok view := by
  obtain ⟨evaluated, approved, order⟩ := view
  obtain rfl : order = some state := hstate
  simp [step, modifyOrder, okOr, ok_bind, OpenOrderState.post, hmatches, hopen, refuseIf,
    pure, Except.pure]

omit happroved in
theorem takes_reconciled {reconciled : LiveOrderReconciliationAudit}
    (hmatches : state.reconciledMatches reconciled = true)
    (hsource : reconciled.source ≠ .polygonFinality) :
    view.step libraries accountId (.reconciled reconciled) =
      .ok { view with order := some (state.take reconciled) } := by
  have hreconcile : state.reconcile libraries reconciled = .ok (state.take reconciled) := by
    unfold OpenOrderState.reconcile OpenOrderState.receiptsAfter
    rw [if_neg (by simp [hopen]), if_neg hsource, refuseIf_of_not (by simp [hmatches])]
    rfl
  simp only [step, modifyOrder, hstate, okOr, ok_bind, hreconcile]
  rfl

end DispatchView

/-! ## Rules for the questions -/

/-- A program that moves the log only as a call may, and whose success leaves what `P` says. -/
abbrev CallSafe {α : Type} (recovery : RecoveryLibraries) (key : DispatchKey)
    (P : α → ExecutorLog → Prop) (p : ExecutorProgram Submission α) (log : ExecutorLog) : Prop :=
  p.Safe (ExecutorAct key) (Untouched recovery key) (Moved recovery key)
    (fun log result => ∀ a, result = .ok a → P a log) log

section

variable {α β : Type} {P : α → ExecutorLog → Prop} {R : β → ExecutorLog → Prop}
  {f : α → ExecutorProgram Submission β}

theorem callSafe_bind {p : ExecutorProgram Submission α} (hp : CallSafe recovery key P p log)
    (hf : ∀ a log, P a log → CallSafe recovery key R (f a) log) :
    CallSafe recovery key R (p >>= f) log :=
  hp.bind (fun log a hmid => hf a log (hmid a rfl)) fun _ _ _ _ h => absurd h (by simp)

variable {result : Except LiveJournalError α}

/-- A step inside the process that keeps what is known of the dispatch. -/
theorem callSafe_done
    (h : ∀ a log', result = .ok a → Relation.ReflTransGen (Untouched recovery key) log log' → P a log') :
    CallSafe recovery key P (Program.done result : ExecutorProgram Submission α) log :=
  fun log' hothers a ha => h a log' ha hothers

theorem callSafe_ofJournal (hf : ∀ a, result = .ok a → CallSafe recovery key R (f a) log) :
    CallSafe recovery key R (ExecutorProgram.ofJournal result >>= f) log := by
  cases result with
  | error e => exact callSafe_done fun a log' ha => absurd ha (by simp)
  | ok a => exact hf a rfl

variable {accountId : AccountId}

/-- A record that the dispatch takes. -/
theorem callSafe_append (fact : Nat → OrderFact) (after : Nat → DispatchView)
    (h : Stands recovery key view n log)
    (hfact : ∀ seq, factOf recovery ⟨accountId, seq, timestamp, payload⟩ = some (key, fact seq))
    (hschema : ∀ seq, (fact seq).isLegacyPrepared = false)
    (hstep : ∀ seq, view.step recovery.finality key.1 (fact seq) = .ok (after seq))
    (hrested : ∀ seq, Rested (after seq) n) :
    CallSafe recovery key (fun _ log => ∃ seq, Stands recovery key (after seq) n log)
      (ExecutorProgram.append accountId timestamp payload : ExecutorProgram Submission _) log := by
  intro log' hothers answer log'' hact
  have hstands := h.untouched hothers
  have hmoved := moved_append hstands.1 (hfact log'.journal.length) (hschema _) (hstep _) (hrested _)
  have hafter := (hstands.1.append (hfact log'.journal.length) (hstep _)).1
  cases hact with
  | appended =>
    exact ⟨hmoved, callSafe_done fun _ _ _ hothers => ⟨_, hafter.untouched hothers, hrested _⟩⟩
  | notAppended _ _ _ error =>
    exact ⟨moved_same hstands, callSafe_done fun _ _ ha => absurd ha (by simp)⟩
  | unpublished _ _ _ error => exact ⟨hmoved, callSafe_done fun _ _ ha => absurd ha (by simp)⟩

/-- A record that recovery does not read. -/
theorem callSafe_appendUnread (h : Stands recovery key view n log)
    (hfact : ∀ seq, factOf recovery ⟨accountId, seq, timestamp, payload⟩ = none)
    (happly : ∀ fold seq, ∃ fold', LiveRecoveryFold.apply recovery false fold
      ⟨accountId, seq, timestamp, payload⟩ = .ok fold') :
    CallSafe recovery key (fun _ log => Stands recovery key view n log)
      (ExecutorProgram.append accountId timestamp payload : ExecutorProgram Submission _) log := by
  intro log' hothers answer log'' hact
  have hstands := h.untouched hothers
  obtain ⟨fold, hfold, _⟩ := hstands.1.1
  obtain ⟨fold', hfold'⟩ := happly fold log'.journal.length
  have hkeeps : ∀ key', Untouched recovery key' log' _ := fun key' =>
    untouched_append hfold hfold' (by simp [factAt, hfact])
  have hafter := hstands.untouched (.single (hkeeps key))
  have hmoved : Moved recovery key log' { log' with
      journal := log'.journal ++ [appended log'.journal accountId timestamp payload] } := by
    refine ⟨fun key' _ => hkeeps key', ⟨view, n, hafter⟩, fun hclean => hclean.append ?_⟩
    exact fun key' fact hfact' => absurd hfact' (by simp [appended, hfact])
  cases hact with
  | appended => exact ⟨hmoved, callSafe_done fun _ _ _ hothers => hafter.untouched hothers⟩
  | notAppended _ _ _ error =>
    exact ⟨moved_same hstands, callSafe_done fun _ _ ha => absurd ha (by simp)⟩
  | unpublished _ _ _ error => exact ⟨hmoved, callSafe_done fun _ _ ha => absurd ha (by simp)⟩

/-- A question that leaves no trace. -/
theorem callSafe_ask {q : ExecutorQuestion Submission}
    {rest : ExecutorAnswer Submission q → ExecutorProgram Submission α} (h : Stands recovery key view n log)
    (hquiet : ∀ {log log' : ExecutorLog} {answer}, ExecutorAct key log q answer log' → log' = log)
    (hrest : ∀ answer log, Stands recovery key view n log → CallSafe recovery key P (rest answer) log) :
    CallSafe recovery key P (.ask q rest) log := by
  intro log' hothers answer log'' hact
  have hstands := h.untouched hothers
  rw [hquiet hact]
  exact ⟨moved_same hstands, hrest answer log' hstands⟩

end

/-! ## The first phase -/

/-- The fold holds the order of the capability as open. -/
def Ready (order : PreparedLiveOrder Submission) (view : DispatchView) : Prop :=
  view.approved = none ∧ ∃ state, view.order = some state ∧ state.terminal = false
    ∧ state.entry.identity = order.identity ∧ state.orderHash = order.orderHash

/-- The capability is for an order that is open and was never submitted. -/
def Capable (recovery : RecoveryLibraries) (order : PreparedLiveOrder Submission) (log : ExecutorLog) :
    Prop :=
  ∃ view, Stands recovery order.key view 0 log ∧ Ready order view

/-- What a first phase hands out is a capability for its dispatch. -/
def Handed (recovery : RecoveryLibraries) (key : DispatchKey)
    (capability : Option (PreparedLiveOrder Submission)) (log : ExecutorLog) : Prop :=
  ∀ order, capability = some order → order.key = key ∧ Capable recovery order log

theorem Ready.rested {order : PreparedLiveOrder Submission} (h : Ready order view) (hn : n ≤ 1) :
    Rested view n := by
  obtain ⟨happroved, state, hstate, _⟩ := h
  exact ⟨hn, fun _ => by simp [hstate], fun hsome => absurd hsome (by simp [happroved])⟩

theorem rested_unordered (hnone : view.order = none) : Rested view 0 :=
  ⟨Nat.zero_le 1, fun h => absurd h (by simp), fun _ => hnone⟩

section

variable {accountId : AccountId} {identity : LiveOrderIdentity} {now : OffsetDateTime}

theorem callSafe_failPreparation (h : Stands recovery key view n log)
    (hkey : (accountId, identity.dispatchId) = key)
    (hstep : view.step recovery.finality key.1 (.preparationFailed ⟨identity, failure, control⟩) = .ok view')
    (hrested : Rested view' n) :
    CallSafe recovery key (fun _ _ => True)
      (failPreparation accountId identity now failure control : ExecutorProgram Submission _) log := by
  subst hkey
  refine callSafe_bind (callSafe_append (fun _ => .preparationFailed ⟨identity, failure, control⟩)
    (fun _ => view') h (fun _ => rfl) (fun _ => rfl) (fun _ => hstep) fun _ => hrested) fun _ _ _ => ?_
  exact callSafe_done fun _ _ _ _ => trivial

variable {admission : LiveAdmissionEvaluationAudit}

/-- An approved admission whose preparation fails. -/
theorem callSafe_failApproved {seq : Nat} (h : Stands recovery key view 0 log)
    (hkey : (accountId, identity.dispatchId) = key)
    (happroved : view.approved = some (seq, admission)) (hsame : admission.identity = identity)
    (hnone : view.order = none) :
    CallSafe recovery key (fun _ _ => True)
      (failPreparation accountId identity now failure control : ExecutorProgram Submission _) log :=
  callSafe_failPreparation h hkey (DispatchView.takes_failure happroved hsame) (rested_unordered hnone)

theorem handed_terminal {outcome : LiveOrderOutcome} :
    Handed recovery key (LivePrepareResult.terminal outcome : LivePrepareResult Submission).capability
      log :=
  fun _ h => absurd h (by simp [LivePrepareResult.capability])

/-- A first phase. -/
abbrev PhaseSafe (recovery : RecoveryLibraries) (key : DispatchKey)
    (p : ExecutorProgram Submission (LivePrepareResult Submission)) (log : ExecutorLog) : Prop :=
  CallSafe recovery key (fun result log => Handed recovery key result.capability log) p log

/-- The failure of a first phase. -/
theorem callSafe_terminal {p : ExecutorProgram Submission LiveOrderOutcome}
    (hp : CallSafe recovery key (fun _ _ => True) p log) :
    PhaseSafe recovery key
      (p >>= fun outcome => pure (.terminal outcome : LivePrepareResult Submission)) log :=
  callSafe_bind hp fun _ _ _ => callSafe_done fun _ _ ha _ => by
    rw [← Except.ok.inj ha]
    exact handed_terminal

theorem callSafe_signAndRecord {seq : Nat} {venueRequest : LiveVenuePrepareRequest}
    {isAsRequested : PreparedPolymarketBuy → Bool}
    {record : PreparedPolymarketBuy → LiveOrderPreparedAudit} (h : Stands recovery key view 0 log)
    (hkey : (accountId, identity.dispatchId) = key)
    (happroved : view.approved = some (seq, admission)) (hsame : admission.identity = identity)
    (hnone : view.order = none) (hrecord : ∀ signed, admission.isPreparedBy (record signed) = true
      ∧ (record signed).identity = identity ∧ (record signed).prepared = signed) :
    PhaseSafe recovery key
      (signAndRecord accountId identity venueRequest isAsRequested record now :
        ExecutorProgram Submission _) log := by
  subst hkey
  refine callSafe_ask h (fun hact => by cases hact; rfl) fun answer log h => ?_
  cases answer with
  | error error => exact callSafe_terminal (callSafe_failApproved h rfl happroved hsame hnone)
  | ok signed =>
    show CallSafe recovery _ _ (if isAsRequested signed.audit = false then _ else _) log
    split
    · exact callSafe_terminal (callSafe_failApproved h rfl happroved hsame hnone)
    · obtain ⟨hmatches, hidentity, hsigned⟩ := hrecord signed.audit
      let opened := fun seq => DispatchView.mk view.evaluated none (some (.new accountId seq
        (record signed.audit).identity (record signed.audit).prepared.orderHash
        (some (record signed.audit))))
      refine callSafe_bind (callSafe_append (fun seq => .prepared seq (record signed.audit)) opened h ?_
        (fun _ => rfl) (fun _ => DispatchView.takes_prepared happroved hmatches hnone)
        fun _ => ⟨Nat.zero_le 1, fun _ => rfl, fun hsome => absurd hsome (by simp [opened])⟩) ?_
      · intro seq
        rw [← hidentity]
        rfl
      · intro event log' hstands
        obtain ⟨seq', hstands⟩ := hstands
        refine callSafe_done fun result log'' hresult hothers order horder => ?_
        rw [← Except.ok.inj hresult] at horder
        obtain rfl := Option.some.inj horder
        exact ⟨rfl, opened seq', hstands.untouched hothers, rfl, _, rfl, rfl, hidentity,
          congrArg PreparedPolymarketBuy.orderHash hsigned⟩

end

section

variable {request : LiveOrderRequest} {clock : Nat → OffsetDateTime} {now : OffsetDateTime}
  {accountState : Option LiveAccountStateAudit} {evidence : List RawHttpAttempt}
  {descriptorHashes : List String}

theorem callSafe_journalAdmission {verdict : LiveAdmissionVerdict}
    (h : Stands recovery request.key .fresh 0 log) :
    CallSafe recovery request.key (fun _ log => ∃ seq failureHashes,
        Stands recovery request.key (if verdict = .approved then ⟨true, some (seq, request.evaluation
          accountState evidence descriptorHashes failureHashes .approved), none⟩
          else ⟨true, none, none⟩) 0 log)
      (journalAdmission recovery.account request now accountState evidence descriptorHashes verdict :
        ExecutorProgram Submission _) log := by
  refine callSafe_ofJournal fun failureHashes _ => ?_
  let admission := request.evaluation accountState evidence descriptorHashes failureHashes verdict
  let admitted := fun seq => DispatchView.mk true
    (if admission.verdict = .approved then some (seq, admission) else none) none
  refine callSafe_bind (callSafe_append (fun seq => .evaluated seq admission) admitted h (fun _ => rfl)
    (fun _ => rfl) (fun _ => DispatchView.takes_evaluated rfl) fun _ => rested_unordered rfl) ?_
  intro event log' hstands
  obtain ⟨seq, hstands⟩ := hstands
  refine callSafe_done fun _ log'' _ hothers => ⟨seq, failureHashes, ?_⟩
  have hadmitted := hstands.untouched hothers
  by_cases hverdict : verdict = .approved
  · subst hverdict
    exact hadmitted
  · simpa [admitted, admission, LiveOrderRequest.evaluation, hverdict] using hadmitted

theorem callSafe_refuse {reason : LiveAdmissionRefusal} (h : Stands recovery request.key .fresh 0 log) :
    PhaseSafe recovery request.key
      (refuse recovery.account request now accountState evidence descriptorHashes reason :
        ExecutorProgram Submission _) log :=
  callSafe_bind (callSafe_journalAdmission h) fun _ _ _ => callSafe_done fun _ _ ha _ => by
    rw [← Except.ok.inj ha]
    exact handed_terminal

theorem callSafe_prepareWithAccount {account : LiveVenueAccountState}
    (h : Stands recovery request.key .fresh 0 log) :
    PhaseSafe recovery request.key
      (prepareWithAccount recovery.account recovery.arith request account clock :
        ExecutorProgram Submission _) log := by
  refine callSafe_ofJournal fun accountAudit _ => ?_
  split
  · exact callSafe_refuse h
  · exact callSafe_refuse h
  · refine callSafe_bind (callSafe_journalAdmission h) fun _ log' hstands => ?_
    obtain ⟨seq, failureHashes, hstands⟩ := hstands
    refine callSafe_signAndRecord hstands rfl rfl rfl rfl fun signed => ⟨?_, rfl, rfl⟩
    simp [LiveAdmissionEvaluationAudit.isPreparedBy, LiveOrderRequest.evaluation]

/-- **Preparing a dispatch that nothing is known of.** -/
theorem callSafe_prepare {observedAccount : Option LiveVenueAccountState}
    (h : Stands recovery request.key .fresh 0 log) :
    PhaseSafe recovery request.key
      (prepareWithOptionalAccount recovery.account recovery.arith request observedAccount clock :
        ExecutorProgram Submission _) log := by
  unfold prepareWithOptionalAccount
  split
  · rename_i reason _
    by_cases hreason : reason = .credentialVersionChanged
    · rw [if_pos hreason]
      refine callSafe_bind (callSafe_appendUnread h (fun _ => rfl) fun fold seq => ⟨_, rfl⟩) ?_
      exact fun _ log' h => callSafe_refuse h
    · rw [if_neg hreason]
      exact callSafe_refuse h
  · split
    · exact callSafe_prepareWithAccount h
    · refine callSafe_ask h (fun hact => by cases hact; rfl) fun answer log h => ?_
      cases answer with
      | ok account => exact callSafe_prepareWithAccount h
      | error error => exact callSafe_refuse h

/-- **Resuming an admission that the inventory reports.** -/
theorem callSafe_resume {entry : ApprovedAdmissionRecoveryEntry} {currentMode : LiveModeSnapshot}
    {currentBinding : CredentialBindingIdentity} {currentAccountState : LiveVenueAccountState} {seq : Nat}
    (h : Stands recovery entry.key view 0 log) (happroved : view.approved = some (seq, entry.admission))
    (hnone : view.order = none) :
    PhaseSafe recovery entry.key
      (resumeApprovedAdmissionWithClock recovery.account recovery.arith entry.accountId entry.admission
        currentMode currentBinding currentAccountState clock : ExecutorProgram Submission _) log := by
  refine callSafe_ofJournal fun currentAccountAudit _ => ?_
  have hfail : ∀ failure, PhaseSafe recovery entry.key
      (failPreparation entry.accountId entry.admission.identity (clock 0) failure none
        >>= fun outcome => pure (.terminal outcome : LivePrepareResult Submission)) log :=
    fun failure => callSafe_terminal (callSafe_failApproved h rfl happroved rfl hnone)
  simp only
  split
  · exact hfail _
  · cases hstate : entry.admission.accountState with
    | none => exact hfail _
    | some recorded =>
      refine callSafe_signAndRecord h rfl happroved rfl hnone fun signed => ⟨?_, rfl, rfl⟩
      simp [LiveAdmissionEvaluationAudit.isPreparedBy, hstate]

end

/-! ## The second phase -/

section

variable {order : PreparedLiveOrder Submission} {clock : Nat → OffsetDateTime} {now : OffsetDateTime}

/-- An open order that is not submitted after all. -/
theorem callSafe_failOpen (h : Stands recovery order.key view n log) (hready : Ready order view) :
    CallSafe recovery order.key (fun _ _ => True)
      (failPreparation order.accountId order.identity now failure control : ExecutorProgram Submission _)
      log := by
  obtain ⟨happroved, state, hstate, hopen, hsame, _⟩ := hready
  refine callSafe_failPreparation h rfl
    (DispatchView.takes_failure_open happroved hstate hopen hsame) ?_
  exact ⟨h.2.once, fun _ => rfl, fun hsome => absurd hsome (by simp [happroved])⟩

/-- The response of a submission. -/
theorem callSafe_journalPost {evidence : RawHttpAttempt} (h : Stands recovery order.key view n log)
    (hready : Ready order view) :
    CallSafe recovery order.key (fun _ log => Stands recovery order.key view n log)
      (journalPost recovery.account order.accountId order.identity order.orderHash now evidence :
        ExecutorProgram Submission _) log := by
  obtain ⟨happroved, state, hstate, hopen, hsame, hhash⟩ := hready
  refine callSafe_ofJournal fun evidenceHash _ => ?_
  refine callSafe_bind (callSafe_append (fun _ => .posted ⟨order.identity, order.orderHash, evidence,
    evidenceHash⟩) (fun _ => view) h (fun _ => rfl) (fun _ => rfl)
    (fun _ => DispatchView.takes_posted hstate hopen ?_) fun _ => h.2) fun _ log' hstands => ?_
  · simp [OpenOrderState.postedMatches, hsame, hhash]
  · obtain ⟨_, hstands⟩ := hstands
    exact callSafe_done fun _ _ _ hothers => hstands.untouched hothers

/-- What became of a submission, as the venue says, is recorded before it is returned. -/
theorem callSafe_journalReconciliation {source : LiveReconciliationSource}
    {outcome : LiveJournalOrderOutcome} {evidence : List RawHttpAttempt} {result : LiveOrderOutcome}
    (h : Stands recovery order.key view n log) (hready : Ready order view)
    (hsource : source ≠ .polygonFinality) (hmatches : sourceMatchesOutcome source outcome = true) :
    CallSafe recovery order.key (fun _ _ => True)
      (journalReconciliation recovery.account order.accountId order.identity order.orderHash now source
        outcome evidence >>= fun _ => (pure result : ExecutorProgram Submission _)) log := by
  refine callSafe_bind (P := fun _ _ => True) ?_ fun _ _ _ => callSafe_done fun _ _ _ _ => trivial
  obtain ⟨happroved, state, hstate, hopen, hsame, hhash⟩ := hready
  refine callSafe_ofJournal fun evidenceHashes _ => ?_
  let reconciled : LiveOrderReconciliationAudit :=
    ⟨order.identity, order.orderHash, source, outcome, evidence, evidenceHashes⟩
  refine callSafe_bind (callSafe_append (fun _ => .reconciled reconciled)
    (fun _ => { view with order := some (state.take reconciled) }) h (fun _ => rfl) (fun _ => rfl)
    (fun _ => DispatchView.takes_reconciled hstate hopen ?_ hsource) fun _ => ?_)
    fun _ log' _ => callSafe_done fun _ _ _ _ => trivial
  · simp [OpenOrderState.reconciledMatches, reconciled, hsame, hhash, hmatches]
  · exact ⟨h.2.once, fun _ => rfl, fun hsome => absurd hsome (by simp [happroved])⟩

/-- A submission of an open order that was never submitted. -/
theorem moved_post (h : Stands recovery order.key view 0 log) (hready : Ready order view) :
    Stands recovery order.key view 1 { log with posts := log.posts ++ [(order.key, log.journal)] }
      ∧ Moved recovery order.key log
        { log with posts := log.posts ++ [(order.key, log.journal)] } := by
  have hcount : ∀ key, ExecutorLog.postCount { log with posts := log.posts ++ [(order.key, log.journal)] }
      key = log.postCount key + if order.key = key then 1 else 0 := by
    simp [ExecutorLog.postCount, List.countP_append, List.countP_cons]
  obtain ⟨⟨hfold, hzero⟩, _⟩ := h
  have hstands : Stands recovery order.key view 1
      { log with posts := log.posts ++ [(order.key, log.journal)] } := by
    refine ⟨⟨hfold, ?_⟩, hready.rested Nat.le.refl⟩
    rw [hcount, hzero, if_pos rfl]
  refine ⟨hstands, fun key' hne view' n' hholds => ⟨hholds.1, ?_⟩, ⟨view, 1, hstands⟩, fun hclean => ?_⟩
  · rw [hcount, if_neg (Ne.symm hne)]
    exact hholds.2
  · refine ⟨hclean.secondSchema, fun post hmem => ?_⟩
    rcases List.mem_append.mp hmem with hmem | hmem
    · exact hclean.posts post hmem
    · obtain ⟨fold, hfold, hview⟩ := hfold
      obtain ⟨_, state, hstate, hopen, _⟩ := hready
      rw [List.mem_singleton.mp hmem]
      exact ⟨hclean.secondSchema, fold, state, hfold, hview ▸ hstate, hopen⟩

theorem callSafe_reconcileAmbiguous {initialKind : LiveOrderAmbiguityKind}
    (h : Stands recovery order.key view n log) (hready : Ready order view) :
    CallSafe recovery order.key (fun _ _ => True)
      (reconcileAmbiguousWithClock recovery.account order.accountId order.identity order.orderHash
        initialKind clock : ExecutorProgram Submission _) log := by
  refine callSafe_ask h (fun hact => by cases hact; rfl) fun answer log h => ?_
  cases answer with
  | error error => exact callSafe_journalReconciliation h hready (by simp) rfl
  | ok reconciliation =>
    obtain ⟨outcome, evidence⟩ := reconciliation
    cases outcome with
    | _ => exact callSafe_journalReconciliation h hready (by simp) rfl

/-- **Submitting an open order that was never submitted.** -/
theorem callSafe_submit {classifyPostResponse : RawHttpResponse → Option LivePostClassification}
    {wallClockDeadline : Option OffsetDateTime} (h : Capable recovery order log) :
    CallSafe recovery order.key (fun _ _ => True)
      (submitWithClockAndDeadline recovery.account classifyPostResponse order clock wallClockDeadline)
      log := by
  obtain ⟨view, hstands, hready⟩ := h
  intro log' hothers answer log'' hact
  obtain ⟨hstands, hmoved⟩ := moved_post (hstands.untouched hothers) hready
  cases hact with
  | posted =>
    refine ⟨hmoved, ?_⟩
    cases answer with
    | error failure =>
      simp only [Program.bind]
      exact callSafe_bind (callSafe_journalPost hstands hready)
        fun _ log h => callSafe_reconcileAmbiguous h hready
    | ok attempt =>
      cases attempt with
      | notAttempted checkedAt => exact callSafe_failOpen hstands hready
      | attempted response =>
        simp only [Program.bind]
        refine callSafe_bind (callSafe_journalPost hstands hready) fun _ log h => ?_
        split
        · exact callSafe_journalReconciliation h hready (by simp) rfl
        · exact callSafe_journalReconciliation h hready (by simp) rfl
        · exact callSafe_journalReconciliation h hready (by simp) rfl
        · exact callSafe_reconcileAmbiguous h hready
        · exact callSafe_reconcileAmbiguous h hready

end

end PredictionEdge
