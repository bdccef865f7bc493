import PredictionEdge.Live.ExecutorSafety

/-!
# At most one submission

Over every run of the executors: every dispatch belongs to at most one call or capability, a call
keeps its dispatch as it needs it, and nothing that others do reaches it. So an order is
submitted at most once, while the journal holds it as open, and recovery takes every journal that
is left behind.
-/

namespace PredictionEdge

open Lib

variable {entry : ApprovedAdmissionRecoveryEntry} {begun : List DispatchKey}
  {event : LiveJournalEvent} {view' : DispatchView} {fold : LiveRecoveryFold} {fact : OrderFact}
  {exclusive : Bool} {α : Type}

section

variable {Submission : Type} {setting : ExecutorSetting} {recovery : RecoveryLibraries}
  {key : DispatchKey} {view : DispatchView} {log log' : ExecutorLog}
  {w w' : ExecutorWorld Submission}

/-- A running call is safe where the log stands. -/
def ExecutorCall.Safe (recovery : RecoveryLibraries) (call : ExecutorCall Submission)
    (log : ExecutorLog) : Prop :=
  CallSafe recovery call.key (Handed recovery call.key) call.program log

theorem Capable.untouched {order : PreparedLiveOrder Submission} (h : Capable recovery order log)
    (hothers : Untouched recovery order.key log log') : Capable recovery order log' := by
  obtain ⟨view, hstands, hready⟩ := h
  exact ⟨view, hstands.untouched (.single hothers), hready⟩

/-! ## Calls start safe -/

variable {p : ExecutorProgram Submission α}

theorem safe_capability {result : α → Option (PreparedLiveOrder Submission)}
    (h : CallSafe recovery key (fun a log => Handed recovery key (result a) log) p log) :
    CallSafe recovery key (Handed recovery key) (p >>= fun a => pure (result a)) log := by
  refine callSafe_bind h fun a log hhanded => callSafe_done fun b log' hb hothers order horder => ?_
  rw [← Except.ok.inj hb] at horder
  obtain ⟨hkey, hcapable⟩ := hhanded order horder
  subst hkey
  obtain ⟨view, hstands, hready⟩ := hcapable
  exact ⟨rfl, view, hstands.untouched hothers, hready⟩

theorem safe_nothing (h : CallSafe recovery key (fun _ _ => True) p log) :
    CallSafe recovery key (Handed recovery key)
      (p >>= fun _ => pure (none : Option (PreparedLiveOrder Submission))) log := by
  refine callSafe_bind h fun _ _ _ => callSafe_done fun b log' hb _ order horder => ?_
  rw [← Except.ok.inj hb] at horder
  simp at horder

variable {clock : Nat → OffsetDateTime}

theorem prepareCall_safe {request : LiveOrderRequest}
    {observedAccount : Option LiveVenueAccountState}
    (h : Stands setting.recovery request.key .fresh 0 log) :
    (prepareCall setting request observedAccount clock : ExecutorCall Submission).Safe
      setting.recovery log :=
  safe_capability (callSafe_prepare h)

theorem resumeCall_safe {currentMode : LiveModeSnapshot}
    {currentBinding : CredentialBindingIdentity} {currentAccountState : LiveVenueAccountState}
    {seq : Nat} (h : Stands setting.recovery entry.key view 0 log)
    (happroved : view.approved = some (seq, entry.admission)) (hnone : view.order = none) :
    (resumeCall setting entry currentMode currentBinding currentAccountState clock :
      ExecutorCall Submission).Safe setting.recovery log :=
  safe_capability (callSafe_resume h happroved hnone)

theorem submitCall_safe {order : PreparedLiveOrder Submission}
    {wallClockDeadline : Option OffsetDateTime} (h : Capable setting.recovery order log) :
    (submitCall setting order clock wallClockDeadline).Safe setting.recovery log :=
  safe_nothing (callSafe_submit h)

theorem terminalizeCall_safe {order : PreparedLiveOrder Submission} {now : OffsetDateTime}
    {failure : LiveOrderPreparationFailure} {control : Option LiveControlObservation}
    (h : Capable recovery order log) : (terminalizeCall order now failure control).Safe recovery log := by
  obtain ⟨view, hstands, hready⟩ := h
  cases control with
  | none | some control => exact safe_nothing (callSafe_failOpen hstands hready)

/-! ## Every step keeps the dispatches apart -/

/-- What holds of every world that executors lead to. -/
structure ExecutorInv (recovery : RecoveryLibraries) (w : ExecutorWorld Submission) : Prop where
  resting : ∀ key, Resting recovery key w.log
  clean : Clean recovery w.log
  /-- Nothing is known of a dispatch that was not given to `prepare`. -/
  fresh : ∀ key, key ∉ w.begun → Stands recovery key .fresh 0 w.log
  begun : ∀ key ∈ w.owners, key ∈ w.begun
  apart : w.owners.Nodup
  calls : ∀ call ∈ w.running, call.Safe recovery w.log
  capable : ∀ order ∈ w.capabilities, Capable recovery order w.log

theorem stands_start (key : DispatchKey) :
    Stands recovery key .fresh 0 (ExecutorWorld.start : ExecutorWorld Submission).log :=
  ⟨⟨⟨.empty, rfl, LiveRecoveryFold.view_empty key⟩, rfl⟩, rested_unordered rfl⟩

theorem executorInv_start : ExecutorInv recovery (.start : ExecutorWorld Submission) where
  resting := fun key => ⟨.fresh, 0, stands_start key⟩
  clean := by constructor <;> simp [ExecutorWorld.start, SecondSchema]
  fresh := fun key _ => stands_start key
  begun := by simp [ExecutorWorld.owners, ExecutorWorld.start]
  apart := by simp [ExecutorWorld.owners, ExecutorWorld.start]
  calls := by simp [ExecutorWorld.start]
  capable := by simp [ExecutorWorld.start]

variable {call : ExecutorCall Submission}

/-- A new call for a dispatch that has no owner. -/
theorem ExecutorInv.called (h : ExecutorInv recovery w) (hsafe : call.Safe recovery w.log)
    (hnew : call.key ∉ w.owners) (hbegun : call.key ∈ w.begun) :
    ExecutorInv recovery { w with running := call :: w.running } where
  resting := h.resting
  clean := h.clean
  fresh := h.fresh
  begun := fun key hmem => by
    rcases List.mem_cons.mp hmem with rfl | hmem
    · exact hbegun
    · exact h.begun key hmem
  apart := List.nodup_cons.mpr ⟨hnew, h.apart⟩
  calls := fun other hmem => by
    rcases List.mem_cons.mp hmem with rfl | hmem
    · exact hsafe
    · exact h.calls other hmem
  capable := h.capable

variable {running : List (ExecutorCall Submission)}
  {capabilities : List (PreparedLiveOrder Submission)}

/-- Owners that are some of the former ones. -/
theorem ExecutorInv.fewer (h : ExecutorInv recovery w) (hrunning : running.Sublist w.running)
    (hcapabilities : capabilities.Sublist w.capabilities) :
    ExecutorInv recovery { w with running := running, capabilities := capabilities } := by
  have hsub : (running.map ExecutorCall.key ++ capabilities.map PreparedLiveOrder.key).Sublist w.owners :=
    (hrunning.map _).append (hcapabilities.map _)
  exact {
    resting := h.resting
    clean := h.clean
    fresh := h.fresh
    begun := fun key hmem => h.begun key (hsub.subset hmem)
    apart := h.apart.sublist hsub
    calls := fun call hmem => h.calls call (hrunning.subset hmem)
    capable := fun order hmem => h.capable order (hcapabilities.subset hmem) }

theorem sublist_middle {before after : List α} {a : α} :
    (before ++ after).Sublist (before ++ a :: after) :=
  List.Sublist.append_left (List.sublist_cons_self a after) before

/-- A capability is spent on a call. -/
theorem ExecutorInv.spent {before after : List (PreparedLiveOrder Submission)}
    {order : PreparedLiveOrder Submission}
    (h : ExecutorInv recovery ⟨log, begun, running, before ++ order :: after⟩)
    (hkey : call.key = order.key) (hsafe : Capable recovery order log → call.Safe recovery log) :
    ExecutorInv recovery ⟨log, begun, call :: running, before ++ after⟩ := by
  have hapart := h.apart
  simp only [ExecutorWorld.owners, List.map_append, List.map_cons] at hapart
  have hperm : (running.map ExecutorCall.key ++ (before.map PreparedLiveOrder.key
      ++ order.key :: after.map PreparedLiveOrder.key)).Perm (order.key
        :: (running.map ExecutorCall.key ++ (before ++ after).map PreparedLiveOrder.key)) := by
    rw [List.map_append, ← List.append_assoc, ← List.append_assoc]
    exact List.perm_middle
  rw [hperm.nodup_iff, List.nodup_cons] at hapart
  refine ExecutorInv.called (w := ⟨log, begun, running, before ++ after⟩)
    (h.fewer (.refl _) sublist_middle) (hsafe (h.capable order (by simp))) ?_ ?_
  · rw [hkey]
    exact hapart.1
  · rw [hkey]
    exact h.begun order.key (by simp [ExecutorWorld.owners])

variable {before after : List (ExecutorCall Submission)} {q : ExecutorQuestion Submission}

/-- A question of a running call is answered. -/
theorem ExecutorInv.answered
    {rest : ExecutorAnswer Submission q → ExecutorProgram Submission (Option (PreparedLiveOrder Submission))}
    {answer : ExecutorAnswer Submission q}
    (h : ExecutorInv recovery ⟨log, begun, before ++ ⟨key, .ask q rest⟩ :: after, capabilities⟩)
    (hact : ExecutorAct key log q answer log') :
    ExecutorInv recovery ⟨log', begun, before ++ ⟨key, rest answer⟩ :: after, capabilities⟩ := by
  have hasking : (⟨key, .ask q rest⟩ : ExecutorCall Submission).Safe recovery log :=
    h.calls _ (by simp)
  obtain ⟨hmoved, hrest⟩ := Program.Safe.ask_step hasking hact
  have howners : (⟨log', begun, before ++ ⟨key, rest answer⟩ :: after, capabilities⟩ :
      ExecutorWorld Submission).owners = (⟨log, begun, before ++ ⟨key, .ask q rest⟩ :: after,
      capabilities⟩ : ExecutorWorld Submission).owners := by
    simp [ExecutorWorld.owners]
  have hbegun : key ∈ begun := h.begun key (by simp [ExecutorWorld.owners])
  -- the other owners are of other dispatches
  have hapart := h.apart
  simp only [ExecutorWorld.owners, List.map_append, List.map_cons, List.append_assoc,
    List.cons_append] at hapart
  have hother : ∀ other ∈ before.map ExecutorCall.key
      ++ (after.map ExecutorCall.key ++ capabilities.map PreparedLiveOrder.key), other ≠ key := by
    rintro other hmem rfl
    exact (List.nodup_cons.mp (List.perm_middle.nodup_iff.mp hapart)).1 hmem
  exact {
    resting := fun other => by
      by_cases hsame : other = key
      · exact hsame ▸ hmoved.resting
      · obtain ⟨view, n, hstands⟩ := h.resting other
        exact ⟨view, n, hstands.untouched (.single (hmoved.others other hsame))⟩
    clean := hmoved.clean h.clean
    fresh := fun other hnew =>
      (h.fresh other hnew).untouched (.single (hmoved.others other fun hsame => hnew (hsame ▸ hbegun)))
    begun := fun other hmem => h.begun other (howners ▸ hmem)
    apart := howners ▸ h.apart
    calls := fun call hmem => by
      rcases List.mem_append.mp hmem with hmem | hmem
      · have hne := hother call.key (by simp [List.mem_map_of_mem hmem])
        exact (h.calls call (by simp [hmem])).stable (hmoved.others call.key hne)
      · rcases List.mem_cons.mp hmem with rfl | hmem
        · exact hrest
        · have hne := hother call.key (by simp [List.mem_map_of_mem hmem])
          exact (h.calls call (by simp [hmem])).stable (hmoved.others call.key hne)
    capable := fun order hmem => by
      have hne := hother order.key (by simp [List.mem_map_of_mem hmem])
      exact (h.capable order hmem).untouched (hmoved.others order.key hne) }

/-- A call returns what it was to hand out. -/
theorem ExecutorInv.returned
    {result : Except LiveJournalError (Option (PreparedLiveOrder Submission))}
    (h : ExecutorInv recovery ⟨log, begun, before ++ ⟨key, .done result⟩ :: after, capabilities⟩) :
    ExecutorInv recovery
      ⟨log, begun, before ++ after, (result.toOption.bind id).toList ++ capabilities⟩ := by
  have hfewer := h.fewer sublist_middle (.refl capabilities)
  cases hresult : result.toOption.bind id with
  | none => exact hfewer
  | some order =>
    obtain ⟨handed, hok, rfl⟩ := Option.bind_eq_some_iff.mp hresult
    obtain rfl := toOption_eq_some.mp hok
    have hreturning : (⟨key, .done (.ok (some order))⟩ : ExecutorCall Submission).Safe recovery log :=
      h.calls _ (by simp)
    obtain ⟨hkey, hcapable⟩ := hreturning log .refl (some order) rfl order rfl
    have hapart := h.apart
    simp only [ExecutorWorld.owners, List.map_append, List.map_cons, List.append_assoc,
      List.cons_append] at hapart
    rw [List.perm_middle.nodup_iff] at hapart
    exact {
      resting := h.resting
      clean := h.clean
      fresh := h.fresh
      begun := fun other hmem => by
        apply h.begun other
        simp only [ExecutorWorld.owners, Option.toList_some, List.singleton_append, List.map_append,
          List.map_cons, List.mem_append, List.mem_cons, hkey] at hmem ⊢
        tauto
      apart := by
        simp only [ExecutorWorld.owners, Option.toList_some, List.singleton_append, List.map_append,
          List.map_cons, List.append_assoc, hkey]
        rw [← List.append_assoc, List.perm_middle.nodup_iff, List.append_assoc]
        exact hapart
      calls := hfewer.calls
      capable := fun other hmem => by
        rcases List.mem_cons.mp hmem with rfl | hmem
        · exact hcapable
        · exact h.capable other hmem }

/-! ## What others write -/

/-- A fact that opens nothing leaves a dispatch as it can be left behind. -/
theorem Rested.step {n : Nat} (h : Rested view n) (hevaluated : fact.isEvaluated = false)
    (hprepared : fact.isPrepared = false)
    (hstep : view.step recovery.finality key.1 fact = .ok view') : Rested view' n := by
  rcases DispatchView.step_passing hevaluated hprepared hstep with
    ⟨_, _, _, _, _, _, rfl⟩ | ⟨order, order', horder, _, rfl⟩
  · exact ⟨h.once, h.ordered, fun hsome => absurd hsome (by simp)⟩
  · refine ⟨h.once, fun _ => rfl, fun happroved => ?_⟩
    rw [h.unordered happroved] at horder
    cases horder

theorem factOf_of_factAt (h : factAt recovery key event = some fact) :
    factOf recovery event = some (key, fact) := by
  obtain ⟨⟨named, fact'⟩, hof, hat⟩ := Option.bind_eq_some_iff.mp h
  have hnamed : named = key ∧ fact' = fact := by simpa using hat
  obtain ⟨rfl, rfl⟩ := hnamed
  exact hof

/-- A record of another part of the service. -/
theorem ExecutorInv.elsewhere {fold' : LiveRecoveryFold} (h : ExecutorInv setting.recovery w)
    (hfold : LiveRecoveryFold.ofJournal setting.recovery false w.log.journal = .ok fold)
    (happly : fold.apply setting.recovery false event = .ok fold')
    (hunrelated : Unrelated setting w event) :
    ExecutorInv setting.recovery { w with
      log := { w.log with journal := w.log.journal ++ [event] } } := by
  have hkeeps : ∀ key ∈ w.owners, Untouched setting.recovery key w.log
      { w.log with journal := w.log.journal ++ [event] } := by
    intro key hmem
    refine untouched_append hfold happly ?_
    cases hfact : factAt setting.recovery key event with
    | none => rfl
    | some fact => exact absurd hmem (hunrelated key fact (factOf_of_factAt hfact)).2.2
  -- a dispatch that the record is a fact of takes it
  have hstands : ∀ key view n, Stands setting.recovery key view n w.log → ∃ view',
      Stands setting.recovery key view' n { w.log with journal := w.log.journal ++ [event] }
        ∧ (view.approved = none → view.order = none → view' = view) := by
    intro key view n hstands
    cases hfact : factAt setting.recovery key event with
    | none =>
      exact ⟨view, hstands.untouched (.single (untouched_append hfold happly hfact)), fun _ _ => rfl⟩
    | some fact =>
      obtain ⟨hevaluated, hprepared, _⟩ := hunrelated key fact (factOf_of_factAt hfact)
      obtain ⟨⟨⟨fold₀, hfold₀, rfl⟩, hcount⟩, hrested⟩ := hstands
      rw [hfold] at hfold₀
      obtain rfl := Except.ok.inj hfold₀
      have hstep := LiveRecoveryFold.apply_step hfact happly
      refine ⟨fold'.view key, ⟨⟨⟨fold', ofJournal_append hfold happly, rfl⟩, hcount⟩,
        hrested.step hevaluated hprepared hstep⟩, fun happroved hnone => ?_⟩
      obtain ⟨_, _, _, hsome, _⟩ := DispatchView.step_unopened hnone hevaluated hprepared hstep
      simp [happroved] at hsome
  exact {
    resting := fun key => by
      obtain ⟨view, n, hview⟩ := h.resting key
      obtain ⟨view', hview', _⟩ := hstands key view n hview
      exact ⟨view', n, hview'⟩
    clean := h.clean.append fun key fact hfact => by
      obtain ⟨_, hprepared, _⟩ := hunrelated key fact hfact
      cases fact <;> first | rfl | exact absurd hprepared (by simp [OrderFact.isPrepared])
    fresh := fun key hnew => by
      obtain ⟨view', hview', hsame⟩ := hstands key .fresh 0 (h.fresh key hnew)
      rw [hsame rfl rfl] at hview'
      exact hview'
    begun := h.begun
    apart := h.apart
    calls := fun call hmem => (h.calls call hmem).stable
      (hkeeps call.key (List.mem_append_left _ (List.mem_map_of_mem hmem)))
    capable := fun order hmem => (h.capable order hmem).untouched
      (hkeeps order.key (List.mem_append_right _ (List.mem_map_of_mem hmem))) }

/-! ## Runs -/

/-- An admission that the inventory reports is in nobody's hands but those of a running call. -/
theorem ExecutorInv.resumable (h : ExecutorInv recovery w)
    (hfold : LiveRecoveryFold.ofJournal recovery false w.log.journal = .ok fold)
    (hentry : entry ∈ fold.inventory.approvedAdmissions) :
    ∃ view seq, Stands recovery entry.key view 0 w.log ∧ view.approved = some (seq, entry.admission)
      ∧ view.order = none := by
  obtain ⟨key, seq, admission, happroved, rfl⟩ := mem_approvedAdmissions.mp hentry
  have hkey : (⟨key.1, seq, admission⟩ : ApprovedAdmissionRecoveryEntry).key = key :=
    Prod.ext rfl ((named_view hfold key).approved seq admission happroved)
  rw [hkey]
  obtain ⟨view, n, hstands⟩ := h.resting key
  obtain ⟨rfl, _⟩ := hstands.1.unique ⟨⟨fold, hfold, rfl⟩, rfl⟩
  have hsome : (fold.view key).approved = some (seq, admission) := happroved
  have hnone := hstands.2.unordered (by simp [hsome])
  have hzero : n = 0 := by
    have honce := hstands.2.once
    by_contra hne
    have hordered := hstands.2.ordered (by omega)
    simp [hnone] at hordered
  exact ⟨fold.view key, seq, hzero ▸ hstands, hsome, hnone⟩

/-- **Every step keeps it.** -/
theorem ExecutorInv.step (h : ExecutorInv setting.recovery w) (hstep : ExecutorStep setting true w w') :
    ExecutorInv setting.recovery w' := by
  cases hstep with
  | prepare request observedAccount clock hnew =>
    have hmore : ExecutorInv setting.recovery { w with begun := request.key :: w.begun } := {
      h with
      fresh := fun key hkey => h.fresh key fun hmem => hkey (List.mem_cons_of_mem _ hmem)
      begun := fun key hmem => List.mem_cons_of_mem _ (h.begun key hmem) }
    exact hmore.called (prepareCall_safe (h.fresh request.key hnew))
      (fun hmem => hnew (h.begun _ hmem)) List.mem_cons_self
  | resume entry currentMode currentBinding currentAccountState clock hfold hentry hexclusive =>
    obtain ⟨view, seq, hstands, happroved, hnone⟩ := h.resumable hfold hentry
    refine h.called (resumeCall_safe hstands happroved hnone) ?_ ?_
    · intro hmem
      rcases List.mem_append.mp hmem with hmem | hmem
      · exact hexclusive rfl hmem
      · -- a capability says that the admission is spent
        obtain ⟨order, horder, hkey⟩ := List.mem_map.mp hmem
        obtain ⟨view', hstands', hready⟩ := h.capable order horder
        rw [hkey] at hstands'
        obtain ⟨rfl, _⟩ := hstands.1.unique hstands'.1
        exact absurd hready.1 (by simp [happroved])
    · by_contra hnew
      obtain ⟨rfl, _⟩ := hstands.1.unique (h.fresh entry.key hnew).1
      simp [DispatchView.fresh] at happroved
  | submit order clock wallClockDeadline => exact h.spent rfl submitCall_safe
  | terminalize order now failure control => exact h.spent rfl terminalizeCall_safe
  | answered hact => exact h.answered hact
  | returned => exact h.returned
  | callDropped => exact h.fewer sublist_middle (.refl _)
  | capabilityDropped => exact h.fewer (.refl _) sublist_middle
  | crashed => exact h.fewer (List.nil_sublist _) (List.nil_sublist _)
  | elsewhere event hfold happly hunrelated => exact h.elsewhere hfold happly hunrelated

theorem executorInv_reachable (h : ExecutorReachable setting true w) :
    ExecutorInv setting.recovery w := by
  induction h with
  | refl => exact executorInv_start
  | tail _ hstep ih => exact ih.step hstep

/-- An order that a submission found open was prepared and had not ended. -/
theorem FoundOpen.facts {post : DispatchKey × List LiveJournalEvent} (h : FoundOpen recovery post) :
    (∃ seq prepared, .prepared seq prepared ∈ factsOf recovery post.1 post.2)
      ∧ ∀ fact ∈ factsOf recovery post.1 post.2, fact.isTerminal = false := by
  obtain ⟨hschema, fold, order, hfold, horder, hopen⟩ := h
  have hlegacy : ∀ fact ∈ factsOf recovery post.1 post.2, fact.isLegacyPrepared = false := by
    intro fact hmem
    obtain ⟨event, hevent, hfact⟩ := List.mem_filterMap.mp hmem
    exact hschema event hevent post.1 fact (factOf_of_factAt hfact)
  have hlife := lifecycle_of_steps (.inl hlegacy) (LiveRecoveryFold.ofJournal_view hfold post.1)
  obtain ⟨⟨fact, hmem, hprepared⟩, hnot⟩ := hlife.open_iff.mp ⟨order, horder, hopen⟩
  refine ⟨?_, hnot⟩
  cases fact with
  | prepared seq prepared => exact ⟨seq, prepared, hmem⟩
  | legacyPrepared seq identity orderHash => exact absurd (hlegacy _ hmem) (by simp [OrderFact.isLegacyPrepared])
  | _ => simp [OrderFact.isPrepared] at hprepared

/--
**At most one submission of an order, and always recorded first.**

Over every run of the executors, in which a dispatch is prepared at most once and resumed only
while no other call of it is running: an order is submitted at most once; the journal then holds
its preparation and no terminal fact of it; and recovery takes the journal and every part of it
from its start on.
-/
theorem executor_posts_once (setting : ExecutorSetting) (w : ExecutorWorld Submission)
    (h : ExecutorReachable setting true w) :
    (∀ key, w.log.postCount key ≤ 1)
    ∧ (∀ post ∈ w.log.posts,
        (∃ seq prepared, .prepared seq prepared ∈ factsOf setting.recovery post.1 post.2)
        ∧ ∀ fact ∈ factsOf setting.recovery post.1 post.2, fact.isTerminal = false)
    ∧ ∀ earlier, earlier <+: w.log.journal →
        ∃ fold, LiveRecoveryFold.ofJournal setting.recovery false earlier = .ok fold := by
  have hinv := executorInv_reachable h
  refine ⟨fun key => ?_, fun post hmem => (hinv.clean.posts post hmem).facts, fun earlier hearlier => ?_⟩
  · obtain ⟨view, n, hstands⟩ := hinv.resting key
    rw [hstands.1.2]
    exact hstands.2.once
  · obtain ⟨later, hlater⟩ := hearlier
    obtain ⟨view, n, hstands⟩ := hinv.resting (⟨""⟩, "")
    obtain ⟨fold, hfold, _⟩ := hstands.1.1
    rw [← hlater] at hfold
    obtain ⟨between, hbetween, _⟩ := foldlM_append_ok.mp hfold
    exact ⟨between, hbetween⟩

/-! ## Playing a run -/

/-- What is answered to the question of a call. -/
inductive ExecutorReply (Submission : Type) where
  | appended
  | signed (answer : Except LiveVenuePreparationError (LiveVenuePrepared Submission))
  | posted (answer : Except RawTransportFailure RawPostAttempt)

/-- The answer to a question, and the log after it. -/
def ExecutorReply.act (key : DispatchKey) (log : ExecutorLog) (reply : ExecutorReply Submission) :
    (q : ExecutorQuestion Submission) → Option (ExecutorAnswer Submission q × ExecutorLog)
  | .append accountId timestamp payload =>
    match reply with
    | .appended => some (Except.ok (PredictionEdge.appended log.journal accountId timestamp payload),
        { log with journal :=
          log.journal ++ [PredictionEdge.appended log.journal accountId timestamp payload] })
    | _ => none
  | .prepare _ =>
    match reply with
    | .signed answer => some (answer, log)
    | _ => none
  | .postOnce _ _ =>
    match reply with
    | .posted answer => some (answer, { log with posts := log.posts ++ [(key, log.journal)] })
    | _ => none
  | _ => none

theorem ExecutorReply.act_some {reply : ExecutorReply Submission}
    {answered : ExecutorAnswer Submission q × ExecutorLog} (h : reply.act key log q = some answered) :
    ExecutorAct key log q answered.1 answered.2 := by
  cases q with
  | append accountId timestamp payload =>
    cases reply with
    | appended => obtain rfl := Option.some.inj h; exact .appended _ _ _
    | _ => simp [ExecutorReply.act] at h
  | prepare request =>
    cases reply with
    | signed answer => obtain rfl := Option.some.inj h; exact .signed _ _
    | _ => simp [ExecutorReply.act] at h
  | postOnce submission wallClockDeadline =>
    cases reply with
    | posted answer => obtain rfl := Option.some.inj h; exact .posted _ _ _
    | _ => simp [ExecutorReply.act] at h
  | _ => simp [ExecutorReply.act] at h

/-- A step of a run, with what it leaves open; calls and capabilities are taken from the front. -/
inductive ExecutorMove (Submission : Type) where
  | prepare (request : LiveOrderRequest) (observedAccount : LiveVenueAccountState)
      (clock : Nat → OffsetDateTime)
  | resume (currentMode : LiveModeSnapshot) (currentBinding : CredentialBindingIdentity)
      (currentAccountState : LiveVenueAccountState) (clock : Nat → OffsetDateTime)
  | submit (clock : Nat → OffsetDateTime)
  | answer (reply : ExecutorReply Submission)
  | finish
  | crash

def ExecutorWorld.play (setting : ExecutorSetting) (exclusive : Bool) (w : ExecutorWorld Submission) :
    ExecutorMove Submission → Option (ExecutorWorld Submission)
  | .prepare request observedAccount clock =>
    if request.key ∈ w.begun then none
    else some { w with
      begun := request.key :: w.begun
      running := prepareCall setting request (some observedAccount) clock :: w.running }
  | .resume currentMode currentBinding currentAccountState clock =>
    match (LiveRecoveryFold.ofJournal setting.recovery false w.log.journal).toOption.bind
      fun fold => fold.inventory.approvedAdmissions.head? with
    | none => none
    | some entry =>
      if exclusive && w.running.any (fun call => call.key = entry.key) then none
      else some { w with
        running := resumeCall setting entry currentMode currentBinding currentAccountState clock
          :: w.running }
  | .submit clock =>
    match w.capabilities with
    | [] => none
    | order :: capabilities => some { w with
        running := submitCall setting order clock none :: w.running
        capabilities := capabilities }
  | .answer reply =>
    match w.running with
    | ⟨key, .ask q rest⟩ :: running =>
      (reply.act key w.log q).map fun answered => { w with
        log := answered.2
        running := ⟨key, rest answered.1⟩ :: running }
    | _ => none
  | .finish =>
    match w.running with
    | ⟨_, .done result⟩ :: running => some { w with
        running := running
        capabilities := (result.toOption.bind id).toList ++ w.capabilities }
    | _ => none
  | .crash => some { w with running := [], capabilities := [] }

theorem ExecutorStep.play {move : ExecutorMove Submission}
    (h : w.play setting exclusive move = some w') : ExecutorStep setting exclusive w w' := by
  obtain ⟨log, begun, running, capabilities⟩ := w
  cases move with
  | prepare request observedAccount clock =>
    simp only [ExecutorWorld.play] at h
    split at h
    · simp at h
    · rename_i hnew
      obtain rfl := Option.some.inj h
      exact .prepare request (some observedAccount) clock hnew
  | resume currentMode currentBinding currentAccountState clock =>
    simp only [ExecutorWorld.play] at h
    split at h
    · simp at h
    · rename_i entry hentry
      obtain ⟨fold, hfold, hhead⟩ := Option.bind_eq_some_iff.mp hentry
      split at h
      · simp at h
      · rename_i hexclusive
        obtain rfl := Option.some.inj h
        refine .resume entry currentMode currentBinding currentAccountState clock
          (toOption_eq_some.mp hfold) (List.mem_of_mem_head? hhead) fun htrue hmem => hexclusive ?_
        obtain ⟨call, hcall, hkey⟩ := List.mem_map.mp hmem
        rw [htrue, Bool.true_and, List.any_eq_true]
        exact ⟨call, hcall, decide_eq_true hkey⟩
  | submit clock =>
    cases capabilities with
    | nil => simp [ExecutorWorld.play] at h
    | cons order capabilities =>
      obtain rfl := Option.some.inj h
      have hstep : ExecutorStep setting exclusive ⟨log, begun, running, [] ++ order :: capabilities⟩
        ⟨log, begun, _, [] ++ capabilities⟩ := .submit order clock none
      exact hstep
  | answer reply =>
    simp only [ExecutorWorld.play] at h
    split at h
    · rename_i key q rest running
      obtain ⟨answered, hact, rfl⟩ := Option.map_eq_some_iff.mp h
      have hstep : ExecutorStep setting exclusive ⟨log, begun, [] ++ ⟨key, .ask q rest⟩ :: running,
        capabilities⟩ ⟨_, begun, [] ++ ⟨key, rest _⟩ :: running, capabilities⟩ :=
        .answered (ExecutorReply.act_some hact)
      exact hstep
    · simp at h
  | finish =>
    simp only [ExecutorWorld.play] at h
    split at h
    · rename_i key result running
      obtain rfl := Option.some.inj h
      have hstep : ExecutorStep setting exclusive ⟨log, begun, [] ++ ⟨key, .done result⟩ :: running,
        capabilities⟩ ⟨log, begun, [] ++ running, _⟩ := .returned
      exact hstep
    · simp at h
  | crash =>
    obtain rfl := Option.some.inj h
    exact .crashed

theorem ExecutorReachable.play {moves : List (ExecutorMove Submission)}
    (h : ExecutorReachable setting exclusive w)
    (hplay : moves.foldlM (ExecutorWorld.play setting exclusive) w = some w') :
    ExecutorReachable setting exclusive w' := by
  induction moves generalizing w with
  | nil =>
    obtain rfl := Option.some.inj hplay
    exact h
  | cons move moves ih =>
    obtain ⟨next, hnext, hplay⟩ := Option.bind_eq_some_iff.mp hplay
    exact ih (h.tail (.play hnext)) hplay

end

/-! A dispatch whose process crashes between its approval and its preparation. -/

namespace ResumedDispatch

open SlowRead (request account)

def setting : ExecutorSetting := ⟨FirstSchema.libraries, fun _ => none⟩

def key : DispatchKey := request.key

def signed : PreparedPolymarketBuy where
  conditionId := ⟨"0xc1"⟩
  outcomeId := ⟨0⟩
  tokenId := ⟨"11"⟩
  maker := "0xf0"
  signer := "0x51"
  funder := "0xf0"
  verifyingContract := "0xE1"
  spender := "0xE1"
  exchangeDomainVersion := 2
  negRisk := false
  side := "BUY"
  salt := "1"
  timestampMs := 30000
  expiration := "0"
  makerCollateral := SlowRead.principal
  takerShares := SlowRead.shares
  limitPrice := request.ladder.limitPrice
  minimumTickSize := SlowRead.tick
  signatureType := 3
  orderType := "FOK"
  postOnly := false
  deferExec := false
  metadata := "m"
  builder := "b"
  orderHash := "0xaa"
  postBodyHash := "0xbb"
  sdkVersion := sdkVersion
  sdkArchiveSha256 := "0"
  metadataHashes := ["e"]
  worstCaseDebit := SlowRead.principal

def signature : ExecutorReply Unit := .signed (.ok ⟨signed, ()⟩)

/-- The venue is not reached. -/
def lost : ExecutorReply Unit := .posted (.error {
  sourceId := "polymarket-clob-v2"
  endpointKind := "post-order"
  method := "POST"
  path := "/order"
  orderedQuery := []
  attemptOrdinal := 1
  observedAt := SlowRead.instant 31
  receivedAt := SlowRead.instant 31
  errorClass := .timeout
  schemaVersion := 1
  parserVersion := 1
  adapterVersion := sdkVersion })

def clock : Nat → OffsetDateTime := SlowRead.clock 30

def begin : List (ExecutorMove Unit) := [.prepare request (account false) clock, .answer .appended]

def resumption : List (ExecutorMove Unit) :=
  [.resume ⟨.liveTiny, .liveTiny⟩ ⟨1, "key"⟩ (account false) clock, .answer signature,
    .answer .appended, .finish]

def submission : List (ExecutorMove Unit) := [.submit clock, .answer lost]

/-- The moves of a run with a crash. -/
def recovered : List (ExecutorMove Unit) := begin ++ .crash :: resumption ++ submission

/-- The moves of a run in which the dispatch is resumed while it is being prepared. -/
def overlapped : List (ExecutorMove Unit) :=
  begin ++ resumption ++ [.answer signature, .answer .appended, .finish] ++ submission ++ submission

def final (exclusive : Bool) (moves : List (ExecutorMove Unit)) : Option (ExecutorWorld Unit) :=
  moves.foldlM (ExecutorWorld.play setting exclusive) .start

/-- Resumed after a crash, the order is submitted once, and recorded first. -/
theorem recovered_posts_once : ∃ w : ExecutorWorld Unit, ExecutorReachable setting true w
    ∧ w.log.postCount key = 1
    ∧ ∀ post ∈ w.log.posts, ∃ seq prepared,
      .prepared seq prepared ∈ factsOf setting.recovery post.1 post.2 := by
  have hplayed : (final true recovered).map (fun w => w.log.postCount key) = some 1 := by
    decide +kernel
  obtain ⟨w, hplay, hcount⟩ := Option.map_eq_some_iff.mp hplayed
  have hreach : ExecutorReachable setting true w := ExecutorReachable.play .refl hplay
  obtain ⟨_, hposts, _⟩ := executor_posts_once setting w hreach
  exact ⟨w, hreach, hcount, fun post hmem => (hposts post hmem).1⟩

/--
Resumed while its first call waits for the signature, the order is recorded as prepared twice and
submitted twice, and recovery refuses the journal.
-/
theorem overlapped_posts_twice : ∃ w : ExecutorWorld Unit, ExecutorReachable setting false w
    ∧ w.log.postCount key = 2
    ∧ ∀ fold, LiveRecoveryFold.ofJournal setting.recovery false w.log.journal ≠ .ok fold := by
  have hplayed : (final false overlapped).map (fun w => (w.log.postCount key,
      (LiveRecoveryFold.ofJournal setting.recovery false w.log.journal).toOption.isNone))
      = some (2, true) := by
    decide +kernel
  obtain ⟨w, hplay, hfacts⟩ := Option.map_eq_some_iff.mp hplayed
  obtain ⟨hcount, hrefused⟩ := Prod.mk.inj hfacts
  refine ⟨w, ExecutorReachable.play .refl hplay, hcount, fun fold hfold => ?_⟩
  rw [hfold] at hrefused
  simp [Except.toOption] at hrefused

end ResumedDispatch

end PredictionEdge
