import PredictionEdge.Canary.Standing

/-!
# The limits of a campaign

Every event that the reducer accepts is a move of the campaign's standing, with the mark
that the event names. So what holds of every run of moves holds of every journal: the
money, the schedule, one post and one report for a reservation, and that a closing
campaign opens nothing again.
-/

namespace PredictionEdge.Canary

open Lib

def PendingAttempt.attempt (pending : PendingAttempt) : Attempt where
  identity := pending.identity
  orderHash := pending.orderHash
  bodyHash := pending.preparedBodyHash
  origin := pending.origin
  debit := pending.worstCaseDebit.atomic
  phase := pending.phase

variable {pending : PendingAttempt} {prepared : PreparedPolymarketBuy}
  {snapshot : CanaryReconciliation} {admission : CanaryAdmission} {finalForShutdown : Bool}
  {report : ExactExecutionReport} {identity : String}

namespace CanaryCampaignState

def standing (state : CanaryCampaignState) : Standing where
  stage := state.stage
  pending := state.pending.map (·.attempt)
  probes := state.probePosts
  organics := state.organicPosts
  committed := state.committedDebit.atomic

/-- The mark of an accepted event; a snapshot makes one when its report is applied. -/
def mark (state : CanaryCampaignState) : CanaryEvent → Option Mark
  | .campaignArmed _ _ => some .armed
  | .probeReviewAccepted _ ordinal _ _ => some (.reviewed ordinal)
  | .organicStageArmed _ _ => some .organicArmed
  | .attemptReserved admission prepared _ =>
    some (.reserved ⟨admission.identity, prepared.orderHash, prepared.postBodyHash,
      admission.origin, prepared.worstCaseDebit.atomic, .reserved⟩)
  | .postInFlight identity orderHash postBodyHash => some (.posted identity orderHash postBodyHash)
  | .reconciliationRecorded snapshot _ _ =>
    (state.appliedReport snapshot).map fun applied => .reported applied.2.filledCollateral.atomic
  | _ => none

variable {hashes : CanaryHashes} {state next : CanaryCampaignState}

/-! ## What leaves the standing -/

theorem recordReceipt_ok {receipt : CommandReceipt} (h : state.recordReceipt receipt = .ok next) :
    ∃ receipts, next = { state with commandReceipts := receipts } := by
  obtain ⟨_, _, h⟩ := bind_eq_ok.mp h
  split at h
  · split at h
    · exact ⟨_, (pure_eq_ok.mp h).symm⟩
    · simp [throw, throwThe, MonadExceptOf.throw] at h
  · exact ⟨_, (pure_eq_ok.mp h).symm⟩

theorem recordOptionalReceipt_ok {receipt : Option CommandReceipt}
    (h : state.recordOptionalReceipt receipt = .ok next) :
    ∃ receipts, next = { state with commandReceipts := receipts } := by
  cases receipt with
  | none => exact ⟨_, (Except.ok.inj h).symm⟩
  | some receipt => exact recordReceipt_ok h

theorem standing_designateShutdown {succeeded : Bool} :
    (state.designateShutdown finalForShutdown succeeded).standing = state.standing := by
  unfold designateShutdown
  split <;> rfl

/-! ## The moves, one for each kind of event -/

theorem moves_armCampaign {authorization : CampaignAuthorization} {receipt : CommandReceipt}
    (h : state.armCampaign hashes authorization receipt = .ok next) :
    Moves state.standing (some .armed) next.standing := by
  obtain ⟨_, hstage, h⟩ := bind_eq_ok.mp h
  obtain ⟨hash, _, h⟩ := bind_eq_ok.mp h
  obtain ⟨_, rfl⟩ := recordReceipt_ok h
  exact .arm state.standing (not_not.mp (refuseIf_eq_ok.mp hstage))

theorem probeInReview_eq_some :
    state.probeInReview = some pending ↔ state.pending = some pending
      ∧ pending.origin = .operatorProbe ∧ pending.phase = .review := by
  unfold probeInReview
  simp [Option.filter_eq_some_iff]

theorem moves_acceptProbeReview {campaignId : String} {ordinal : Nat} {hash : String}
    {receipt : CommandReceipt}
    (h : state.acceptProbeReview hashes campaignId ordinal hash receipt = .ok next) :
    Moves state.standing (some (.reviewed ordinal)) next.standing := by
  obtain ⟨_, _, h⟩ := bind_eq_ok.mp h
  obtain ⟨pending, hpending, h⟩ := bind_eq_ok.mp h
  obtain ⟨_, hfits, h⟩ := bind_eq_ok.mp h
  obtain ⟨_, _, h⟩ := bind_eq_ok.mp h
  obtain ⟨_, _, h⟩ := bind_eq_ok.mp h
  obtain ⟨hp, horigin, hphase⟩ := probeInReview_eq_some.mp (okOr_eq_ok.mp hpending)
  have hfits := refuseIf_eq_ok.mp hfits
  simp only [not_or, not_not] at hfits
  obtain ⟨hstage, hordinal⟩ := hfits
  obtain ⟨_, rfl⟩ := recordReceipt_ok h
  rw [hordinal]
  exact .review state.standing pending.attempt (by simp [standing, hp]) horigin hphase hstage

theorem moves_armOrganicStage {authorization : OrganicStageAuthorization} {receipt : CommandReceipt}
    (h : state.armOrganicStage hashes authorization receipt = .ok next) :
    Moves state.standing (some .organicArmed) next.standing := by
  obtain ⟨_, _, h⟩ := bind_eq_ok.mp h
  obtain ⟨_, hfits, h⟩ := bind_eq_ok.mp h
  obtain ⟨_, _, h⟩ := bind_eq_ok.mp h
  obtain ⟨_, _, h⟩ := bind_eq_ok.mp h
  have hfits := refuseIf_eq_ok.mp hfits
  simp only [not_or, not_not] at hfits
  obtain ⟨_, rfl⟩ := recordReceipt_ok h
  exact .armOrganic state.standing hfits.1

/-- A slot is free, and taking it moves one counter. -/
theorem takeSlot_ok {origin : AttemptOrigin} (h : state.takeSlot origin = .ok next) :
    state.stage = Standing.home origin ∧ state.standing.HasSlot origin
      ∧ (origin = .operatorProbe ∧ next = { state with probePosts := state.probePosts + 1 }
        ∨ origin = .organic ∧ next = { state with organicPosts := state.organicPosts + 1 }) := by
  cases origin with
  | operatorProbe =>
    unfold takeSlot at h
    dsimp only at h
    split at h
    · rename_i hfree
      exact ⟨hfree.1, hfree.2, .inl ⟨rfl, (Except.ok.inj h).symm⟩⟩
    · simp at h
  | organic =>
    unfold takeSlot at h
    dsimp only at h
    split at h
    · rename_i hfree
      exact ⟨hfree.1, hfree.2, .inr ⟨rfl, (Except.ok.inj h).symm⟩⟩
    · simp at h

theorem moves_reserveAttempt {receipt : CommandReceipt}
    (h : state.reserveAttempt admission prepared receipt = .ok next) :
    Moves state.standing (state.mark (.attemptReserved admission prepared receipt)) next.standing := by
  obtain ⟨_, hnone, h⟩ := bind_eq_ok.mp h
  obtain ⟨_, _, h⟩ := bind_eq_ok.mp h
  obtain ⟨slotted, hslot, h⟩ := bind_eq_ok.mp h
  obtain ⟨committed, hcommitted, h⟩ := bind_eq_ok.mp h
  obtain ⟨_, hcap, h⟩ := bind_eq_ok.mp h
  obtain ⟨bankroll, _, h⟩ := bind_eq_ok.mp h
  have hnone : state.pending = none := by simpa using refuseIf_eq_ok.mp hnone
  have hcommitted := ExactAmount.checkedAdd_ok.mp (mapError_eq_ok.mp hcommitted)
  have hcap : committed.atomic ≤ campaignMaxCommitment.atomic :=
    Nat.le_of_not_lt (refuseIf_eq_ok.mp hcap)
  obtain ⟨hstage, hfree, hslotted⟩ := takeSlot_ok hslot
  have hdebit : slotted.committedDebit = state.committedDebit := by
    rcases hslotted with ⟨_, hslotted⟩ | ⟨_, hslotted⟩ <;> rw [hslotted]
  rw [hdebit] at hcommitted
  obtain ⟨_, rfl⟩ := recordReceipt_ok h
  have hmove := Moves.reserve state.standing
    ⟨admission.identity, prepared.orderHash, prepared.postBodyHash, admission.origin,
      prepared.worstCaseDebit.atomic, .reserved⟩
    (by simp [standing, hnone]) rfl hstage hfree (hcommitted ▸ hcap)
  show Moves state.standing (some _) _
  convert hmove using 1
  unfold standing Standing.reserve
  rcases hslotted with ⟨ho, hslotted⟩ | ⟨ho, hslotted⟩
  · rw [hslotted]
    simp [PendingAttempt.attempt, ho, hcommitted]
  · rw [hslotted]
    simp [PendingAttempt.attempt, ho, hcommitted]

theorem pendingMut_ok (h : state.pendingMut identity = .ok pending) :
    state.pending = some pending ∧ pending.identity = identity := by
  simpa [Option.filter_eq_some_iff] using okOr_eq_ok.mp h

theorem moves_startPost {orderHash postBodyHash : String}
    (h : state.startPost identity orderHash postBodyHash = .ok next) :
    Moves state.standing (some (.posted identity orderHash postBodyHash)) next.standing := by
  obtain ⟨pending, hpending, h⟩ := bind_eq_ok.mp h
  obtain ⟨_, hfits, h⟩ := bind_eq_ok.mp h
  obtain ⟨hp, hidentity⟩ := pendingMut_ok hpending
  have hfits := refuseIf_eq_ok.mp hfits
  simp only [not_or, not_not] at hfits
  obtain ⟨hphase, hbody, horder⟩ := hfits
  rw [← pure_eq_ok.mp h, ← hidentity, ← hbody, ← horder]
  exact .post state.standing pending.attempt (by simp [standing, hp]) hphase

theorem moves_returnPost {success definitive : Bool} {orderId : String}
    (h : state.returnPost identity success definitive orderId = .ok next) :
    Moves state.standing none next.standing := by
  obtain ⟨pending, hpending, h⟩ := bind_eq_ok.mp h
  obtain ⟨_, _, h⟩ := bind_eq_ok.mp h
  obtain ⟨_, _, h⟩ := bind_eq_ok.mp h
  obtain ⟨hp, _⟩ := pendingMut_ok hpending
  cases success with
  | true =>
    rw [← pure_eq_ok.mp h]
    have hrest := Moves.rest state.standing
    convert hrest using 1
    unfold standing
    rw [hp]
    rfl
  | false =>
    rw [← pure_eq_ok.mp h]
    have hfail := Moves.fail state.standing pending.attempt (by simp [standing, hp])
    convert hfail using 1
    unfold standing
    rw [hp]
    rfl

theorem validateReport_filled {u : Unit} (h : validateReport pending report = .ok u) :
    report.filledCollateral.atomic ≤ pending.worstCaseDebit.atomic := by
  obtain ⟨_, _, h⟩ := bind_eq_ok.mp h
  obtain ⟨_, _, h⟩ := bind_eq_ok.mp h
  obtain ⟨_, _, h⟩ := bind_eq_ok.mp h
  have hfits := refuseIf_eq_ok.mp h
  simp only [reportMismatch, Bool.or_eq_true, not_or, decide_eq_true_eq, ne_eq,
    Decidable.not_not] at hfits
  obtain ⟨⟨⟨⟨⟨⟨⟨⟨⟨⟨⟨⟨⟨⟨hrequested, _⟩, _⟩, _⟩, _⟩, _⟩, _⟩, hover⟩, _⟩, _⟩, _⟩, _⟩, _⟩, _⟩, _⟩ := hfits
  rw [← hrequested]
  exact Nat.le_of_not_lt hover

theorem appliedReport_eq_some (h : state.appliedReport snapshot = some (pending, report)) :
    state.pending = some pending ∧ pending.phase ≠ .review := by
  unfold appliedReport at h
  split at h
  · obtain ⟨p, hp, h⟩ := Option.bind_eq_some_iff.mp h
    obtain ⟨r, _, h⟩ := Option.bind_eq_some_iff.mp h
    obtain ⟨rfl, _⟩ := Prod.mk.inj (Option.some.inj h)
    unfold awaitingReport at hp
    simpa [Option.filter_eq_some_iff] using hp
  · simp at h

theorem standing_concludeAttempt (hp : state.pending = some pending) :
    (state.concludeAttempt pending).standing = state.standing.conclude pending.attempt := by
  unfold concludeAttempt Standing.conclude
  by_cases hstage : state.stage ≠ .closedObserving
  · rw [if_pos hstage, if_pos (show state.standing.stage ≠ .closedObserving from hstage)]
    cases ho : pending.origin with
    | operatorProbe => simp [standing, PendingAttempt.attempt, hp, ho]
    | organic =>
      simp only [PendingAttempt.attempt, ho]
      by_cases hlimit : state.organicPosts < organicPostLimit
      · rw [if_pos hlimit, if_pos (show state.standing.organics < organicPostLimit from hlimit)]
        rfl
      · rw [if_neg hlimit, if_neg (show ¬ state.standing.organics < organicPostLimit from hlimit)]
        rfl
  · rw [if_neg hstage, if_neg (show ¬ state.standing.stage ≠ .closedObserving from hstage)]
    rfl

theorem moves_applyReport (hp : state.pending = some pending) (hphase : pending.phase ≠ .review)
    (h : state.applyReport snapshot pending report = .ok next) :
    Moves state.standing (some (.reported report.filledCollateral.atomic)) next.standing := by
  obtain ⟨_, hvalid, h⟩ := bind_eq_ok.mp h
  obtain ⟨attempts, _, h⟩ := bind_eq_ok.mp h
  rw [← pure_eq_ok.mp h, standing_concludeAttempt]
  · exact .report state.standing pending.attempt _ (by simp [standing, hp]) hphase
      (validateReport_filled hvalid)
  · exact hp

theorem moves_recordReconciliation {receipt : Option CommandReceipt}
    (h : state.recordReconciliation snapshot receipt finalForShutdown = .ok next) :
    Moves state.standing (state.mark (.reconciliationRecorded snapshot receipt finalForShutdown))
      next.standing := by
  obtain ⟨adopted, hadopted, h⟩ := bind_eq_ok.mp h
  obtain ⟨reported, hreported, h⟩ := bind_eq_ok.mp h
  obtain ⟨_, rfl⟩ := recordOptionalReceipt_ok h
  -- up to the report the snapshot changes balances and flags, not the standing
  have hstanding : adopted.standing = state.standing ∧ adopted.pending = state.pending := by
    unfold adoptIf at hadopted
    split at hadopted
    · obtain ⟨bankroll, _, hadopted⟩ := bind_eq_ok.mp hadopted
      rw [← pure_eq_ok.mp hadopted]
      exact ⟨rfl, rfl⟩
    · rw [← Except.ok.inj hadopted]
      exact ⟨rfl, rfl⟩
  have hshutdown : ∀ b, (adopted.designateShutdown finalForShutdown b).standing = state.standing
      ∧ (adopted.designateShutdown finalForShutdown b).pending = state.pending := by
    intro b
    refine ⟨standing_designateShutdown.trans hstanding.1, ?_⟩
    unfold designateShutdown
    split <;> exact hstanding.2
  obtain ⟨hsame, hpending⟩ := hshutdown (state.authoritative snapshot)
  show Moves state.standing ((state.appliedReport snapshot).map _) reported.standing
  cases happlied : state.appliedReport snapshot with
  | none =>
    rw [happlied] at hreported
    rw [← Except.ok.inj hreported, hsame]
    exact .rest _
  | some applied =>
    rw [happlied] at hreported
    obtain ⟨hp, hphase⟩ := appliedReport_eq_some happlied
    rw [← hsame]
    exact moves_applyReport (hpending.trans hp) hphase hreported

theorem moves_failReconciliation :
    Moves state.standing none (state.failReconciliation finalForShutdown).standing := by
  unfold failReconciliation
  rw [standing_designateShutdown]
  split
  · exact .latch state.standing
  · exact .rest state.standing

theorem moves_closeAdmission {reason : ClosureReason} {receipt : Option CommandReceipt}
    (h : state.closeAdmission reason receipt = .ok next) :
    Moves state.standing none next.standing := by
  obtain ⟨_, rfl⟩ := recordOptionalReceipt_ok h
  have hshut := Moves.shut state.standing
  convert hshut using 1
  unfold standing
  cases hp : state.pending with
  | none => rfl
  | some pending =>
    by_cases hphase : pending.phase = .review <;>
    simp [PendingAttempt.attempt, hphase, Option.filter_some]

theorem moves_closeCampaign (h : state.closeCampaign = .ok next) :
    Moves state.standing none next.standing := by
  obtain ⟨_, hfits, h⟩ := bind_eq_ok.mp h
  have hfits := refuseIf_eq_ok.mp hfits
  simp only [not_or, not_not, Bool.not_eq_true, Option.isSome_eq_false_iff, Option.isNone_iff_eq_none]
    at hfits
  obtain ⟨hstage, hnone, _⟩ := hfits
  rw [← pure_eq_ok.mp h]
  exact .finish state.standing hstage (by simp [standing, hnone])

/-- **Every accepted event is a move.** -/
theorem moves_apply {event : CanaryEvent} (h : state.apply hashes event = .ok next) :
    Moves state.standing (state.mark event) next.standing := by
  cases event with
  | campaignArmed authorization receipt => exact moves_armCampaign h
  | probeReviewAccepted campaignId ordinal hash receipt => exact moves_acceptProbeReview h
  | organicStageArmed authorization receipt => exact moves_armOrganicStage h
  | preReservationSkipped receipt => obtain ⟨_, rfl⟩ := recordReceipt_ok h; exact .rest _
  | attemptReserved admission prepared receipt => exact moves_reserveAttempt h
  | postInFlight identity orderHash postBodyHash => exact moves_startPost h
  | httpResponseCaptured | httpTransportFailed | artifactCaptured =>
    rw [← Except.ok.inj h]; exact .rest _
  | reconciliationRecorded snapshot receipt finalForShutdown => exact moves_recordReconciliation h
  | reconciliationFailed finalForShutdown =>
    rw [← Except.ok.inj h]
    exact moves_failReconciliation
  | postReturned identity success definitive orderId => exact moves_returnPost h
  | admissionClosed reason receipt => exact moves_closeAdmission h
  | recoveryRequired reason => rw [← Except.ok.inj h]; exact .latch _
  | campaignClosed => exact moves_closeCampaign h

/-! ## Runs -/

variable {B C : Type} {events : List CanaryEvent}
  {see : CanaryCampaignState → CanaryEvent → Option B}

theorem observed_cons_ok {event : CanaryEvent} (h : state.apply hashes event = .ok next) :
    observed hashes see state (event :: events)
      = (see state event).toList ++ observed hashes see next events := by
  rw [observed, h]

theorem travels_applyAll (h : state.applyAll hashes events = .ok next) :
    Travels state.standing (observed hashes mark state events) next.standing := by
  induction events generalizing state with
  | nil =>
    rw [← pure_eq_ok.mp h]
    exact .refl _
  | cons event rest ih =>
    obtain ⟨after, hafter, hrest⟩ := foldlM_cons_ok.mp h
    rw [observed_cons_ok hafter]
    exact .step (moves_apply hafter) (ih hrest)

/-- What the state does not change of an observation, the events alone give. -/
theorem filterMap_observed {f : B → Option C} {g : CanaryEvent → Option C}
    (hsee : ∀ state event, (see state event).bind f = g event)
    (h : state.applyAll hashes events = .ok next) :
    (observed hashes see state events).filterMap f = events.filterMap g := by
  induction events generalizing state with
  | nil => rfl
  | cons event rest ih =>
    obtain ⟨after, hafter, hrest⟩ := foldlM_cons_ok.mp h
    rw [observed_cons_ok hafter, List.filterMap_append, ih hrest, List.filterMap_cons,
      ← hsee state event]
    cases hx : see state event with
    | none => rfl
    | some x => cases hf : f x <;> simp [hf]

theorem filterMap_observed_map {D : Type} {see' : CanaryCampaignState → CanaryEvent → Option D}
    {f : B → Option C} {g : D → C}
    (hsee : ∀ state event, (see state event).bind f = (see' state event).map g) :
    (observed hashes see state events).filterMap f = (observed hashes see' state events).map g := by
  induction events generalizing state with
  | nil => rfl
  | cons event rest ih =>
    have hhead : (see state event).toList.filterMap f = (see' state event).toList.map g := by
      have := hsee state event
      cases hx : see state event with
      | none =>
        rw [hx] at this
        cases hy : see' state event with
        | none => rfl
        | some y => rw [hy] at this; simp at this
      | some x =>
        rw [hx] at this
        cases hy : see' state event with
        | none => rw [hy] at this; simpa using this
        | some y =>
          rw [hy, Option.bind_some, Option.map_some] at this
          simp [this]
    rw [observed, observed, List.filterMap_append, List.map_append, hhead]
    cases state.apply hashes event with
    | error e => rfl
    | ok after => exact congrArg _ ih

end CanaryCampaignState

/-! ## What the events say -/

namespace CanaryEvent

/-- The worst-case debit of a reservation. -/
def debit : CanaryEvent → Option Nat
  | .attemptReserved _ prepared _ => some prepared.worstCaseDebit.atomic
  | _ => none

/-- The identity and the hashes of a post. -/
def post : CanaryEvent → Option (String × String × String)
  | .postInFlight identity orderHash postBodyHash => some (identity, orderHash, postBodyHash)
  | _ => none

def milestone : CanaryEvent → Option Milestone
  | .campaignArmed _ _ => some .armed
  | .attemptReserved admission _ _ =>
    match admission.origin with
    | .operatorProbe => some .probe
    | .organic => some .organic
  | .probeReviewAccepted _ ordinal _ _ => some (.reviewed ordinal)
  | .organicStageArmed _ _ => some .organicArmed
  | _ => none

end CanaryEvent

open CanaryCampaignState

variable {hashes : CanaryHashes} {state next : CanaryCampaignState} {events : List CanaryEvent}

section

theorem mark_recorded {C : Type} {f : Mark → Option C} (hf : ∀ filled, f (.reported filled) = none)
    {receipt : Option CommandReceipt} :
    (state.mark (.reconciliationRecorded snapshot receipt finalForShutdown)).bind f = none := by
  show ((state.appliedReport snapshot).map _).bind f = none
  cases state.appliedReport snapshot with
  | none => rfl
  | some applied => exact hf _

variable (state) (event : CanaryEvent)

theorem mark_debit : (state.mark event).bind Mark.debit = event.debit := by
  cases event with
  | reconciliationRecorded => exact mark_recorded fun _ => rfl
  | _ => rfl

theorem mark_post : (state.mark event).bind Mark.post = event.post := by
  cases event with
  | reconciliationRecorded => exact mark_recorded fun _ => rfl
  | _ => rfl

theorem mark_milestone : (state.mark event).bind Mark.milestone = event.milestone := by
  cases event with
  | reconciliationRecorded => exact mark_recorded fun _ => rfl
  | _ => rfl

theorem mark_filled : (state.mark event).bind Mark.filled
      = (state.reportOf event).map fun report => report.filledCollateral.atomic := by
  cases event with
  | reconciliationRecorded snapshot receipt finalForShutdown =>
    show ((state.appliedReport snapshot).map _).bind _ = ((state.appliedReport snapshot).map _).map _
    cases state.appliedReport snapshot <;> rfl
  | _ => rfl

end

/-! ## The limits -/

theorem settled_start : Settled ({} : CanaryCampaignState).standing := by
  intro a ha
  simp [standing] at ha

theorem onSchedule_start : OnSchedule ({} : CanaryCampaignState).standing [] := by
  refine ⟨settled_start, ?_, List.nil_prefix, fun _ => rfl⟩
  constructor <;> intro hstage
  · exact ⟨rfl, rfl, rfl⟩
  · simp [standing] at hstage
  · simp [standing] at hstage
  · simp [standing] at hstage

theorem funded_start : Funded ({} : CanaryCampaignState).standing [] := ⟨rfl, by decide, by decide⟩

theorem onSchedule_rebuild (h : rebuild hashes events = .ok state) :
    OnSchedule state.standing (events.filterMap CanaryEvent.milestone) := by
  have hrun := onSchedule_start.travels (travels_applyAll h)
  rwa [filterMap_observed mark_milestone h] at hrun

/-- An organic order is reserved after the whole arming of the schedule. -/
theorem arming_prefix_of_organic {receipt : CommandReceipt} (h : rebuild hashes events = .ok state)
    (hreserved : state.apply hashes (.attemptReserved admission prepared receipt) = .ok next)
    (horganic : admission.origin = .organic) :
    arming <+: events.filterMap CanaryEvent.milestone := by
  have hsched := onSchedule_rebuild h
  have hstage : state.stage = .organicArmed := by
    have hhome := (Moves.of_reserved (moves_apply hreserved)).1
    simpa [standing, Standing.home, horganic] using hhome
  have hreached := hsched.reached (not_isClosing_of_eq (v := state.standing) hstage (by simp) (by simp))
  have hprogress : state.standing.progress = arming.length + state.organicPosts := by
    simp [Standing.progress, standing, hstage, arming]
  rw [hreached, hprogress, schedule, List.take_length_add_append]
  exact List.prefix_append _ _

theorem observed_unreserved (h : state.applyAll hashes events = .ok next)
    (hown : ∀ e ∈ events, e.debit = none) : ∀ x ∈ observed hashes mark state events, x.debit = none := by
  rw [← List.filterMap_eq_nil_iff, filterMap_observed mark_debit h]
  exact List.filterMap_eq_nil_iff.mpr hown

/-- Between a reservation and the next, what the pending attempt allows. -/
theorem own_left (h : state.applyAll hashes events = .ok next) (hown : ∀ e ∈ events, e.debit = none) :
    (events.filterMap CanaryEvent.post).length ≤ state.standing.postsLeft
      ∧ (state.appliedReports hashes events).length ≤ state.standing.reportsLeft := by
  obtain ⟨hposts, hreports⟩ := (travels_applyAll h).left (observed_unreserved h hown)
  rw [filterMap_observed mark_post h] at hposts
  rw [filterMap_observed_map mark_filled, List.length_map] at hreports
  exact ⟨by omega, by unfold appliedReports; omega⟩

theorem pending_of_reserved {receipt : CommandReceipt}
    (h : state.apply hashes (.attemptReserved admission prepared receipt) = .ok next) :
    ∃ a, next.standing.pending = some a
      ∧ (a.identity, a.orderHash, a.bodyHash)
        = (admission.identity, prepared.orderHash, prepared.postBodyHash) := by
  have hnext := (Moves.of_reserved (moves_apply h)).2
  refine ⟨⟨admission.identity, prepared.orderHash, prepared.postBodyHash, admission.origin,
    prepared.worstCaseDebit.atomic, .reserved⟩, ?_, rfl⟩
  rw [hnext]
  cases ho : admission.origin <;> rfl

/-- A post names the attempt that was pending before the run, if the run reserves nothing. -/
theorem own_posts {post : String × String × String} (h : state.applyAll hashes events = .ok next)
    (hown : ∀ e ∈ events, e.debit = none) (hpost : post ∈ events.filterMap CanaryEvent.post) :
    ∃ a, state.standing.pending = some a ∧ a.phase = .reserved
      ∧ (a.identity, a.orderHash, a.bodyHash) = post := by
  obtain ⟨event, hmem, hevent⟩ := List.mem_filterMap.mp hpost
  obtain ⟨before, after, rfl⟩ := List.append_of_mem hmem
  obtain ⟨met, hbefore, hrest⟩ := foldlM_append_ok.mp h
  obtain ⟨posted, hposted, _⟩ := foldlM_cons_ok.mp hrest
  have hfollows : Follows state.standing met.standing := (travels_applyAll hbefore).follows
    (observed_unreserved hbefore fun e he => hown e (List.mem_append_left _ he))
  cases event with
  | postInFlight identity orderHash postBodyHash =>
    obtain ⟨a', ha', hphase', hnames⟩ := Moves.of_posted (moves_apply hposted)
    obtain ⟨a, ha, ⟨h₁, h₂, h₃⟩, hphase⟩ := hfollows a' ha'
    refine ⟨a, ha, hphase hphase', ?_⟩
    rw [← h₁, ← h₂, ← h₃, hnames]
    exact Option.some.inj hevent
  | _ => simp [CanaryEvent.post] at hevent

/-- A refused event leaves the campaign; an accepted one is a move. -/
theorem commit_cases (hashes : CanaryHashes) (state : CanaryCampaignState) (event : CanaryEvent) :
    state.commit hashes event = state
      ∨ state.apply hashes event = .ok (state.commit hashes event) := by
  unfold commit
  cases state.apply hashes event with
  | error e => exact .inl rfl
  | ok next => exact .inr rfl

/-- The campaign is closing, with no other attempt than the one of the first state. -/
structure ClosingSince (state later : CanaryCampaignState) : Prop where
  settled : Settled later.standing
  isClosing : later.standing.IsClosing
  follows : Follows state.standing later.standing

theorem ClosingSince.commit {later : CanaryCampaignState} (h : ClosingSince state later)
    (event : CanaryEvent) : ClosingSince state (later.commit hashes event) := by
  rcases commit_cases hashes later event with hsame | hok
  · rw [hsame]; exact h
  · have hmove := moves_apply hok
    obtain ⟨hclosing, hmilestone⟩ := hmove.closing h.settled h.isClosing
    refine ⟨h.settled.step hmove, hclosing, h.follows.trans (hmove.follows ?_)⟩
    intro x hx
    rw [Option.mem_def.mp hx] at hmilestone
    cases x with
    | reserved a => cases ho : a.origin <;> simp [Mark.milestone, ho] at hmilestone
    | _ => rfl

theorem ClosingSince.commits {later : CanaryCampaignState} (h : ClosingSince state later)
    (hashes : CanaryHashes) (events : List CanaryEvent) :
    ClosingSince state (events.foldl (fun s e => s.commit hashes e) later) := by
  induction events generalizing later with
  | nil => exact h
  | cons event rest ih => exact ih (h.commit event)

/-- The state refuses the event. -/
def Refuses (hashes : CanaryHashes) (state : CanaryCampaignState) (event : CanaryEvent) : Prop :=
  ∃ error, state.apply hashes event = .error error

/-- What a journal that the campaign accepts keeps to. -/
structure WithinLimits (hashes : CanaryHashes) (events : List CanaryEvent)
    (state : CanaryCampaignState) : Prop where
  committed : state.committedDebit.atomic = (events.filterMap CanaryEvent.debit).sum
  capped : state.committedDebit ≤ campaignMaxCommitment
  filled : ((appliedReports hashes {} events).map (·.filledCollateral.atomic)).sum
    ≤ state.committedDebit.atomic
  -- the campaign, each probe and then its review, the organic stage
  armed : ∀ before admission prepared receipt after,
    events = before ++ .attemptReserved admission prepared receipt :: after →
    admission.origin = .organic → arming <+: before.filterMap CanaryEvent.milestone
  -- `own` is any part of the journal up to the next reservation
  once : ∀ before admission prepared receipt own after,
    events = before ++ .attemptReserved admission prepared receipt :: (own ++ after) →
    (∀ e ∈ own, e.debit = none) →
    ∃ reserved, rebuild hashes (before ++ [.attemptReserved admission prepared receipt]) = .ok reserved
      ∧ (own.filterMap CanaryEvent.post).length ≤ 1
      ∧ (∀ post ∈ own.filterMap CanaryEvent.post,
        post = (admission.identity, prepared.orderHash, prepared.postBodyHash))
      ∧ (reserved.appliedReports hashes own).length ≤ 1
  unreserved : ∀ before after, events = before ++ after → (∀ e ∈ before, e.debit = none) →
    before.filterMap CanaryEvent.post = [] ∧ appliedReports hashes {} before = []
  -- whatever follows, accepted or refused
  closed : state.stage = .closedObserving ∨ state.stage = .closed → ∀ later : List CanaryEvent,
    (∀ event, event.milestone.isSome →
      Refuses hashes (later.foldl (fun s e => s.commit hashes e) state) event)
    ∧ ∀ identity orderHash postBodyHash,
      ¬ Refuses hashes (later.foldl (fun s e => s.commit hashes e) state)
        (.postInFlight identity orderHash postBodyHash) →
      ∃ pending, state.pending = some pending ∧ pending.phase = .reserved
        ∧ pending.identity = identity ∧ pending.orderHash = orderHash
        ∧ pending.preparedBodyHash = postBodyHash

theorem postsLeft_le_one (v : Standing) : v.postsLeft ≤ 1 := by
  unfold Standing.postsLeft
  split <;> omega

theorem reportsLeft_le_one (v : Standing) : v.reportsLeft ≤ 1 := by
  unfold Standing.reportsLeft
  split <;> omega

/-- What follows a reservation, up to the next one. -/
theorem own_once {before own : List CanaryEvent} {receipt : CommandReceipt}
    (h : rebuild hashes (before ++ .attemptReserved admission prepared receipt :: own) = .ok state)
    (hown : ∀ e ∈ own, e.debit = none) :
    ∃ reserved, rebuild hashes (before ++ [.attemptReserved admission prepared receipt]) = .ok reserved
      ∧ (own.filterMap CanaryEvent.post).length ≤ 1
      ∧ (∀ post ∈ own.filterMap CanaryEvent.post,
        post = (admission.identity, prepared.orderHash, prepared.postBodyHash))
      ∧ (reserved.appliedReports hashes own).length ≤ 1 := by
  obtain ⟨met, hbefore, hrest⟩ := foldlM_append_ok.mp h
  obtain ⟨reserved, hreserved, hrest⟩ := foldlM_cons_ok.mp hrest
  have hprefix : rebuild hashes (before ++ [.attemptReserved admission prepared receipt])
      = .ok reserved :=
    foldlM_append_ok.mpr ⟨met, hbefore, foldlM_cons_ok.mpr ⟨reserved, hreserved, rfl⟩⟩
  obtain ⟨hposts, hreports⟩ := own_left hrest hown
  refine ⟨reserved, hprefix, hposts.trans (postsLeft_le_one _), ?_,
    hreports.trans (reportsLeft_le_one _)⟩
  intro post hpost
  obtain ⟨a, ha, _, hnames⟩ := own_posts hrest hown hpost
  obtain ⟨a', ha', hnames'⟩ := pending_of_reserved hreserved
  obtain rfl : a = a' := Option.some.inj (ha.symm.trans ha')
  exact hnames.symm.trans hnames'

/-- Once a campaign is closing it refuses whatever opens something. -/
theorem refuses_of_closing (h : rebuild hashes events = .ok state)
    (hclosed : state.stage = .closedObserving ∨ state.stage = .closed) (later : List CanaryEvent) :
    (∀ event, event.milestone.isSome →
      Refuses hashes (later.foldl (fun s e => s.commit hashes e) state) event)
    ∧ ∀ identity orderHash postBodyHash,
      ¬ Refuses hashes (later.foldl (fun s e => s.commit hashes e) state)
        (.postInFlight identity orderHash postBodyHash) →
      ∃ pending, state.pending = some pending ∧ pending.phase = .reserved
        ∧ pending.identity = identity ∧ pending.orderHash = orderHash
        ∧ pending.preparedBodyHash = postBodyHash := by
  have hstart : ClosingSince state state :=
    ⟨settled_start.travels (travels_applyAll h), hclosed, .refl _⟩
  have hlater := hstart.commits hashes later
  generalize later.foldl (fun s e => s.commit hashes e) state = met at hlater
  refine ⟨fun event hevent => ?_, fun identity orderHash postBodyHash haccepted => ?_⟩
  · cases happly : met.apply hashes event with
    | error e => exact ⟨e, happly⟩
    | ok next =>
      obtain ⟨_, hnone⟩ := (moves_apply happly).closing hlater.settled hlater.isClosing
      rw [mark_milestone] at hnone
      simp [hnone] at hevent
  · cases happly : met.apply hashes (.postInFlight identity orderHash postBodyHash) with
    | error e => exact absurd ⟨e, happly⟩ haccepted
    | ok next =>
      obtain ⟨a', ha', hphase', hnames⟩ := Moves.of_posted (moves_apply happly)
      obtain ⟨a, ha, ⟨h₁, h₂, h₃⟩, hphase⟩ := hlater.follows a' ha'
      obtain ⟨pending, hpending, rfl⟩ := Option.map_eq_some_iff.mp ha
      simp only [Prod.mk.injEq] at hnames
      exact ⟨pending, hpending, hphase hphase', h₁.symm.trans hnames.1, h₂.symm.trans hnames.2.1,
        h₃.symm.trans hnames.2.2⟩

/--
**Every journal that a campaign accepts keeps to its limits.**

The money committed is what was reserved, within the cap, and covers what was filled.
Organic orders come after every probe was reviewed and the organic stage was armed. A
reservation has one post and one report at most. A closing campaign opens nothing again.
-/
theorem rebuild_withinLimits (hashes : CanaryHashes) (events : List CanaryEvent)
    (state : CanaryCampaignState) (h : rebuild hashes events = .ok state) :
    WithinLimits hashes events state := by
  have hfunded := funded_start.travels (travels_applyAll h)
  rw [List.nil_append] at hfunded
  have hfilled := hfunded.filled
  rw [filterMap_observed_map mark_filled] at hfilled
  have hreserved := hfunded.reserved
  rw [filterMap_observed mark_debit h] at hreserved
  refine ⟨hreserved, hfunded.capped, Nat.le_of_add_right_le hfilled, ?_, ?_, ?_,
    refuses_of_closing h⟩
  · intro before admission prepared receipt after hsplit horganic
    rw [hsplit] at h
    obtain ⟨met, hbefore, hrest⟩ := foldlM_append_ok.mp h
    obtain ⟨next, hnext, _⟩ := foldlM_cons_ok.mp hrest
    exact arming_prefix_of_organic hbefore hnext horganic
  · intro before admission prepared receipt own after hsplit hown
    rw [hsplit, ← List.cons_append, ← List.append_assoc] at h
    obtain ⟨met, hbefore, _⟩ := foldlM_append_ok.mp h
    exact own_once hbefore hown
  · intro before after hsplit hbefore
    rw [hsplit] at h
    obtain ⟨met, hmet, _⟩ := foldlM_append_ok.mp h
    obtain ⟨hposts, hreports⟩ := own_left hmet hbefore
    exact ⟨List.length_eq_zero_iff.mp (Nat.le_zero.mp hposts),
      List.length_eq_zero_iff.mp (Nat.le_zero.mp hreports)⟩

/-! ## Commands -/

/-- The command that an event records. -/
def CanaryEvent.receipt : CanaryEvent → Option CommandReceipt
  | .campaignArmed _ receipt | .probeReviewAccepted _ _ _ receipt | .organicStageArmed _ receipt
  | .preReservationSkipped receipt | .attemptReserved _ _ receipt => some receipt
  | .reconciliationRecorded _ receipt _ | .admissionClosed _ receipt => receipt
  | _ => none

namespace CanaryCampaignState

/-- The actor's `check_receipt`: whether a command was carried out already. -/
def checkReceipt (state : CanaryCampaignState) (receipt : CommandReceipt) :
    Except CanaryStateError Bool :=
  match state.commandReceipt receipt.commandId with
  | some existing =>
    if existing.commandHash = receipt.commandHash then .ok true else .error .authorityMismatch
  | none =>
    if trim receipt.commandId = "" ∨ trim receipt.commandHash = "" then .error .invalidAttempt
    else .ok false

theorem commandReceipt_record {receipt : Option CommandReceipt}
    (h : state.recordOptionalReceipt receipt = .ok next) (r : CommandReceipt) :
    next.commandReceipt r.commandId = some r ↔
      state.commandReceipt r.commandId = some r ∨ r ∈ receipt := by
  cases receipt with
  | none => simp [← Except.ok.inj h]
  | some c =>
    obtain ⟨_, -, hrecord⟩ := bind_eq_ok.mp h
    split at hrecord
    · rename_i existing hfound
      have hid := List.find?_some hfound
      split at hrecord
      · obtain rfl : existing = c := by grind [cases CommandReceipt]
        rw [← pure_eq_ok.mp hrecord]
        grind
      · simp [throw, throwThe, MonadExceptOf.throw] at hrecord
    · rename_i hfound
      rw [← pure_eq_ok.mp hrecord]
      simp only [commandReceipt, List.find?_append] at hfound ⊢
      grind

/-- An accepted event records its command, after what else it does. -/
theorem apply_records {event : CanaryEvent} (h : state.apply hashes event = .ok next) :
    ∃ taken : CanaryCampaignState, taken.recordOptionalReceipt event.receipt = .ok next ∧
      taken.commandReceipts = state.commandReceipts := by
  cases event with
  | campaignArmed | probeReviewAccepted | organicStageArmed =>
    simp only [apply, armCampaign, acceptProbeReview, armOrganicStage, bind_eq_ok] at h
    repeat obtain ⟨_, -, h⟩ := h
    exact ⟨_, h, rfl⟩
  | attemptReserved admission prepared receipt =>
    simp only [apply, reserveAttempt, bind_eq_ok] at h
    obtain ⟨_, -, _, -, slotted, hslot, _, -, _, -, _, -, h⟩ := h
    obtain ⟨-, -, ⟨-, rfl⟩ | ⟨-, rfl⟩⟩ := takeSlot_ok hslot <;> exact ⟨_, h, rfl⟩
  | preReservationSkipped | admissionClosed => exact ⟨_, h, rfl⟩
  | reconciliationRecorded snapshot receipt finalForShutdown =>
    simp only [apply, recordReconciliation, bind_eq_ok] at h
    obtain ⟨adopted, hadopted, reported, hreported, h⟩ := h
    refine ⟨reported, h, ?_⟩
    clear h
    simp only [adoptIf, adopt, designateShutdown] at hadopted hreported
    cases happlied : state.appliedReport snapshot <;>
      simp only [happlied, applyReportIf, applyReport, concludeAttempt] at hreported <;>
      grind [bind_eq_ok, pure_eq_ok]
  | reconciliationFailed | postInFlight | campaignClosed | postReturned =>
    refine ⟨next, rfl, ?_⟩
    simp only [apply, failReconciliation, designateShutdown, startPost, closeCampaign, returnPost,
      bind_eq_ok, Except.ok.injEq] at h
    grind [pure_eq_ok]
  | _ => cases h; exact ⟨_, rfl, rfl⟩

theorem commandReceipt_rebuild (h : rebuild hashes events = .ok state) (r : CommandReceipt) :
    state.commandReceipt r.commandId = some r ↔ ∃ event ∈ events, r ∈ event.receipt := by
  refine foldlM_history (P := fun events state =>
    state.commandReceipt r.commandId = some r ↔ ∃ event ∈ events, r ∈ event.receipt)
    (by simp [commandReceipt]) (fun events state event next hbefore hevent => ?_) h
  obtain ⟨taken, hrecord, hsame⟩ := apply_records hevent
  rw [commandReceipt, ← hsame] at hbefore
  rw [commandReceipt_record hrecord, commandReceipt, hbefore]
  simp [or_and_right, exists_or]

end CanaryCampaignState

/--
**A command is carried out once.**

After any journal, and so after any restart, the actor takes a command as carried out
exactly when one of the journal's events recorded it, and refuses the id of a recorded
command with another hash.
-/
theorem rebuild_checkReceipt (hashes : CanaryHashes) (events : List CanaryEvent)
    (state : CanaryCampaignState) (h : rebuild hashes events = .ok state) (r : CommandReceipt) :
    (state.checkReceipt r = .ok true ↔ ∃ event ∈ events, r ∈ event.receipt) ∧
      ∀ event ∈ events, ∀ used ∈ event.receipt, used.commandId = r.commandId → used ≠ r →
        state.checkReceipt r = .error .authorityMismatch := by
  have hrecorded := CanaryCampaignState.commandReceipt_rebuild h
  refine ⟨?_, fun event hevent used hused hid hne => ?_⟩
  · rw [← hrecorded]
    unfold CanaryCampaignState.checkReceipt
    split
    · rename_i kept hkept
      have hid := List.find?_some hkept
      grind [cases CommandReceipt]
    · grind
  · have hkept := (hrecorded used).mpr ⟨event, hevent, hused⟩
    rw [hid] at hkept
    grind [CanaryCampaignState.checkReceipt, cases CommandReceipt]

/-! A campaign of three probes that are not filled, and a first organic order. -/

namespace FirstOrganic

def dollars (n : Nat) (h : n * 1000000 < 2 ^ 64) : CollateralAmount := ⟨n * 1000000, h⟩

theorem fiveShares_fit : 5 * 1000000 < 2 ^ 64 := by decide

def fiveShares : ShareAmount := ⟨5 * 1000000, fiveShares_fit⟩

def order (name : String) : PreparedPolymarketBuy where
  conditionId := ⟨"condition"⟩
  outcomeId := ⟨0⟩
  tokenId := ⟨"11"⟩
  maker := "wallet"
  signer := "wallet"
  funder := "wallet"
  verifyingContract := "spender"
  spender := "spender"
  exchangeDomainVersion := 2
  negRisk := false
  side := "BUY"
  salt := "1"
  timestampMs := 1
  expiration := "0"
  makerCollateral := dollars 1 (by decide)
  takerShares := fiveShares
  limitPrice := .one
  minimumTickSize := .one
  signatureType := 0
  orderType := "FOK"
  postOnly := false
  deferExec := false
  metadata := ""
  builder := ""
  orderHash := name
  postBodyHash := name
  sdkVersion := "sdk"
  sdkArchiveSha256 := "sdk"
  metadataHashes := []
  worstCaseDebit := dollars 1 (by decide)

def receipt (name : String) : CommandReceipt := ⟨name, name⟩

def reserve (name : String) (origin : AttemptOrigin) : CanaryEvent :=
  .attemptReserved ⟨name, origin, ⟨none, ⟨"condition"⟩, ⟨0⟩, .weather⟩⟩ (order name) (receipt name)

def unfilled : CanaryEvent :=
  .reconciliationRecorded
    { observedAt := ⟨0⟩
      freeCollateral := dollars 200 (by decide)
      allowance := dollars 8 (by decide)
      standardSpenderOnly := true
      openOrderIds := []
      positions := []
      resolutions := []
      unexpectedActivity := false
      executionReport := some ⟨none, dollars 1 (by decide), fiveShares, .zero, .zero, .zero, []⟩
      evidenceHashes := [] } none false

def review (ordinal : Nat) : CanaryEvent :=
  .probeReviewAccepted "campaign" ordinal "evidence" (receipt "review")

def authorization : CampaignAuthorization :=
  ⟨1, "campaign", "commit", "binary", "config", "resolver", "sdk", "tree", "wallet", "owner", "spender",
    "jurisdiction", "attestation", "account", ⟨0⟩, ⟨1⟩, dollars 200 (by decide), dollars 8 (by decide),
    dollars 8 (by decide), 3, 5⟩

def commitments : CanaryHashes := ⟨fun _ => some "authority", fun _ => some "evidence", fun _ => some "bundle"⟩

def journal : List CanaryEvent :=
  [.campaignArmed authorization (receipt "arm"),
    reserve "probe-1" .operatorProbe, unfilled, review 1,
    reserve "probe-2" .operatorProbe, unfilled, review 2,
    reserve "probe-3" .operatorProbe, unfilled, review 3,
    .organicStageArmed ⟨1, "campaign", "authority", 3, "commit", "bundle"⟩ (receipt "organic"),
    reserve "organic-1" .organic, .postInFlight "organic-1" "organic-1" "organic-1"]

theorem journal_withinLimits :
    ∃ state, rebuild commitments journal = .ok state ∧ state.stage = .organicArmed
      ∧ WithinLimits commitments journal state := by
  obtain ⟨state, hok, hstage⟩ := exists_ok_of_any (x := rebuild commitments journal)
    (p := fun state => decide (state.stage = .organicArmed)) (by decide +kernel)
  exact ⟨state, hok, of_decide_eq_true hstage, rebuild_withinLimits commitments journal state hok⟩

theorem journal_checkReceipt :
    ∃ state, rebuild commitments journal = .ok state ∧ state.checkReceipt (receipt "review") = .ok true
      ∧ state.checkReceipt ⟨"review", "arm"⟩ = .error .authorityMismatch := by
  obtain ⟨state, hok, _⟩ := exists_ok_of_any (x := rebuild commitments journal)
    (p := fun _ => true) (by decide +kernel)
  have hcheck := rebuild_checkReceipt commitments journal state hok
  exact ⟨state, hok, (hcheck _).1.mpr ⟨review 1, by simp [journal], rfl⟩,
    (hcheck _).2 (review 1) (by simp [journal]) _ rfl rfl (by decide)⟩

end FirstOrganic

end PredictionEdge.Canary
