import PredictionEdge.Canary.Limits

/-!
# The books of a campaign

An authoritative snapshot is explained by the one before it: the balance by the report it
carries and the positions that were settled, the allowance by the report, each position by
what was held and what the report added. So the money and the positions of a campaign are a
tally over its reservations and the snapshots that it adopted.

What a report is of is said by the reservation before it. The reducer looks the market up by
the identity of the attempt and takes the first attempt that has it, so a journal that reserves
one identity twice, on two markets, has the second fill on the first market.

A position is counted from the last snapshot that does not list it. Most often it was settled
there; but a fill may be settled before any snapshot lists it, and then it never was a
position.
-/

namespace PredictionEdge.Canary

open Lib

/-- An authoritative snapshot, and the report it applies. -/
structure Adoption where
  snapshot : CanaryReconciliation
  report : Option ExactExecutionReport

/-- What a journal enters in the books: what an attempt is reserved for, and what is adopted. -/
inductive BookEntry where
  | reserved (attribution : AttemptAttribution)
  | adopted (adoption : Adoption)

namespace Adoption

variable (adoption : Adoption) (conditionId : PolymarketConditionId) (outcomeId : OutcomeId)

def lists : Bool :=
  adoption.snapshot.positions.any fun position =>
    position.conditionId = conditionId && position.outcomeId = outcomeId

/-- The shares that the report of an attempt adds to an outcome. -/
def added (attempt : Option AttemptAttribution) : Nat :=
  if attempt.any fun attribution =>
      conditionId = attribution.conditionId && outcomeId = attribution.outcomeId then
    (adoption.report.map (·.filledShares.atomic)).getD 0
  else 0

/-- What the report filled, in collateral. -/
def filled : Nat := (adoption.report.map (·.filledCollateral.atomic)).getD 0

/-- The position is settled: the outcome of its market is known, and it is this one. -/
def wins (position : CanaryPosition) : Bool :=
  (adoption.snapshot.resolutions.find? fun resolution =>
    resolution.conditionId = position.conditionId).any (·.winner = position.outcomeId)

/-- The shares of the winning positions that the snapshot lists no more. -/
def credit (positions : List CanaryPosition) : Nat :=
  (((positions.filter fun previous =>
    !adoption.snapshot.positions.any fun current => current.sameMarket previous).filter
      adoption.wins).map (·.shares.atomic)).sum

end Adoption

/-- What the entries come to. -/
structure Tally where
  positions : List CanaryPosition
  /-- What the last reserved attempt is of. -/
  attempt : Option AttemptAttribution := none
  filled : Nat := 0
  credit : Nat := 0
  held : PolymarketConditionId → OutcomeId → Nat := fun _ _ => 0

def Tally.adopt (tally : Tally) (adoption : Adoption) : Tally where
  positions := adoption.snapshot.positions
  attempt := tally.attempt
  filled := tally.filled + adoption.filled
  credit := tally.credit + adoption.credit tally.positions
  held conditionId outcomeId :=
    if adoption.lists conditionId outcomeId then
      tally.held conditionId outcomeId + adoption.added conditionId outcomeId tally.attempt
    else 0

def Tally.enter (tally : Tally) : BookEntry → Tally
  | .reserved attribution => { tally with attempt := some attribution }
  | .adopted adoption => tally.adopt adoption

/-- The identity of a reserved attempt, and what it is of. -/
def CanaryEvent.reservation : CanaryEvent → Option (String × AttemptAttribution)
  | .attemptReserved admission _ _ => some (admission.identity, admission.attribution)
  | _ => none

variable {hashes : CanaryHashes} {state next : CanaryCampaignState} {snapshot : CanaryReconciliation}
  {event : CanaryEvent} {events : List CanaryEvent} {tally : Tally} {a : Adoption}
  {grant : CampaignAuthorization}

namespace CanaryCampaignState

def adoption (state : CanaryCampaignState) : CanaryEvent → Option Adoption
  | .reconciliationRecorded snapshot _ _ =>
    if state.authoritative snapshot then
      some ⟨snapshot, (state.appliedReport snapshot).map (·.2)⟩
    else none
  | _ => none

def entry (state : CanaryCampaignState) : CanaryEvent → Option BookEntry
  | .attemptReserved admission _ _ => some (.reserved admission.attribution)
  | event => (state.adoption event).map .adopted

/-- A snapshot carries a report only while an attempt waits for one. -/
def reportAwaited (state : CanaryCampaignState) : CanaryEvent → Bool
  | .reconciliationRecorded snapshot _ _ =>
    !snapshot.executionReport.isSome || state.awaitingReport.isSome
  | _ => true

/-- So does every snapshot of a run. -/
def reportsAwaited (hashes : CanaryHashes) : CanaryCampaignState → List CanaryEvent → Bool
  | _, [] => true
  | state, event :: rest => state.reportAwaited event
    && match state.apply hashes event with
      | .ok next => reportsAwaited hashes next rest
      | .error _ => true

theorem adoption_eq_some (h : state.adoption event = some a) :
    (∃ receipt finalForShutdown,
      event = .reconciliationRecorded a.snapshot receipt finalForShutdown)
    ∧ state.authoritative a.snapshot = true
    ∧ a.report = (state.appliedReport a.snapshot).map (·.2) := by
  cases event with
  | reconciliationRecorded snapshot receipt finalForShutdown =>
    simp only [adoption] at h
    split at h
    · obtain rfl := Option.some.inj h
      exact ⟨⟨receipt, finalForShutdown, rfl⟩, ‹_›, rfl⟩
    · cases h
  | _ => cases h

/-- An event reserves or is adopted, not both. -/
theorem enter_entry (state : CanaryCampaignState) (event : CanaryEvent) (tally : Tally) :
    (state.entry event).toList.foldl Tally.enter tally = match state.adoption event with
      | some a => tally.adopt a
      | none => { tally with attempt := (event.reservation.map (·.2)).or tally.attempt } := by
  cases event with
  | reconciliationRecorded snapshot receipt finalForShutdown =>
    simp only [entry]
    cases state.adoption (.reconciliationRecorded snapshot receipt finalForShutdown) <;> rfl
  | _ => rfl

/-! ## What writes the books -/

/-- What a snapshot is compared with. -/
def money (state : CanaryCampaignState) :
    Option String × CollateralAmount × CollateralAmount × List CanaryPosition :=
  (state.campaignId, state.freeCollateral, state.allowance, state.previousPositions)

/-- The attempts by their identities, and what they are of. -/
def roster (state : CanaryCampaignState) : List (String × AttemptAttribution) :=
  state.attempts.map fun attempt => (attempt.identity, attempt.attribution)

theorem books_designateShutdown (state : CanaryCampaignState) {finalForShutdown succeeded : Bool} :
    (state.designateShutdown finalForShutdown succeeded).money = state.money
      ∧ (state.designateShutdown finalForShutdown succeeded).roster = state.roster := by
  unfold designateShutdown
  split <;> exact ⟨rfl, rfl⟩

theorem books_concludeAttempt (state : CanaryCampaignState) (pending : PendingAttempt) :
    (state.concludeAttempt pending).money = state.money
      ∧ (state.concludeAttempt pending).roster = state.roster := by
  unfold concludeAttempt
  split
  · cases pending.origin with
    | operatorProbe => exact ⟨rfl, rfl⟩
    | organic => dsimp only; split <;> exact ⟨rfl, rfl⟩
  · exact ⟨rfl, rfl⟩

theorem roster_settleAttempt {previous current : List CanaryPosition}
    {attempts : List CampaignAttemptRecord} :
    (attempts.map (settleAttempt previous current)).map (fun x => (x.identity, x.attribution))
      = attempts.map fun x => (x.identity, x.attribution) := by
  rw [List.map_map]
  refine List.map_congr_left fun attempt _ => ?_
  simp only [Function.comp_apply, settleAttempt]
  split <;> rfl

theorem roster_setOpenDebit {identity : String} {debit : CollateralAmount} :
    ∀ {attempts attempts' : List CampaignAttemptRecord},
      setOpenDebit identity debit attempts = some attempts' →
      attempts'.map (fun x => (x.identity, x.attribution))
        = attempts.map fun x => (x.identity, x.attribution)
  | attempt :: rest, attempts', h => by
    unfold setOpenDebit at h
    split at h
    · cases h
      rfl
    · obtain ⟨rest', hrest, rfl⟩ := Option.map_eq_some_iff.mp h
      exact congrArg ((attempt.identity, attempt.attribution) :: ·) (roster_setOpenDebit hrest)

theorem books_recordReconciliation {receipt : Option CommandReceipt} {finalForShutdown : Bool}
    (h : state.recordReconciliation snapshot receipt finalForShutdown = .ok next) :
    next.roster = state.roster ∧ next.money = if state.authoritative snapshot then
      (state.campaignId, snapshot.freeCollateral, snapshot.allowance, snapshot.positions)
      else state.money := by
  simp only [recordReconciliation, bind_eq_ok] at h
  obtain ⟨adopted, hadopted, reported, hreported, h⟩ := h
  have hreport : reported.roster = adopted.roster ∧ reported.money = adopted.money := by
    cases happlied : state.appliedReport snapshot with
    | none =>
      rw [happlied] at hreported
      rw [← Except.ok.inj hreported]
      exact (books_designateShutdown adopted).symm
    | some applied =>
      rw [happlied] at hreported
      simp only [applyReportIf, applyReport, bind_eq_ok, pure_eq_ok] at hreported
      obtain ⟨_, -, attempts, hattempts, rfl⟩ := hreported
      obtain ⟨hmoney, hroster⟩ := books_concludeAttempt _ applied.1
      obtain ⟨hmoney', hroster'⟩ := books_designateShutdown adopted
      exact ⟨hroster.trans ((roster_setOpenDebit (okOr_eq_ok.mp hattempts)).trans hroster'),
        hmoney.trans hmoney'⟩
  have hadopt : adopted.roster = state.roster ∧ adopted.money = if state.authoritative snapshot then
      (state.campaignId, snapshot.freeCollateral, snapshot.allowance, snapshot.positions)
      else state.money := by
    unfold adoptIf at hadopted
    split at hadopted
    · simp only [adopt, bind_eq_ok, pure_eq_ok] at hadopted
      obtain ⟨_, -, rfl⟩ := hadopted
      exact ⟨roster_settleAttempt, (if_pos ‹_›).symm⟩
    · rw [← Except.ok.inj hadopted]
      exact ⟨rfl, (if_neg ‹_›).symm⟩
  obtain ⟨_, rfl⟩ := recordOptionalReceipt_ok h
  exact ⟨hreport.1.trans hadopt.1, hreport.2.trans hadopt.2⟩

/--
**What writes the books.** The roster grows with the reservations; the money is written by the
arming and by the snapshots that are adopted.
-/
theorem books_apply (h : state.apply hashes event = .ok next) :
    next.roster = state.roster ++ event.reservation.toList
      ∧ ((∀ authorization receipt, event ≠ .campaignArmed authorization receipt) →
        next.money = ((state.adoption event).map fun adoption => (state.campaignId,
          adoption.snapshot.freeCollateral, adoption.snapshot.allowance,
          adoption.snapshot.positions)).getD state.money) := by
  have hsame : ∀ {x y : List (String × AttemptAttribution)}, y = x → y = x ++ [] :=
    fun heq => heq.trans (List.append_nil _).symm
  cases event with
  | campaignArmed authorization receipt =>
    simp only [apply, armCampaign, bind_eq_ok] at h
    obtain ⟨_, -, _, -, h⟩ := h
    obtain ⟨_, rfl⟩ := recordReceipt_ok h
    exact ⟨hsame rfl, fun harm => absurd rfl (harm _ _)⟩
  | probeReviewAccepted campaignId ordinal hash receipt =>
    simp only [apply, acceptProbeReview, bind_eq_ok] at h
    obtain ⟨_, -, _, -, _, -, _, -, _, -, h⟩ := h
    obtain ⟨_, rfl⟩ := recordReceipt_ok h
    exact ⟨hsame rfl, fun _ => rfl⟩
  | organicStageArmed authorization receipt =>
    simp only [apply, armOrganicStage, bind_eq_ok] at h
    obtain ⟨_, -, _, -, _, -, _, -, h⟩ := h
    obtain ⟨_, rfl⟩ := recordReceipt_ok h
    exact ⟨hsame rfl, fun _ => rfl⟩
  | preReservationSkipped receipt =>
    obtain ⟨_, rfl⟩ := recordReceipt_ok h
    exact ⟨hsame rfl, fun _ => rfl⟩
  | attemptReserved admission prepared receipt =>
    simp only [apply, reserveAttempt, bind_eq_ok] at h
    obtain ⟨_, -, _, -, slotted, hslot, _, -, _, -, _, -, h⟩ := h
    obtain ⟨-, -, hslotted⟩ := takeSlot_ok hslot
    obtain ⟨_, rfl⟩ := recordReceipt_ok h
    rcases hslotted with ⟨-, rfl⟩ | ⟨-, rfl⟩ <;>
      exact ⟨by simp [roster, CanaryEvent.reservation], fun _ => rfl⟩
  | postInFlight identity orderHash postBodyHash =>
    simp only [apply, startPost, bind_eq_ok, pure_eq_ok] at h
    obtain ⟨_, -, _, -, rfl⟩ := h
    exact ⟨hsame rfl, fun _ => rfl⟩
  | reconciliationRecorded snapshot receipt finalForShutdown =>
    obtain ⟨hroster, hmoney⟩ := books_recordReconciliation h
    refine ⟨hsame hroster, fun _ => hmoney.trans ?_⟩
    rw [adoption]
    split <;> rfl
  | reconciliationFailed finalForShutdown =>
    cases h
    obtain ⟨hmoney, hroster⟩ := books_designateShutdown _
    refine ⟨hsame (hroster.trans ?_), fun _ => hmoney.trans ?_⟩ <;> split <;> rfl
  | postReturned identity success definitive orderId =>
    simp only [apply, returnPost, bind_eq_ok] at h
    obtain ⟨_, -, _, -, _, -, h⟩ := h
    cases success <;> · cases h; exact ⟨hsame rfl, fun _ => rfl⟩
  | admissionClosed reason receipt =>
    obtain ⟨_, rfl⟩ := recordOptionalReceipt_ok h
    exact ⟨hsame rfl, fun _ => rfl⟩
  | campaignClosed =>
    simp only [apply, closeCampaign, bind_eq_ok, pure_eq_ok] at h
    obtain ⟨_, -, rfl⟩ := h
    exact ⟨hsame rfl, fun _ => rfl⟩
  | _ => cases h; exact ⟨hsame rfl, fun _ => rfl⟩

theorem roster_applyAll (h : state.applyAll hashes events = .ok next) :
    next.roster = state.roster ++ events.filterMap CanaryEvent.reservation := by
  induction events generalizing state with
  | nil => rw [← pure_eq_ok.mp h, List.filterMap_nil, List.append_nil]
  | cons event rest ih =>
    obtain ⟨after, hafter, hrest⟩ := foldlM_cons_ok.mp h
    rw [ih hrest, (books_apply hafter).1, List.append_assoc, List.filterMap_cons]
    cases event.reservation <;> rfl

/-! ## Whose the pending attempt is -/

/-- The pending attempt is the last that was reserved, and the tally knows what it is of. -/
def Attributed (tally : Tally) (state : CanaryCampaignState) : Prop :=
  ∀ pending ∈ state.pending, ∃ attribution,
    state.roster.getLast? = some (pending.identity, attribution)
      ∧ tally.attempt = some attribution

/-- An event that reserves nothing has the attempt of before, if any. -/
theorem pending_unreserved {pending : PendingAttempt} (hdebit : event.debit = none)
    (h : state.apply hashes event = .ok next) (hpending : next.pending = some pending) :
    ∃ old ∈ state.pending, old.identity = pending.identity := by
  have hfollows := (moves_apply h).follows fun x hx => by
    have hmark := mark_debit state event
    rwa [Option.mem_def.mp hx, Option.bind_some, hdebit] at hmark
  obtain ⟨a, ha, hsame, -⟩ := hfollows pending.attempt (by simp [standing, hpending])
  obtain ⟨old, hold, rfl⟩ := Option.map_eq_some_iff.mp ha
  exact ⟨old, hold, hsame.1.symm⟩

theorem Attributed.apply (hattributed : Attributed tally state)
    (h : state.apply hashes event = .ok next) :
    Attributed ((state.entry event).toList.foldl Tally.enter tally) next := by
  intro pending hpending
  have hroster := (books_apply h).1
  rw [enter_entry, hroster]
  cases hreserved : event.reservation with
  | some reservation =>
    cases event with
    | attemptReserved admission prepared receipt =>
      obtain rfl := Option.some.inj hreserved
      obtain ⟨a, ha, hnames⟩ := pending_of_reserved h
      obtain ⟨reserved, hsame, rfl⟩ := Option.map_eq_some_iff.mp ha
      obtain rfl := Option.some.inj (hsame.symm.trans hpending)
      have hidentity : reserved.identity = admission.identity := (Prod.mk.inj hnames).1
      refine ⟨admission.attribution, ?_, rfl⟩
      rw [hidentity]
      exact List.getLast?_concat
    | _ => cases hreserved
  | none =>
    have hdebit : event.debit = none := by
      cases event with
      | attemptReserved => cases hreserved
      | _ => rfl
    obtain ⟨old, hold, hidentity⟩ := pending_unreserved hdebit h hpending
    obtain ⟨attribution, hlast, hattempt⟩ := hattributed old hold
    refine ⟨attribution, ?_, ?_⟩
    · rwa [Option.toList_none, List.append_nil, ← hidentity]
    · split <;> exact hattempt

/-- Where no two attempts share an identity, the fill of the pending attempt is what it is of. -/
theorem Attributed.pendingFill {pending : PendingAttempt} {report : ExactExecutionReport}
    (hattributed : Attributed tally state) (hdistinct : (state.roster.map (·.1)).Nodup)
    (hpending : state.pending = some pending) (hreport : snapshot.executionReport = some report) :
    state.pendingFill snapshot = tally.attempt.map (·, report.filledShares) := by
  obtain ⟨attribution, hnewest, hattempt⟩ := hattributed pending hpending
  rw [roster, List.getLast?_map] at hnewest
  obtain ⟨attempt, hlast, hnamed⟩ := Option.map_eq_some_iff.mp hnewest
  obtain ⟨hidentity, rfl⟩ := Prod.mk.inj hnamed
  obtain ⟨earlier, hattempts⟩ := List.getLast?_eq_some_iff.mp hlast
  have hfind : state.attempts.find? (fun attempt => attempt.identity = pending.identity)
      = some attempt := by
    refine List.find?_eq_some_iff_append.mpr ⟨by simp [hidentity], earlier, [], hattempts, ?_⟩
    intro x hx
    rw [roster, hattempts, List.map_map, List.map_append, List.nodup_append] at hdistinct
    have hne := hdistinct.2.2 x.identity (List.mem_map.mpr ⟨x, hx, rfl⟩) attempt.identity (by simp)
    simpa [hidentity] using hne
  simp [CanaryCampaignState.pendingFill, hpending, hfind, hreport, hattempt]

/-! ## What an authoritative snapshot explains -/

theorem foldlM_settlementCredit : ∀ {positions : List CanaryPosition} {credit total : Nat},
    positions.foldlM (settlementCredit a.snapshot) credit = some total →
    total = credit + ((positions.filter a.wins).map (·.shares.atomic)).sum
  | [], credit, total, h => by simpa using h.symm
  | position :: rest, credit, total, h => by
    obtain ⟨credit', hcredit, hrest⟩ := Option.bind_eq_some_iff.mp h
    have htotal := foldlM_settlementCredit hrest
    obtain ⟨resolution, hfind, hcredit⟩ := Option.bind_eq_some_iff.mp hcredit
    by_cases hwins : resolution.winner = position.outcomeId
    · rw [List.filter_cons_of_pos (by simp [Adoption.wins, hfind, hwins])]
      grind
    · rw [List.filter_cons_of_neg (by simp [Adoption.wins, hfind, hwins])]
      grind

/-- The balance: what was spent, and what the settled positions paid. -/
theorem balance_explained (harmed : state.campaignId.isSome)
    (h : state.reconciliationBalanceExplained a.snapshot = true) :
    a.snapshot.freeCollateral.atomic + a.snapshot.filledDebit.atomic
      = state.freeCollateral.atomic + a.credit state.previousPositions := by
  unfold reconciliationBalanceExplained at h
  rw [if_neg (by simp [Option.isSome_iff_ne_none.mp harmed])] at h
  split at h
  · cases h
  · rename_i expected hexpected
    have hexpected := ExactAmount.checkedSub_ok.mp hexpected
    split at h
    · cases h
    · rename_i hle
      have hle : expected.atomic ≤ a.snapshot.freeCollateral.atomic := Nat.le_of_not_lt hle
      dsimp only at h
      split at h
      · cases h
      · rename_i credit hcredit
        have hcredit := foldlM_settlementCredit hcredit
        have heq := of_decide_eq_true h
        unfold Adoption.credit
        omega

/-- The tally of the positions that the state holds. -/
structure Counted (tally : Tally) : Prop where
  held : ∀ p ∈ tally.positions, p.shares.atomic = tally.held p.conditionId p.outcomeId
  unlisted : ∀ c o, (∀ p ∈ tally.positions, ¬ (p.conditionId = c ∧ p.outcomeId = o)) →
    tally.held c o = 0

theorem positionExact_shares {p : CanaryPosition} (h : state.positionExact snapshot p = true) :
    p.shares.atomic = ((state.previousPositions.find? (·.sameMarket p)).map (·.shares.atomic)).getD 0
      + (((state.pendingFill snapshot).filter fun fill => p.attributedTo fill.1).map
        (·.2.atomic)).getD 0 := by
  have hadd := ExactAmount.checkedAdd_ok.mp (toOption_eq_some.mp (of_decide_eq_true h))
  rw [← hadd]
  congr 1
  · cases state.previousPositions.find? (·.sameMarket p) <;> rfl
  · cases (state.pendingFill snapshot).filter fun fill => p.attributedTo fill.1 <;> rfl

theorem Counted.adopt (hcounted : Counted tally) (hpositions : state.previousPositions = tally.positions)
    (hadded : ∀ p : CanaryPosition,
      (((state.pendingFill a.snapshot).filter fun fill => p.attributedTo fill.1).map
        (·.2.atomic)).getD 0 = a.added p.conditionId p.outcomeId tally.attempt)
    (h : state.reconciliationInventoryExplained a.snapshot = true) : Counted (tally.adopt a) := by
  simp only [reconciliationInventoryExplained, Bool.and_eq_true] at h
  constructor
  · intro p hp
    have hlists : a.lists p.conditionId p.outcomeId = true :=
      List.any_eq_true.mpr ⟨p, hp, by simp⟩
    rw [positionExact_shares (List.all_eq_true.mp h.1.1 p hp), hpositions, hadded]
    show _ = if a.lists p.conditionId p.outcomeId = true then _ else 0
    rw [if_pos hlists]
    congr 1
    cases hfind : tally.positions.find? (·.sameMarket p) with
    | none =>
      refine (hcounted.unlisted _ _ fun q hq hsame => ?_).symm
      exact absurd (by simp [CanaryPosition.sameMarket, hsame]) (List.find?_eq_none.mp hfind q hq)
    | some q =>
      have hsame := List.find?_some hfind
      simp only [CanaryPosition.sameMarket, Bool.and_eq_true, decide_eq_true_eq] at hsame
      rw [← hsame.1, ← hsame.2]
      exact hcounted.held q (List.mem_of_find?_eq_some hfind)
  · intro c o hnone
    have hnone : ∀ p ∈ a.snapshot.positions, ¬ (p.conditionId = c ∧ p.outcomeId = o) := hnone
    show (if a.lists c o = true then _ else 0) = 0
    rw [if_neg]
    simpa [Adoption.lists] using hnone

theorem filled_eq (hauth : state.authoritative a.snapshot = true)
    (hreport : a.report = (state.appliedReport a.snapshot).map (·.2))
    (hawaited : a.snapshot.executionReport = none ∨ state.awaitingReport.isSome) :
    a.filled = a.snapshot.filledDebit.atomic := by
  rw [Adoption.filled, hreport, appliedReport, if_pos hauth, CanaryReconciliation.filledDebit]
  cases hreport : a.snapshot.executionReport with
  | none => cases state.awaitingReport <;> rfl
  | some report =>
    obtain ⟨pending, hpending⟩ := Option.isSome_iff_exists.mp (hawaited.resolve_left (by simp [hreport]))
    rw [hpending]
    rfl

theorem added_eq (hattributed : Attributed tally state) (hdistinct : (state.roster.map (·.1)).Nodup)
    (hauth : state.authoritative a.snapshot = true)
    (hreport : a.report = (state.appliedReport a.snapshot).map (·.2))
    (hawaited : a.snapshot.executionReport = none ∨ state.awaitingReport.isSome) (p : CanaryPosition) :
    (((state.pendingFill a.snapshot).filter fun fill => p.attributedTo fill.1).map
      (·.2.atomic)).getD 0 = a.added p.conditionId p.outcomeId tally.attempt := by
  rw [Adoption.added, hreport, appliedReport, if_pos hauth]
  cases hexecuted : a.snapshot.executionReport with
  | none => simp [pendingFill, hexecuted]
  | some report =>
    obtain ⟨pending, hpending⟩ := Option.isSome_iff_exists.mp
      (hawaited.resolve_left (by simp [hexecuted]))
    obtain ⟨hwaits, -⟩ := Option.filter_eq_some_iff.mp hpending
    rw [hattributed.pendingFill hdistinct hwaits hexecuted, hpending]
    cases tally.attempt with
    | none => rfl
    | some attribution =>
      simp only [Option.map_some, Option.filter_some, Option.any_some, CanaryPosition.attributedTo]
      split <;> rfl

/-! ## The tally of a run -/

/-- The books of an armed campaign are those of its tally. -/
structure Balanced (grant : CampaignAuthorization) (tally : Tally)
    (state : CanaryCampaignState) : Prop where
  armed : state.campaignId.isSome
  positions : state.previousPositions = tally.positions
  allowance : grant.allowance.atomic = state.allowance.atomic + tally.filled
  free : state.freeCollateral.atomic + tally.filled
    = grant.startingCollateral.atomic + tally.credit
  counted : Counted tally

theorem Balanced.apply (hbalanced : Balanced grant tally state) (hattributed : Attributed tally state)
    (hdistinct : (state.roster.map (·.1)).Nodup)
    (harm : ∀ authorization receipt, event ≠ .campaignArmed authorization receipt)
    (hawaited : state.reportAwaited event = true) (h : state.apply hashes event = .ok next) :
    Balanced grant ((state.entry event).toList.foldl Tally.enter tally) next := by
  have hmoney := (books_apply h).2 harm
  rw [enter_entry]
  cases hadoption : state.adoption event with
  | none =>
    simp only [hadoption, money, Option.map_none, Option.getD_none, Prod.mk.injEq] at hmoney
    obtain ⟨hid, hfree, hallowance, hpositions⟩ := hmoney
    exact ⟨hid ▸ hbalanced.armed, hpositions.trans hbalanced.positions,
      hallowance ▸ hbalanced.allowance, hfree ▸ hbalanced.free, hbalanced.counted.held,
      hbalanced.counted.unlisted⟩
  | some a =>
    simp only [hadoption, money, Option.map_some, Option.getD_some, Prod.mk.injEq] at hmoney
    obtain ⟨hid, hfree, hallowance, hpositions⟩ := hmoney
    obtain ⟨⟨_, _, rfl⟩, hauth, hreport⟩ := adoption_eq_some hadoption
    have hreported : a.snapshot.executionReport = none ∨ state.awaitingReport.isSome := by
      simpa [reportAwaited] using hawaited
    have hfilled := filled_eq hauth hreport hreported
    have hadded := added_eq hattributed hdistinct hauth hreport hreported
    simp only [authoritative, Bool.and_eq_true, decide_eq_true_eq] at hauth
    obtain ⟨⟨⟨⟨⟨hbalance, hexpected⟩, hinventory⟩, -⟩, -⟩, -⟩ := hauth
    have hexpected := ExactAmount.checkedSub_ok.mp (toOption_eq_some.mp hexpected)
    have hbalance := balance_explained hbalanced.armed hbalance
    rw [hbalanced.positions] at hbalance
    have hallowed := hbalanced.allowance
    have hfreed := hbalanced.free
    refine ⟨hid ▸ hbalanced.armed, hpositions, ?_, ?_,
      hbalanced.counted.adopt hbalanced.positions hadded hinventory⟩
    · show _ = _ + (tally.filled + a.filled)
      rw [hallowance]
      omega
    · show _ + (tally.filled + a.filled) = _ + (tally.credit + a.credit tally.positions)
      rw [hfree]
      omega

theorem Balanced.applyAll (hbalanced : Balanced grant tally state)
    (hattributed : Attributed tally state)
    (hdistinct : ((state.roster ++ events.filterMap CanaryEvent.reservation).map (·.1)).Nodup)
    (harm : .armed ∉ events.filterMap CanaryEvent.milestone)
    (hawaited : state.reportsAwaited hashes events = true)
    (h : state.applyAll hashes events = .ok next) :
    Balanced grant ((observed hashes entry state events).foldl Tally.enter tally) next := by
  induction events generalizing state tally with
  | nil =>
    rw [← pure_eq_ok.mp h]
    exact hbalanced
  | cons event rest ih =>
    obtain ⟨after, hafter, hrest⟩ := foldlM_cons_ok.mp h
    rw [observed_cons_ok hafter, List.foldl_append]
    simp only [reportsAwaited, hafter, Bool.and_eq_true] at hawaited
    have hevent : ∀ authorization receipt, event ≠ .campaignArmed authorization receipt := by
      rintro authorization receipt rfl
      exact harm List.mem_cons_self
    have hknown : (state.roster.map (·.1)).Nodup := by
      rw [List.map_append] at hdistinct
      exact (List.nodup_append.mp hdistinct).1
    refine ih (hbalanced.apply hattributed hknown hevent hawaited.1 hafter)
      (hattributed.apply hafter) ?_ (fun hmem => harm ?_) hawaited.2 hrest
    · rw [(books_apply hafter).1, List.append_assoc]
      convert hdistinct using 3
      cases hreserved : event.reservation <;> simp [hreserved]
    · obtain ⟨e, he, hmilestone⟩ := List.mem_filterMap.mp hmem
      exact List.mem_filterMap.mpr ⟨e, List.mem_cons_of_mem _ he, hmilestone⟩

/-- A campaign without an attempt that opens nothing adopts nothing but empty positions. -/
theorem idle_apply (hpending : state.pending = none)
    (hzero : ∀ p ∈ state.previousPositions, p.shares.atomic = 0) (hopens : event.milestone = none)
    (h : state.apply hashes event = .ok next) :
    next.pending = none ∧ ∀ p ∈ next.previousPositions, p.shares.atomic = 0 := by
  constructor
  · have hdebit : event.debit = none := by
      cases event with
      | attemptReserved admission prepared receipt =>
        cases ho : admission.origin <;> simp [CanaryEvent.milestone, ho] at hopens
      | _ => rfl
    refine Option.eq_none_iff_forall_ne_some.mpr fun pending hnext => ?_
    obtain ⟨old, hold, -⟩ := pending_unreserved hdebit h hnext
    rw [hpending] at hold
    cases hold
  · have hmoney := (books_apply h).2 (by rintro _ _ rfl; cases hopens)
    cases hadoption : state.adoption event with
    | none =>
      simp only [hadoption, money, Option.map_none, Option.getD_none, Prod.mk.injEq] at hmoney
      rw [hmoney.2.2.2]
      exact hzero
    | some a =>
      simp only [hadoption, money, Option.map_some, Option.getD_some, Prod.mk.injEq] at hmoney
      obtain ⟨-, hauth, -⟩ := adoption_eq_some hadoption
      simp only [authoritative, reconciliationInventoryExplained, Bool.and_eq_true] at hauth
      rw [hmoney.2.2.2]
      intro p hp
      rw [positionExact_shares (List.all_eq_true.mp hauth.1.1.1.2.1.1 p hp), pendingFill, hpending]
      cases hfind : state.previousPositions.find? (·.sameMarket p) with
      | none => rfl
      | some q => simpa using hzero q (List.mem_of_find?_eq_some hfind)

theorem idle_applyAll (hpending : state.pending = none)
    (hzero : ∀ p ∈ state.previousPositions, p.shares.atomic = 0)
    (hopens : ∀ e ∈ events, e.milestone = none) (h : state.applyAll hashes events = .ok next) :
    next.pending = none ∧ ∀ p ∈ next.previousPositions, p.shares.atomic = 0 := by
  induction events generalizing state with
  | nil =>
    rw [← pure_eq_ok.mp h]
    exact ⟨hpending, hzero⟩
  | cons event rest ih =>
    obtain ⟨after, hafter, hrest⟩ := foldlM_cons_ok.mp h
    obtain ⟨hpending', hzero'⟩ := idle_apply hpending hzero (hopens _ List.mem_cons_self) hafter
    exact ih hpending' hzero' (fun e he => hopens e (List.mem_cons_of_mem _ he)) hrest

theorem reportsAwaited_append {before : List CanaryEvent}
    (h : state.applyAll hashes before = .ok next)
    (hawaited : state.reportsAwaited hashes (before ++ events) = true) :
    next.reportsAwaited hashes events = true := by
  induction before generalizing state with
  | nil =>
    rw [← pure_eq_ok.mp h]
    exact hawaited
  | cons event rest ih =>
    obtain ⟨after, hafter, hrest⟩ := foldlM_cons_ok.mp h
    simp only [List.cons_append, reportsAwaited, hafter, Bool.and_eq_true] at hawaited
    exact ih hrest hawaited.2

end CanaryCampaignState

open CanaryCampaignState

/-- A campaign is armed once, before anything else is opened. -/
theorem armed_once {before after : List CanaryEvent} {receipt : CommandReceipt}
    (h : rebuild hashes (before ++ .campaignArmed grant receipt :: after) = .ok state) :
    (∀ e ∈ before, e.milestone = none) ∧ .armed ∉ after.filterMap CanaryEvent.milestone := by
  have hprefix := (onSchedule_rebuild h).isPrefix
  rw [List.filterMap_append,
    show (CanaryEvent.campaignArmed grant receipt :: after).filterMap CanaryEvent.milestone
      = .armed :: after.filterMap CanaryEvent.milestone from rfl] at hprefix
  have honce : Milestone.armed ∉ schedule.tail := by decide
  cases hbefore : before.filterMap CanaryEvent.milestone with
  | nil =>
    rw [hbefore, List.nil_append] at hprefix
    refine ⟨List.filterMap_eq_nil_iff.mp hbefore, fun hmem => honce ?_⟩
    exact (List.prefix_cons_inj _ |>.mp hprefix).subset hmem
  | cons x rest =>
    rw [hbefore, List.cons_append] at hprefix
    have hrest := (List.cons_prefix_cons.mp hprefix).2
    exact absurd (hrest.subset (List.mem_append_right _ List.mem_cons_self)) honce

/-- The identities that a journal reserves. -/
def identities (events : List CanaryEvent) : List String :=
  (events.filterMap CanaryEvent.reservation).map (·.1)

namespace SettledFill

open FirstOrganic

theorem dollar_fits : 1 * 1000000 < 2 ^ 64 := by decide

def dollar : CollateralAmount := dollars 1 dollar_fits

def tenShares : ShareAmount := ⟨10 * 1000000, by decide⟩

def held (shares : ShareAmount) : List CanaryPosition := [⟨⟨"condition"⟩, ⟨0⟩, shares⟩]

def fiveFilled : ExactExecutionReport :=
  ⟨some ⟨"order"⟩, dollar, fiveShares, dollar, fiveShares, .zero, [⟨"trade", dollar, fiveShares, .zero⟩]⟩

def reconciled (freeCollateral allowance : CollateralAmount) (positions : List CanaryPosition)
    (resolutions : List CanaryResolution) (executionReport : Option ExactExecutionReport) :
    CanaryEvent :=
  .reconciliationRecorded
    { observedAt := ⟨0⟩
      freeCollateral := freeCollateral
      allowance := allowance
      standardSpenderOnly := true
      openOrderIds := []
      positions := positions
      resolutions := resolutions
      unexpectedActivity := false
      executionReport := executionReport
      evidenceHashes := [] } none false

def posted (name : String) : List CanaryEvent :=
  [.postInFlight name name name, .postReturned name true true "order"]

/-- The first probe, up to its report. -/
def firstProbe : List CanaryEvent := reserve "probe-1" .operatorProbe :: posted "probe-1"

def afterFirst : CanaryEvent :=
  reconciled (dollars 199 (by decide)) (dollars 7 (by decide)) (held fiveShares) [] (some fiveFilled)

def afterSecond : CanaryEvent :=
  reconciled (dollars 198 (by decide)) (dollars 6 (by decide)) (held tenShares) [] (some fiveFilled)

def journal : List CanaryEvent :=
  firstProbe ++ [afterFirst, review 1, reserve "probe-2" .operatorProbe] ++ posted "probe-2"
    ++ [afterSecond,
      reconciled (dollars 208 (by decide)) (dollars 6 (by decide)) [] [⟨⟨"condition"⟩, ⟨0⟩⟩] none]

def lost : List CanaryEvent :=
  .campaignArmed authorization (receipt "arm") :: firstProbe
    ++ [reconciled (dollars 199 (by decide)) (dollars 7 (by decide)) [] [⟨⟨"condition"⟩, ⟨1⟩⟩]
      (some fiveFilled)]

/-! A second probe on another market that has the identity of the first. -/

def reused : List CanaryEvent :=
  .campaignArmed authorization (receipt "arm") :: firstProbe
    ++ [afterFirst, review 1,
      .attemptReserved ⟨"probe-1", .operatorProbe, ⟨none, ⟨"other"⟩, ⟨0⟩, .weather⟩⟩
        { order "probe-1" with conditionId := ⟨"other"⟩ } (receipt "again")]
    ++ posted "probe-1" ++ [afterSecond]

/-- Whether the adopted snapshots list the outcome of the first probe. -/
def listings (entries : List BookEntry) : List Bool :=
  entries.filterMap fun
    | .reserved _ => none
    | .adopted adoption => some (adoption.lists ⟨"condition"⟩ ⟨0⟩)

/-- The shares that the reports of the attempts on the outcome filled. -/
def addedTo : Option AttemptAttribution → List BookEntry → Nat
  | _, [] => 0
  | _, .reserved attribution :: rest => addedTo (some attribution) rest
  | attempt, .adopted adoption :: rest =>
    adoption.added ⟨"condition"⟩ ⟨0⟩ attempt + addedTo attempt rest

def heldOn (state : CanaryCampaignState) : Nat :=
  ((state.previousPositions.filter fun position =>
    position.conditionId = ⟨"condition"⟩ && position.outcomeId = ⟨0⟩).map (·.shares.atomic)).sum

/-- The journal is accepted; its reports filled five shares, and this many are held. -/
def Holds (events : List CanaryEvent) (listed : List Bool) (shares : Nat) : Prop :=
  ∃ state, rebuild commitments events = .ok state ∧ reportsAwaited commitments {} events = true
    ∧ listings (observed commitments entry {} events) = listed
    ∧ addedTo none (observed commitments entry {} events) = 5000000 ∧ heldOn state = shares

theorem holds_of_any {events : List CanaryEvent} {listed : List Bool} {shares : Nat}
    (h : ((rebuild commitments events).toOption.any fun state =>
      decide (reportsAwaited commitments {} events = true
        ∧ listings (observed commitments entry {} events) = listed
        ∧ addedTo none (observed commitments entry {} events) = 5000000
        ∧ heldOn state = shares)) = true) : Holds events listed shares := by
  obtain ⟨state, hok, hstate⟩ := exists_ok_of_any h
  exact ⟨state, hok, of_decide_eq_true hstate⟩

end SettledFill

end PredictionEdge.Canary
