import Mathlib.Algebra.GroupWithZero.Nat
import PredictionEdge.Canary.Campaign

/-!
# The standing of a campaign

What the limits of a campaign are about: its stage, the attempt it waits for, the slots
that were taken and the money that was committed. A campaign moves from one standing to
another with a mark for what happened: it was armed, an attempt was reserved, posted,
reported or reviewed, the organic stage was armed. Everything else an event may do leaves
the standing, or closes the campaign.

A campaign that is not closing is on a fixed schedule: the marks that open something come
in one order, and the standing says how far they have come.
-/

namespace PredictionEdge.Canary

/-- An attempt as far as the limits go. -/
structure Attempt where
  identity : String
  orderHash : String
  bodyHash : String
  origin : AttemptOrigin
  debit : Nat
  phase : AttemptPhase

structure Standing where
  stage : CampaignStage
  pending : Option Attempt
  probes : Nat
  organics : Nat
  committed : Nat

inductive Mark where
  | armed
  | reserved (attempt : Attempt)
  | reviewed (ordinal : Nat)
  | organicArmed
  | posted (identity orderHash bodyHash : String)
  | reported (filled : Nat)

namespace Standing

/-- The stage at which an attempt of this origin is reserved. -/
def home : AttemptOrigin → CampaignStage
  | .operatorProbe => .probesArmed
  | .organic => .organicArmed

/-- There is a slot for one more attempt. -/
def HasSlot (v : Standing) : AttemptOrigin → Prop
  | .operatorProbe => v.probes < probePostLimit
  | .organic => v.organics < organicPostLimit

/-- The standing with the attempt reserved. -/
def reserve (v : Standing) (a : Attempt) : Standing :=
  match a.origin with
  | .operatorProbe =>
    { v with pending := some a, probes := v.probes + 1, committed := v.committed + a.debit }
  | .organic =>
    { v with pending := some a, organics := v.organics + 1, committed := v.committed + a.debit }

/-- The standing after the report of its attempt. -/
def conclude (v : Standing) (a : Attempt) : Standing :=
  if v.stage ≠ .closedObserving then
    match a.origin with
    | .operatorProbe => { v with pending := some { a with phase := .review } }
    | .organic =>
      if v.organics < organicPostLimit then { v with pending := none, stage := .organicArmed }
      else { v with pending := none, stage := .closedObserving }
  else { v with pending := none }

/-- The campaign takes no more orders. -/
def IsClosing (v : Standing) : Prop := v.stage = .closedObserving ∨ v.stage = .closed

end Standing

open Standing
open CanaryCampaignState (closing)

/-- **What an accepted event may do to the standing.** -/
inductive Moves : Standing → Option Mark → Standing → Prop where
  | arm (v : Standing) : v.stage = .inactive → Moves v (some .armed) { v with stage := .probesArmed }
  | reserve (v : Standing) (a : Attempt) : v.pending = none → a.phase = .reserved →
      v.stage = home a.origin → v.HasSlot a.origin →
      v.committed + a.debit ≤ campaignMaxCommitment.atomic →
      Moves v (some (.reserved a)) (v.reserve a)
  | review (v : Standing) (a : Attempt) : v.pending = some a → a.origin = .operatorProbe →
      a.phase = .review → v.stage = .probesArmed →
      Moves v (some (.reviewed v.probes))
        { v with pending := none, stage := if v.probes = probePostLimit then .organicReady else .probesArmed }
  | armOrganic (v : Standing) : v.stage = .organicReady →
      Moves v (some .organicArmed) { v with stage := .organicArmed }
  | post (v : Standing) (a : Attempt) : v.pending = some a → a.phase = .reserved →
      Moves v (some (.posted a.identity a.orderHash a.bodyHash))
        { v with pending := some { a with phase := .postInFlight } }
  | report (v : Standing) (a : Attempt) (filled : Nat) : v.pending = some a → a.phase ≠ .review →
      filled ≤ a.debit → Moves v (some (.reported filled)) (v.conclude a)
  | rest (v : Standing) : Moves v none v
  | latch (v : Standing) : Moves v none { v with stage := closing v.stage }
  | shut (v : Standing) :
      Moves v none { v with stage := closing v.stage, pending := v.pending.filter (·.phase ≠ .review) }
  | fail (v : Standing) (a : Attempt) : v.pending = some a →
      Moves v none { v with stage := .closedObserving }
  | finish (v : Standing) : v.stage = .closedObserving → v.pending = none →
      Moves v none { v with stage := .closed }

/-- A run of moves, with the marks it made. -/
inductive Travels : Standing → List Mark → Standing → Prop where
  | refl (v : Standing) : Travels v [] v
  | step {v v' v'' : Standing} {m : Option Mark} {ms : List Mark} : Moves v m v' →
      Travels v' ms v'' → Travels v (m.toList ++ ms) v''

variable {v v' : Standing} {m : Option Mark} {ms : List Mark} {a : Attempt}

theorem Moves.of_reserved (h : Moves v (some (.reserved a)) v') :
    v.stage = home a.origin ∧ v' = v.reserve a := by
  cases h with
  | reserve _ hnone hphase hstage hslot hcap => exact ⟨hstage, rfl⟩

theorem Moves.of_posted {identity orderHash bodyHash : String}
    (h : Moves v (some (.posted identity orderHash bodyHash)) v') :
    ∃ a, v.pending = some a ∧ a.phase = .reserved
      ∧ (a.identity, a.orderHash, a.bodyHash) = (identity, orderHash, bodyHash) := by
  cases h with
  | post a hp hphase => exact ⟨a, hp, hphase, rfl⟩

/-! ## Where a pending attempt can be -/

/-- A pending attempt is at its own stage, or the campaign is closing. -/
def Settled (v : Standing) : Prop :=
  ∀ a, v.pending = some a → v.stage = home a.origin ∨ v.stage = .closedObserving

variable {stage : CampaignStage}

theorem closing_of_home {o : AttemptOrigin} (h : stage = home o ∨ stage = .closedObserving) :
    closing stage = .closedObserving := by
  rcases h with rfl | rfl
  · cases o <;> rfl
  · rfl

/-- A report ends its attempt, or leaves it at its stage for the review. -/
theorem conclude_pending (v : Standing) (a : Attempt) :
    (v.conclude a).pending = none
      ∨ (v.conclude a).pending = some { a with phase := .review } ∧ (v.conclude a).stage = v.stage := by
  unfold Standing.conclude
  split
  · split
    · exact .inr ⟨rfl, rfl⟩
    · split <;> exact .inl rfl
  · exact .inl rfl

theorem Settled.conclude (hs : Settled v) (hp : v.pending = some a) : Settled (v.conclude a) := by
  intro b hb
  rcases conclude_pending v a with hnone | ⟨hreview, hstage⟩
  · exact absurd (hnone.symm.trans hb) (by simp)
  · obtain rfl := Option.some.inj (hreview.symm.trans hb)
    rw [hstage]
    exact hs a hp

/-- Where no attempt is at home there is none. -/
theorem Settled.away (hs : Settled v) (hstage : v.stage = stage) (hhome : ∀ o, stage ≠ home o)
    (hclosed : stage ≠ .closedObserving) : v.pending = none := by
  cases hp : v.pending with
  | none => rfl
  | some a =>
    rcases hs a hp with h | h
    · exact absurd (hstage.symm.trans h) (hhome _)
    · exact absurd (hstage.symm.trans h) hclosed

theorem Settled.step (hs : Settled v) (h : Moves v m v') : Settled v' := by
  cases h with
  | arm hstage =>
    have hnone := hs.away hstage (by intro o; cases o <;> simp [home]) (by simp)
    intro a ha
    exact absurd (hnone.symm.trans ha) (by simp)
  | reserve a hnone hphase hstage hslot hcap =>
    intro b hb
    unfold Standing.reserve at hb ⊢
    cases ho : a.origin <;>
    · simp only [ho] at hb ⊢
      obtain rfl := Option.some.inj hb
      exact .inl (ho ▸ hstage)
  | review a hp ho hphase hstage => intro b hb; simp at hb
  | armOrganic hstage =>
    have hnone := hs.away hstage (by intro o; cases o <;> simp [home]) (by simp)
    intro a ha
    exact absurd (hnone.symm.trans ha) (by simp)
  | post a hp hphase =>
    intro b hb
    obtain rfl := Option.some.inj hb
    exact hs a hp
  | report a filled hp hphase hfilled => exact hs.conclude hp
  | rest => exact hs
  | latch => intro a ha; exact .inr (closing_of_home (hs a ha))
  | shut =>
    intro a ha
    exact .inr (closing_of_home (hs a (Option.filter_eq_some_iff.mp ha).1))
  | fail a hp => intro b hb; exact .inr rfl
  | finish hstage hnone => intro a ha; exact absurd (hnone.symm.trans ha) (by simp)

theorem Settled.travels (hs : Settled v) (h : Travels v ms v') : Settled v' := by
  induction h with
  | refl v => exact hs
  | step hmove _ ih => exact ih (hs.step hmove)

/-! ## The schedule -/

/-- What opens something: the campaign, a slot, the next slot, the organic stage. -/
inductive Milestone where
  | armed
  | probe
  | reviewed (ordinal : Nat)
  | organicArmed
  | organic
  deriving DecidableEq

def Mark.milestone : Mark → Option Milestone
  | .armed => some .armed
  | .reserved a =>
    match a.origin with
    | .operatorProbe => some .probe
    | .organic => some .organic
  | .reviewed ordinal => some (.reviewed ordinal)
  | .organicArmed => some .organicArmed
  | .posted _ _ _ => none
  | .reported _ => none

/-- What comes before the first organic order: every probe, each followed by its review. -/
def arming : List Milestone :=
  [.armed, .probe, .reviewed 1, .probe, .reviewed 2, .probe, .reviewed 3, .organicArmed]

def schedule : List Milestone := arming ++ List.replicate organicPostLimit .organic

/-- How many milestones lie behind a campaign that is not closing. -/
def Standing.progress (v : Standing) : Nat :=
  match v.stage with
  | .inactive => 0
  | .probesArmed => 2 * v.probes + (if v.pending.isSome then 0 else 1)
  | .organicReady => 7
  | .organicArmed => 8 + v.organics
  | .closedObserving => 0
  | .closed => 0

/-- The counters that belong to a stage. -/
structure Paced (v : Standing) : Prop where
  idle : v.stage = .inactive → v.pending = none ∧ v.probes = 0 ∧ v.organics = 0
  probing : v.stage = .probesArmed → v.probes ≤ probePostLimit ∧ v.organics = 0
    ∧ (v.pending.isSome → 0 < v.probes)
  ready : v.stage = .organicReady → v.pending = none ∧ v.organics = 0
  organic : v.stage = .organicArmed → v.organics ≤ organicPostLimit

/-- The milestones so far are a part of the schedule, and all of it up to the standing. -/
structure OnSchedule (v : Standing) (done : List Milestone) : Prop where
  settled : Settled v
  paced : Paced v
  isPrefix : done <+: schedule
  reached : ¬ v.IsClosing → done = schedule.take v.progress

/-- The next milestone of the schedule extends what has been done. -/
theorem take_progress_succ {n : Nat} {x : Milestone} (h : schedule[n]? = some x) :
    schedule.take n ++ [x] = schedule.take (n + 1) := by
  rw [List.take_add_one, h]
  rfl

theorem isClosing_closing (v : Standing) {p : Option Attempt} :
    Standing.IsClosing { v with stage := closing v.stage, pending := p } := by
  unfold Standing.IsClosing closing
  by_cases h : v.stage = .closed
  · exact .inr (by simp [h])
  · exact .inl (by simp [h])

theorem Paced.of_isClosing (h : v.IsClosing) : Paced v := by
  constructor <;> intro hstage <;> rcases h with h | h <;> exact absurd (hstage.symm.trans h) (by simp)

theorem Paced.of_probing (hstage : v.stage = .probesArmed) (hle : v.probes ≤ probePostLimit)
    (horganics : v.organics = 0) (hpos : v.pending.isSome → 0 < v.probes) : Paced v where
  idle hx := absurd (hstage.symm.trans hx) (by simp)
  probing _ := ⟨hle, horganics, hpos⟩
  ready hx := absurd (hstage.symm.trans hx) (by simp)
  organic hx := absurd (hstage.symm.trans hx) (by simp)

theorem Paced.of_organic (hstage : v.stage = .organicArmed) (hle : v.organics ≤ organicPostLimit) :
    Paced v where
  idle hx := absurd (hstage.symm.trans hx) (by simp)
  probing hx := absurd (hstage.symm.trans hx) (by simp)
  ready hx := absurd (hstage.symm.trans hx) (by simp)
  organic _ := hle

section

variable {done : List Milestone}

theorem OnSchedule.close (h : OnSchedule v done) (hs : Settled v') (hclosing : v'.IsClosing) :
    OnSchedule v' done :=
  ⟨hs, .of_isClosing hclosing, h.isPrefix, fun hopen => absurd hclosing hopen⟩

theorem OnSchedule.stay (h : OnSchedule v done) (hs : Settled v') (hp : Paced v')
    (hopen : ¬ v.IsClosing) (hprogress : v'.progress = v.progress) : OnSchedule v' done :=
  ⟨hs, hp, h.isPrefix, fun _ => by rw [hprogress, h.reached hopen]⟩

theorem OnSchedule.advance {x : Milestone} (h : OnSchedule v done) (hs : Settled v')
    (hp : Paced v') (hopen : ¬ v.IsClosing) (hprogress : v'.progress = v.progress + 1)
    (hx : schedule[v.progress]? = some x) : OnSchedule v' (done ++ [x]) := by
  have hdone : done ++ [x] = schedule.take v'.progress := by
    rw [h.reached hopen, hprogress]
    exact take_progress_succ hx
  exact ⟨hs, hp, hdone ▸ List.take_prefix _ _, fun _ => hdone⟩

theorem not_isClosing_of_eq (h : v.stage = stage) (h₁ : stage ≠ .closedObserving)
    (h₂ : stage ≠ .closed) : ¬ v.IsClosing := by
  intro hc
  rcases hc with hc | hc
  · exact h₁ (h.symm.trans hc)
  · exact h₂ (h.symm.trans hc)

theorem OnSchedule.reserve (h : OnSchedule v done) (hs : Settled (v.reserve a))
    (hnone : v.pending = none) (hstage : v.stage = home a.origin) (hslot : v.HasSlot a.origin) :
    OnSchedule (v.reserve a) (done ++ ((Mark.reserved a).milestone).toList) := by
  unfold Standing.reserve Mark.milestone at *
  cases ho : a.origin with
  | operatorProbe =>
    simp only [ho, home, Standing.HasSlot, probePostLimit] at *
    obtain ⟨-, horganics, -⟩ := h.paced.probing hstage
    refine h.advance hs ?_ (not_isClosing_of_eq hstage (by simp) (by simp)) ?_ ?_
    · exact .of_probing hstage hslot horganics fun _ => Nat.succ_pos _
    · simp only [progress, hstage, hnone]
      simp
      omega
    · simp only [progress, hstage, hnone]
      have : v.probes = 0 ∨ v.probes = 1 ∨ v.probes = 2 := by omega
      rcases this with h0 | h0 | h0 <;> rw [h0] <;> rfl
  | organic =>
    simp only [ho, home, Standing.HasSlot, organicPostLimit] at *
    refine h.advance hs ?_ (not_isClosing_of_eq hstage (by simp) (by simp)) ?_ ?_
    · exact .of_organic hstage hslot
    · simp only [progress, hstage]
      omega
    · simp only [progress, hstage]
      have : v.organics = 0 ∨ v.organics = 1 ∨ v.organics = 2 ∨ v.organics = 3 ∨ v.organics = 4 := by
        omega
      rcases this with h0 | h0 | h0 | h0 | h0 <;> rw [h0] <;> rfl

theorem OnSchedule.review (h : OnSchedule v done) (hp : v.pending = some a)
    (hstage : v.stage = .probesArmed) :
    OnSchedule { v with pending := none, stage := if v.probes = probePostLimit then .organicReady else .probesArmed }
      (done ++ [.reviewed v.probes]) := by
  obtain ⟨hle, horganics, hpos⟩ := h.paced.probing hstage
  have hpos := hpos (by simp [hp])
  have hprogress : v.progress = 2 * v.probes := by simp [progress, hstage, hp]
  unfold probePostLimit at *
  have hx : schedule[v.progress]? = some (.reviewed v.probes) := by
    rw [hprogress]
    have : v.probes = 1 ∨ v.probes = 2 ∨ v.probes = 3 := by omega
    rcases this with h0 | h0 | h0 <;> rw [h0] <;> rfl
  refine h.advance ?_ ?_ (not_isClosing_of_eq hstage (by simp) (by simp)) ?_ hx
  · intro b hb; simp at hb
  · by_cases hlast : v.probes = 3
    · rw [if_pos hlast]
      constructor <;> intro hx
      · simp at hx
      · simp at hx
      · exact ⟨rfl, horganics⟩
      · simp at hx
    · rw [if_neg hlast]
      exact .of_probing rfl hle horganics fun hsome => absurd hsome (by simp)
  · rw [hprogress]
    by_cases hlast : v.probes = 3 <;> simp [progress, hlast]

theorem OnSchedule.conclude (h : OnSchedule v done) (hp : v.pending = some a) :
    OnSchedule (v.conclude a) done := by
  have hs := h.settled.conclude hp
  unfold Standing.conclude at hs ⊢
  split
  · rename_i hne
    have hhome : v.stage = home a.origin := (h.settled a hp).resolve_right hne
    rw [if_pos hne] at hs
    cases ho : a.origin with
    | operatorProbe =>
      simp only [ho, home] at *
      refine h.stay hs ?_ (not_isClosing_of_eq hhome (by simp) (by simp)) ?_
      · obtain ⟨hle, horganics, hpos⟩ := h.paced.probing hhome
        exact .of_probing hhome hle horganics fun _ => hpos (by simp [hp])
      · simp [progress, hhome, hp]
    | organic =>
      simp only [ho, home] at *
      split
      · rename_i hlt
        rw [if_pos hlt] at hs
        refine h.stay hs ?_ (not_isClosing_of_eq hhome (by simp) (by simp)) ?_
        · exact .of_organic rfl hlt.le
        · simp [progress, hhome]
      · rename_i hlt
        rw [if_neg hlt] at hs
        exact h.close hs (.inl rfl)
  · rename_i hclosed
    rw [if_neg hclosed] at hs
    exact h.close hs (.inl (not_not.mp hclosed))

/-- A move without a mark does nothing, or closes the campaign. -/
theorem Moves.unmarked (h : Moves v none v') : v' = v ∨ v'.IsClosing := by
  cases h with
  | rest => exact .inl rfl
  | latch | shut => exact .inr (isClosing_closing v)
  | fail a hp => exact .inr (.inl rfl)
  | finish hstage hnone => exact .inr (.inr rfl)

theorem OnSchedule.marked {x : Mark} (h : OnSchedule v done) (hs : Settled v')
    (hmove : Moves v (some x) v') : OnSchedule v' (done ++ x.milestone.toList) := by
  cases hmove with
  | arm hstage =>
    obtain ⟨hnone, hprobes, horganics⟩ := h.paced.idle hstage
    refine h.advance hs ?_ (not_isClosing_of_eq hstage (by simp) (by simp)) ?_ ?_
    · exact .of_probing rfl (by simp [hprobes]) horganics fun hsome => absurd hsome (by simp [hnone])
    · simp [progress, hstage, hnone, hprobes]
    · simp [progress, hstage, schedule, arming]
  | reserve a hnone hphase hstage hslot hcap => exact h.reserve hs hnone hstage hslot
  | review a hp ho hphase hstage => exact h.review hp hstage
  | armOrganic hstage =>
    obtain ⟨hnone, horganics⟩ := h.paced.ready hstage
    refine h.advance hs ?_ (not_isClosing_of_eq hstage (by simp) (by simp)) ?_ ?_
    · exact .of_organic rfl (by simp [horganics])
    · simp [progress, hstage, horganics]
    · simp [progress, hstage, schedule, arming]
  | post a hp hphase =>
    rw [show (Mark.posted a.identity a.orderHash a.bodyHash).milestone.toList = [] from rfl,
      List.append_nil]
    by_cases hclosing : v.IsClosing
    · exact h.close hs hclosing
    · refine h.stay hs ⟨?_, ?_, ?_, h.paced.organic⟩ hclosing ?_
      · intro hx; exact absurd (hp.symm.trans (h.paced.idle hx).1) (by simp)
      · intro hx
        obtain ⟨hle, horganics, hpos⟩ := h.paced.probing hx
        exact ⟨hle, horganics, fun _ => hpos (by simp [hp])⟩
      · intro hx; exact absurd (hp.symm.trans (h.paced.ready hx).1) (by simp)
      · simp [progress, hp]
  | report a filled hp hphase hfilled =>
    rw [show (Mark.reported filled).milestone.toList = [] from rfl, List.append_nil]
    exact h.conclude hp

theorem OnSchedule.step (h : OnSchedule v done) (hmove : Moves v m v') :
    OnSchedule v' (done ++ (m.bind Mark.milestone).toList) := by
  have hs := h.settled.step hmove
  cases m with
  | none =>
    rw [Option.bind_none, Option.toList_none, List.append_nil]
    rcases hmove.unmarked with rfl | hclosing
    · exact h
    · exact h.close hs hclosing
  | some x => exact h.marked hs hmove

/-- **A campaign keeps to its schedule.** -/
theorem OnSchedule.travels (h : OnSchedule v done) (hrun : Travels v ms v') :
    OnSchedule v' (done ++ ms.filterMap Mark.milestone) := by
  induction hrun generalizing done with
  | refl v => simpa using h
  | @step v v' v'' m ms hmove _ ih =>
    have hnext := ih (h.step hmove)
    rw [List.append_assoc] at hnext
    rw [List.filterMap_append]
    cases m <;> exact hnext

end

/-! ## Money -/

/-- What the pending attempt may still be filled for. -/
def Standing.unreported (v : Standing) : Nat :=
  match v.pending with
  | some a => if a.phase = .review then 0 else a.debit
  | none => 0

@[simp]
def Mark.debit : Mark → Option Nat
  | .reserved a => some a.debit
  | _ => none

@[simp]
def Mark.filled : Mark → Option Nat
  | .reported filled => some filled
  | _ => none

/-- The sums of a run: what was reserved, and what was filled. -/
structure Funded (v : Standing) (ms : List Mark) : Prop where
  reserved : v.committed = (ms.filterMap Mark.debit).sum
  capped : v.committed ≤ campaignMaxCommitment.atomic
  filled : (ms.filterMap Mark.filled).sum + v.unreported ≤ v.committed

theorem unreported_conclude (v : Standing) (a : Attempt) : (v.conclude a).unreported = 0 := by
  unfold unreported
  rcases conclude_pending v a with hnone | ⟨hreview, _⟩
  · rw [hnone]
  · simp [hreview]

theorem committed_conclude (v : Standing) (a : Attempt) : (v.conclude a).committed = v.committed := by
  unfold Standing.conclude
  split
  · split
    · rfl
    · split <;> rfl
  · rfl

/-- What a move adds to the sums, and what it leaves unreported. -/
theorem Moves.money (h : Moves v m v') :
    v'.committed = v.committed + (m.toList.filterMap Mark.debit).sum
      ∧ (v.committed ≤ campaignMaxCommitment.atomic → v'.committed ≤ campaignMaxCommitment.atomic)
      ∧ (m.toList.filterMap Mark.filled).sum + v'.unreported
        ≤ v.unreported + (m.toList.filterMap Mark.debit).sum := by
  cases h with
  | arm _ => simp [List.filterMap_cons, unreported]
  | reserve a hnone hphase hstage hslot hcap =>
    unfold Standing.reserve
    cases a.origin <;>
    · simp [List.filterMap_cons, unreported, hphase, hcap]
  | review a hp ho hphase hstage | armOrganic _ => simp [List.filterMap_cons, unreported]
  | post a hp hphase => simp [List.filterMap_cons, unreported, hp, hphase]
  | report a filled hp hphase hfilled =>
    rw [committed_conclude, unreported_conclude]
    simp [List.filterMap_cons, unreported, hp, hphase, hfilled]
  | rest => simp
  | latch => simp [unreported]
  | shut =>
    refine ⟨by simp, fun h => h, ?_⟩
    cases hp : v.pending with
    | none => simp [unreported, hp]
    | some a =>
      by_cases hphase : a.phase = .review <;>
      simp [unreported, hp, hphase, Option.filter_some]
  | fail a hp | finish _ _ => simp [unreported]

/-- **What was filled never exceeds what was committed.** -/
theorem Funded.travels {before : List Mark} (h : Funded v before) (hrun : Travels v ms v') :
    Funded v' (before ++ ms) := by
  induction hrun generalizing before with
  | refl v => simpa using h
  | @step v v' v'' m ms hmove _ ih =>
    obtain ⟨hcommitted, hcap, hfilled⟩ := hmove.money
    rw [← List.append_assoc]
    refine ih ⟨?_, hcap h.capped, ?_⟩
    · rw [hcommitted, h.reserved, List.filterMap_append, List.sum_append]
    · have := h.filled
      rw [List.filterMap_append, List.sum_append]
      omega

/-! ## One post and one report for a reservation -/

/-- The identity and the hashes of a post. -/
@[simp]
def Mark.post : Mark → Option (String × String × String)
  | .posted identity orderHash bodyHash => some (identity, orderHash, bodyHash)
  | _ => none

def Standing.postsLeft (v : Standing) : Nat :=
  if (v.pending.any (·.phase = .reserved)) then 1 else 0

def Standing.reportsLeft (v : Standing) : Nat :=
  if (v.pending.any (·.phase ≠ .review)) then 1 else 0

theorem reportsLeft_conclude (v : Standing) (a : Attempt) :
    (v.conclude a).postsLeft = 0 ∧ (v.conclude a).reportsLeft = 0 := by
  unfold postsLeft reportsLeft
  rcases conclude_pending v a with hnone | ⟨hreview, _⟩
  · simp [hnone]
  · simp [hreview]

/-- A move that reserves nothing uses up what is left. -/
theorem Moves.left (h : Moves v m v') (hm : ∀ x ∈ m, x.debit = none) :
    (m.toList.filterMap Mark.post).length + v'.postsLeft ≤ v.postsLeft
      ∧ (m.toList.filterMap Mark.filled).length + v'.reportsLeft ≤ v.reportsLeft := by
  cases h with
  | arm _ => simp [List.filterMap_cons, postsLeft, reportsLeft]
  | reserve a hnone hphase hstage hslot hcap => exact absurd (hm _ rfl) (by simp)
  | review a hp ho hphase hstage | armOrganic _ =>
    simp [List.filterMap_cons, postsLeft, reportsLeft]
  | post a hp hphase => simp [List.filterMap_cons, postsLeft, reportsLeft, hp, hphase]
  | report a filled hp hphase hfilled =>
    obtain ⟨hposts, hreports⟩ := reportsLeft_conclude v a
    rw [hposts, hreports]
    simp [List.filterMap_cons, reportsLeft, hp, hphase]
  | rest => simp
  | latch => simp [postsLeft, reportsLeft]
  | shut =>
    cases hp : v.pending with
    | none => simp [postsLeft, reportsLeft, hp]
    | some a =>
      by_cases hphase : a.phase = .review <;>
      simp [postsLeft, reportsLeft, hp, hphase]
  | fail a hp | finish _ _ => simp [postsLeft, reportsLeft]

theorem first_unreserved (hms : ∀ x ∈ m.toList ++ ms, x.debit = none) : ∀ x ∈ m, x.debit = none :=
  fun x hx => hms x (List.mem_append_left _ (Option.mem_toList.mpr hx))

/-- **Until the next reservation there is no more than one post and one report.** -/
theorem Travels.left (h : Travels v ms v') (hms : ∀ x ∈ ms, x.debit = none) :
    (ms.filterMap Mark.post).length + v'.postsLeft ≤ v.postsLeft
      ∧ (ms.filterMap Mark.filled).length + v'.reportsLeft ≤ v.reportsLeft := by
  induction h with
  | refl v => simp
  | @step v v' v'' m ms hmove _ ih =>
    obtain ⟨h₁, h₂⟩ := hmove.left (first_unreserved hms)
    obtain ⟨h₃, h₄⟩ := ih fun x hx => hms x (List.mem_append_right _ hx)
    rw [List.filterMap_append, List.filterMap_append, List.length_append, List.length_append]
    omega

/-- The attempts are one reservation, whatever has become of it. -/
def Attempt.SameOrder (a b : Attempt) : Prop :=
  a.identity = b.identity ∧ a.orderHash = b.orderHash ∧ a.bodyHash = b.bodyHash

/-- The pending attempt of the second standing is that of the first. -/
def Follows (v v' : Standing) : Prop :=
  ∀ a', v'.pending = some a' → ∃ a, v.pending = some a ∧ a'.SameOrder a
    ∧ (a'.phase = .reserved → a.phase = .reserved)

theorem Follows.refl (v : Standing) : Follows v v := fun a h => ⟨a, h, ⟨rfl, rfl, rfl⟩, id⟩

theorem Follows.trans {v''} (h : Follows v v') (h' : Follows v' v'') : Follows v v'' := by
  intro a'' ha''
  obtain ⟨a', ha', ⟨h₁, h₂, h₃⟩, hphase'⟩ := h' a'' ha''
  obtain ⟨a, ha, ⟨h₄, h₅, h₆⟩, hphase⟩ := h a' ha'
  exact ⟨a, ha, ⟨h₁.trans h₄, h₂.trans h₅, h₃.trans h₆⟩, fun hr => hphase (hphase' hr)⟩

/-- The pending attempt is replaced by a reservation only. -/
theorem Moves.follows (h : Moves v m v') (hm : ∀ x ∈ m, x.debit = none) : Follows v v' := by
  cases h with
  | arm _ => exact .refl v
  | reserve a hnone hphase hstage hslot hcap => exact absurd (hm _ rfl) (by simp)
  | review a hp ho hphase hstage => intro b hb; simp at hb
  | armOrganic _ => exact .refl v
  | post a hp hphase =>
    intro b hb
    obtain rfl := Option.some.inj hb
    exact ⟨a, hp, ⟨rfl, rfl, rfl⟩, fun hr => absurd hr (by simp)⟩
  | report a filled hp hphase hfilled =>
    intro b hb
    rcases conclude_pending v a with hnone | ⟨hreview, _⟩
    · exact absurd (hnone.symm.trans hb) (by simp)
    · obtain rfl := Option.some.inj (hreview.symm.trans hb)
      exact ⟨a, hp, ⟨rfl, rfl, rfl⟩, fun hr => absurd hr (by simp)⟩
  | rest | latch => exact .refl v
  | shut =>
    intro b hb
    exact ⟨b, (Option.filter_eq_some_iff.mp hb).1, ⟨rfl, rfl, rfl⟩, id⟩
  | fail a hp | finish _ _ => exact .refl v

theorem Travels.follows (h : Travels v ms v') (hms : ∀ x ∈ ms, x.debit = none) : Follows v v' := by
  induction h with
  | refl v => exact .refl v
  | @step v v' v'' m ms hmove _ ih =>
    exact (hmove.follows (first_unreserved hms)).trans
      (ih fun x hx => hms x (List.mem_append_right _ hx))

/-! ## Closing -/

/-- **A closing campaign stays closing, and opens nothing.** -/
theorem Moves.closing (hs : Settled v) (hclosing : v.IsClosing) (h : Moves v m v') :
    v'.IsClosing ∧ (m.bind Mark.milestone) = none := by
  have hne : ∀ stage, v.stage = stage → stage = .closedObserving ∨ stage = .closed := by
    intro stage heq
    rcases hclosing with h | h
    · exact .inl (heq.symm.trans h)
    · exact .inr (heq.symm.trans h)
  cases h with
  | arm hstage => exact absurd (hne _ hstage) (by simp)
  | reserve a hnone hphase hstage hslot hcap =>
    have := hne _ hstage
    cases ho : a.origin <;> simp [ho, home] at this
  | review a hp ho hphase hstage | armOrganic hstage => exact absurd (hne _ hstage) (by simp)
  | post a hp hphase => exact ⟨hclosing, rfl⟩
  | report a filled hp hphase hfilled =>
    -- with an attempt pending, a closing campaign is the observing one
    have hstage : v.stage = .closedObserving := by
      refine hclosing.resolve_right fun h => ?_
      have hnone := hs.away h (by intro o; cases o <;> simp [home]) (by simp)
      exact absurd (hnone.symm.trans hp) (by simp)
    refine ⟨.inl ?_, rfl⟩
    unfold Standing.conclude
    rw [if_neg (by simp [hstage])]
    exact hstage
  | rest => exact ⟨hclosing, rfl⟩
  | latch | shut => exact ⟨isClosing_closing v, rfl⟩
  | fail a hp => exact ⟨.inl rfl, rfl⟩
  | finish hstage hnone => exact ⟨.inr rfl, rfl⟩

end PredictionEdge.Canary
