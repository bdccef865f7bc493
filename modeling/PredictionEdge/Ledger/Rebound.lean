import PredictionEdge.Ledger.Cells
import PredictionEdge.Ledger.DocumentStandIn
import PredictionEdge.Ledger.RoundTrip

/-!
# Rebinding and documents

A mutation may be rebound to a verified identity any number of times. Its effect then keeps
the identity it was stamped with and the last verified one. All of it can be written and
read back, except when the last identity is the stamped one again.
-/

namespace PredictionEdge

open Lib

/-! ## Chains of rebindings -/

variable {e : LedgerEffect} {arith : DecimalArith}

namespace LedgerEffect

theorem effective_positionEffect {aggregate : ActivityAggregate}
    (h : LedgerMutation.positionEffect arith aggregate = .ok e) : e.effective = e := by
  unfold LedgerMutation.positionEffect at h
  cases hkind : aggregate.groupId.components.activityType <;> simp only [hkind] at h
  case trade =>
    obtain ⟨market, _, h⟩ := bind_eq_ok.mp h
    cases houtcome : aggregate.groupId.components.outcome <;> simp only [houtcome] at h
    case none => exact absurd h (by simp [throw, throwThe, MonadExceptOf.throw])
    cases hside : aggregate.groupId.components.side <;> simp only [hside] at h
    case none => exact absurd h (by simp [throw, throwThe, MonadExceptOf.throw])
    cases hprice : aggregate.volumeWeightedPrice arith <;> simp only [hprice] at h
    case error => exact absurd h (by simp [throw, throwThe, MonadExceptOf.throw])
    rw [← pure_eq_ok.mp h]
    rfl
  case split | merge =>
    obtain ⟨market, _, h⟩ := bind_eq_ok.mp h
    rw [← pure_eq_ok.mp h]
    rfl
  case redeem =>
    cases houtcome : aggregate.groupId.components.outcome <;> simp only [houtcome] at h
    case none =>
      rw [← pure_eq_ok.mp h]
      rfl
    obtain ⟨market, _, h⟩ := bind_eq_ok.mp h
    rw [← pure_eq_ok.mp h]
    rfl
  all_goals
    rw [← pure_eq_ok.mp h]
    rfl

/-- The effect of an activity group carries no correction. -/
theorem effective_activityEffect {aggregate : ActivityAggregate}
    (h : LedgerMutation.activityEffect arith aggregate = .ok e) : e.effective = e := by
  unfold LedgerMutation.activityEffect at h
  split at h
  case h_1 =>
    rw [← Except.ok.inj h]
    split <;> rfl
  case h_10 =>
    split at h
    · rw [← Except.ok.inj h]
      rfl
    · split at h
      · rw [← Except.ok.inj h]
        rfl
      · split at h
        · rw [← Except.ok.inj h]
          rfl
        · exact effective_positionEffect h
  all_goals
    rw [← Except.ok.inj h]
    rfl

theorem identity_withIdentity {i v : MarketOutcomeId} (hplain : e.effective = e)
    (h : e.identity = some i) : (e.withIdentity v).identity = some v := by
  rw [identity, hplain] at h
  cases e with
  | trade _ _ _ _ _ | redeem _ _ _ => rfl
  | _ => simp at h

theorem effective_withIdentity (v : MarketOutcomeId) (hplain : e.effective = e) :
    (e.withIdentity v).effective = e.withIdentity v := by
  cases e with
  | corrected d c => exact absurd hplain (effective_ne_corrected _ d c)
  | _ => rfl

theorem withIdentity_withIdentity (e : LedgerEffect) (v v' : MarketOutcomeId) :
    (e.withIdentity v).withIdentity v' = e.withIdentity v' := by
  cases e <;> rfl

end LedgerEffect

namespace LedgerMutation

/-- Rebind once for each verified identity and its evidence. -/
def rebind (m : LedgerMutation) (bindings : List (MarketOutcomeId × String)) : LedgerMutation :=
  bindings.foldl (fun m b => m.withVerifiedIdentity b.1 b.2) m

/-- Bound away from the identity it was stamped with, and in the end back to it. -/
def Returned (m : LedgerMutation) (bindings : List (MarketOutcomeId × String)) : Prop :=
  ∃ stamped ∈ m.effect.identity, (∃ b ∈ bindings, b.1 ≠ stamped)
    ∧ bindings.getLast?.map Prod.fst = some stamped

instance (m : LedgerMutation) (bindings : List (MarketOutcomeId × String)) :
    Decidable (m.Returned bindings) :=
  inferInstanceAs (Decidable (∃ stamped ∈ m.effect.identity, _))

/-- The mutation with its effect corrected from the stamped to the verified identity. -/
def correctedTo (m : LedgerMutation) (stamped verified : MarketOutcomeId) (evidenceHash : String) :
    LedgerMutation :=
  { m with effect := .corrected (m.effect.withIdentity verified) ⟨stamped, verified, evidenceHash⟩ }

variable {m : LedgerMutation} {stamped v v' : MarketOutcomeId} {evidence evidence' : String}
  {bindings : List (MarketOutcomeId × String)}

/-- The first rebinding that changes anything. -/
theorem withVerifiedIdentity_plain (hplain : m.effect.effective = m.effect)
    (hid : m.effect.identity = some stamped) :
    m.withVerifiedIdentity v evidence = if v = stamped then m else m.correctedTo stamped v evidence := by
  rw [withVerifiedIdentity, hid]
  simp only [LedgerEffect.correction_of_effective hplain, hplain]
  by_cases h : v = stamped
  · rw [if_pos h, if_pos h.symm]
  · rw [if_neg h, if_neg (Ne.symm h)]
    rfl

/-- Any later rebinding keeps the stamped identity. -/
theorem withVerifiedIdentity_corrected (hplain : m.effect.effective = m.effect)
    (hid : m.effect.identity = some stamped) :
    (m.correctedTo stamped v evidence).withVerifiedIdentity v' evidence'
      = if v' = v then m.correctedTo stamped v evidence else m.correctedTo stamped v' evidence' := by
  have hidentity : (m.correctedTo stamped v evidence).effect.identity = some v :=
    LedgerEffect.identity_withIdentity (v := v) hplain hid
  have heffective : (m.correctedTo stamped v evidence).effect.effective = m.effect.withIdentity v :=
    LedgerEffect.effective_withIdentity v hplain
  rw [withVerifiedIdentity, hidentity]
  simp only [heffective, LedgerEffect.withIdentity_withIdentity]
  by_cases h : v' = v
  · rw [if_pos h, if_pos h.symm]
  · rw [if_neg h, if_neg (Ne.symm h)]
    rfl

theorem rebind_of_identity_none (hid : m.effect.identity = none) : m.rebind bindings = m := by
  induction bindings with
  | nil => rfl
  | cons b bindings ih =>
    have : m.withVerifiedIdentity b.1 b.2 = m := by rw [withVerifiedIdentity, hid]
    rw [rebind, List.foldl_cons, this]
    exact ih

/--
What a chain of rebindings comes to: nothing when every identity is the stamped one, and
otherwise a correction from the stamped identity to the last one.
-/
theorem rebind_eq (bindings : List (MarketOutcomeId × String))
    (hplain : m.effect.effective = m.effect) (hid : m.effect.identity = some stamped) :
    ((∀ b ∈ bindings, b.1 = stamped) ∧ m.rebind bindings = m)
      ∨ ((∃ b ∈ bindings, b.1 ≠ stamped) ∧ ∃ v evidence, m.rebind bindings = m.correctedTo stamped v evidence
        ∧ bindings.getLast?.map Prod.fst = some v) := by
  induction bindings using List.reverseRecOn with
  | nil => exact Or.inl ⟨by simp, rfl⟩
  | append_singleton bindings b ih =>
    have hstep : m.rebind (bindings ++ [b]) = (m.rebind bindings).withVerifiedIdentity b.1 b.2 := by
      simp [rebind]
    rw [hstep]
    rcases ih with ⟨hall, hm⟩ | ⟨⟨a, ha, hne⟩, v, evidence, hm, hlast⟩
    · rw [hm, withVerifiedIdentity_plain hplain hid]
      by_cases h : b.1 = stamped
      · rw [if_pos h]
        refine Or.inl ⟨fun a ha => ?_, rfl⟩
        rcases List.mem_append.mp ha with ha | ha
        · exact hall a ha
        · rw [List.mem_singleton.mp ha]
          exact h
      · rw [if_neg h]
        exact Or.inr ⟨⟨b, by simp, h⟩, b.1, b.2, rfl, by simp⟩
    · right
      refine ⟨⟨a, List.mem_append_left _ ha, hne⟩, ?_⟩
      rw [hm, withVerifiedIdentity_corrected hplain hid]
      by_cases h : b.1 = v
      · rw [if_pos h]
        exact ⟨v, evidence, rfl, by simp [h]⟩
      · rw [if_neg h]
        exact ⟨b.1, b.2, rfl, by simp⟩

/-- A chain that does not end where it started leaves an effect that can be read back. -/
theorem recordable_rebind (hplain : m.effect.effective = m.effect) (h : ¬ m.Returned bindings) :
    (m.rebind bindings).effect.Recordable := by
  cases hid : m.effect.identity with
  | none =>
    rw [rebind_of_identity_none hid]
    exact .plain hplain
  | some stamped =>
    rcases rebind_eq bindings hplain hid with ⟨_, hm⟩ | ⟨hex, v, evidence, hm, hlast⟩
    · rw [hm]
      exact .plain hplain
    · rw [hm]
      refine .corrected (LedgerEffect.effective_withIdentity v hplain)
        (LedgerEffect.identity_withIdentity hplain hid) ?_
      intro heq
      exact h ⟨stamped, hid, hex, by rw [hlast]; exact congrArg some heq.symm⟩

/-- A chain that does leaves a correction of an identity to itself. -/
theorem rebind_returned (hplain : m.effect.effective = m.effect) (h : m.Returned bindings) :
    ∃ stamped evidence, m.effect.identity = some stamped
      ∧ m.rebind bindings = m.correctedTo stamped stamped evidence := by
  obtain ⟨stamped, hid, ⟨b, hb, hne⟩, hlast⟩ := h
  rcases rebind_eq bindings hplain hid with ⟨hall, _⟩ | ⟨_, v, evidence, hm, hlast'⟩
  · exact absurd (hall b hb) hne
  · rw [hlast] at hlast'
    obtain rfl := Option.some.inj hlast'
    exact ⟨stamped, evidence, hid, hm⟩

/-- A mutation that came from an activity group carries no correction. -/
theorem effective_fromActivity {blake3 : List UInt8 → String} {aggregate : ActivityAggregate}
    (h : fromActivity blake3 arith aggregate = .ok m) : m.effect.effective = m.effect :=
  LedgerEffect.effective_activityEffect (fromActivity_ok h).2.2

end LedgerMutation

/-! ## What the ledger applies -/

/-- The ledger reports the effect it was given, with a residual that the encoder accepts. -/
theorem applyInPlace_applied {m : LedgerMutation} {s s' : Batch} {applied : AppliedEffect}
    (h : applyInPlace m s = .ok (s', applied)) :
    applied.effect = m.effect
      ∧ validateClampedResidual applied.effect applied.clampedResidual = .ok () := by
  obtain ⟨r, hr, -, rfl⟩ := applyInPlace_ok h
  refine ⟨rfl, ?_⟩
  rcases (cellStep_ok hr).2 with hnone | ⟨market, outcome, amount, c, x, heffect, hx, hresidual⟩
  · rw [hnone]
    rfl
  · rw [hresidual]
    -- only a redemption leaves a residual, and a small one
    obtain ⟨-, ⟨_, -, rfl⟩ | ⟨hlt, hlimit, rfl⟩⟩ := redeemCell_ok hx
    · rfl
    · simp only [validateClampedResidual]
      rw [if_neg (by omega), heffect]

/-- A trade on an empty position goes through. -/
theorem applyTrade_default (side : Side) (amount : ShareAmount) (id : SourceTradeId) :
    ∃ state, applyTrade .default side amount id = .ok state := by
  have hnone : (ExactAmount.zero : ShareAmount).checkedSub (ExactAmount.zero.min amount)
      = .ok .zero := ExactAmount.checkedSub_ok.mpr (by simp)
  have hall : amount.checkedSub (ExactAmount.zero.min amount) = .ok amount :=
    ExactAmount.checkedSub_ok.mpr (by simp)
  have hsum : (ExactAmount.zero : ShareAmount).checkedAdd amount = .ok amount :=
    ExactAmount.checkedAdd_ok.mpr (by simp)
  cases side with
  | buy =>
    refine ⟨⟨amount, .zero⟩, ?_⟩
    simp [applyTrade, PositionState.default, hnone, hall, hsum, Except.mapError, bind,
      Except.bind, pure, Except.pure]
  | sell =>
    refine ⟨⟨.zero, amount⟩, ?_⟩
    simp [applyTrade, PositionState.default, hnone, hall, hsum, Except.mapError, bind,
      Except.bind, pure, Except.pure]

/-- A redemption of all that is held goes through. -/
theorem redeemCell_all (amount : ShareAmount) (id : SourceTradeId) :
    ∃ r, redeemCell ⟨some ⟨amount, .zero⟩, false⟩ amount id = .ok r := by
  have hall : amount.checkedSub amount = .ok .zero := ExactAmount.checkedSub_ok.mpr (by simp)
  refine ⟨((⟨.zero, .zero⟩, false), none), ?_⟩
  simp [redeemCell, removeLong, Cell.stateMut, hall, Except.mapError, Except.map,
    ExactAmount.le_iff]

/-- A mutation of a single outcome is applied by some ledger. -/
theorem exists_applyInPlace {m : LedgerMutation} {i : MarketOutcomeId}
    (h : m.effect.identity = some i) : ∃ s s' applied, applyInPlace m s = .ok (s', applied) := by
  have hstep : ∀ (s : Batch) r, cellStep m (m.touchedKeys.map (s.cell m.wallet)) = .ok r →
      ∃ s s' applied, applyInPlace m s = .ok (s', applied) := by
    intro s r hr
    exact ⟨s, _, _, by rw [applyInPlace_eq_cellStep, hr]; rfl⟩
  unfold LedgerEffect.identity at h
  cases he : m.effect.effective with
  | trade market outcome side amount price =>
    obtain ⟨state, hstate⟩ := applyTrade_default side amount m.sourceTradeId
    refine hstep ⟨.new, ∅⟩ ([(state, false)], none) ?_
    have hcell : Batch.cell m.wallet ⟨.new, ∅⟩ ⟨market, outcome⟩ = ⟨none, false⟩ := by
      simp [Batch.cell, PositionLedger.stateAt, PositionLedger.position, PositionLedger.new]
    simp [cellStep, LedgerMutation.touchedKeys, he, hcell, Cell.stateMut, hstate, Except.map]
  | redeem market outcome amount =>
    obtain ⟨r, hr⟩ := redeemCell_all amount m.sourceTradeId
    refine hstep ⟨PositionLedger.new.setState m.wallet ⟨market, outcome⟩ ⟨amount, .zero⟩, ∅⟩
      ([r.1], r.2) ?_
    have hcell : Batch.cell m.wallet
        ⟨PositionLedger.new.setState m.wallet ⟨market, outcome⟩ ⟨amount, .zero⟩, ∅⟩
        ⟨market, outcome⟩ = ⟨some ⟨amount, .zero⟩, false⟩ := by
      simp [Batch.cell, PositionLedger.stateAt_setState]
    simp [cellStep, LedgerMutation.touchedKeys, he, hcell, hr, Except.map]
  | _ =>
    rw [he] at h
    simp at h

/-! ## The round trip -/

/-- The document of a correction from an identity to itself is refused. -/
theorem fromDocument_selfCorrection {libs : DocumentLibraries} (hlibs : libs.Lawful)
    {c : IdentityCorrection} {residual : Option Nat} {scale : Option Nat} {u : Unit} {text : String}
    (hplain : e.effective = e) (hself : c.stamped = c.verified)
    (hscale : (LedgerEffect.corrected e c).WrittenAt scale)
    (hresidual : validateClampedResidual (.corrected e c) residual = .ok u)
    (htext : AppliedEffect.toDocument libs ⟨.corrected e c, residual⟩ scale = .ok text) :
    AppliedEffect.fromDocument libs text
      = .error (.malformed "ledger identity correction does not change identity") := by
  obtain ⟨_, _, htext⟩ := bind_eq_ok.mp htext
  obtain rfl := pure_eq_ok.mp htext
  rw [AppliedEffect.fromDocument_written hlibs hscale hresidual,
    AppliedEffect.applied_document_corrected hplain hresidual, correctedEffect, if_pos hself]
  rfl

/--
**Effect documents are read back, unless the effect was bound back to its stamp.**

Whatever the ledger applies of a mutation is written and read back as it was, exactly when
the rebindings do not lead away from the stamped identity and back to it. And a text that
is accepted holds the JSON value that its decoded effect is encoded to.
-/
theorem document_roundTrip_iff {libs : DocumentLibraries} (hlibs : libs.Lawful)
    {blake3 : List UInt8 → String} {arith : DecimalArith} {aggregate : ActivityAggregate}
    {m : LedgerMutation} (hm : LedgerMutation.fromActivity blake3 arith aggregate = .ok m)
    (bindings : List (MarketOutcomeId × String)) :
    ((∀ s s' applied scale, applyInPlace (m.rebind bindings) s = .ok (s', applied) →
        applied.effect.WrittenAt scale →
        ∃ text, applied.toDocument libs scale = .ok text
          ∧ AppliedEffect.fromDocument libs text = .ok (applied, scale))
      ↔ ¬ m.Returned bindings)
    ∧ ∀ text applied scale, AppliedEffect.fromDocument libs text = .ok (applied, scale) →
        ∃ value again, libs.fromStr text = .ok value ∧ applied.toDocument libs scale = .ok again
          ∧ libs.fromStr again = .ok value := by
  have hplain := LedgerMutation.effective_fromActivity hm
  refine ⟨⟨fun h hreturned => ?_, fun h s s' applied scale happly hscale => ?_⟩,
    fun text applied scale h => AppliedEffect.toDocument_fromDocument hlibs h⟩
  · -- some ledger applies the mutation, and its document is refused
    obtain ⟨stamped, evidence, hid, hrebind⟩ := LedgerMutation.rebind_returned hplain hreturned
    rw [hrebind] at h
    have hidentity : (m.correctedTo stamped stamped evidence).effect.identity = some stamped :=
      LedgerEffect.identity_withIdentity (v := stamped) hplain hid
    obtain ⟨s, s', ⟨effect, residual⟩, happly⟩ := exists_applyInPlace hidentity
    obtain ⟨heffect, hresidual⟩ := applyInPlace_applied happly
    subst heffect
    obtain ⟨scale, hscale⟩ := LedgerEffect.exists_writtenAt (m.correctedTo stamped stamped evidence).effect
    obtain ⟨text, htext, hread⟩ := h s s' _ scale happly hscale
    have hrefused := fromDocument_selfCorrection hlibs (LedgerEffect.effective_withIdentity stamped hplain)
      rfl hscale hresidual htext
    rw [hrefused] at hread
    simp at hread
  · obtain ⟨heffect, hresidual⟩ := applyInPlace_applied happly
    refine AppliedEffect.fromDocument_toDocument hlibs ?_ hscale hresidual
    rw [heffect]
    exact LedgerMutation.recordable_rebind hplain h

/-! ## A purchase that is bound back -/

namespace BoughtGroup

/-- One share of the first outcome of a market, bought at a half. -/
def aggregate : ActivityAggregate where
  groupId := ⟨⟨"g2:00"⟩, ⟨.trade, ⟨0xaa⟩, "0x01", some ⟨"0xa1"⟩, none, some ⟨0⟩, some .buy⟩⟩
  shareSum := ⟨1000000, by decide⟩
  priceWeightedShareSum := ⟨1 / 2, by decide +kernel⟩
  sourceTime := ⟨0⟩
  isCombo := false

def stamped : MarketOutcomeId := ⟨⟨⟨"0xa1"⟩⟩, ⟨0⟩⟩

def other : MarketOutcomeId := ⟨⟨⟨"0xa1"⟩⟩, ⟨1⟩⟩

def price : Price := ⟨⟨1 / 2, by decide +kernel⟩⟩

def mutation : LedgerMutation :=
  ⟨⟨"g2:00"⟩, "0x01", ⟨0xaa⟩, ⟨0⟩, .trade stamped.market stamped.outcome .buy aggregate.shareSum price⟩

theorem fromActivity_aggregate :
    LedgerMutation.fromActivity (fun _ => "00") .rounded aggregate = .ok mutation := by
  decide +kernel

theorem price_fits : (WrittenPrice.mk price 1).Fits := ⟨by decide, 5, by norm_num [price, Price.toRat], by norm_num⟩

/-- Bound to the other outcome and back, the purchase is stored in a document that is refused. -/
theorem boundBack_refused : ∃ s' text,
    applyInPlace (mutation.rebind [(other, "page"), (stamped, "page")]) ⟨.new, ∅⟩
        = .ok (s', ⟨.corrected mutation.effect ⟨stamped, stamped, "page"⟩, none⟩)
      ∧ AppliedEffect.toDocument DocumentStandIn.libraries
          ⟨.corrected mutation.effect ⟨stamped, stamped, "page"⟩, none⟩ (some 1) = .ok text
      ∧ AppliedEffect.fromDocument DocumentStandIn.libraries text
        = .error (.malformed "ledger identity correction does not change identity") := by
  obtain ⟨r, hr, heq⟩ := exists_ok_of_any
    (x := applyInPlace (mutation.rebind [(other, "page"), (stamped, "page")]) ⟨.new, ∅⟩)
    (p := fun r => decide (r.2 = ⟨.corrected mutation.effect ⟨stamped, stamped, "page"⟩, none⟩))
    (by decide +kernel)
  have heq := of_decide_eq_true heq
  have hscale : (LedgerEffect.corrected mutation.effect ⟨stamped, stamped, "page"⟩).WrittenAt (some 1) :=
    ⟨1, rfl, price_fits⟩
  have htext : AppliedEffect.toDocument DocumentStandIn.libraries
      ⟨.corrected mutation.effect ⟨stamped, stamped, "page"⟩, none⟩ (some 1) = .ok _ := rfl
  have hresidual : validateClampedResidual
      (.corrected mutation.effect ⟨stamped, stamped, "page"⟩) none = .ok () := rfl
  exact ⟨r.1, _, by rw [hr, ← heq], htext,
    fromDocument_selfCorrection DocumentStandIn.libraries_lawful rfl rfl hscale hresidual htext⟩

/-- Bound to the other outcome only, it is read back. -/
theorem bound_roundTrip : ¬ mutation.Returned [(other, "page")]
    ∧ ∀ s s' applied scale, applyInPlace (mutation.rebind [(other, "page")]) s = .ok (s', applied) →
      applied.effect.WrittenAt scale →
      ∃ text, applied.toDocument DocumentStandIn.libraries scale = .ok text
        ∧ AppliedEffect.fromDocument DocumentStandIn.libraries text = .ok (applied, scale) :=
  ⟨by decide, (document_roundTrip_iff DocumentStandIn.libraries_lawful fromActivity_aggregate
    [(other, "page")]).1.mpr (by decide)⟩

end BoughtGroup

end PredictionEdge
