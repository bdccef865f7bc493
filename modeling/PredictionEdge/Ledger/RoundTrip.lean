import PredictionEdge.Ledger.Document

/-!
# Documents are read back

A document read back gives the applied effect it was written from, unless the effect was
rebound to another identity and then back to the one it was stamped with: such an effect
carries a correction from an identity to itself, which the encoder writes and the decoder
refuses. A text that is accepted is always the encoding of what it decodes to.
-/

namespace PredictionEdge

open Lib

/-! ## Effects and their data -/

namespace LedgerEffectDto

theorem toEffect_ofEffect (scale : Option Nat) : ∀ e : LedgerEffect,
    (ofEffect scale e).toEffect = e.effective
  | .corrected e _ => toEffect_ofEffect scale e
  | .trade .. | .split .. | .merge .. | .redeem .. | .requiresAnchor | .conversion | .rawOnly
  | .unknownEffect => rfl

theorem effective_toEffect (d : LedgerEffectDto) : d.toEffect.effective = d.toEffect := by
  cases d <;> rfl

end LedgerEffectDto

variable {e : LedgerEffect} {u : Unit}

namespace LedgerEffect

/-- The scale that goes with an effect: a trade's price has one that fits it. -/
def WrittenAt (scale : Option Nat) (e : LedgerEffect) : Prop :=
  match e.effective with
  | trade _ _ _ _ price => ∃ s, scale = some s ∧ (WrittenPrice.mk price s).Fits
  | _ => scale = none

/-- Every effect can be written. -/
theorem exists_writtenAt (e : LedgerEffect) : ∃ scale, e.WrittenAt scale := by
  unfold WrittenAt
  cases e.effective with
  | trade _ _ _ _ price =>
    obtain ⟨s, hs⟩ := price.exists_fits
    exact ⟨some s, s, rfl, hs⟩
  | _ => exact ⟨none, rfl⟩

theorem WrittenAt.scale_ofEffect {scale : Option Nat} (h : e.WrittenAt scale) :
    (LedgerEffectDto.ofEffect scale e.effective).scale = scale := by
  unfold WrittenAt at h
  cases he : e.effective with
  | trade _ _ _ _ price =>
    rw [he] at h
    obtain ⟨s, rfl, _⟩ := h
    rfl
  | corrected d c => exact absurd he (effective_ne_corrected e d c)
  | _ =>
    rw [he] at h
    exact h.symm

/--
What the decoder accepts of an effect: none of it corrected, or one correction that does
change the identity and names the one the effect has.
-/
inductive Recordable : LedgerEffect → Prop where
  | plain {e : LedgerEffect} (h : e.effective = e) : Recordable e
  | corrected {e : LedgerEffect} {c : IdentityCorrection} (h : e.effective = e)
      (hid : e.identity = some c.verified) (hne : c.stamped ≠ c.verified) :
      Recordable (.corrected e c)

theorem correction_of_effective (h : e.effective = e) : e.correction = none := by
  cases e with
  | corrected d c => exact absurd h (effective_ne_corrected _ d c)
  | _ => rfl

end LedgerEffect

/-! ## Writing and reading back -/

/-- A residual that passes is a small one. -/
theorem validateClampedResidual_lt {residual : Option Nat}
    (h : validateClampedResidual e residual = .ok u) : ∀ r ∈ residual, r < 100 := by
  intro r hr
  rw [Option.mem_def] at hr
  subst hr
  unfold validateClampedResidual at h
  simp only at h
  split at h
  · simp at h
  · rename_i hlimit
    rw [not_or, not_le] at hlimit
    exact hlimit.2

/-- A correction that passes is the one given. -/
theorem eq_of_correctedEffect {e' : LedgerEffect} {c : IdentityCorrection}
    (h : correctedEffect e c = .ok e') : e' = .corrected e c := by
  unfold correctedEffect at h
  split at h
  · simp at h
  · split at h
    · simp at h
    · exact (Except.ok.inj h).symm

namespace AppliedEffect

variable {libs : DocumentLibraries} {applied : AppliedEffect} {scale : Option Nat}

theorem document_fits (hscale : applied.effect.WrittenAt scale)
    (hresidual : validateClampedResidual applied.effect applied.clampedResidual = .ok u) :
    (applied.document scale).Fits where
  version := by
    simp only [document]
    split
    · omega
    · split <;> omega
  residual := by
    intro r hr
    have := validateClampedResidual_lt hresidual r hr
    omega
  price := by
    intro market outcome side price amount h
    unfold LedgerEffect.WrittenAt at hscale
    simp only [document] at h
    cases he : applied.effect.effective with
    | trade m o side' amount' price' =>
      rw [he] at h hscale
      obtain ⟨s, rfl, hfits⟩ := hscale
      simp only [LedgerEffectDto.ofEffect, Option.getD_some, LedgerEffectDto.trade.injEq] at h
      rw [← h.2.2.2.1]
      exact hfits
    | corrected d c => exact absurd he (LedgerEffect.effective_ne_corrected _ d c)
    | _ =>
      rw [he] at h
      simp [LedgerEffectDto.ofEffect] at h

/-- What the decoder makes of the document of an effect without correction. -/
theorem applied_document_plain (hplain : applied.effect.effective = applied.effect)
    (hresidual : validateClampedResidual applied.effect applied.clampedResidual = .ok u) :
    (applied.document scale).applied = .ok applied := by
  obtain ⟨effect, residual⟩ := applied
  simp only at hplain hresidual
  have hcorrection := LedgerEffect.correction_of_effective hplain
  have heffect : (LedgerEffectDto.ofEffect scale effect.effective).toEffect = effect := by
    rw [LedgerEffectDto.toEffect_ofEffect, LedgerEffect.effective_effective, hplain]
  cases residual with
  | none => simp [document, LedgerEffectDocument.applied, hcorrection, heffect]
  | some r => simp [document, LedgerEffectDocument.applied, LedgerEffectDocument.identified,
      hcorrection, heffect, hresidual, bind, Except.bind, pure, Except.pure]

/-- What the decoder makes of the document of a corrected effect. -/
theorem applied_document_corrected {c : IdentityCorrection} {residual : Option Nat}
    (hplain : e.effective = e)
    (hresidual : validateClampedResidual (.corrected e c) residual = .ok u) :
    ((mk (.corrected e c) residual).document scale).applied
      = (correctedEffect e c).map fun effect => ⟨effect, residual⟩ := by
  have heffect : (LedgerEffectDto.ofEffect scale (LedgerEffect.corrected e c).effective).toEffect
      = e := by
    rw [LedgerEffectDto.toEffect_ofEffect, LedgerEffect.effective_effective]
    exact hplain
  cases hc : correctedEffect e c with
  | error err =>
    cases residual <;> simp [document, LedgerEffectDocument.applied, LedgerEffect.correction,
      LedgerEffectDocument.identified, heffect, hc, bind, Except.bind, Except.map]
  | ok effect =>
    obtain rfl := eq_of_correctedEffect hc
    cases residual <;> simp [document, LedgerEffectDocument.applied, LedgerEffect.correction,
      LedgerEffectDocument.identified, heffect, hc, hresidual, bind, Except.bind, pure,
      Except.pure, Except.map]

theorem applied_document (hrecordable : applied.effect.Recordable)
    (hresidual : validateClampedResidual applied.effect applied.clampedResidual = .ok u) :
    (applied.document scale).applied = .ok applied := by
  obtain ⟨effect, residual⟩ := applied
  cases hrecordable with
  | plain h => exact applied_document_plain h hresidual
  | @corrected e c h hid hne =>
    rw [applied_document_corrected h hresidual, correctedEffect, if_neg hne,
      if_neg (not_not.mpr hid)]
    rfl

/-- Reading a document that was written comes down to the check of its versions. -/
theorem fromDocument_written (hlibs : libs.Lawful) (hscale : applied.effect.WrittenAt scale)
    (hresidual : validateClampedResidual applied.effect applied.clampedResidual = .ok u) :
    fromDocument libs (libs.toText ((applied.document scale).toValue libs)) = do
      let again ← (applied.document scale).applied
      let canonical ← again.toDocument libs scale
      refuseIf (libs.toText ((applied.document scale).toValue libs) ≠ canonical)
        (.malformed "document is not the canonical encoding of its effect")
      return (again, scale) := by
  have hfits := document_fits hscale hresidual
  have hdto : (applied.document scale).effect.scale = scale := hscale.scale_ofEffect
  rw [fromDocument, hlibs.fromStr_toText _ hfits]
  simp only [Except.mapError, ok_bind]
  rw [hlibs.fromValue_toValue _ hfits]
  simp only [ok_bind, hdto]

/-- **A document that was written is read back.** -/
theorem fromDocument_toDocument (hlibs : libs.Lawful) (hrecordable : applied.effect.Recordable)
    (hscale : applied.effect.WrittenAt scale)
    (hresidual : validateClampedResidual applied.effect applied.clampedResidual = .ok u) :
    ∃ text, applied.toDocument libs scale = .ok text
      ∧ fromDocument libs text = .ok (applied, scale) := by
  have hwritten : applied.toDocument libs scale
      = .ok (libs.toText ((applied.document scale).toValue libs)) := by
    rw [toDocument, hresidual]
    rfl
  refine ⟨_, hwritten, ?_⟩
  rw [fromDocument_written hlibs hscale hresidual, applied_document hrecordable hresidual,
    ok_bind, hwritten, ok_bind]
  simp [refuseIf, bind, Except.bind, pure, Except.pure]

/-- The effect that counts is the one the document names. -/
theorem effective_applied {d : LedgerEffectDocument} (h : d.applied = .ok applied) :
    applied.effect.effective = d.effect.toEffect := by
  unfold LedgerEffectDocument.applied at h
  split at h
  case h_1 =>
    rw [← Except.ok.inj h]
    exact d.effect.effective_toEffect
  case h_4 =>
    obtain ⟨effect, heffect, h⟩ := bind_eq_ok.mp h
    rw [← pure_eq_ok.mp h, eq_of_correctedEffect heffect]
    exact d.effect.effective_toEffect
  case h_7 =>
    obtain ⟨effect, heffect, h⟩ := bind_eq_ok.mp h
    obtain ⟨_, _, h⟩ := bind_eq_ok.mp h
    rw [← pure_eq_ok.mp h]
    unfold LedgerEffectDocument.identified at heffect
    split at heffect
    · rw [eq_of_correctedEffect heffect]
      exact d.effect.effective_toEffect
    · rw [← Except.ok.inj heffect]
      exact d.effect.effective_toEffect
  all_goals exact absurd h (by simp)

theorem writtenAt_applied {d : LedgerEffectDocument} (hfits : d.Fits) (h : d.applied = .ok applied) :
    applied.effect.WrittenAt d.effect.scale := by
  rw [LedgerEffect.WrittenAt, effective_applied h]
  cases he : d.effect with
  | trade market outcome side price amount =>
    exact ⟨price.scale, rfl, hfits.price _ _ _ _ _ he⟩
  | _ => rfl

/-- **What is accepted is the encoding of what it decodes to.** -/
theorem toDocument_fromDocument {text : String} (hlibs : libs.Lawful)
    (h : fromDocument libs text = .ok (applied, scale)) :
    ∃ value again, libs.fromStr text = .ok value ∧ applied.toDocument libs scale = .ok again
      ∧ libs.fromStr again = .ok value := by
  obtain ⟨value, hvalue, h⟩ := bind_eq_ok.mp h
  obtain ⟨decoded, hdecoded, h⟩ := bind_eq_ok.mp h
  obtain ⟨applied', happlied, h⟩ := bind_eq_ok.mp h
  obtain ⟨canonical, hcanonical, h⟩ := bind_eq_ok.mp h
  obtain ⟨_, hsame, h⟩ := bind_eq_ok.mp h
  obtain ⟨rfl, rfl⟩ := Prod.mk.inj (pure_eq_ok.mp h)
  rw [refuseIf_eq_ok, not_not] at hsame
  refine ⟨value, canonical, mapError_eq_ok.mp hvalue, hcanonical, ?_⟩
  -- the document that is encoded again fits, because the one that was decoded did
  have hfits := hlibs.fromValue_fits _ _ (mapError_eq_ok.mp hdecoded)
  have hwritten := writtenAt_applied hfits happlied
  obtain ⟨_, hresidual, hcanonical⟩ := bind_eq_ok.mp hcanonical
  obtain rfl := pure_eq_ok.mp hcanonical
  rw [hlibs.toText_injective _ _ hsame]
  exact hlibs.fromStr_toText _ (document_fits hwritten hresidual)

end AppliedEffect

end PredictionEdge
