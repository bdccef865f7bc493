import PredictionEdge.Ledger.Document

/-!
# Stand-in document libraries

Plain functions that keep the laws the documents rely on: values are written by a
self-delimiting encoding, a decimal by its scale and coefficient, and a document is read
field by field.
-/

namespace PredictionEdge

open Lib (Json Wire)

variable {v : Json}

namespace Lib.Json

variable {fields : List (String × Json)} {key : String}

theorem lookup_eq_some_of_mem (hnodup : (fields.map Prod.fst).Nodup) (hmem : (key, v) ∈ fields) :
    fields.lookup key = some v := by
  obtain ⟨before, after, rfl⟩ := List.append_of_mem hmem
  refine List.lookup_eq_some_iff.mpr ⟨before, after, rfl, fun p hp => bne_iff_ne.mpr ?_⟩
  rw [List.map_append, List.nodup_append] at hnodup
  exact (hnodup.2.2 p.1 (List.mem_map_of_mem hp) key List.mem_cons_self).symm

theorem lookup_eq_none_of_not_mem (h : key ∉ fields.map Prod.fst) : fields.lookup key = none :=
  List.lookup_eq_none_iff.mpr fun _ hp => bne_iff_ne.mpr fun heq => h (heq ▸ List.mem_map_of_mem hp)

/-- The order in which the fields were given does not matter. -/
theorem field_ofFields (h : (fields.map Prod.fst).Nodup)
    (key : String) : (ofFields fields).field key = fields.lookup key := by
  have hperm := sortOn_perm Prod.fst fields
  show (sortOn Prod.fst fields).lookup key = _
  by_cases hkey : key ∈ fields.map Prod.fst
  · obtain ⟨⟨k, v⟩, hmem, rfl⟩ := List.mem_map.mp hkey
    rw [lookup_eq_some_of_mem h hmem,
      lookup_eq_some_of_mem ((hperm.map _).nodup_iff.mpr h) (hperm.mem_iff.mpr hmem)]
  · rw [lookup_eq_none_of_not_mem hkey, lookup_eq_none_of_not_mem fun hmem =>
      hkey ((hperm.map _).mem_iff.mp hmem)]

/-- A number below a bound. -/
def asBelow (bound : Nat) : Json → Option Nat
  | number n => if 0 ≤ n ∧ n.toNat < bound then some n.toNat else none
  | _ => none

theorem asBelow_number {bound n : Nat} (h : n < bound) : (number n).asBelow bound = some n := by
  simp [asBelow, h]

theorem asBelow_lt {bound n : Nat} (h : v.asBelow bound = some n) : n < bound := by
  unfold asBelow at h
  split at h
  · split at h
    · rename_i hb
      rw [← Option.some.inj h]
      exact hb.2
    · simp at h
  · simp at h

end Lib.Json

variable {d : LedgerEffectDocument}

namespace DocumentStandIn

/-! ## Decimals -/

def coefficient : Wire (Nat × Int) := Wire.nat.pair Json.int

def decimalText (p : WrittenPrice) : String :=
  coefficient.toText (p.scale, (p.price.toRat * 10 ^ p.scale).num)

theorem representable_coefficient {scale : Nat} {c : Int} (h : scale < 29 ∧ c.natAbs < 2 ^ 96) :
    Representable ((c : ℚ) / 10 ^ scale) :=
  Decimal.representable_iff.mpr ⟨scale, h.1, c, rfl, by rw [Int.abs_eq_natAbs]; omega⟩

def decimalOf (s : String) : Option WrittenPrice :=
  (coefficient.ofText s).bind fun p =>
    if h : p.1 < 29 ∧ p.2.natAbs < 2 ^ 96 then
      some ⟨⟨⟨(p.2 : ℚ) / 10 ^ p.1, representable_coefficient h⟩⟩, p.1⟩
    else none

theorem decimalOf_decimalText {p : WrittenPrice} (h : p.Fits) : decimalOf (decimalText p) = some p := by
  obtain ⟨price, scale⟩ := p
  obtain ⟨hscale, c, hc, hlt⟩ := h
  simp only at hscale hc hlt
  have hcoefficient : (price.toRat * 10 ^ scale).num = c := by
    rw [hc, div_mul_cancel₀ _ (Lib.ten_pow_pos scale).ne', Rat.num_intCast]
  rw [decimalOf, decimalText, coefficient.ofText_toText, Option.bind_some]
  simp only [hcoefficient]
  rw [Int.abs_eq_natAbs] at hlt
  rw [dif_pos ⟨hscale, by omega⟩]
  refine congrArg some (congrArg (WrittenPrice.mk · scale) (Price.toRat_injective ?_))
  exact hc.symm

theorem decimalOf_fits {s : String} {p : WrittenPrice} (h : decimalOf s = some p) : p.Fits := by
  obtain ⟨⟨scale, c⟩, _, h⟩ := Option.bind_eq_some_iff.mp h
  simp only at h
  split at h
  · rename_i hfits
    rw [← Option.some.inj h]
    exact ⟨hfits.1, c, rfl, by rw [Int.abs_eq_natAbs]; have := hfits.2; omega⟩
  · simp at h

/-! ## Reading a document -/

section

variable (v : Json)

def marketOf : Option MarketId := v.asText.map fun s => ⟨⟨s⟩⟩

def outcomeOf : Option OutcomeId := (v.asBelow (2 ^ 16)).map fun n => ⟨UInt16.ofNat n⟩

def amountOf : Option ShareAmount :=
  (v.asBelow (2 ^ 64)).bind fun n => if h : n < 2 ^ 64 then some ⟨n, h⟩ else none

def sideOf : Option Side :=
  v.asText.bind fun s => if s = "Buy" then some .buy else if s = "Sell" then some .sell else none

def u64Of : Option Nat := v.asBelow (2 ^ 64)

def keyOf : Option MarketOutcomeId := do
  let market ← (v.field "market").bind marketOf
  let outcome ← (v.field "outcome").bind outcomeOf
  return ⟨market, outcome⟩

def correctionOf : Option IdentityCorrection := do
  let stamped ← (v.field "stamped").bind keyOf
  let verified ← (v.field "verified").bind keyOf
  let evidenceHash ← (v.field "evidence_hash").bind Json.asText
  return ⟨stamped, verified, evidenceHash⟩

/-- The fields of each kind of effect. -/
def effectOfKind (kind : String) : Option LedgerEffectDto := do
  let market := (v.field "market").bind marketOf
  let outcome := (v.field "outcome").bind outcomeOf
  let amount := (v.field "amount").bind amountOf
  if kind = "trade" then
    let side ← (v.field "side").bind sideOf
    let price ← ((v.field "price").bind Json.asText).bind decimalOf
    return .trade (← market) (← outcome) side price (← amount)
  else if kind = "split" then return .split (← market) (← amount)
  else if kind = "merge" then return .merge (← market) (← amount)
  else if kind = "redeem" then return .redeem (← market) (← outcome) (← amount)
  else if kind = "requires_anchor" then return .requiresAnchor
  else if kind = "conversion" then return .conversion
  else if kind = "raw_only" then return .rawOnly
  else if kind = "unknown_effect" then return .unknownEffect
  else none

def effectOf : Option LedgerEffectDto :=
  ((v.field "kind").bind Json.asText).bind (effectOfKind v)

end

/-- A field that may be left out. -/
def optionalOf {α : Type} (read : Json → Option α) : Option Json → Option (Option α)
  | none => some none
  | some v => (read v).map some

def documentOf (v : Json) : Option LedgerEffectDocument := do
  let version ← (v.field "version").bind u64Of
  let effect ← (v.field "effect").bind effectOf
  let residual ← optionalOf u64Of (v.field "clamped_residual_atomic")
  let correction ← optionalOf correctionOf (v.field "correction")
  return ⟨version, effect, residual, correction⟩

/-- The stand-in libraries. -/
def libraries : DocumentLibraries where
  fromStr s := Lib.okOr (Json.wire.ofText s) "expected value"
  toText := Json.wire.toText
  fromValue v := Lib.okOr (documentOf v) "invalid document"
  decimalText := decimalText

/-! ## Their laws -/

theorem marketOf_toValue (m : MarketId) : marketOf m.toValue = some m := rfl

theorem outcomeOf_toValue (o : OutcomeId) : outcomeOf o.toValue = some o := by
  rw [outcomeOf, OutcomeId.toValue, Json.asBelow_number o.val.toNat_lt, Option.map_some,
    UInt16.ofNat_toNat]

theorem amountOf_toValue (a : ShareAmount) : amountOf a.toValue = some a := by
  rw [amountOf, ExactAmount.toValue, Json.asBelow_number a.lt, Option.bind_some, dif_pos a.lt]

theorem sideOf_toValue (s : Side) : sideOf s.toValue = some s := by
  cases s <;> rfl

theorem u64Of_number {n : Nat} (h : n < 2 ^ 64) : u64Of (.number n) = some n := Json.asBelow_number h

theorem keyOf_toValue (k : MarketOutcomeId) : keyOf k.toValue = some k := by
  rw [keyOf, MarketOutcomeId.toValue, Json.field_ofFields (by simp), Json.field_ofFields (by simp)]
  simp [List.lookup_cons, marketOf_toValue, outcomeOf_toValue]

theorem correctionOf_toValue (c : IdentityCorrection) : correctionOf c.toValue = some c := by
  rw [correctionOf, IdentityCorrection.toValue, Json.field_ofFields (by simp),
    Json.field_ofFields (by simp), Json.field_ofFields (by simp)]
  simp [List.lookup_cons, keyOf_toValue, Json.asText]

theorem effectOf_toValue {d : LedgerEffectDto}
    (hprice : ∀ market outcome side price amount, d = .trade market outcome side price amount →
      price.Fits) : effectOf (d.toValue libraries) = some d := by
  cases d with
  | trade market outcome side price amount =>
    have hread := decimalOf_decimalText (hprice _ _ _ _ _ rfl)
    simp [effectOf, effectOfKind, LedgerEffectDto.toValue, Json.field_ofFields, List.lookup_cons,
      Json.asText, marketOf_toValue, outcomeOf_toValue, amountOf_toValue, sideOf_toValue, libraries,
      hread]
  | _ =>
    simp [effectOf, effectOfKind, LedgerEffectDto.toValue, Json.field_ofFields, List.lookup_cons,
      Json.asText, marketOf_toValue, outcomeOf_toValue, amountOf_toValue]

theorem documentOf_toValue (h : d.Fits) : documentOf (d.toValue libraries) = some d := by
  obtain ⟨version, effect, residual, correction⟩ := d
  have heffect := effectOf_toValue h.price
  have hversion := u64Of_number h.version
  simp only at heffect hversion
  cases residual with
  | none =>
    cases correction <;>
    simp [documentOf, LedgerEffectDocument.toValue, Json.field_ofFields, List.lookup_cons, heffect,
      hversion, optionalOf, correctionOf_toValue]
  | some r =>
    have hresidual := u64Of_number (h.residual r rfl)
    cases correction <;>
    simp [documentOf, LedgerEffectDocument.toValue, Json.field_ofFields, List.lookup_cons, heffect,
      hversion, hresidual, optionalOf, correctionOf_toValue]

theorem effectOf_fits {d : LedgerEffectDto} (h : effectOf v = some d) :
    ∀ market outcome side price amount, d = .trade market outcome side price amount → price.Fits := by
  intro market outcome side price amount hd
  subst hd
  obtain ⟨kind, _, h⟩ := Option.bind_eq_some_iff.mp h
  unfold effectOfKind at h
  simp only at h
  split at h
  · obtain ⟨side', _, h⟩ := Option.bind_eq_some_iff.mp h
    obtain ⟨price', hprice, h⟩ := Option.bind_eq_some_iff.mp h
    obtain ⟨market', _, h⟩ := Option.bind_eq_some_iff.mp h
    obtain ⟨outcome', _, h⟩ := Option.bind_eq_some_iff.mp h
    obtain ⟨amount', _, h⟩ := Option.bind_eq_some_iff.mp h
    obtain ⟨_, hread⟩ := Option.bind_eq_some_iff.mp hprice
    have heq : price' = price := by
      have := Option.some.inj h
      exact (LedgerEffectDto.trade.inj this).2.2.2.1
    rw [← heq]
    exact decimalOf_fits hread.2
  · -- no other kind is a trade
    exfalso
    revert h
    split_ifs <;> simp [Option.bind_eq_some_iff]

theorem documentOf_fits (h : documentOf v = some d) : d.Fits := by
  obtain ⟨version, hversion, h⟩ := Option.bind_eq_some_iff.mp h
  obtain ⟨effect, heffect, h⟩ := Option.bind_eq_some_iff.mp h
  obtain ⟨residual, hresidual, h⟩ := Option.bind_eq_some_iff.mp h
  obtain ⟨correction, _, h⟩ := Option.bind_eq_some_iff.mp h
  obtain ⟨_, _, hversion⟩ := Option.bind_eq_some_iff.mp hversion
  obtain ⟨_, _, heffect⟩ := Option.bind_eq_some_iff.mp heffect
  obtain rfl := Option.some.inj h
  refine ⟨Json.asBelow_lt hversion, fun r hr => ?_, effectOf_fits heffect⟩
  rw [Option.mem_def] at hr
  simp only at hr
  subst hr
  unfold optionalOf at hresidual
  split at hresidual
  · simp at hresidual
  · obtain ⟨r', hr', heq⟩ := Option.map_eq_some_iff.mp hresidual
    rw [← Option.some.inj heq]
    exact Json.asBelow_lt hr'

theorem toText_injective {w : Json} (h : Json.wire.toText v = Json.wire.toText w) : v = w := by
  have hv := Json.wire.ofText_toText v
  rw [h, Json.wire.ofText_toText] at hv
  exact (Option.some.inj hv).symm

theorem fromStr_toText (v : Json) : libraries.fromStr (libraries.toText v) = .ok v := by
  simp only [libraries]
  exact Lib.okOr_eq_ok.mpr (Json.wire.ofText_toText v)

theorem fromValue_eq_ok : libraries.fromValue v = .ok d ↔ documentOf v = some d := by
  simp only [libraries]
  exact Lib.okOr_eq_ok

theorem libraries_lawful : libraries.Lawful where
  fromStr_toText := fun d _ => fromStr_toText (d.toValue libraries)
  toText_injective := fun _ _ => toText_injective
  fromValue_toValue := fun _ h => fromValue_eq_ok.mpr (documentOf_toValue h)
  fromValue_fits := fun _ _ h => documentOf_fits (fromValue_eq_ok.mp h)

end DocumentStandIn

end PredictionEdge
