import PredictionEdge.Ledger.Apply
import PredictionEdge.Lib.Fallible
import PredictionEdge.Lib.Json

/-!
# Effect documents

An applied effect is stored as a versioned JSON document, so that a wallet's ledger can be
replayed without the network. Version one is a plain effect, version two one whose identity
was corrected, version three a redemption whose residual was clamped. The decoder checks
what each version may hold, and accepts a text only when it is the canonical encoding of
what it decoded to.

JSON texts and the decoding that `serde` derives belong to libraries. A decimal is stored
with its scale, which its value does not tell: it is carried beside the effect.
-/

namespace PredictionEdge

open Lib (Json)

inductive LedgerEffectDocumentError where
  | unknownVersion (version : Nat)
  | malformed (message : String)
  deriving DecidableEq, Repr

/-- A decimal, and the number of decimals it is written with. -/
structure WrittenPrice where
  price : Price
  scale : Nat

/-- The coefficient that the scale calls for exists and fits. -/
def WrittenPrice.Fits (p : WrittenPrice) : Prop :=
  p.scale < 29 ∧ ∃ c : ℤ, p.price.toRat = c / 10 ^ p.scale ∧ |c| < 2 ^ 96

/-- Every price can be written. -/
theorem Price.exists_fits (p : Price) : ∃ scale, (WrittenPrice.mk p scale).Fits := by
  obtain ⟨scale, hscale, c, hc⟩ := Decimal.representable_iff.mp p.val.repr
  exact ⟨scale, hscale, c, hc⟩

inductive LedgerEffectDto where
  | trade (market : MarketId) (outcome : OutcomeId) (side : Side) (price : WrittenPrice)
      (amount : ShareAmount)
  | split (market : MarketId) (amount : ShareAmount)
  | merge (market : MarketId) (amount : ShareAmount)
  | redeem (market : MarketId) (outcome : OutcomeId) (amount : ShareAmount)
  | requiresAnchor
  | conversion
  | rawOnly
  | unknownEffect

/-- The persisted form of an applied effect. -/
structure LedgerEffectDocument where
  version : Nat
  effect : LedgerEffectDto
  clampedResidualAtomic : Option Nat
  correction : Option IdentityCorrection

/-- The numbers of a document fit their types. -/
structure LedgerEffectDocument.Fits (d : LedgerEffectDocument) : Prop where
  version : d.version < 2 ^ 64
  residual : ∀ r ∈ d.clampedResidualAtomic, r < 2 ^ 64
  price : ∀ market outcome side price amount,
    d.effect = .trade market outcome side price amount → price.Fits

/-! ## Documents as JSON -/

/-- The JSON library, the derived decoder, and the printing of decimals. -/
structure DocumentLibraries where
  /-- `serde_json::from_str`, to a value. -/
  fromStr : String → Except String Json
  /-- `serde_json::to_string`, of a value. -/
  toText : Json → String
  /-- `serde_json::from_value`, as derived for the document. -/
  fromValue : Json → Except String LedgerEffectDocument
  /-- A decimal's text, with its decimals. -/
  decimalText : WrittenPrice → String

def Side.toValue : Side → Json
  | .buy => .string "Buy"
  | .sell => .string "Sell"

def ExactAmount.toValue {field : String} (a : ExactAmount field) : Json := .number a.atomic

def MarketId.toValue (m : MarketId) : Json := .string m.text

def OutcomeId.toValue (o : OutcomeId) : Json := .number o.val.toNat

def MarketOutcomeId.toValue (k : MarketOutcomeId) : Json :=
  .ofFields [("market", k.market.toValue), ("outcome", k.outcome.toValue)]

def IdentityCorrection.toValue (c : IdentityCorrection) : Json :=
  .ofFields [("stamped", c.stamped.toValue), ("verified", c.verified.toValue),
    ("evidence_hash", .string c.evidenceHash)]

namespace LedgerEffectDto

/-- The effect, tagged with its kind. -/
def toValue (libs : DocumentLibraries) : LedgerEffectDto → Json
  | trade market outcome side price amount =>
    .ofFields [("kind", .string "trade"), ("market", market.toValue), ("outcome", outcome.toValue),
      ("side", side.toValue), ("price", .string (libs.decimalText price)),
      ("amount", amount.toValue)]
  | split market amount =>
    .ofFields [("kind", .string "split"), ("market", market.toValue), ("amount", amount.toValue)]
  | merge market amount =>
    .ofFields [("kind", .string "merge"), ("market", market.toValue), ("amount", amount.toValue)]
  | redeem market outcome amount =>
    .ofFields [("kind", .string "redeem"), ("market", market.toValue),
      ("outcome", outcome.toValue), ("amount", amount.toValue)]
  | requiresAnchor => .ofFields [("kind", .string "requires_anchor")]
  | conversion => .ofFields [("kind", .string "conversion")]
  | rawOnly => .ofFields [("kind", .string "raw_only")]
  | unknownEffect => .ofFields [("kind", .string "unknown_effect")]

/-- From an effect; the scale is the one a trade's price is written with. -/
def ofEffect (scale : Option Nat) : LedgerEffect → LedgerEffectDto
  | .trade market outcome side amount price =>
    trade market outcome side ⟨price, scale.getD 0⟩ amount
  | .split market amount => split market amount
  | .merge market amount => merge market amount
  | .redeem market outcome amount => redeem market outcome amount
  | .requiresAnchor => requiresAnchor
  | .conversion => conversion
  | .rawOnly => rawOnly
  | .unknownEffect => unknownEffect
  | .corrected effect _ => ofEffect scale effect

def toEffect : LedgerEffectDto → LedgerEffect
  | trade market outcome side price amount => .trade market outcome side amount price.price
  | split market amount => .split market amount
  | merge market amount => .merge market amount
  | redeem market outcome amount => .redeem market outcome amount
  | requiresAnchor => .requiresAnchor
  | conversion => .conversion
  | rawOnly => .rawOnly
  | unknownEffect => .unknownEffect

/-- The scale a trade's price is written with. -/
def scale : LedgerEffectDto → Option Nat
  | trade _ _ _ price _ => some price.scale
  | _ => none

end LedgerEffectDto

/-- The document as a value: what is absent is left out. -/
def LedgerEffectDocument.toValue (libs : DocumentLibraries) (d : LedgerEffectDocument) : Json :=
  .ofFields ([("version", .number d.version), ("effect", d.effect.toValue libs)]
    ++ (d.clampedResidualAtomic.map fun r => ("clamped_residual_atomic", Json.number r)).toList
    ++ (d.correction.map fun c => ("correction", c.toValue)).toList)

/-- What the libraries promise. -/
structure DocumentLibraries.Lawful (libs : DocumentLibraries) : Prop where
  /-- The text of a document's value parses to that value. -/
  fromStr_toText : ∀ d : LedgerEffectDocument, d.Fits →
    libs.fromStr (libs.toText (d.toValue libs)) = .ok (d.toValue libs)
  /-- Different values have different texts. -/
  toText_injective : ∀ v w, libs.toText v = libs.toText w → v = w
  /-- The derived decoder reads what the derived encoder wrote. -/
  fromValue_toValue : ∀ d : LedgerEffectDocument, d.Fits → libs.fromValue (d.toValue libs) = .ok d
  /-- What it reads fits the types of the document. -/
  fromValue_fits : ∀ v d, libs.fromValue v = .ok d → d.Fits

/-! ## Encoding and decoding -/

def validateClampedResidual (effect : LedgerEffect) (clampedResidual : Option Nat) :
    Except LedgerEffectDocumentError Unit :=
  match clampedResidual with
  | none => .ok ()
  | some residual =>
    if residual = 0 ∨ redeemResidualLimitAtomic ≤ residual then
      .error (.malformed "clamped redeem residual is outside 1..=99 atomic")
    else
      match effect.effective with
      | .redeem .. => .ok ()
      | _ => .error (.malformed "clamped residual belongs only to a redeem effect")

def correctedEffect (effect : LedgerEffect) (correction : IdentityCorrection) :
    Except LedgerEffectDocumentError LedgerEffect :=
  if correction.stamped = correction.verified then
    .error (.malformed "ledger identity correction does not change identity")
  else if effect.identity ≠ some correction.verified then
    .error (.malformed "corrected effect identity does not match verified identity")
  else .ok (.corrected effect correction)

namespace AppliedEffect

/-- The document of an applied effect. -/
def document (applied : AppliedEffect) (scale : Option Nat) : LedgerEffectDocument where
  version :=
    if applied.clampedResidual.isSome then 3
    else if applied.effect.correction.isSome then 2
    else 1
  effect := .ofEffect scale applied.effect.effective
  clampedResidualAtomic := applied.clampedResidual
  correction := applied.effect.correction

/-- Encode; the scale is the one a trade's price is written with. -/
def toDocument (libs : DocumentLibraries) (applied : AppliedEffect) (scale : Option Nat) :
    Except LedgerEffectDocumentError String := do
  validateClampedResidual applied.effect applied.clampedResidual
  return libs.toText ((applied.document scale).toValue libs)

end AppliedEffect

/-- The effect of a document, with the correction it holds. -/
def LedgerEffectDocument.identified (d : LedgerEffectDocument) :
    Except LedgerEffectDocumentError LedgerEffect :=
  match d.correction with
  | some correction => correctedEffect d.effect.toEffect correction
  | none => .ok d.effect.toEffect

/-- What each version may hold. -/
def LedgerEffectDocument.applied (d : LedgerEffectDocument) :
    Except LedgerEffectDocumentError AppliedEffect :=
  match d.version, d.correction, d.clampedResidualAtomic with
  | 1, none, none => .ok ⟨d.effect.toEffect, none⟩
  | 1, some _, _ => .error (.malformed "version 1 ledger effect document contains a correction")
  | 1, none, some _ =>
    .error (.malformed "version 1 ledger effect document contains a clamped residual")
  | 2, some correction, none => do
    return ⟨← correctedEffect d.effect.toEffect correction, none⟩
  | 2, none, _ =>
    .error (.malformed "version 2 ledger effect document is missing its correction")
  | 2, some _, some _ =>
    .error (.malformed "version 2 ledger effect document contains a clamped residual")
  | 3, _, some residual => do
    let effect ← d.identified
    validateClampedResidual effect (some residual)
    return ⟨effect, some residual⟩
  | 3, _, none =>
    .error (.malformed "version 3 ledger effect document is missing its clamped residual")
  | version, _, _ => .error (.unknownVersion version)

/-- Decode, and refuse a text that is not the canonical encoding of what it decoded to. -/
def AppliedEffect.fromDocument (libs : DocumentLibraries) (text : String) :
    Except LedgerEffectDocumentError (AppliedEffect × Option Nat) := do
  let value ← (libs.fromStr text).mapError .malformed
  let decoded ← (libs.fromValue value).mapError .malformed
  let applied ← decoded.applied
  let canonical ← applied.toDocument libs decoded.effect.scale
  Lib.refuseIf (libs.toText value ≠ canonical)
    (.malformed "document is not the canonical encoding of its effect")
  return (applied, decoded.effect.scale)

end PredictionEdge
