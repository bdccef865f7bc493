import PredictionEdge.Activity.Parse
import PredictionEdge.Lib.Wire

/-!
# The identity of an activity group

A group's key is the digest of its components, each written with a tag and its length. The
writing can be read back, so components that are written alike are alike up to the text of
their type: an unknown type prints as its name, which may be the name of a known one. The
parser reads such a name as the known type, so on what it accepts the key decides.
-/

namespace PredictionEdge

open Lib

open EventLog (Bytes)

/-! ## Numbers and texts as bytes -/

/-- Digits of a fixed number of places tell the number. -/
theorem positional_inj {α : Type} {b : Nat} {digit : Nat → α} {f : Nat → Nat → List α}
    (hf : ∀ n v, f (n + 1) v = f n (v / b) ++ [digit (v % b)]) (hb : 0 < b)
    (hdigit : ∀ i < b, ∀ j < b, digit i = digit j → i = j) :
    ∀ {n v w : Nat}, v < b ^ n → w < b ^ n → f n v = f n w → v = w := by
  intro n
  induction n with
  | zero =>
    intro v w hv hw _
    rw [pow_zero, Nat.lt_one_iff] at hv hw
    rw [hv, hw]
  | succ n ih =>
    intro v w hv hw h
    rw [hf, hf] at h
    obtain ⟨hinit, hlast⟩ := List.append_inj' h rfl
    have hquot := ih (Nat.div_lt_of_lt_mul (by rwa [← pow_succ'])) (Nat.div_lt_of_lt_mul (by
      rwa [← pow_succ'])) hinit
    have hrem := hdigit _ (Nat.mod_lt v hb) _ (Nat.mod_lt w hb) (List.singleton_inj.mp hlast)
    rw [← Nat.div_add_mod v b, ← Nat.div_add_mod w b, hquot, hrem]

theorem toBeBytes_inj {n v w : Nat} (hv : v < 256 ^ n) (hw : w < 256 ^ n)
    (h : toBeBytes n v = toBeBytes n w) : v = w := by
  refine positional_inj (f := toBeBytes) (fun _ _ => rfl) (by decide) ?_ hv hw h
  intro i hi j hj h
  have := congrArg UInt8.toNat h
  rwa [UInt8.toNat_ofNat_of_lt' hi, UInt8.toNat_ofNat_of_lt' hj] at this

theorem length_toBeBytes : ∀ n v : Nat, (toBeBytes n v).length = n
  | 0, _ => rfl
  | n + 1, v => by rw [toBeBytes, List.length_append, length_toBeBytes n]; rfl

theorem toList_loop (bytes : ByteArray) (i : Nat) (r : List UInt8) :
    ByteArray.toList.loop bytes i r = r.reverse ++ bytes.data.toList.drop i := by
  fun_induction ByteArray.toList.loop bytes i r with
  | case1 i r h ih =>
    have hlt : i < bytes.data.toList.length := h
    rw [ih, List.reverse_cons, List.append_assoc, List.drop_eq_getElem_cons hlt]
    simp [ByteArray.get!, h]
  | case2 i r h =>
    rw [List.drop_eq_nil_of_le (Nat.le_of_not_lt h), List.append_nil]

theorem utf8_eq (s : String) : utf8 s = s.toByteArray.data.toList := by
  rw [utf8, ByteArray.toList, toList_loop]
  rfl

theorem utf8_inj {s t : String} (h : utf8 s = utf8 t) : s = t := by
  rw [utf8_eq, utf8_eq] at h
  exact String.toByteArray_inj.mp (ByteArray.ext (Array.toList_inj.mp h))

theorem WalletAddress.text_inj {v w : WalletAddress} (h : v.text = w.text) : v = w := by
  have hdigits := (List.cons.inj (List.cons.inj (String.ofList_injective h)).2).2
  have hval := positional_inj (f := hexDigits) (fun _ _ => rfl) (by decide) (by decide) v.val.isLt
    w.val.isLt hdigits
  obtain ⟨v⟩ := v
  obtain ⟨w⟩ := w
  exact congrArg WalletAddress.mk (BitVec.eq_of_toNat_eq hval)

theorem sideBytes_inj {s t : Side} (h : sideBytes s = sideBytes t) : s = t := by
  cases s <;> cases t
  · rfl
  · exact absurd (utf8_inj h) (by decide)
  · exact absurd (utf8_inj h) (by decide)
  · rfl

/-! ## Tagged components -/

/-- A component's length fits into eight bytes. -/
def Fits (component : Option Bytes) : Prop := ∀ value ∈ component, value.length < 2 ^ 64

instance (component : Option Bytes) : Decidable (Fits component) :=
  inferInstanceAs (Decidable (∀ value ∈ component, value.length < 2 ^ 64))

/-- A component as the encoder writes it. -/
def tagged : Option Bytes → Bytes
  | some value => 1 :: (toBeBytes 8 value.length ++ value)
  | none => 0 :: toBeBytes 8 0

variable {out : Bytes}

theorem encodePresent_ok {value bytes : Bytes} : encodePresent value bytes = .ok out ↔
    Fits (some value) ∧ out = bytes ++ tagged (some value) := by
  unfold encodePresent
  split
  · rename_i h
    rw [Except.ok.injEq]
    exact ⟨fun ho => ⟨by simpa [Fits] using h, ho.symm⟩, fun ho => ho.2.symm⟩
  · rename_i h
    simp only [reduceCtorEq, false_iff]
    exact fun ho => h (ho.1 value rfl)

theorem encodeOptional_ok {component : Option Bytes} {bytes : Bytes} :
    encodeOptional component bytes = .ok out ↔ Fits component ∧ out = bytes ++ tagged component := by
  cases component with
  | none =>
    simp only [encodeOptional, Except.ok.injEq]
    exact ⟨fun ho => ⟨by simp [Fits], ho.symm⟩, fun ho => ho.2.symm⟩
  | some value => exact encodePresent_ok

/-- A component can be told apart from what follows it. -/
theorem tagged_append_inj {v w : Option Bytes} {x y : Bytes} (hv : Fits v) (hw : Fits w)
    (h : tagged v ++ x = tagged w ++ y) : v = w ∧ x = y := by
  cases v with
  | none =>
    cases w with
    | none => exact ⟨rfl, List.append_cancel_left h⟩
    | some w => exact absurd (List.cons.inj h).1 (by decide)
  | some v =>
    cases w with
    | none => exact absurd (List.cons.inj h).1 (by decide)
    | some w =>
      have h : toBeBytes 8 v.length ++ v ++ x = toBeBytes 8 w.length ++ w ++ y := (List.cons.inj h).2
      rw [List.append_assoc, List.append_assoc] at h
      obtain ⟨hlength, h⟩ := List.append_inj h (by simp only [length_toBeBytes])
      have hlength := toBeBytes_inj (hv v rfl) (hw w rfl) hlength
      obtain ⟨rfl, rfl⟩ := List.append_inj h hlength
      exact ⟨rfl, rfl⟩

/-- **What is written component by component can be read back.** -/
theorem flatMap_tagged_inj : ∀ {l m : List (Option Bytes)}, (∀ v ∈ l, Fits v) → (∀ w ∈ m, Fits w) →
    l.flatMap tagged = m.flatMap tagged → l = m
  | [], [], _, _, _ => rfl
  | [], some _ :: _, _, _, h => absurd h (by simp [tagged])
  | [], none :: _, _, _, h => absurd h (by simp [tagged])
  | some _ :: _, [], _, _, h => absurd h (by simp [tagged])
  | none :: _, [], _, _, h => absurd h (by simp [tagged])
  | v :: l, w :: m, hl, hm, h => by
    rw [List.flatMap_cons, List.flatMap_cons] at h
    obtain ⟨rfl, hrest⟩ := tagged_append_inj (hl v List.mem_cons_self) (hm w List.mem_cons_self) h
    rw [flatMap_tagged_inj (fun x hx => hl x (List.mem_cons_of_mem _ hx))
      (fun x hx => hm x (List.mem_cons_of_mem _ hx)) hrest]

/-! ## Group components -/

/-- The components a group is written as. -/
def groupFields (c : SourceActivityGroupComponents) : List (Option Bytes) :=
  [some activityGroupDomain, some (utf8 c.activityType.asStr), some (utf8 c.wallet.text),
    some (utf8 c.transactionHash), c.conditionId.map fun v => utf8 v.val,
    c.asset.map fun v => utf8 v.val, c.outcome.map fun v => toBeBytes 2 v.val.toNat,
    c.side.map sideBytes]

variable {c : SourceActivityGroupComponents} {id : SourceActivityGroupId}

theorem canonicalGroupComponents_ok :
    canonicalGroupComponents c = .ok out ↔
      (∀ v ∈ groupFields c, Fits v) ∧ out = (groupFields c).flatMap tagged := by
  simp only [canonicalGroupComponents, bind_eq_ok, encodePresent_ok, encodeOptional_ok, groupFields]
  constructor
  · rintro ⟨_, ⟨h1, rfl⟩, _, ⟨h2, rfl⟩, _, ⟨h3, rfl⟩, _, ⟨h4, rfl⟩, _, ⟨h5, rfl⟩, _, ⟨h6, rfl⟩, _,
      ⟨h7, rfl⟩, h8, rfl⟩
    exact ⟨by simp [h1, h2, h3, h4, h5, h6, h7, h8], by simp⟩
  · rintro ⟨h, rfl⟩
    simp only [List.mem_cons, List.not_mem_nil, or_false, forall_eq_or_imp, forall_eq] at h
    obtain ⟨h1, h2, h3, h4, h5, h6, h7, h8⟩ := h
    exact ⟨_, ⟨h1, rfl⟩, _, ⟨h2, rfl⟩, _, ⟨h3, rfl⟩, _, ⟨h4, rfl⟩, _, ⟨h5, rfl⟩, _, ⟨h6, rfl⟩, _,
      ⟨h7, rfl⟩, h8, by simp⟩

/-- A type that the parser reads back from its own name. -/
def ActivityType.Readable (t : ActivityType) : Prop := ofText t.asStr = t

instance (t : ActivityType) : Decidable t.Readable :=
  inferInstanceAs (Decidable (ActivityType.ofText t.asStr = t))

theorem ActivityType.asStr_ofText (s : String) : (ofText s).asStr = s := by
  unfold ofText
  split <;> rfl

variable {a b : SourceActivityGroupComponents}

/-- The components decide what is written, and what is written decides the components. -/
theorem groupFields_inj (ha : a.activityType.Readable) (hb : b.activityType.Readable)
    (h : groupFields a = groupFields b) : a = b := by
  obtain ⟨t, w, x, c, s, o, d⟩ := a
  obtain ⟨t', w', x', c', s', o', d'⟩ := b
  simp only [groupFields, List.cons.injEq, Option.some.injEq, true_and, and_true] at h
  obtain ⟨ht, hw, hx, hc, hs, ho, hd⟩ := h
  obtain rfl : t = t' := ha.symm.trans ((congrArg ActivityType.ofText (utf8_inj ht)).trans hb)
  obtain rfl := WalletAddress.text_inj (utf8_inj hw)
  obtain rfl := utf8_inj hx
  have hcondition : Function.Injective fun v : PolymarketConditionId => utf8 v.val :=
    fun v w h => congrArg PolymarketConditionId.mk (utf8_inj h)
  have htoken : Function.Injective fun v : PolymarketTokenId => utf8 v.val :=
    fun v w h => congrArg PolymarketTokenId.mk (utf8_inj h)
  have houtcome : Function.Injective fun v : OutcomeId => toBeBytes 2 v.val.toNat :=
    fun v w h => congrArg OutcomeId.mk (UInt16.toNat_inj.mp
      (toBeBytes_inj v.val.toNat_lt w.val.toNat_lt h))
  obtain rfl := Option.map_injective hcondition hc
  obtain rfl := Option.map_injective htoken hs
  obtain rfl := Option.map_injective houtcome ho
  obtain rfl := Option.map_injective (fun _ _ h => sideBytes_inj h) hd
  rfl

/-! ## Keys -/

variable {blake3 : Bytes → String}

theorem derive_ok :
    SourceActivityGroupId.derive blake3 c = .ok id ↔ (∀ v ∈ groupFields c, Fits v)
      ∧ id = ⟨⟨"g2:" ++ blake3 ((groupFields c).flatMap tagged)⟩, c⟩ := by
  simp only [SourceActivityGroupId.derive, bind_eq_ok, canonicalGroupComponents_ok,
    pure_eq_ok]
  constructor
  · rintro ⟨_, ⟨hfits, rfl⟩, rfl⟩
    exact ⟨hfits, rfl⟩
  · rintro ⟨hfits, rfl⟩
    exact ⟨_, ⟨hfits, rfl⟩, rfl⟩

/-- The bytes that a key is the hash of. -/
def groupPreimage (c : SourceActivityGroupComponents) : Bytes := (groupFields c).flatMap tagged

/-- The hash does not confuse the components: equal digests are of equal bytes. -/
def NoGroupCollision (blake3 : Bytes → String) (a b : SourceActivityGroupComponents) : Prop :=
  blake3 (groupPreimage a) = blake3 (groupPreimage b) → groupPreimage a = groupPreimage b

/-- Equal keys are keys of the same components. -/
theorem derive_key_inj (hfree : NoGroupCollision blake3 a b) {ida idb : SourceActivityGroupId}
    (ha : a.activityType.Readable) (hb : b.activityType.Readable)
    (hida : SourceActivityGroupId.derive blake3 a = .ok ida)
    (hidb : SourceActivityGroupId.derive blake3 b = .ok idb) (hkey : ida.key = idb.key) :
    a = b := by
  obtain ⟨hfitsA, rfl⟩ := derive_ok.mp hida
  obtain ⟨hfitsB, rfl⟩ := derive_ok.mp hidb
  have htext := SourceTradeId.mk.inj hkey
  have hdigest : blake3 (groupPreimage a) = blake3 (groupPreimage b) :=
    String.append_right_inj _ |>.mp htext
  exact groupFields_inj ha hb (flatMap_tagged_inj hfitsA hfitsB (hfree hdigest))

/-- A derived key is verified. -/
theorem derive_verified (h : SourceActivityGroupId.derive blake3 c = .ok id) :
    id.verifyComponents blake3 = .ok () := by
  have hcomponents : id.components = c := by rw [(derive_ok.mp h).2]
  refine bind_eq_ok.mpr ⟨id, by rw [hcomponents]; exact h, ?_⟩
  rw [if_pos rfl]
  rfl

/--
**A group key identifies its components.**

Components of types that the parser can read and that the hash does not confuse have one key
only if they are the same in every component, and every type the parser reads is such a type,
whatever its name. The key of a row is what its stored components verify to, and rows of one
key agree in everything the key was derived from.
-/
theorem groupKey_identifies (blake3 : Bytes → String) :
    (∀ a b ida idb, NoGroupCollision blake3 a b → a.activityType.Readable →
      b.activityType.Readable → SourceActivityGroupId.derive blake3 a = .ok ida →
      SourceActivityGroupId.derive blake3 b = .ok idb → ida.key = idb.key → a = b)
    ∧ (∀ (row : NormalizedActivity) id, row.groupId blake3 = .ok id →
      id.verifyComponents blake3 = .ok ())
    ∧ (∀ (row row' : NormalizedActivity) id id', row.groupId blake3 = .ok id →
      row'.groupId blake3 = .ok id' → NoGroupCollision blake3 id.components id'.components →
      row.activityType.Readable → row'.activityType.Readable → id.key = id'.key → id = id' ∧ row.activityType = row'.activityType ∧ row.wallet = row'.wallet
        ∧ row.transactionHash = row'.transactionHash ∧ row.conditionId = row'.conditionId
        ∧ row.asset = row'.asset ∧ row.outcome = row'.outcome ∧ row.side = row'.side)
    ∧ ∀ libs raw wallet context text acceptance row,
      normalizeRow libs raw wallet context text acceptance = .ok row → row.activityType.Readable := by
  refine ⟨?_, fun row id h => derive_verified h, ?_, ?_⟩
  · intro a b ida idb hfree ha hb hida hidb hkey
    exact derive_key_inj hfree ha hb hida hidb hkey
  · intro row row' id id' hid hid' hfree hread hread' hkey
    rw [congrArg SourceActivityGroupId.components (derive_ok.mp hid).2,
      congrArg SourceActivityGroupId.components (derive_ok.mp hid').2] at hfree
    dsimp only at hfree
    have hc := derive_key_inj hfree hread hread' hid hid' hkey
    have hids : id = id' := by
      unfold NormalizedActivity.groupId at hid hid'
      rw [hc] at hid
      exact Except.ok.inj (hid.symm.trans hid')
    simp only [SourceActivityGroupComponents.mk.injEq] at hc
    exact ⟨hids, hc⟩
  · intro libs raw wallet context text acceptance row h
    obtain ⟨⟨name, hname⟩, _⟩ := normalizeRow_ok h
    rw [hname, ActivityType.Readable, ActivityType.asStr_ofText]

/-- Nothing but a type, a wallet and a transaction. -/
def bareGroup (t : ActivityType) : SourceActivityGroupComponents :=
  ⟨t, ⟨0⟩, "0xt", none, none, none, none⟩

theorem bareGroup_fits : ∀ v ∈ groupFields (bareGroup .trade), Fits v := by
  intro v hv
  simp only [groupFields, activityGroupDomain, utf8_eq] at hv
  revert hv v
  decide +kernel

/-- A stand-in for the digest: a sum of the bytes, in hexadecimal. -/
def checksum (bytes : Bytes) : String :=
  String.ofList (hexDigits 64 (bytes.foldl (fun n b => (257 * n + b.toNat) % 2 ^ 256) 0))

theorem bareGroup_identified :
    ∃ id, SourceActivityGroupId.derive checksum (bareGroup .trade) = .ok id
      ∧ SourceActivityGroupId.derive checksum (bareGroup (.ofText "TRADE")) = .ok id
      ∧ bareGroup .trade = bareGroup (.ofText "TRADE") := by
  have hderive : SourceActivityGroupId.derive checksum (bareGroup .trade) = .ok _ :=
    derive_ok.mpr ⟨bareGroup_fits, rfl⟩
  exact ⟨_, hderive, hderive, (groupKey_identifies checksum).1 _ _ _ _ (fun _ => rfl) (by decide)
    (by decide) hderive hderive rfl⟩

/-- Another stand-in, with no collisions: a text with one character for each byte. -/
def byteText (bytes : Bytes) : String := String.ofList (bytes.map fun b => Char.ofNat b.toNat)

theorem byteText_injective : Function.Injective byteText := by
  intro x y h
  have hchars := congrArg (List.map fun c => UInt8.ofNat c.toNat) (String.ofList_injective h)
  rw [List.map_map, List.map_map] at hchars
  have hid : ((fun c : Char => UInt8.ofNat c.toNat) ∘ fun b : UInt8 => Char.ofNat b.toNat) = id :=
    funext Wire.byte_char
  rwa [hid, List.map_id, List.map_id] at hchars

/-- An unknown type by the name of a known one is another type with the same key. -/
theorem unknownTrade_shares_key :
    Function.Injective byteText ∧ bareGroup .trade ≠ bareGroup (.unknown "TRADE")
      ∧ ∃ id id', SourceActivityGroupId.derive byteText (bareGroup .trade) = .ok id
        ∧ SourceActivityGroupId.derive byteText (bareGroup (.unknown "TRADE")) = .ok id'
        ∧ id.key = id'.key :=
  ⟨byteText_injective, by decide, _, _, derive_ok.mpr ⟨bareGroup_fits, rfl⟩,
    derive_ok.mpr ⟨bareGroup_fits, rfl⟩, rfl⟩

end PredictionEdge
