import PredictionEdge.Live.ExecutorRuns

/-!
# What a finalized verdict rests on

The classifier walks the transactions of an order and collects the fills that their logs
report, each under its transaction and log index. It leaves on every doubt. So where it
comes to the end without having passed over a transaction, every receipt was read and is in
the chain up to the finalized head, and what was collected is the set of their fills: a log
that comes back adds nothing, and the order of the transactions does not matter.
-/

namespace PredictionEdge

open Lib

/-- What a fill is collected under. -/
def DecodedOrderFill.key (fill : DecodedOrderFill) : String × UInt64 :=
  (fill.transactionHash, fill.logIndex)

/-- The map holds these fills, each under its own key. -/
def FillMap.Holds (fills : FillMap) (S : DecodedOrderFill → Prop) : Prop :=
  ∀ k fill, fills[k]? = some fill ↔ S fill ∧ fill.key = k

theorem FillMap.Holds.ext {m m' : FillMap} {S : DecodedOrderFill → Prop} (h : m.Holds S)
    (h' : m'.Holds S) : m = m' := by
  refine Std.ExtTreeMap.ext_getElem? fun k => Option.ext fun fill => ?_
  rw [h k fill, h' k fill]

theorem FillMap.Holds.congr {m : FillMap} {S T : DecodedOrderFill → Prop} (h : m.Holds S)
    (hST : ∀ fill, S fill ↔ T fill) : m.Holds T := by
  intro k fill
  rw [h k fill, hST fill]

theorem FillMap.getElem?_insert_fill (fills : FillMap) (fill : DecodedOrderFill) (k : String × UInt64) :
    (fills.insert (fill.transactionHash, fill.logIndex) fill)[k]?
      = if fill.key = k then some fill else fills[k]? := by
  split
  · rename_i hk
    subst hk
    exact Std.ExtTreeMap.getElem?_insert_self
  · rename_i hk
    exact getElem?_insert_of_ne hk

variable {scan scan' : FillScan} {fill : DecodedOrderFill} {decoded : List DecodedOrderFill}
  {S : DecodedOrderFill → Prop}

/-! ## Collecting fills -/

theorem FillScan.takeFill_flag (h : scan.takeFill fill = .ok scan') :
    scan'.hasUnfinalized = scan.hasUnfinalized := by
  unfold takeFill at h
  split at h
  · split at h
    · rw [← Except.ok.inj h]
    · simp at h
  · rw [← Except.ok.inj h]

theorem FillScan.takeFill_holds (h : scan.takeFill fill = .ok scan')
    (hS : scan.fills.Holds S) : scan'.fills.Holds (fun f => S f ∨ f = fill) := by
  unfold takeFill at h
  split at h
  · rename_i existing hexisting
    split at h
    · rename_i heq
      obtain rfl := Except.ok.inj h
      obtain ⟨hmem, _⟩ := (hS _ _).mp hexisting
      refine hS.congr fun f => ⟨.inl, ?_⟩
      rintro (hf | rfl)
      · exact hf
      · exact heq ▸ hmem
    · simp at h
  · rename_i hnone
    obtain rfl := Except.ok.inj h
    intro k f
    rw [FillMap.getElem?_insert_fill]
    split
    · rename_i hk
      subst hk
      rw [Option.some.injEq]
      constructor
      · rintro rfl
        exact ⟨.inr rfl, rfl⟩
      · rintro ⟨hf | hf, hkey⟩
        · -- an entry of this key would have been found
          have hfound := (hS _ f).mpr ⟨hf, hkey⟩
          exact absurd (hnone.symm.trans hfound) (by simp)
        · exact hf.symm
    · rename_i hk
      rw [hS k f]
      constructor
      · rintro ⟨hf, hkey⟩
        exact ⟨.inl hf, hkey⟩
      · rintro ⟨hf | rfl, hkey⟩
        · exact ⟨hf, hkey⟩
        · exact absurd hkey hk

theorem FillScan.takeFills_holds (hS : scan.fills.Holds S) (h : decoded.foldlM takeFill scan = .ok scan') :
    scan'.fills.Holds (fun f => S f ∨ f ∈ decoded) := by
  refine foldlM_history (P := fun taken s => s.fills.Holds (fun f => S f ∨ f ∈ taken))
    (hS.congr (by simp)) ?_ h
  intro taken s f s' hs hstep
  refine (takeFill_holds hstep hs).congr fun g => ?_
  rw [List.mem_append, List.mem_singleton, or_assoc]

/-- What was collected so far is part of what is collected in the end. -/
def FillScan.Within (fills : FillMap) (scan : FillScan) : Prop :=
  scan.hasUnfinalized = false ∧ ∀ (k : String × UInt64) fill, scan.fills[k]? = some fill → fills[k]? = some fill

theorem FillScan.takeFill_within {fills : FillMap} (h : scan.Within fills)
    (hfill : fills[fill.key]? = some fill) : ∃ scan', scan.takeFill fill = .ok scan'
      ∧ scan'.Within fills := by
  unfold takeFill
  split
  · rename_i existing hexisting
    have heq : existing = fill := Option.some.inj ((h.2 _ _ hexisting).symm.trans hfill)
    exact ⟨scan, if_pos heq, h⟩
  · refine ⟨_, rfl, h.1, fun k f hf => ?_⟩
    rw [FillMap.getElem?_insert_fill] at hf
    split at hf
    · rename_i hk
      rw [← hk, hfill, hf]
    · exact h.2 k f hf

/-! ## Reading the transactions -/

variable {libraries : FinalityLibraries} {order : PreparedPolymarketBuy} {block : FinalizedBlock}
  {receipts : ReceiptObservations} {blocks : BlockObservations} {immutableReceipts : ImmutableReceipts}
  {hash : String} {hashes : List String} {receipt : MatchedReceipt}

/-- A transaction whose receipt is in the chain up to the head, and the fills it reports. -/
structure InChain (libraries : FinalityLibraries) (order : PreparedPolymarketBuy)
    (block : FinalizedBlock) (receipts : ReceiptObservations) (blocks : BlockObservations)
    (hash : String) (receipt : MatchedReceipt) (decoded : List DecodedOrderFill) : Prop where
  observed : receipts[hash]? = some (.ok (some receipt))
  height : receipt.blockNumber ≤ block.number
  canonical : isCanonical block blocks receipt = true
  fills : decodeOrderFills libraries.toReceiptLibraries receipt order = .ok decoded

theorem InChain.unique {receipt' : MatchedReceipt} {decoded' : List DecodedOrderFill}
    (h : InChain libraries order block receipts blocks hash receipt decoded)
    (h' : InChain libraries order block receipts blocks hash receipt' decoded') :
    decoded = decoded' := by
  have hsame := h.observed.symm.trans h'.observed
  simp only [Option.some.injEq, Except.ok.injEq] at hsame
  rw [← hsame] at h'
  exact Except.ok.inj (h.fills.symm.trans h'.fills)

theorem checkCanonical_ok (hheight : receipt.blockNumber ≤ block.number) :
    checkCanonical block blocks receipt = .ok () ↔ isCanonical block blocks receipt = true := by
  unfold checkCanonical isCanonical
  rw [if_neg (UInt64.not_lt.mpr hheight)]
  by_cases hhead : receipt.blockNumber = block.number
  · rw [if_pos hhead, if_pos hhead]
    split
    · rename_i hne
      simp [hne]
    · rename_i heq
      simp [not_not.mp heq]
  · rw [if_neg hhead, if_neg hhead]
    split
    · rename_i hnone
      simp [hnone]
    · rename_i canonical hsome
      rw [hsome]
      split
      · rename_i heq
        simp [heq]
      · rename_i hne
        simp [hne]
    · rename_i error hsome
      rw [hsome]
      split <;> simp

/-- A settled transaction adds its fills. -/
theorem InChain.take
    (h : InChain libraries order block receipts blocks hash receipt decoded)
    (hsame : ∀ earlier, immutableReceipts[hash]? = some earlier → earlier = receipt) :
    scan.takeTransaction libraries order block receipts blocks immutableReceipts hash
      = decoded.foldlM FillScan.takeFill scan := by
  have hprior : ¬ immutableReceipts[hash]?.any (· ≠ receipt) = true := by
    rw [Option.any_eq_true]
    rintro ⟨earlier, hearlier, hne⟩
    exact absurd (hsame earlier hearlier) (of_decide_eq_true hne)
  unfold FillScan.takeTransaction
  rw [h.observed]
  dsimp only
  rw [refuseIf, if_neg hprior, if_neg (UInt64.not_lt.mpr h.height),
    (checkCanonical_ok h.height).mpr h.canonical, h.fills]
  rfl

/-- A transaction that was not passed over is settled. -/
theorem FillScan.takeTransaction_inChain
    (h : scan.takeTransaction libraries order block receipts blocks immutableReceipts hash = .ok scan')
    (hflag : scan'.hasUnfinalized = false) : ∃ receipt decoded,
      InChain libraries order block receipts blocks hash receipt decoded
        ∧ (∀ earlier, immutableReceipts[hash]? = some earlier → earlier = receipt)
        ∧ decoded.foldlM takeFill scan = .ok scan' := by
  have hstep := h
  unfold takeTransaction at h
  split at h
  · simp at h
  · obtain rfl := Except.ok.inj h
    simp at hflag
  · split at h <;> exact absurd h (by simp)
  · rename_i receipt hreceipt
    obtain ⟨_, hprior, h⟩ := bind_eq_ok.mp h
    rw [refuseIf_eq_ok] at hprior
    split at h
    · obtain rfl := pure_eq_ok.mp h
      simp at hflag
    · rename_i hheight
      obtain ⟨_, hcanonical, h⟩ := bind_eq_ok.mp h
      obtain ⟨decoded, hdecoded, h⟩ := bind_eq_ok.mp h
      have hheight := UInt64.not_lt.mp hheight
      refine ⟨receipt, decoded, ⟨hreceipt, hheight, (checkCanonical_ok hheight).mp hcanonical,
        mapError_eq_ok.mp hdecoded⟩, fun earlier hearlier => ?_, h⟩
      by_contra hne
      exact hprior (by simp [hearlier, hne])

/-- The fills that some transactions report. -/
def fillsOf (libraries : FinalityLibraries) (order : PreparedPolymarketBuy) (block : FinalizedBlock)
    (receipts : ReceiptObservations) (blocks : BlockObservations) (hashes : List String)
    (fill : DecodedOrderFill) : Prop :=
  ∃ hash ∈ hashes, ∃ receipt decoded,
    InChain libraries order block receipts blocks hash receipt decoded ∧ fill ∈ decoded

/-- **A scan that passed over nothing** has read every receipt and holds their fills. -/
theorem takeTransactions_holds
    (h : hashes.foldlM (FillScan.takeTransaction libraries order block receipts blocks
      immutableReceipts) ⟨∅, false⟩ = .ok scan') : scan'.hasUnfinalized = false →
    scan'.fills.Holds (fillsOf libraries order block receipts blocks hashes)
      ∧ ∀ hash ∈ hashes, ∃ receipt decoded,
        InChain libraries order block receipts blocks hash receipt decoded
          ∧ ∀ earlier, immutableReceipts[hash]? = some earlier → earlier = receipt := by
  refine foldlM_history (P := fun taken s => s.hasUnfinalized = false →
    s.fills.Holds (fillsOf libraries order block receipts blocks taken)
      ∧ ∀ hash ∈ taken, ∃ receipt decoded,
        InChain libraries order block receipts blocks hash receipt decoded
          ∧ ∀ earlier, immutableReceipts[hash]? = some earlier → earlier = receipt) ?_ ?_ h
  · exact fun _ => ⟨fun k fill => by simp [fillsOf], by simp⟩
  · intro taken s hash s' hs hstep hflag
    obtain ⟨receipt, decoded, hsettled, hsame, hfold⟩ := FillScan.takeTransaction_inChain hstep hflag
    have hbefore : s.hasUnfinalized = false :=
      (foldlM_const (fun _ _ _ _ => FillScan.takeFill_flag) hfold).symm.trans hflag
    obtain ⟨hholds, hall⟩ := hs hbefore
    refine ⟨(FillScan.takeFills_holds hholds hfold).congr fun fill => ?_, ?_⟩
    · constructor
      · rintro (⟨other, hother, hfill⟩ | hfill)
        · exact ⟨other, List.mem_append_left _ hother, hfill⟩
        · exact ⟨hash, by simp, receipt, decoded, hsettled, hfill⟩
      · rintro ⟨other, hother, receipt', decoded', hsettled', hfill⟩
        rcases List.mem_append.mp hother with hother | hother
        · exact .inl ⟨other, hother, receipt', decoded', hsettled', hfill⟩
        · rw [List.mem_singleton.mp hother] at hsettled'
          exact .inr (hsettled.unique hsettled' ▸ hfill)
    · intro other hother
      rcases List.mem_append.mp hother with hother | hother
      · exact hall other hother
      · rw [List.mem_singleton.mp hother]
        exact ⟨receipt, decoded, hsettled, hsame⟩

/-- **The order of the transactions does not matter** to a scan that passed over none. -/
theorem takeTransactions_perm {hashes' : List String} (hperm : hashes'.Perm hashes)
    (h : hashes.foldlM (FillScan.takeTransaction libraries order block receipts blocks
      immutableReceipts) ⟨∅, false⟩ = .ok scan) (hflag : scan.hasUnfinalized = false) :
    hashes'.foldlM (FillScan.takeTransaction libraries order block receipts blocks
      immutableReceipts) ⟨∅, false⟩ = .ok scan := by
  obtain ⟨hholds, hall⟩ := takeTransactions_holds h hflag
  obtain ⟨scan', hscan', hwithin⟩ := foldlM_succeeds (l := hashes')
    (f := FillScan.takeTransaction libraries order block receipts blocks immutableReceipts)
    (FillScan.Within scan.fills) (s := ⟨∅, false⟩) ⟨rfl, by simp⟩ fun s hash hmem hs => by
      obtain ⟨receipt, decoded, hsettled, hsame⟩ := hall hash (hperm.mem_iff.mp hmem)
      rw [hsettled.take hsame]
      refine foldlM_succeeds (FillScan.Within scan.fills) hs fun s fill hfill hs =>
        FillScan.takeFill_within hs ((hholds fill.key fill).mpr ⟨?_, rfl⟩)
      exact ⟨hash, hperm.mem_iff.mp hmem, receipt, decoded, hsettled, hfill⟩
  have hholds' := (takeTransactions_holds hscan' hwithin.1).1
  have hfills : scan'.fills = scan.fills := hholds'.ext (hholds.congr fun fill => by
    simp only [fillsOf, hperm.mem_iff])
  rw [hscan']
  obtain ⟨fills, flag⟩ := scan
  obtain ⟨fills', flag'⟩ := scan'
  obtain rfl : flag = false := hflag
  obtain rfl : flag' = false := hwithin.1
  exact congrArg (fun m => Except.ok (FillScan.mk m false)) hfills

/-! ## The totals -/

theorem totals_sum : ∀ {fills : List DecodedOrderFill} {t t' : FillTotals},
    fills.foldlM FillTotals.add t = .ok t' →
    t'.principal.atomic = t.principal.atomic + (fills.map (·.principal.atomic)).sum
      ∧ t'.quantity.atomic = t.quantity.atomic + (fills.map (·.quantity.atomic)).sum
      ∧ t'.fee.atomic = t.fee.atomic + (fills.map (·.fee.atomic)).sum
  | [], t, t', h => by
    rw [← pure_eq_ok.mp h]
    simp
  | fill :: fills, t, t', h => by
    obtain ⟨s, hs, h⟩ := foldlM_cons_ok.mp h
    obtain ⟨hp, hq, hf⟩ := totals_sum h
    simp only [FillTotals.add, bind_eq_ok, ExactAmount.checkedAdd_ok, pure_eq_ok] at hs
    obtain ⟨principal, hprincipal, quantity, hquantity, fee, hfee, rfl⟩ := hs
    dsimp only at hp hq hf
    simp only [List.map_cons, List.sum_cons]
    omega

variable {prepared : LiveOrderPreparedAudit} {chainId : Except ReceiptError UInt64}
  {head : Except ReceiptError FinalizedBlock}

/-- What a finalized verdict was made of. -/
theorem finalitySteps_ok {verdict : PolygonFinalityClassification} :
    finalitySteps libraries prepared hashes chainId head receipts blocks immutableReceipts
        = .ok verdict ↔
      ∃ block scan, chainId = .ok finalizedChainId ∧ head = .ok block ∧ hashes ≠ []
        ∧ hashes.foldlM (FillScan.takeTransaction libraries prepared.prepared block receipts blocks
          immutableReceipts) ⟨∅, false⟩ = .ok scan
        ∧ scan.hasUnfinalized = false ∧ scan.fills.isEmpty = false
        ∧ classifyTotals prepared scan.fills finalizedChainId block = .ok verdict := by
  simp only [finalitySteps, bind_eq_ok, mapError_eq_ok, refuseIf_eq_ok]
  constructor
  · rintro ⟨chain, rfl, _, hchain, block, rfl, _, hne, scan, hscan, _, hflag, _, hempty, h⟩
    obtain rfl := not_not.mp hchain
    exact ⟨block, scan, rfl, rfl, hne, hscan, by simpa using hflag, by simpa using hempty, h⟩
  · rintro ⟨block, scan, rfl, rfl, hne, hscan, hflag, hempty, h⟩
    exact ⟨_, rfl, (), by simp, block, rfl, (), hne, scan, hscan, (), by simp [hflag], (),
      by simp [hempty], h⟩

/-- A verdict other than finalized. -/
def PolygonFinalityClassification.isDoubt : PolygonFinalityClassification → Bool
  | finalized .. => false
  | _ => true

/-- Every way out before the end is a doubt. -/
theorem finalitySteps_doubts :
    Yields (fun _ => True) (fun verdict => verdict.isDoubt = true)
      (finalitySteps libraries prepared hashes chainId head receipts blocks immutableReceipts) := by
  refine yields_bind (yields_mapError (fun _ => trivial) fun _ => rfl) fun chain _ =>
    yields_refuseIf rfl ?_
  refine yields_bind (yields_mapError (fun _ => trivial) fun _ => rfl) fun block _ =>
    yields_refuseIf rfl ?_
  refine yields_bind (yields_foldlM (fun s hash => ?_) _ _) fun scan _ =>
    yields_refuseIf rfl (yields_refuseIf rfl ?_)
  · unfold FillScan.takeTransaction
    split
    · exact rfl
    · exact trivial
    · split <;> exact rfl
    · refine yields_refuseIf rfl ?_
      split
      · exact trivial
      · refine yields_bind (R := fun _ => True) ?_ fun _ _ => yields_bind
          (yields_mapError (fun _ => trivial) fun _ => rfl) fun decoded _ =>
          yields_foldlM (fun s fill => ?_) _ _
        · unfold checkCanonical
          repeat' split
          all_goals first | exact trivial | exact rfl
        · unfold FillScan.takeFill
          repeat' split
          all_goals first | exact trivial | exact rfl
  · exact yields_bind (yields_mapError (fun _ => trivial) fun _ => rfl) fun totals _ =>
      yields_refuseIf rfl (yields_refuseIf rfl (yields_refuseIf rfl
        (yields_refuseIf rfl (yields_refuseIf rfl trivial))))

/-- The totals of a finalized verdict, and the checks they passed. -/
theorem classifyTotals_finalized {fills : FillMap} {chain chain' number : UInt64}
    {principal : CollateralAmount} {quantity : ShareAmount} {fee : CollateralAmount} {logs : List MatchedLogIdentity}
    (h : classifyTotals prepared fills chain block
      = .ok (.finalized principal quantity fee logs chain' number)) :
    block.number = number ∧ logs = fills.keys.map (fun key => ⟨key.1, key.2⟩)
      ∧ (intoValues fills).foldlM FillTotals.add ⟨.zero, .zero, .zero⟩
        = .ok ⟨principal, quantity, fee⟩
      ∧ principal = prepared.prepared.makerCollateral ∧ prepared.prepared.takerShares ≤ quantity
      ∧ feeWithinReserve fee prepared.economic.fee.reserve = true := by
  simp only [classifyTotals, bind_eq_ok, mapError_eq_ok, refuseIf_eq_ok, pure_eq_ok,
    not_or, not_not] at h
  obtain ⟨totals, htotals, _, ⟨_, hminimum⟩, _, hlow, _, hhigh, _, hquantity, _, hfee, h⟩ := h
  injection h with hprincipal hq hf hlogs _ hnumber
  subst hprincipal hq hf hlogs hnumber
  refine ⟨rfl, rfl, htotals, ExactAmount.ext_atomic (le_antisymm (not_lt.mp hhigh) (not_lt.mp hlow)),
    ?_, by simpa using hfee⟩
  rw [← hminimum]
  exact Nat.not_lt.mp hquantity

/--
**A finalized verdict is sound.**

Whenever the classifier finalizes an order, every one of its transactions has a receipt in
the chain at or below the finalized head. The logs it names are those of the fills that
these receipts report, each once; its totals are their sums; the principal is the signed
one, the quantity at least the signed minimum, and the fee within the reserve and on the
grid of five decimals. For the transactions in any other order the verdict is the same.
-/
theorem classifyPolygonFinality_sound (libraries : FinalityLibraries)
    (prepared : LiveOrderPreparedAudit) (hashes : List String) (chainId : Except ReceiptError UInt64)
    (head : Except ReceiptError FinalizedBlock) (receipts : ReceiptObservations)
    (blocks : BlockObservations) (immutableReceipts : ImmutableReceipts)
    (principal : CollateralAmount) (quantity : ShareAmount) (fee : CollateralAmount)
    (logs : List MatchedLogIdentity) (chain number : UInt64)
    (h : classifyPolygonFinality libraries prepared hashes chainId head receipts blocks
      immutableReceipts = .finalized principal quantity fee logs chain number) :
    ∃ (block : FinalizedBlock) (fills : List DecodedOrderFill), head = .ok block
      ∧ block.number = number
      ∧ (∀ hash ∈ hashes, ∃ receipt, receipts[hash]? = some (.ok (some receipt))
        ∧ receipt.blockNumber ≤ number ∧ isCanonical block blocks receipt = true)
      ∧ (∀ fill, fill ∈ fills ↔ ∃ hash ∈ hashes, ∃ receipt decoded,
        receipts[hash]? = some (.ok (some receipt))
          ∧ decodeOrderFills libraries.toReceiptLibraries receipt prepared.prepared = .ok decoded
          ∧ fill ∈ decoded)
      ∧ (fills.map DecodedOrderFill.key).Nodup
      ∧ logs = fills.map (fun fill => ⟨fill.transactionHash, fill.logIndex⟩)
      ∧ principal.atomic = (fills.map (·.principal.atomic)).sum
      ∧ quantity.atomic = (fills.map (·.quantity.atomic)).sum
      ∧ fee.atomic = (fills.map (·.fee.atomic)).sum
      ∧ principal = prepared.prepared.makerCollateral ∧ prepared.prepared.takerShares ≤ quantity
      ∧ fee ≤ prepared.economic.fee.reserve ∧ fee.atomic % 10 = 0
      ∧ ∀ hashes', hashes'.Perm hashes → classifyPolygonFinality libraries prepared hashes' chainId
        head receipts blocks immutableReceipts
          = .finalized principal quantity fee logs chain number := by
  have hsteps : finalitySteps libraries prepared hashes chainId head receipts blocks
      immutableReceipts = .ok (.finalized principal quantity fee logs chain number) := by
    unfold classifyPolygonFinality at h
    split at h
    · rename_i verdict hok
      rw [hok, h]
    · rename_i verdict herror
      exact absurd (Yields.of_error finalitySteps_doubts herror) (by simp [h, PolygonFinalityClassification.isDoubt])
  obtain ⟨block, scan, hchain, hhead, hne, hscan, hflag, hempty, htotals⟩ := finalitySteps_ok.mp hsteps
  obtain ⟨hholds, hall⟩ := takeTransactions_holds hscan hflag
  obtain ⟨hnumber, hlogs, hsum, hprincipal, hquantity, hfee⟩ := classifyTotals_finalized htotals
  obtain ⟨hp, hq, hf⟩ := totals_sum hsum
  simp only [feeWithinReserve, Bool.and_eq_true, decide_eq_true_eq] at hfee
  -- each entry is kept under the key of its own fill
  have hkeys : scan.fills.keys = (intoValues scan.fills).map DecodedOrderFill.key := by
    rw [intoValues, List.map_map, ← Std.ExtTreeMap.map_fst_toList_eq_keys]
    refine List.map_congr_left fun entry hentry => ?_
    exact ((hholds entry.1 entry.2).mp
      (Std.ExtTreeMap.mem_toList_iff_getElem?_eq_some.mp hentry)).2.symm
  refine ⟨block, intoValues scan.fills, hhead, hnumber, ?_, ?_, ?_, ?_, by simpa using hp,
    by simpa using hq, by simpa using hf, hprincipal, hquantity, hfee.1, hfee.2, ?_⟩
  · intro hash hmem
    obtain ⟨receipt, decoded, hsettled, _⟩ := hall hash hmem
    exact ⟨receipt, hsettled.observed, hnumber ▸ hsettled.height, hsettled.canonical⟩
  · intro fill
    rw [mem_intoValues]
    constructor
    · rintro ⟨k, hk⟩
      obtain ⟨⟨hash, hmem, receipt, decoded, hsettled, hfill⟩, _⟩ := (hholds k fill).mp hk
      exact ⟨hash, hmem, receipt, decoded, hsettled.observed, hsettled.fills, hfill⟩
    · rintro ⟨hash, hmem, receipt, decoded, hobserved, hdecoded, hfill⟩
      obtain ⟨receipt', decoded', hsettled, _⟩ := hall hash hmem
      have hsame := hobserved.symm.trans hsettled.observed
      simp only [Option.some.injEq, Except.ok.injEq] at hsame
      rw [hsame] at hdecoded
      rw [Except.ok.inj (hdecoded.symm.trans hsettled.fills)] at hfill
      exact ⟨fill.key, (hholds _ _).mpr ⟨⟨hash, hmem, receipt', decoded', hsettled, hfill⟩, rfl⟩⟩
  · rw [List.Nodup, List.pairwise_map]
    refine pairwise_intoValues fun k k' fill fill' hk hfill hfill' heq => hk ?_
    rw [← ((hholds k fill).mp hfill).2, ← ((hholds k' fill').mp hfill').2, heq]
  · rw [hlogs, hkeys, List.map_map]
    rfl
  · intro hashes' hperm
    have hsteps' := finalitySteps_ok.mpr ⟨block, scan, hchain, hhead,
      fun hnil => hne (List.Perm.nil_eq (hnil ▸ hperm)).symm,
      takeTransactions_perm hperm hscan hflag, hflag, hempty, htotals⟩
    unfold classifyPolygonFinality
    rw [hsteps']

/-! One transaction that fills the sample order. -/

namespace ResumedDispatch

/-- `0x` and so many hex digits. -/
def word (count : Nat) (text : String) : Option Nat :=
  match text.toList with
  | '0' :: 'x' :: digits =>
    if digits.length = count ∧ digits.all isHexDigit then some (hexValue digits) else none
  | _ => none

def chainLibraries : FinalityLibraries where
  fromSlice _ := none
  rawLogHash _ := none
  addressFromStr text := (word 40 text).map (BitVec.ofNat 160)
  b256FromStr text := (word 64 text).map (BitVec.ofNat 256)
  u256FromStr text := (parseDigits text.toList).map (BitVec.ofNat 256)
  hashes := SlowRead.libraries.hashes
  fromStr _ := none

/-- The fill of five dollars for ten shares, without a fee. -/
def fillLog : ReceiptLog :=
  ⟨"t", 7, "b", 0, ctfExchangeV2, [topicOrderFilledV2, 0xaa, 0xf0, 0],
    String.ofList ('0' :: 'x' :: [0, 11, 5000000, 10000000, 0, 0, 0].flatMap (hexDigits 64)), false, "l"⟩

/-- The sample order under the texts that the chain has. -/
def chainSigned : PreparedPolymarketBuy :=
  { signed with
    maker := (⟨0xf0⟩ : WalletAddress).text
    verifyingContract := "0xE111180000d2663C0091e4f400237545B87B996B"
    metadata := (0 : B256).text
    builder := (0 : B256).text
    orderHash := (0xaa : B256).text }

def filled : LiveOrderPreparedAudit :=
  ⟨SlowRead.request.identity, ⟨1, "key"⟩, SlowRead.economic, ⟨SlowRead.instant 30, false, false, "0xE1",
    .zero, .zero, .zero, 1, 1, [], [], []⟩, chainSigned⟩

def filledReceipts : ReceiptObservations :=
  (∅ : ReceiptObservations).insert "t" (.ok (some ⟨"t", 7, "b", [fillLog]⟩))

theorem filled_finalized :
    ∃ principal quantity fee logs, classifyPolygonFinality chainLibraries filled ["t", "t"] (.ok 137)
        (.ok ⟨7, "b"⟩) filledReceipts ∅ ∅ = .finalized principal quantity fee logs 137 7
      ∧ logs.length = 1 ∧ principal = chainSigned.makerCollateral ∧ chainSigned.takerShares ≤ quantity := by
  have hverdict : classifyPolygonFinality chainLibraries filled ["t", "t"] (.ok 137) (.ok ⟨7, "b"⟩)
      filledReceipts ∅ ∅
        = .finalized SlowRead.principal SlowRead.shares .zero [⟨"t", 0⟩] 137 7 := by
    decide +kernel
  obtain ⟨_, _, _, _, _, _, _, _, _, _, _, hprincipal, hquantity, _⟩ :=
    classifyPolygonFinality_sound chainLibraries filled ["t", "t"] (.ok 137) (.ok ⟨7, "b"⟩)
      filledReceipts ∅ ∅ _ _ _ _ _ _ hverdict
  exact ⟨_, _, _, _, hverdict, rfl, hprincipal, hquantity⟩

end ResumedDispatch

end PredictionEdge
