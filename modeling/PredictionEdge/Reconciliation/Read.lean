import Mathlib.Data.Prod.Lex
import Mathlib.Data.String.Basic
import Mathlib.Data.List.Lex
import PredictionEdge.Lib.StableSort
import PredictionEdge.Lib.Worklist
import PredictionEdge.Reconciliation.Segment

/-!
# Complete reads

A window that is full up to the greatest offset is split at the oldest second that was seen:
what is older, that second alone, and what is newer. A second that is full on its own cannot be
read. The pending windows are a stack whose top is the head of the list.
-/

namespace PredictionEdge

open Lib

section

variable (libs : ActivityLibraries) (fetch : PageFetcher) (baseUrl : String)
  (wallet : WalletAddress) (retainProvenance : Bool) (acceptance : ActivityRowAcceptance)

/-- The windows that a full one is split into at the oldest second seen: older ones come first. -/
def ActivityRequestBounds.parts (bounds : ActivityRequestBounds) (boundary : Int) :
    List ActivityRequestBounds :=
  (if bounds.start.all fun start => start < boundary - 1 then
      [⟨bounds.start, boundary - 1⟩] else [])
    ++ ⟨some (boundary - 1), boundary⟩
    :: (if boundary < bounds.finish then [⟨some boundary, bounds.finish⟩] else [])

/-- Split a full window, unless it is one second. -/
def ActivityRequestBounds.split (bounds : ActivityRequestBounds) (boundary : Int) :
    Except ActivityReadError (List ActivityRequestBounds) :=
  if boundary - 1 < -2 ^ 63 then .error (.invalidSplit bounds.start bounds.finish boundary)
  else if (bounds.start.any fun start => boundary - 1 ≤ start) ∧ bounds.finish ≤ boundary then
    .error (.saturatedTerminalSecond boundary activityMaxOffset)
  else if boundary > bounds.finish ∨ bounds.start.any fun start => boundary ≤ start then
    .error (.invalidSplit bounds.start bounds.finish boundary)
  else .ok (bounds.parts boundary)

/-- Read one pending window; the pages of a full one are kept as evidence. -/
def readWindow (bounds : ActivityRequestBounds) :
    Except ActivityReadError (ActivitySegment × List ActivityRequestBounds) := do
  match ← fetchActivitySegment libs fetch baseUrl wallet retainProvenance acceptance bounds with
  | .complete segment => return (segment, [])
  | .saturated boundary pages =>
    let windows ← bounds.split boundary
    return (⟨bounds, [], [], pages⟩, windows)

end

/-! ## Windows get smaller

A window weighs one less than twice its seconds. A wallet's whole history is taken to start two
seconds before the calendar does, so that what is older than any second is a window again. -/

variable {windows : List ActivityRequestBounds}

namespace ActivityRequestBounds

variable {bounds : ActivityRequestBounds} {boundary : Int}

/-- A window is split unless it is one second. -/
theorem split_ok (h : bounds.split boundary = .ok windows) : windows = bounds.parts boundary
      ∧ ((∀ start ∈ bounds.start, start < boundary - 1) ∨ boundary < bounds.finish) := by
  unfold split at h
  split at h
  · simp at h
  · split at h
    · simp at h
    · rename_i hterminal
      split at h
      · simp at h
      · refine ⟨(Except.ok.inj h).symm, ?_⟩
        by_cases hnewer : boundary < bounds.finish
        · exact Or.inr hnewer
        · refine Or.inl fun start hstart => ?_
          by_contra hle
          refine hterminal ⟨?_, by omega⟩
          rw [Option.mem_def.mp hstart]
          simpa using hle

def weight (bounds : ActivityRequestBounds) : Nat :=
  max (2 * (bounds.finish - bounds.start.getD (firstSecond - 2)).toNat - 1) 1

theorem parts_lighter (hseen : Seen bounds boundary)
    (h : (∀ start ∈ bounds.start, start < boundary - 1) ∨ boundary < bounds.finish) :
    ((bounds.parts boundary).map weight).sum < bounds.weight := by
  obtain ⟨start, finish⟩ := bounds
  obtain ⟨⟨hfinish, hstart⟩, hfirst⟩ := hseen
  cases start with
  | none =>
    by_cases hnewer : boundary < finish <;>
      simp [parts, weight, hnewer] at hfinish ⊢ <;> omega
  | some start =>
    have hlt : start < boundary := hstart start rfl
    by_cases hnewer : boundary < finish <;> by_cases holder : start < boundary - 1 <;>
      simp [parts, weight, hnewer, holder] at hfinish h ⊢ <;> omega

end ActivityRequestBounds

section

variable (libs : ActivityLibraries) (fetch : PageFetcher) (baseUrl : String)
  (wallet : WalletAddress) (retainProvenance : Bool) (acceptance : ActivityRowAcceptance)

theorem readWindow_lighter {bounds : ActivityRequestBounds} {segment : ActivitySegment}
    (h : readWindow libs fetch baseUrl wallet retainProvenance acceptance bounds
      = .ok (segment, windows)) :
    (windows.map ActivityRequestBounds.weight).sum < bounds.weight := by
  obtain ⟨result, hresult, h⟩ := bind_eq_ok.mp h
  cases result with
  | complete segment' =>
    obtain ⟨_, rfl⟩ := Prod.mk.inj (pure_eq_ok.mp h)
    have : 1 ≤ bounds.weight := Nat.le_max_right _ _
    simp only [List.map_nil, List.sum_nil]
    omega
  | saturated boundary pages =>
    obtain ⟨windows', hsplit, h⟩ := bind_eq_ok.mp h
    obtain ⟨_, rfl⟩ := Prod.mk.inj (pure_eq_ok.mp h)
    obtain ⟨rfl, hparts⟩ := ActivityRequestBounds.split_ok hsplit
    exact ActivityRequestBounds.parts_lighter (saturated_seen hresult) hparts

/-- The windows that are pending, and how each is read. -/
def pendingWindows : Worklist ActivityRequestBounds ActivitySegment ActivityReadError where
  handle := readWindow libs fetch baseUrl wallet retainProvenance acceptance
  weight := ActivityRequestBounds.weight
  lighter := readWindow_lighter libs fetch baseUrl wallet retainProvenance acceptance

/-! ## The whole read -/

/-- What rows are ordered by: their second, their group, their canonical encoding. -/
abbrev RowKey := Int ×ₗ (String ×ₗ List Nat)

def rowKey (row : NormalizedActivity) : Except ActivityReadError RowKey := do
  let id ← (row.groupId libs.blake3).mapError .identity
  let encoding ← (row.semanticRowEncoding libs.decimalText).mapError .identity
  return toLex (row.second, toLex (id.key.val, encoding.map UInt8.toNat))

def keyedRow (row : NormalizedActivity) : Except ActivityReadError (RowKey × NormalizedActivity) :=
  (rowKey libs row).map (·, row)

def sortedRows (rows : List NormalizedActivity) :
    Except ActivityReadError (List NormalizedActivity) :=
  (rows.mapM (keyedRow libs)).map fun keyed => (sortOn Prod.fst keyed).map Prod.snd

/-- An open start comes before every other one. -/
def startKey (start : Option Int) : Bool ×ₗ Int := toLex (start.isSome, start.getD 0)

/-- Segments go by their end, then by their start. -/
def ActivitySegment.key (segment : ActivitySegment) : Int ×ₗ (Bool ×ₗ Int) :=
  toLex (segment.bounds.finish, startKey segment.bounds.start)

def ReadAnomaly.key (anomaly : ReadAnomaly) : Int ×ₗ (String ×ₗ Nat) :=
  toLex (anomaly.sourceTime.nanos, toLex (anomaly.rawRowHash, anomaly.rowIndex))

def ReconciliationPageEvidence.key (page : ReconciliationPageEvidence) :
    Int ×ₗ ((Bool ×ₗ Int) ×ₗ Nat) :=
  let bounds := page.bounds.getD ⟨none, -2 ^ 63⟩
  toLex (bounds.finish, toLex (startKey bounds.start, page.offset))

def assembleActivity (requestedWallet : WalletAddress) (fixedEnd : Int)
    (complete : List ActivitySegment) : Except ActivityReadError CompleteActivityRead := do
  let complete := sortOn ActivitySegment.key complete
  let rows ← complete.mapM fun segment => sortedRows libs segment.rows
  return ⟨requestedWallet, fixedEnd, rows.flatten,
    sortOn ReadAnomaly.key (complete.flatMap (·.anomalies)),
    sortOn ReconciliationPageEvidence.key (complete.flatMap (·.pages))⟩

def fetchCompleteActivityWith (start : Option Int) (fixedEnd : Int) :
    Except ActivityReadError CompleteActivityRead := do
  let complete ← (pendingWindows libs fetch baseUrl wallet retainProvenance acceptance).run
    [⟨start, fixedEnd⟩] []
  assembleActivity libs wallet fixedEnd complete

/-- Fetch one complete position-changing activity history ending at `fixedEnd`. -/
def fetchCompleteActivity (start : Option Int) (fixedEnd : Int) :
    Except ActivityReadError CompleteActivityRead :=
  fetchCompleteActivityWith libs fetch baseUrl wallet true .strict start fixedEnd

end

end PredictionEdge
