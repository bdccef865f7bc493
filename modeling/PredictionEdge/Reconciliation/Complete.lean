import Mathlib.Algebra.BigOperators.Group.List.Basic
import PredictionEdge.Activity.FlatRows
import PredictionEdge.EventLog.StandIn
import PredictionEdge.Reconciliation.Read
import PredictionEdge.Reconciliation.Served

/-!
# A complete read is complete

Against a history that does not change, splitting windows loses nothing and reads nothing twice:
the windows that are pending and the segments that are done always share out the rows of the
requested window, one after the other in time. The read fails exactly when a single second of the
window is full up to the greatest offset.
-/

namespace PredictionEdge

open Lib

/-! ## Windows one after the other -/

namespace ActivityRequestBounds

variable {a b w bounds : ActivityRequestBounds} {boundary second : Int}

/-- One window ends before the other starts. -/
def Before (a b : ActivityRequestBounds) : Prop := ∃ start ∈ b.start, a.finish ≤ start

/-- A part of a window lies in it. -/
structure Inside (part bounds : ActivityRequestBounds) : Prop where
  finish : part.finish ≤ bounds.finish
  start : ∀ start ∈ bounds.start, ∃ later ∈ part.start, start ≤ later

theorem Inside.holds (h : Inside a b) (hs : a.Holds second) : b.Holds second := by
  refine ⟨le_trans hs.1 h.finish, fun start hstart => ?_⟩
  obtain ⟨later, hlater, hle⟩ := h.start start hstart
  exact lt_of_le_of_lt hle (hs.2 later hlater)

theorem Inside.trans (h : Inside a b) (h' : Inside b w) : Inside a w := by
  refine ⟨le_trans h.finish h'.finish, fun start hstart => ?_⟩
  obtain ⟨later, hlater, hle⟩ := h'.start start hstart
  obtain ⟨latest, hlatest, hle'⟩ := h.start later hlater
  exact ⟨latest, hlatest, le_trans hle hle'⟩

theorem Inside.before_left (h : Inside a b) (hb : Before b w) : Before a w := by
  obtain ⟨start, hstart, hle⟩ := hb
  exact ⟨start, hstart, le_trans h.finish hle⟩

theorem Inside.before_right (h : Inside a b) (hb : Before w b) : Before w a := by
  obtain ⟨start, hstart, hle⟩ := hb
  obtain ⟨later, hlater, hle'⟩ := h.start start hstart
  exact ⟨later, hlater, le_trans hle hle'⟩

/-- Every second of an earlier window is before every second of a later one. -/
theorem Before.lt (h : Before a b) {s t : Int} (hs : a.Holds s) (ht : b.Holds t) : s < t := by
  obtain ⟨start, hstart, hle⟩ := h
  exact lt_of_le_of_lt (le_trans hs.1 hle) (ht.2 start hstart)

/-- The parts of a window follow each other. -/
theorem parts_before (bounds : ActivityRequestBounds) (boundary : Int) :
    (bounds.parts boundary).Pairwise Before := by
  unfold parts
  split <;> split <;> simp [Before]

theorem parts_inside (h : bounds.Holds boundary) : ∀ part ∈ bounds.parts boundary,
    Inside part bounds := by
  intro part hpart
  rcases List.mem_append.mp hpart with hpart | hpart
  · split at hpart
    · obtain rfl := List.mem_singleton.mp hpart
      exact ⟨by have := h.1; simp only; omega, fun start hstart => ⟨start, hstart, le_refl start⟩⟩
    · simp at hpart
  · rcases List.mem_cons.mp hpart with rfl | hpart
    · refine ⟨h.1, fun start hstart => ⟨boundary - 1, rfl, ?_⟩⟩
      have := h.2 start hstart
      omega
    · split at hpart
      · obtain rfl := List.mem_singleton.mp hpart
        refine ⟨le_refl _, fun start hstart => ⟨boundary, rfl, ?_⟩⟩
        exact le_of_lt (h.2 start hstart)
      · simp at hpart

/-- Every second of a window is in some part of it. -/
theorem exists_part (h : bounds.Holds boundary) (hs : bounds.Holds second) :
    ∃ part ∈ bounds.parts boundary, part.Holds second := by
  rcases lt_trichotomy second boundary with hlt | rfl | hgt
  · by_cases hall : bounds.start.all fun start => start < boundary - 1
    · refine ⟨⟨bounds.start, boundary - 1⟩, ?_, ⟨by simp only; omega, hs.2⟩⟩
      simp [parts, hall]
    · -- nothing lies between the start and the boundary
      refine absurd ?_ hall
      cases hstart : bounds.start with
      | none => rfl
      | some start =>
        have := hs.2 start hstart
        simp only [Option.all_some, decide_eq_true_eq]
        omega
  · refine ⟨⟨some (second - 1), second⟩, by simp [parts], ⟨le_refl _, fun start hstart => ?_⟩⟩
    rw [← Option.some.inj hstart]
    omega
  · have hfinish := hs.1
    refine ⟨⟨some boundary, bounds.finish⟩, ?_, ⟨hs.1, fun start hstart => ?_⟩⟩
    · simp [parts, show boundary < bounds.finish by omega]
    · rw [← Option.some.inj hstart]
      exact hgt

end ActivityRequestBounds

/-! ## Sharing out the rows -/

variable {libs : ActivityLibraries} {wallet : WalletAddress} {acceptance : ActivityRowAcceptance}
  {root : ActivityRequestBounds} {served : ServedHistory libs wallet acceptance root}
  {baseUrl : String} {retainProvenance : Bool} {bounds t : ActivityRequestBounds} {windows rest : List ActivityRequestBounds}
  {segment : ActivitySegment} {segments done : List ActivitySegment} {e : ActivityReadError}
  {boundary fixedEnd : Int} {text : String} {row : NormalizedActivity}
  {lists : List (List NormalizedActivity)}

namespace ServedHistory

/-- The parts of a window share out its rows. -/
theorem held_parts (h : bounds.Holds boundary) :
    ((bounds.parts boundary).map served.held).sum = served.held bounds := by
  have hcut : served.held bounds = served.held ⟨bounds.start, boundary⟩
      + served.held ⟨some boundary, bounds.finish⟩ :=
    WalletHistory.held_cut (fun s hs => le_of_lt (h.2 s hs)) h.1
  have hcut' : served.held ⟨bounds.start, boundary⟩ = served.held ⟨bounds.start, boundary - 1⟩
      + served.held ⟨some (boundary - 1), boundary⟩ :=
    WalletHistory.held_cut (fun s hs => by have := h.2 s hs; omega) (by omega)
  have holder : ¬ (bounds.start.all fun start => start < boundary - 1) →
      served.held ⟨bounds.start, boundary - 1⟩ = 0 := by
    intro hall
    refine WalletHistory.held_of_not_holds fun second hs => hall ?_
    cases hstart : bounds.start with
    | none => rfl
    | some start =>
      have := hs.2 start hstart
      have := hs.1
      simp only [Option.all_some, decide_eq_true_eq]
      simp only at this
      omega
  have hnewer : ¬ boundary < bounds.finish → served.held ⟨some boundary, bounds.finish⟩ = 0 := by
    intro hle
    refine WalletHistory.held_of_not_holds fun second hs => hle ?_
    have := hs.2 boundary rfl
    have := hs.1
    simp only at this
    omega
  rw [hcut, hcut']
  unfold ActivityRequestBounds.parts
  by_cases hall : bounds.start.all fun start => start < boundary - 1
  · by_cases hlt : boundary < bounds.finish
    · simp [hall, hlt, add_assoc]
    · simp [hall, hlt, hnewer hlt]
  · by_cases hlt : boundary < bounds.finish
    · simp [hall, hlt, holder hall]
    · simp [hall, hlt, holder hall, hnewer hlt]

/-- How a window of a served history is read: as a whole, or split. -/
theorem readWindow_cases
    (h : readWindow libs served.fetch baseUrl wallet retainProvenance acceptance bounds
      = .ok (segment, windows)) :
    (windows = [] ∧ segment.bounds = bounds
        ∧ Multiset.Rel (ReadsAs libs wallet retainProvenance acceptance) (served.held bounds)
          (parsedOf segment.rows segment.anomalies)
        ∧ (served.held bounds).card < activityMaxOffset + reconciliationPageLimit)
      ∨ ∃ boundary, windows = bounds.parts boundary ∧ bounds.Holds boundary
        ∧ segment.rows = [] ∧ segment.anomalies = [] := by
  obtain ⟨result, hresult, h⟩ := bind_eq_ok.mp h
  cases result with
  | complete segment' =>
    obtain ⟨rfl, rfl⟩ := Prod.mk.inj (pure_eq_ok.mp h)
    obtain ⟨hbounds, hrel, hcard⟩ := complete_texts hresult
    exact Or.inl ⟨rfl, hbounds, hrel, hcard⟩
  | saturated boundary pages =>
    obtain ⟨windows', hsplit, h⟩ := bind_eq_ok.mp h
    obtain ⟨rfl, rfl⟩ := Prod.mk.inj (pure_eq_ok.mp h)
    obtain ⟨hwindows, _⟩ := ActivityRequestBounds.split_ok hsplit
    exact Or.inr ⟨boundary, hwindows, (saturated_seen hresult).1, rfl, rfl⟩

theorem exists_of_any {start : Option Int} {p : Int → Prop} [DecidablePred p]
    (h : (start.any fun s => decide (p s)) = true) : ∃ s ∈ start, p s := by
  cases start with
  | none => simp at h
  | some s => exact ⟨s, rfl, by simpa using h⟩

/-- The only failure is a full second. -/
theorem readWindow_error (hwindow : ∀ second, bounds.Holds second → root.Holds second)
    (h : readWindow libs served.fetch baseUrl wallet retainProvenance acceptance bounds = .error e) :
    ∃ second, bounds.Holds second ∧ served.Full second
      ∧ e = .saturatedTerminalSecond second activityMaxOffset := by
  obtain ⟨result, hresult⟩ : ∃ result, fetchActivitySegment libs served.fetch baseUrl wallet
      retainProvenance acceptance bounds = .ok result := fetchActivitySegment_succeeds hwindow
  rw [readWindow, hresult, ok_bind] at h
  cases result with
  | complete segment => simp [pure, Except.pure] at h
  | saturated boundary pages =>
    obtain ⟨hholds, hfirst⟩ := saturated_seen hresult
    have hcard := saturated_texts hresult
    have hmin : firstSecond = -377705116800 := rfl
    refine ⟨boundary, hholds, ?_⟩
    rcases bind_eq_error.mp h with hsplit | ⟨_, _, h⟩
    · unfold ActivityRequestBounds.split at hsplit
      rw [if_neg (by omega)] at hsplit
      split at hsplit
      · rename_i hterminal
        refine ⟨?_, (Except.error.inj hsplit).symm⟩
        -- the window is this second alone
        refine le_trans hcard ?_
        refine (List.monotone_filter_right served.rows fun text htext => ?_).length_le
        rw [decide_eq_true_eq] at htext ⊢
        obtain ⟨start, hstart, hle⟩ := exists_of_any hterminal.1
        have := htext.2 start hstart
        have := htext.1
        omega
      · rw [if_neg] at hsplit
        · simp at hsplit
        · rintro (hgt | hany)
          · exact absurd hholds.1 (by omega)
          · obtain ⟨start, hstart, hle⟩ := exists_of_any hany
            have := hholds.2 start hstart
            omega
    · simp [pure, Except.pure] at h

end ServedHistory

/-! ## The invariant -/

/-- What is pending and what is done share out the rows of the requested window, in order. -/
structure Progress {libs : ActivityLibraries} {wallet : WalletAddress}
    {acceptance : ActivityRowAcceptance} {root : ActivityRequestBounds}
    (served : ServedHistory libs wallet acceptance root) (retainProvenance : Bool)
    (pending : List ActivityRequestBounds) (done : List ActivitySegment) : Prop where
  shared : ∃ texts, texts + (pending.map served.held).sum = served.held root
    ∧ Multiset.Rel (ReadsAs libs wallet retainProvenance acceptance) texts
      (done.map fun segment => parsedOf segment.rows segment.anomalies).sum
  /-- Rows lie in the window of their segment. -/
  inside : ∀ a ∈ done, ∀ row ∈ a.rows, a.bounds.Holds row.second
  pendingOrder : pending.Pairwise ActivityRequestBounds.Before
  doneOrder : done.Pairwise fun a b => a.rows = [] ∨ b.rows = [] ∨ a.bounds.Before b.bounds
  between : ∀ a ∈ done, ∀ w ∈ pending, a.rows = [] ∨ a.bounds.Before w
  /-- A full second is never done. -/
  full : ∀ second, root.Holds second → served.Full second → ∃ w ∈ pending, w.Holds second

theorem Progress.start : Progress served retainProvenance [root] [] where
  shared := ⟨0, by simp, .zero⟩
  inside := by simp
  pendingOrder := List.pairwise_singleton _ _
  doneOrder := List.Pairwise.nil
  between := by simp
  full := fun _ hs _ => ⟨root, List.mem_singleton_self root, hs⟩

/-- The first pending window is read, into a segment or into windows inside it. -/
theorem Progress.next (h : Progress served retainProvenance (t :: rest) done)
    (hparts : windows.Pairwise ActivityRequestBounds.Before)
    (hinside : ∀ part ∈ windows, ActivityRequestBounds.Inside part t)
    (hshared : ∃ texts, texts + (windows.map served.held).sum = served.held t
      ∧ Multiset.Rel (ReadsAs libs wallet retainProvenance acceptance) texts
        (parsedOf segment.rows segment.anomalies))
    (hsegment : segment.rows = [] ∨ segment.bounds = t ∧ windows = [])
    (hfull : ∀ second, t.Holds second → served.Full second → ∃ w ∈ windows, w.Holds second) :
    Progress served retainProvenance (windows ++ rest) (done ++ [segment]) where
  shared := by
    obtain ⟨texts, htexts, hdone⟩ := h.shared
    obtain ⟨more, hmore, hrel⟩ := hshared
    refine ⟨texts + more, ?_, ?_⟩
    · rw [← htexts, List.map_append, List.sum_append, List.map_cons, List.sum_cons, ← hmore,
        add_assoc, add_assoc]
    · rw [List.map_append, List.sum_append, List.map_singleton, List.sum_singleton]
      exact hdone.add hrel
  inside := by
    refine List.forall_mem_append.mpr ⟨h.inside, fun a ha row hrow => ?_⟩
    obtain rfl := List.mem_singleton.mp ha
    rcases hsegment with hempty | ⟨hbounds, _⟩
    · simp [hempty] at hrow
    · obtain ⟨texts, htexts, hrel⟩ := hshared
      have hmem : ParsedActivityRow.row row ∈ parsedOf a.rows a.anomalies :=
        Multiset.mem_add.mpr (Or.inl (Multiset.mem_coe.mpr (List.mem_map_of_mem hrow)))
      obtain ⟨text, htext, hread⟩ :=
        Multiset.exists_mem_of_rel_of_mem (Multiset.rel_flip.mpr hrel) hmem
      have hheld : text ∈ served.held t := by
        rw [← htexts]
        exact Multiset.mem_add.mpr (Or.inl htext)
      have hsecond : row.second = rowSecond libs text := hread.second_eq
      rw [hbounds, hsecond]
      exact (Multiset.mem_filter.mp hheld).2
  pendingOrder := by
    obtain ⟨hfirst, hrest⟩ := List.pairwise_cons.mp h.pendingOrder
    refine List.pairwise_append.mpr ⟨hparts, hrest, fun part hpart w hw => ?_⟩
    exact (hinside part hpart).before_left (hfirst w hw)
  doneOrder := by
    refine List.pairwise_append.mpr ⟨h.doneOrder, List.pairwise_singleton _ _, fun a ha b hb => ?_⟩
    obtain rfl := List.mem_singleton.mp hb
    rcases hsegment with hempty | ⟨hbounds, _⟩
    · exact Or.inr (Or.inl hempty)
    · rw [hbounds]
      exact (h.between a ha t List.mem_cons_self).imp_right Or.inr
  between := by
    refine List.forall_mem_append.mpr ⟨fun a ha w hw => ?_, fun a ha w hw => ?_⟩
    · rcases List.mem_append.mp hw with hw | hw
      · exact (h.between a ha t List.mem_cons_self).imp_right (hinside w hw).before_right
      · exact h.between a ha w (List.mem_cons_of_mem _ hw)
    · obtain rfl := List.mem_singleton.mp ha
      rcases hsegment with hempty | ⟨hbounds, rfl⟩
      · exact Or.inl hempty
      · rw [hbounds]
        exact Or.inr ((List.pairwise_cons.mp h.pendingOrder).1 w hw)
  full := by
    intro second hs hfull'
    obtain ⟨w, hw, hholds⟩ := h.full second hs hfull'
    rcases List.mem_cons.mp hw with rfl | hw
    · obtain ⟨part, hpart, hmem⟩ := hfull second hholds hfull'
      exact ⟨part, List.mem_append_left _ hpart, hmem⟩
    · exact ⟨w, List.mem_append_right _ hw, hholds⟩

/-- **One window.** Whatever is read next, the rows stay shared out. -/
theorem Progress.step (h : Progress served retainProvenance (t :: rest) done)
    (hread : readWindow libs served.fetch baseUrl wallet retainProvenance acceptance t
      = .ok (segment, windows)) :
    Progress served retainProvenance (windows ++ rest) (done ++ [segment]) := by
  rcases ServedHistory.readWindow_cases hread with ⟨rfl, hbounds, hrel, hcard⟩ |
    ⟨boundary, rfl, hholds, hrows, hanomalies⟩
  · refine h.next .nil (by simp) ⟨served.held t, by simp, hrel⟩ (Or.inr ⟨hbounds, rfl⟩) ?_
    intro second hs hfull
    have := hfull.card_le hs
    omega
  · refine h.next (ActivityRequestBounds.parts_before t boundary)
      (ActivityRequestBounds.parts_inside hholds) ⟨0, ?_, ?_⟩ (Or.inl hrows)
      fun second hs _ => ActivityRequestBounds.exists_part hholds hs
    · rw [zero_add, ServedHistory.held_parts hholds]
    · simp [hrows, hanomalies, parsedOf]

/-! ## Putting the segments together -/

/-- The documented order of rows: by second, then by group, then by encoding. -/
def RowLe (libs : ActivityLibraries) (a b : NormalizedActivity) : Prop :=
  ∃ j k, rowKey libs a = .ok j ∧ rowKey libs b = .ok k ∧ j ≤ k

theorem rowKey_second {key : RowKey} (h : rowKey libs row = .ok key) :
    (ofLex key).1 = row.second := by
  obtain ⟨id, _, h⟩ := bind_eq_ok.mp h
  obtain ⟨encoding, _, h⟩ := bind_eq_ok.mp h
  rw [← pure_eq_ok.mp h]
  rfl

theorem keyedRow_ok {keyed : RowKey × NormalizedActivity} (h : keyedRow libs row = .ok keyed) :
    rowKey libs keyed.2 = .ok keyed.1 ∧ keyed.2 = row := by
  obtain ⟨key, hkey, rfl⟩ := map_eq_ok.mp h
  exact ⟨hkey, rfl⟩

/-- Sorting keeps the rows and puts them in order. -/
theorem sortedRows_ok {rows out : List NormalizedActivity} (h : sortedRows libs rows = .ok out) :
    out.Perm rows ∧ out.Pairwise (RowLe libs) ∧ ∀ row ∈ out, ∃ key, rowKey libs row = .ok key := by
  obtain ⟨keyed, hkeyed, rfl⟩ := map_eq_ok.mp h
  have hall := mapM_eq_ok.mp hkeyed
  have hperm := sortOn_perm Prod.fst keyed
  have hkeys : ∀ k ∈ sortOn Prod.fst keyed, rowKey libs k.2 = .ok k.1 := by
    intro k hk
    obtain ⟨row, _, hrow⟩ := forall₂_exists_left hall (hperm.mem_iff.mp hk)
    exact (keyedRow_ok hrow).1
  have hrows : keyed.map Prod.snd = rows := by
    clear h hkeyed hperm hkeys
    induction hall with
    | nil => rfl
    | cons hhead _ ih => rw [List.map_cons, ih, (keyedRow_ok hhead).2]
  refine ⟨?_, ?_, ?_⟩
  · rw [← hrows]
    exact hperm.map Prod.snd
  · refine List.pairwise_map.mpr ((sortOn_pairwise Prod.fst keyed).imp_of_mem ?_)
    intro a b ha hb hle
    exact ⟨a.1, b.1, hkeys a ha, hkeys b hb, hle⟩
  · intro row hrow
    obtain ⟨k, hk, rfl⟩ := List.mem_map.mp hrow
    exact ⟨k.1, hkeys k hk⟩

/-- Segments in time order, each row in the window of its segment, give rows in order. -/
theorem rows_in_order (hinside : ∀ a ∈ segments, ∀ row ∈ a.rows, a.bounds.Holds row.second)
    (hapart : segments.Pairwise fun a b =>
      a.rows = [] ∨ b.rows = [] ∨ a.bounds.Before b.bounds ∨ b.bounds.Before a.bounds)
    (hsorted : segments.Pairwise fun a b => a.key ≤ b.key)
    (hlists : List.Forall₂ (fun segment list => sortedRows libs segment.rows = .ok list) segments
      lists) : lists.flatten.Pairwise (RowLe libs) := by
  refine List.pairwise_flatten.mpr ⟨fun list hlist => ?_, ?_⟩
  · obtain ⟨segment, _, hsort⟩ := forall₂_exists_left hlists hlist
    exact (sortedRows_ok hsort).2.1
  · have hordered := (hapart.and hsorted).imp_of_mem (S := fun a b => ∀ x ∈ a.rows, ∀ y ∈ b.rows,
      x.second < y.second) ?_
    · refine pairwise_of_forall₂ (fun a b l m hl hm hab x hx y hy => ?_) hlists hordered
      obtain ⟨hpl, _, hkl⟩ := sortedRows_ok hl
      obtain ⟨hpm, _, hkm⟩ := sortedRows_ok hm
      obtain ⟨j, hj⟩ := hkl x hx
      obtain ⟨k, hk⟩ := hkm y hy
      refine ⟨j, k, hj, hk, Prod.Lex.le_iff.mpr (Or.inl ?_)⟩
      rw [rowKey_second hj, rowKey_second hk]
      exact hab x (hpl.mem_iff.mp hx) y (hpm.mem_iff.mp hy)
    · intro a b ha hb hab x hx y hy
      have hxa := hinside a ha x hx
      have hyb := hinside b hb y hy
      rcases hab.1 with hempty | hempty | hbefore | hafter
      · rw [hempty] at hx
        simp at hx
      · rw [hempty] at hy
        simp at hy
      · exact hbefore.lt hxa hyb
      · -- the later segment would end first
        obtain ⟨start, hstart, hle⟩ := hafter
        have hlt := hxa.2 start hstart
        have hfinish := hxa.1
        rcases Prod.Lex.le_iff.mp hab.2 with hkey | hkey
        · have hkey' : a.bounds.finish < b.bounds.finish := hkey
          omega
        · have hkey' : a.bounds.finish = b.bounds.finish := hkey.1
          omega

theorem parsedOf_perm {rows rows' : List NormalizedActivity} {anomalies anomalies' : List ReadAnomaly}
    (hrows : rows.Perm rows') (hanomalies : anomalies.Perm anomalies') :
    parsedOf rows anomalies = parsedOf rows' anomalies' := by
  unfold parsedOf
  rw [Multiset.coe_eq_coe.mpr (hrows.map _), Multiset.coe_eq_coe.mpr (hanomalies.map _)]

theorem parsedOf_flatMap : ∀ segments : List ActivitySegment,
    (segments.map fun segment => parsedOf segment.rows segment.anomalies).sum
      = parsedOf (segments.flatMap (·.rows)) (segments.flatMap (·.anomalies))
  | [] => rfl
  | segment :: segments => by
    rw [List.map_cons, List.sum_cons, parsedOf_flatMap segments, List.flatMap_cons,
      List.flatMap_cons, parsedOf_append]

theorem flatten_perm
    (h : List.Forall₂ (fun segment list => sortedRows libs segment.rows = .ok list) segments lists) :
    lists.flatten.Perm (segments.flatMap (·.rows)) := by
  induction h with
  | nil => exact List.Perm.refl _
  | cons hhead _ ih =>
    exact (sortedRows_ok hhead).1.append ih

/-- What is put together: all that the segments hold, the anomalies in order. -/
theorem assembleActivity_ok {complete : List ActivitySegment} {read : CompleteActivityRead}
    (h : assembleActivity libs wallet fixedEnd complete = .ok read) :
    parsedOf read.rows read.anomalies
        = (complete.map fun segment => parsedOf segment.rows segment.anomalies).sum
      ∧ (read.anomalies.Pairwise fun a b => a.key ≤ b.key)
      ∧ ∃ lists, read.rows = lists.flatten
        ∧ List.Forall₂ (fun segment list => sortedRows libs segment.rows = .ok list)
          (sortOn ActivitySegment.key complete) lists := by
  obtain ⟨lists, hlists, h⟩ := bind_eq_ok.mp h
  have hall := mapM_eq_ok.mp hlists
  have hperm := sortOn_perm ActivitySegment.key complete
  rw [← pure_eq_ok.mp h]
  refine ⟨?_, sortOn_pairwise _ _, lists, rfl, hall⟩
  rw [parsedOf_flatMap]
  refine parsedOf_perm ((flatten_perm hall).trans (hperm.flatMap_right _)) ?_
  exact (sortOn_perm _ _).trans (hperm.flatMap_right _)

theorem assembleActivity_succeeds {complete : List ActivitySegment}
    (h : ∀ segment ∈ complete, ∀ row ∈ segment.rows, ∃ key, rowKey libs row = .ok key) :
    ∃ read, assembleActivity libs wallet fixedEnd complete = .ok read := by
  obtain ⟨lists, hlists⟩ : ∃ lists, (sortOn ActivitySegment.key complete).mapM
      (fun segment => sortedRows libs segment.rows) = .ok lists := by
    refine mapM_succeeds fun segment hsegment => ?_
    obtain ⟨keyed, hkeyed⟩ : ∃ keyed, segment.rows.mapM (keyedRow libs) = .ok keyed := by
      refine mapM_succeeds fun row hrow => ?_
      obtain ⟨key, hkey⟩ := h segment ((sortOn_perm _ _).mem_iff.mp hsegment) row hrow
      exact ⟨(key, row), by rw [keyedRow, hkey]; rfl⟩
    exact ⟨_, by rw [sortedRows, hkeyed]; rfl⟩
  unfold assembleActivity
  dsimp only
  rw [hlists]
  exact ⟨_, rfl⟩

/-! ## The whole read -/

/-- A row of the window can be ordered however it was read. -/
theorem ReadsAs.rowKey (hmem : text ∈ served.held root)
    (h : ReadsAs libs wallet retainProvenance acceptance text (.row row)) :
    ∃ key, PredictionEdge.rowKey libs row = .ok key := by
  obtain ⟨context, index, full, hfull, heq⟩ := h
  obtain ⟨hrow, hwindow⟩ := Multiset.mem_filter.mp hmem
  obtain ⟨parsed, hparsed, hkeyed⟩ :=
    WalletHistory.accepted_at (Multiset.mem_coe.mp hrow) hwindow context index
  rw [hfull] at hparsed
  obtain rfl := Except.ok.inj hparsed
  cases full with
  | anomaly a => simp [ParsedActivityRow.kept] at heq
  | row r =>
    obtain ⟨⟨id, hid⟩, bytes, hbytes⟩ := hkeyed
    have hgroup : row.groupId libs.blake3 = .ok id := by
      rw [ParsedActivityRow.row.inj heq]
      split
      · exact hid
      · exact hid
    have hencoding : row.semanticRowEncoding libs.decimalText = .ok bytes := by
      rw [ParsedActivityRow.row.inj heq]
      split
      · exact hbytes
      · exact hbytes
    rw [PredictionEdge.rowKey, hgroup, hencoding]
    exact ⟨_, rfl⟩

theorem Progress.apart (h : Progress served retainProvenance [] done) :
    (sortOn ActivitySegment.key done).Pairwise fun a b =>
      a.rows = [] ∨ b.rows = [] ∨ a.bounds.Before b.bounds ∨ b.bounds.Before a.bounds := by
  have hsymm : ∀ {a b : ActivitySegment},
      (a.rows = [] ∨ b.rows = [] ∨ a.bounds.Before b.bounds ∨ b.bounds.Before a.bounds) →
      b.rows = [] ∨ a.rows = [] ∨ b.bounds.Before a.bounds ∨ a.bounds.Before b.bounds := by
    intro a b hab
    rcases hab with hab | hab | hab | hab
    · exact Or.inr (Or.inl hab)
    · exact Or.inl hab
    · exact Or.inr (Or.inr (Or.inr hab))
    · exact Or.inr (Or.inr (Or.inl hab))
  refine ((sortOn_perm _ done).pairwise_iff hsymm).mpr (h.doneOrder.imp ?_)
  intro a b hab
  rcases hab with hab | hab | hab
  · exact Or.inl hab
  · exact Or.inr (Or.inl hab)
  · exact Or.inr (Or.inr (Or.inl hab))

/-- Every row that is done is one of the window, and can be ordered. -/
theorem Progress.rowKey (h : Progress served retainProvenance [] done) :
    ∀ segment ∈ done, ∀ row ∈ segment.rows, ∃ key, PredictionEdge.rowKey libs row = .ok key := by
  intro segment hsegment row hrow
  obtain ⟨texts, htexts, hrel⟩ := h.shared
  rw [List.map_nil, List.sum_nil, add_zero] at htexts
  rw [parsedOf_flatMap] at hrel
  have hmem : ParsedActivityRow.row row
      ∈ parsedOf (done.flatMap (·.rows)) (done.flatMap (·.anomalies)) :=
    Multiset.mem_add.mpr (Or.inl (Multiset.mem_coe.mpr
      (List.mem_map_of_mem (List.mem_flatMap.mpr ⟨segment, hsegment, hrow⟩))))
  obtain ⟨text, htext, hread⟩ :=
    Multiset.exists_mem_of_rel_of_mem (Multiset.rel_flip.mpr hrel) hmem
  rw [htexts] at htext
  exact ReadsAs.rowKey htext hread

/-- When nothing is pending any more, everything is shared out. -/
theorem pendingWindows_ok
    (h : (pendingWindows libs served.fetch baseUrl wallet retainProvenance acceptance).run [root] []
      = .ok done) : Progress served retainProvenance [] done :=
  Worklist.run_invariant (fun _ _ _ _ _ hprogress hread => hprogress.step hread)
    Progress.start h

theorem pendingWindows_error
    (h : (pendingWindows libs served.fetch baseUrl wallet retainProvenance acceptance).run [root] []
      = .error e) :
    ∃ second, root.Holds second ∧ served.Full second
      ∧ e = .saturatedTerminalSecond second activityMaxOffset := by
  -- every window that comes up lies in the requested one
  have hstep : ∀ t segment windows, ActivityRequestBounds.Inside t root →
      readWindow libs served.fetch baseUrl wallet retainProvenance acceptance t
        = .ok (segment, windows) →
      ∀ t' ∈ windows, ActivityRequestBounds.Inside t' root := by
    intro t segment windows hinside hread t' ht'
    rcases ServedHistory.readWindow_cases hread with ⟨rfl, _⟩ | ⟨boundary, rfl, hholds, _⟩
    · simp at ht'
    · exact (ActivityRequestBounds.parts_inside hholds t' ht').trans hinside
  have hroot : ∀ t ∈ [root], ActivityRequestBounds.Inside t root := by
    intro t ht
    obtain rfl := List.mem_singleton.mp ht
    exact ⟨le_refl _, fun start hstart => ⟨start, hstart, le_refl start⟩⟩
  obtain ⟨t, hinside, ht⟩ := Worklist.run_failure hstep hroot h
  obtain ⟨second, hholds, hfull, rfl⟩ :=
    ServedHistory.readWindow_error (fun _ => hinside.holds) ht
  exact ⟨second, hinside.holds hholds, hfull, rfl⟩

namespace SampleHistory

def redemption (second : String) : String :=
  "\x7b\"proxyWallet\":\"0x00000000000000000000000000000000000000aa\",\"timestamp\":" ++ second ++
    ",\"type\":\"REDEEM\",\"transactionHash\":\"0xABC\",\"conditionId\":\"0xb2\"," ++
    "\"size\":1,\"usdcSize\":0,\"price\":0\x7d"

def readTexts (raw : EventLog.Bytes) : Except String (List String) :=
  match EventLog.StandIn.string.list.get raw with
  | some (texts, []) => .ok texts
  | _ => .error "no page"

theorem readTexts_put (texts : List String) :
    readTexts (EventLog.StandIn.string.list.put texts) = .ok texts := by
  have h := EventLog.StandIn.string.list.get_put texts []
  rw [List.append_nil] at h
  rw [readTexts, h]

/-- The reader of flat rows and of pages of them, with a polynomial of the bytes for a digest. -/
def libraries : ActivityLibraries :=
  { FlatRows.libraries with
    rows := readTexts
    blake3 bytes :=
      String.ofList (hexDigits 64 (bytes.foldl (fun h b => (257 * h + b.toNat + 1) % 2 ^ 256) 0)) }

def context : ActivityParseContext := ⟨⟨""⟩, ⟨0⟩, ⟨0⟩, .rest⟩

/-- A row parses, and its group and its encoding can be derived. -/
def isKeyed (text : String) : Bool :=
  match parseRowWithAcceptance libraries text (some ⟨0xaa⟩) context 0 .strict with
  | .ok (.row r) => (r.groupId libraries.blake3).toOption.isSome
      && (r.semanticRowEncoding libraries.decimalText).toOption.isSome
  | _ => false

theorem accepted_of_isKeyed (h : isKeyed text = true) : ∃ context index parsed,
    parseRowWithAcceptance libraries text (some ⟨0xaa⟩) context index .strict = .ok parsed
      ∧ parsed.Keyed libraries := by
  unfold isKeyed at h
  split at h
  · rename_i r hr
    refine ⟨context, 0, .row r, hr, ?_⟩
    rw [Bool.and_eq_true, Option.isSome_iff_exists, Option.isSome_iff_exists] at h
    simp only [toOption_eq_some] at h
    exact h
  · simp at h

def rows (newer older : Nat) : List String :=
  List.replicate newer (redemption "17") ++ List.replicate older (redemption "16") ++ ["?"]

theorem rowSecond_rows : rowSecond libraries (redemption "17") = 17
    ∧ rowSecond libraries (redemption "16") = 16 ∧ rowSecond libraries "?" = 0 := by
  decide +kernel

theorem rows_keyed : isKeyed (redemption "17") = true ∧ isKeyed (redemption "16") = true := by
  decide +kernel

/-- The seconds 1 to 17, before which the row without a time is counted. -/
def asked : ActivityRequestBounds := ⟨some 0, 17⟩

variable {newer older : Nat}

theorem accepted_rows (h : text ∈ rows newer older)
    (hasked : asked.Holds (rowSecond libraries text)) : ∃ context index parsed,
    parseRowWithAcceptance libraries text (some ⟨0xaa⟩) context index .strict = .ok parsed
      ∧ parsed.Keyed libraries := by
  rcases List.mem_append.mp h with h | h
  · rcases List.mem_append.mp h with h | h
    · rw [List.eq_of_mem_replicate h]
      exact accepted_of_isKeyed rows_keyed.1
    · rw [List.eq_of_mem_replicate h]
      exact accepted_of_isKeyed rows_keyed.2
  · rw [List.mem_singleton.mp h, rowSecond_rows.2.2] at hasked
    exact absurd (hasked.2 0 rfl) (by decide)

def history (newer older : Nat) : ServedHistory libraries ⟨0xaa⟩ .strict asked where
  rows := rows newer older
  listing start finish :=
    (rows newer older).filter fun text => Requested start finish (rowSecond libraries text)
  body := EventLog.StandIn.string.list.put
  clock _ := ⟨0⟩
  accepted _ h := accepted_rows h
  listing_perm _ _ := List.Perm.refl _
  body_rows texts _ := readTexts_put texts
  body_canonical _ _ := ⟨_, rfl⟩

theorem card_held : ((history newer older).held asked).card = newer + older := by
  have hholds : asked.Holds 17 ∧ asked.Holds 16 ∧ ¬ asked.Holds 0 := by
    simp [ActivityRequestBounds.Holds, asked]
  simp [WalletHistory.held, history, rows, rowSecond_rows, hholds]

theorem full_iff {second : Int} : (history newer older).Full second
    ↔ second = 17 ∧ 5500 ≤ newer ∨ second = 16 ∧ 5500 ≤ older := by
  simp only [WalletHistory.Full, history, rows, List.filter_append, List.filter_replicate,
    List.filter_singleton, rowSecond_rows, activityMaxOffset, reconciliationPageLimit]
  by_cases h17 : second = 17
  · simp [h17]
  · by_cases h16 : second = 16
    · simp [h16]
    · by_cases h0 : second = 0
      · simp [h0]
      · simp [Ne.symm h17, Ne.symm h16, Ne.symm h0, h17, h16]

end SampleHistory

end PredictionEdge
