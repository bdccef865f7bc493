import Mathlib.Data.Multiset.Filter
import Mathlib.Data.Multiset.ZeroCons
import PredictionEdge.Reconciliation.Segment

/-!
# A history that does not change

The venue holds the rows of a wallet and answers every page request from them: it lists the rows
of the requested seconds in an order of its own, newest first or not, and serves the requested
part of that list. Those of the window that is read are rows the parser accepts; about the others
nothing is asked. Reading the window, or one inside it, then gives every row of it once, or tells
that there are too many.
-/

namespace PredictionEdge

open Lib

open EventLog (Bytes ReceivedAt)

variable {libs : ActivityLibraries} {wallet : WalletAddress} {acceptance : ActivityRowAcceptance}
  {baseUrl : String} {retainProvenance : Bool} {window bounds : ActivityRequestBounds}
  {boundary second : Int}
  {context : ActivityParseContext} {text : String} {rows : List NormalizedActivity}
  {anomalies : List ReadAnomaly} {parsed : ParsedActivityRow} {offset index : Nat}
  {pages : List ReconciliationPageEvidence}

/-- The second of a raw row. -/
def rowSecond (libs : ActivityLibraries) (text : String) : Int :=
  ((rowTime libs text).map SourceTimestamp.unixTimestamp).getD 0

/-- A row can be ordered: its group and its encoding can be derived. -/
def ParsedActivityRow.Keyed (libs : ActivityLibraries) : ParsedActivityRow → Prop
  | .row r => (∃ id, r.groupId libs.blake3 = .ok id)
      ∧ ∃ bytes, r.semanticRowEncoding libs.decimalText = .ok bytes
  | .anomaly _ => True

/-- The seconds a request asks for, both bounds included. -/
def Requested (start : Option Int) (finish : Int) (second : Int) : Prop :=
  (∀ first ∈ start, first ≤ second) ∧ second ≤ finish

instance (start : Option Int) (finish second : Int) : Decidable (Requested start finish second) :=
  inferInstanceAs (Decidable (_ ∧ _))

/-- The rows of a wallet as the venue holds them: those of the window are accepted by the parser. -/
structure WalletHistory (libs : ActivityLibraries) (wallet : WalletAddress)
    (acceptance : ActivityRowAcceptance) (window : ActivityRequestBounds) where
  rows : List String
  accepted : ∀ text ∈ rows, window.Holds (rowSecond libs text) → ∃ context index parsed,
    parseRowWithAcceptance libs text (some wallet) context index acceptance = .ok parsed
      ∧ parsed.Keyed libs

namespace WalletHistory

/-- The rows of a window. -/
def held (history : WalletHistory libs wallet acceptance window) (bounds : ActivityRequestBounds) :
    Multiset String :=
  (history.rows : Multiset String).filter fun text => bounds.Holds (rowSecond libs text)

/-- So many rows in one second that its pages are full up to the greatest offset. -/
def Full (history : WalletHistory libs wallet acceptance window) (second : Int) : Prop :=
  activityMaxOffset + reconciliationPageLimit
    ≤ (history.rows.filter fun text => rowSecond libs text = second).length

end WalletHistory

/-- A history, and how its pages are served. -/
structure ServedHistory (libs : ActivityLibraries) (wallet : WalletAddress)
    (acceptance : ActivityRowAcceptance) (window : ActivityRequestBounds)
    extends WalletHistory libs wallet acceptance window where
  /-- The order in which the rows of some seconds are listed. -/
  listing : Option Int → Int → List String
  /-- A page as it is sent, and when it is received. -/
  body : List String → Bytes
  clock : ActivityPageRequest → ReceivedAt
  listing_perm : ∀ start finish,
    (listing start finish).Perm (rows.filter fun text => Requested start finish (rowSecond libs text))
  body_rows : ∀ texts ⊆ rows, libs.rows (body texts) = .ok texts
  body_canonical : ∀ texts ⊆ rows, ∃ bytes, libs.canonical (body texts) = .ok bytes

namespace ServedHistory

variable (served : ServedHistory libs wallet acceptance window)

/-- The part of the listing that a request is answered with. -/
def page (request : ActivityPageRequest) : List String :=
  ((served.listing request.start request.finish).drop request.offset).take reconciliationPageLimit

/-- Offsets beyond the greatest one are refused. -/
def fetch : PageFetcher := fun request =>
  if request.offset ≤ activityMaxOffset then
    .ok ⟨served.body (served.page request), served.clock request⟩
  else .error (.fatal "max historical activity offset of 5000 exceeded")

end ServedHistory

def ParsedActivityRow.kept (retainProvenance : Bool) : ParsedActivityRow → ParsedActivityRow
  | .row r => .row (if retainProvenance then r else r.release)
  | .anomaly a => .anomaly a

/-- What a raw row was read as, wherever it stood, with or without its provenance. -/
def ReadsAs (libs : ActivityLibraries) (wallet : WalletAddress) (retainProvenance : Bool)
    (acceptance : ActivityRowAcceptance) (text : String) (parsed : ParsedActivityRow) : Prop :=
  ∃ context index full,
    parseRowWithAcceptance libs text (some wallet) context index acceptance = .ok full
      ∧ parsed = full.kept retainProvenance

/-- Rows and anomalies together. -/
def parsedOf (rows : List NormalizedActivity) (anomalies : List ReadAnomaly) :
    Multiset ParsedActivityRow :=
  rows.map ParsedActivityRow.row + anomalies.map ParsedActivityRow.anomaly

theorem parsedOf_append (rows rows' : List NormalizedActivity)
    (anomalies anomalies' : List ReadAnomaly) :
    parsedOf (rows ++ rows') (anomalies ++ anomalies')
      = parsedOf rows anomalies + parsedOf rows' anomalies' := by
  simp only [parsedOf, List.map_append, ← Multiset.coe_add]
  abel

theorem card_parsedOf (rows : List NormalizedActivity) (anomalies : List ReadAnomaly) :
    (parsedOf rows anomalies).card = rows.length + anomalies.length := by
  simp [parsedOf]

theorem keptRows_cons (row : NormalizedActivity) (rows : List NormalizedActivity) :
    keptRows retainProvenance (row :: rows)
      = (if retainProvenance then row else row.release) :: keptRows retainProvenance rows := by
  cases retainProvenance <;> rfl

/-- The rows of a page are read one for one. -/
theorem parseRows_rel (retainProvenance : Bool) :
    ∀ {texts : List String} {index : Nat} {page : NormalizedActivityWindow},
    parseRows libs wallet context acceptance index texts = .ok page →
    Multiset.Rel (ReadsAs libs wallet retainProvenance acceptance) texts
      (parsedOf (keptRows retainProvenance page.rows) page.anomalies)
  | [], index, page, h => by
    rw [← Except.ok.inj h]
    cases retainProvenance <;> exact .zero
  | text :: texts, index, page, h => by
    obtain ⟨parsed, hparsed, h⟩ := bind_eq_ok.mp h
    obtain ⟨rest, hrest, h⟩ := bind_eq_ok.mp h
    have hread : ReadsAs libs wallet retainProvenance acceptance text
        (parsed.kept retainProvenance) := ⟨context, index, parsed, hparsed, rfl⟩
    have hcons := Multiset.Rel.cons hread (parseRows_rel retainProvenance hrest)
    cases parsed with
    | row r =>
      rw [← pure_eq_ok.mp h]
      simpa only [keptRows_cons, parsedOf, List.map_cons, ← Multiset.cons_coe,
        Multiset.cons_add, ParsedActivityRow.kept] using hcons
    | anomaly a =>
      rw [← pure_eq_ok.mp h]
      simpa only [parsedOf, List.map_cons, ← Multiset.cons_coe, Multiset.add_cons,
        ParsedActivityRow.kept] using hcons

variable {page : NormalizedActivityWindow}

theorem parseRows_length {texts : List String}
    (h : parseRows libs wallet context acceptance index texts = .ok page) :
    page.rows.length + page.anomalies.length = texts.length := by
  have hcard := Multiset.card_eq_card_of_rel (parseRows_rel true h)
  rw [card_parsedOf] at hcard
  exact hcard.symm

theorem parseRows_succeeds : ∀ {texts : List String} (index : Nat),
    (∀ text ∈ texts, ∀ index, ∃ parsed,
      parseRowWithAcceptance libs text (some wallet) context index acceptance = .ok parsed) →
    ∃ page, parseRows libs wallet context acceptance index texts = .ok page
  | [], index, _ => ⟨⟨[], []⟩, rfl⟩
  | text :: texts, index, h => by
    obtain ⟨parsed, hparsed⟩ := h text List.mem_cons_self index
    obtain ⟨rest, hrest⟩ := parseRows_succeeds (index + 1)
      fun t ht => h t (List.mem_cons_of_mem _ ht)
    rw [parseRows, hparsed, ok_bind, hrest, ok_bind]
    cases parsed with
    | row r | anomaly a => exact ⟨_, rfl⟩

theorem kept_second (parsed : ParsedActivityRow) :
    (parsed.kept retainProvenance).second = parsed.second := by
  cases parsed with
  | row r => cases retainProvenance <;> rfl
  | anomaly a => rfl

theorem rowSecond_le (libs : ActivityLibraries) (text : String) :
    rowSecond libs text ≤ lastSecond := by
  unfold rowSecond
  cases htime : rowTime libs text with
  | none => decide
  | some time =>
    obtain ⟨raw, _, h⟩ := Option.bind_eq_some_iff.mp htime
    exact (parseSourceTime_range (toOption_eq_some.mp h)).2

/-- A row is read at its own second. -/
theorem ReadsAs.second_eq (h : ReadsAs libs wallet retainProvenance acceptance text parsed) :
    parsed.second = rowSecond libs text := by
  obtain ⟨context, index, full, hfull, rfl⟩ := h
  rw [kept_second, rowSecond, rowTime_eq hfull]
  cases full <;> rfl

theorem mem_secondsOf_iff :
    second ∈ secondsOf rows anomalies ↔ ∃ parsed ∈ parsedOf rows anomalies, parsed.second = second := by
  simp only [secondsOf, parsedOf, List.mem_append, List.mem_map, Multiset.mem_add, Multiset.mem_coe]
  constructor
  · rintro (⟨r, hr, rfl⟩ | ⟨a, ha, rfl⟩)
    · exact ⟨.row r, Or.inl ⟨r, hr, rfl⟩, rfl⟩
    · exact ⟨.anomaly a, Or.inr ⟨a, ha, rfl⟩, rfl⟩
  · rintro ⟨parsed, ⟨r, hr, rfl⟩ | ⟨a, ha, rfl⟩, rfl⟩
    · exact Or.inl ⟨r, hr, rfl⟩
    · exact Or.inr ⟨a, ha, rfl⟩

theorem saturatingSucc_le {first : Int} (h : second ≤ lastSecond) :
    saturatingSucc first ≤ second ↔ first < second := by
  have : lastSecond = 253402300799 := rfl
  unfold saturatingSucc
  omega

/-- What is asked for on the wire is the window. -/
theorem requested_iff (h : second ≤ lastSecond) :
    Requested (bounds.start.map saturatingSucc) bounds.finish second ↔ bounds.Holds second := by
  unfold Requested ActivityRequestBounds.Holds
  rw [and_comm]
  refine and_congr_right fun _ => ?_
  cases bounds.start with
  | none => simp
  | some start =>
    simp only [Option.map_some, Option.mem_def, Option.some.injEq, forall_eq']
    exact saturatingSucc_le h

namespace WalletHistory

variable {history : WalletHistory libs wallet acceptance window}

/-- A row of the window is accepted wherever it stands. -/
theorem accepted_at (h : text ∈ history.rows) (hwindow : window.Holds (rowSecond libs text))
    (context : ActivityParseContext) (index : Nat) : ∃ parsed,
      parseRowWithAcceptance libs text (some wallet) context index acceptance = .ok parsed
        ∧ parsed.Keyed libs := by
  obtain ⟨context', index', parsed, hparsed, hkeyed⟩ := history.accepted text h hwindow
  have hstamp := parseRowWithAcceptance_stamp libs text (some wallet) context' context index' index
    acceptance
  rw [hparsed] at hstamp
  refine ⟨_, toOption_eq_some.mp hstamp, ?_⟩
  cases parsed with
  | row r => exact hkeyed
  | anomaly a => trivial

theorem held_of_not_holds (h : ∀ second, ¬ bounds.Holds second) : history.held bounds = 0 := by
  rw [held, Multiset.filter_eq_nil]
  intro text _
  exact h _

/-- A window cut in two shares out its rows. -/
theorem held_cut {start : Option Int} {finish : Int} (hstart : ∀ s ∈ start, s ≤ boundary)
    (hfinish : boundary ≤ finish) :
    history.held ⟨start, finish⟩
      = history.held ⟨start, boundary⟩ + history.held ⟨some boundary, finish⟩ := by
  unfold held
  rw [← Multiset.filter_add_not (fun text => rowSecond libs text ≤ boundary)
    (Multiset.filter (fun text => ActivityRequestBounds.Holds ⟨start, finish⟩ (rowSecond libs text))
      history.rows)]
  rw [Multiset.filter_filter, Multiset.filter_filter]
  congr 1
  · refine Multiset.filter_congr fun text _ => ?_
    constructor
    · exact fun h => ⟨h.1, h.2.2⟩
    · exact fun h => ⟨h.1, le_trans h.1 hfinish, h.2⟩
  · refine Multiset.filter_congr fun text _ => ?_
    simp only [ActivityRequestBounds.Holds, not_le]
    constructor
    · intro h
      exact ⟨h.2.1, fun s hs => by rw [← Option.some.inj hs]; exact h.1⟩
    · intro h
      have hlt := h.2 boundary rfl
      exact ⟨hlt, h.1, fun s hs => lt_of_le_of_lt (hstart s hs) hlt⟩

/-- A window with a full second has too many rows. -/
theorem Full.card_le (h : history.Full second) (hs : bounds.Holds second) :
    activityMaxOffset + reconciliationPageLimit ≤ (history.held bounds).card := by
  refine le_trans h ?_
  rw [held, Multiset.filter_coe, Multiset.coe_card]
  refine (List.monotone_filter_right history.rows fun text htext => ?_).length_le
  rw [decide_eq_true_eq] at htext ⊢
  rwa [htext]

end WalletHistory

namespace ServedHistory

variable {served : ServedHistory libs wallet acceptance window}

/-- The listing that the pages of a window are parts of. -/
def texts (served : ServedHistory libs wallet acceptance window) (bounds : ActivityRequestBounds) :
    List String :=
  served.listing (bounds.start.map saturatingSucc) bounds.finish

/-- What is listed for a window are its rows. -/
theorem coe_texts (bounds : ActivityRequestBounds) :
    (served.texts bounds : Multiset String) = served.held bounds := by
  rw [WalletHistory.held, Multiset.filter_coe, Multiset.coe_eq_coe]
  refine (served.listing_perm _ _).trans ?_
  rw [List.filter_congr]
  intro text _
  exact decide_eq_decide.mpr (requested_iff (rowSecond_le libs text))

theorem mem_texts :
    text ∈ served.texts bounds ↔ text ∈ served.rows ∧ bounds.Holds (rowSecond libs text) := by
  rw [← Multiset.mem_coe, coe_texts, WalletHistory.held, Multiset.mem_filter, Multiset.mem_coe]

theorem page_request (offset : Nat) :
    served.page (bounds.request wallet offset)
      = ((served.texts bounds).drop offset).take reconciliationPageLimit := rfl

theorem page_subset (offset : Nat) : served.page (bounds.request wallet offset)
    ⊆ served.texts bounds :=
  fun _ h => List.mem_of_mem_drop (List.mem_of_mem_take h)

/-- A page is what the parser makes of its part of the listing. -/
theorem fetchActivityPage_texts (retainProvenance : Bool) {evidence : ReconciliationPageEvidence}
    (h : fetchActivityPage libs served.fetch baseUrl wallet acceptance bounds offset
      = .ok (page, evidence)) : Multiset.Rel (ReadsAs libs wallet retainProvenance acceptance)
        (served.page (bounds.request wallet offset))
        (parsedOf (keptRows retainProvenance page.rows) page.anomalies)
      ∧ evidence.rowCount = (served.page (bounds.request wallet offset)).length
      ∧ offset ≤ activityMaxOffset := by
  obtain ⟨response, texts, hfetch, hrows, hparse, _, hcount, _⟩ := fetchActivityPage_ok h
  have htexts : texts = served.page (bounds.request wallet offset) ∧ offset ≤ activityMaxOffset := by
    unfold fetch at hfetch
    split at hfetch
    · rename_i hoffset
      rw [← Except.ok.inj hfetch] at hrows
      rw [served.body_rows _ fun t ht => (mem_texts.mp (page_subset offset ht)).1] at hrows
      exact ⟨(Except.ok.inj hrows).symm, hoffset⟩
    · simp at hfetch
  rw [← htexts.1, hcount]
  exact ⟨parseRows_rel retainProvenance hparse, parseRows_length hparse, htexts.2⟩

/-- Every page up to the greatest offset can be read, inside the window. -/
theorem fetchActivityPage_succeeds (baseUrl : String)
    (hwindow : ∀ second, bounds.Holds second → window.Holds second)
    (hoffset : offset ≤ activityMaxOffset) :
    ∃ page evidence,
      fetchActivityPage libs served.fetch baseUrl wallet acceptance bounds offset
        = .ok (page, evidence) := by
  have hsubset : served.page (bounds.request wallet offset) ⊆ served.rows :=
    fun t ht => (mem_texts.mp (page_subset offset ht)).1
  obtain ⟨page, hpage⟩ : ∃ page, parseRows libs wallet
      (activityContext (served.clock (bounds.request wallet offset))) acceptance 0
      (served.page (bounds.request wallet offset)) = .ok page :=
    parseRows_succeeds 0 fun t ht index => (WalletHistory.accepted_at (hsubset ht)
      (hwindow _ (mem_texts.mp (page_subset offset ht)).2) _ index).imp fun _ h => h.1
  have hfetch : served.fetch (bounds.request wallet offset)
      = .ok ⟨served.body (served.page (bounds.request wallet offset)),
        served.clock (bounds.request wallet offset)⟩ := if_pos hoffset
  have hparse : parseActivityResponseWithAcceptance libs
      (served.body (served.page (bounds.request wallet offset))) wallet
      (activityContext (served.clock (bounds.request wallet offset))) acceptance = .ok page := by
    rw [parseActivityResponseWithAcceptance, served.body_rows _ hsubset]
    exact hpage
  have hinside : ∀ second ∈ secondsOf page.rows page.anomalies, bounds.Holds second := by
    intro second hs
    have hrel := parseRows_rel true hpage
    obtain ⟨parsed, hmem, rfl⟩ := mem_secondsOf_iff.mp hs
    obtain ⟨text, htext, hread⟩ := Multiset.exists_mem_of_rel_of_mem (Multiset.rel_flip.mpr hrel) hmem
    rw [hread.second_eq]
    exact (mem_texts.mp (page_subset offset htext)).2
  have hlength : page.rows.length + page.anomalies.length ≤ 500 := by
    rw [parseRows_length hpage]
    exact List.length_take_le _ _
  obtain ⟨canonical, hcanonical⟩ := served.body_canonical _ hsubset
  exact ⟨page, fetchActivityPage_of hfetch hparse hinside hlength hcanonical⟩

/-- Full pages hold the beginning of the listing, one for one. -/
theorem fullPages_texts
    (h : FullPages libs served.fetch baseUrl wallet retainProvenance acceptance bounds offset rows
      anomalies) :
    offset ≤ (served.texts bounds).length
      ∧ Multiset.Rel (ReadsAs libs wallet retainProvenance acceptance)
        ((served.texts bounds).take offset) (parsedOf rows anomalies) := by
  induction h with
  | start => exact ⟨Nat.zero_le _, .zero⟩
  | @next offset rows anomalies page evidence _ hpage hfull ih =>
    obtain ⟨_, hrel⟩ := ih
    obtain ⟨hread, hcount, hoffset⟩ := fetchActivityPage_texts retainProvenance hpage
    rw [hfull, page_request, List.length_take, List.length_drop] at hcount
    refine ⟨by omega, ?_⟩
    rw [parsedOf_append, List.take_add, ← Multiset.coe_add]
    exact hrel.add hread

/-- A window that was read to its end: there was room for it, and every row of it was read. -/
theorem complete_texts {segment : ActivitySegment}
    (h : fetchActivitySegment libs served.fetch baseUrl wallet retainProvenance acceptance bounds
      = .ok (.complete segment)) :
    segment.bounds = bounds
      ∧ Multiset.Rel (ReadsAs libs wallet retainProvenance acceptance) (served.held bounds)
        (parsedOf segment.rows segment.anomalies)
      ∧ (served.held bounds).card < activityMaxOffset + reconciliationPageLimit := by
  cases segmentFrom_read .start h with
  | @complete offset rows anomalies page evidence pages hfull hpage hshort =>
    obtain ⟨_, hrel⟩ := fullPages_texts hfull
    obtain ⟨hread, hcount, hoffset⟩ := fetchActivityPage_texts retainProvenance hpage
    rw [page_request] at hread hcount
    rw [hcount, List.length_take, List.length_drop] at hshort
    refine ⟨rfl, ?_, ?_⟩
    · -- the last page is the rest of the listing
      rw [List.take_of_length_le (by rw [List.length_drop]; omega)] at hread
      have hall := hrel.add hread
      rwa [Multiset.coe_add, List.take_append_drop, coe_texts, ← parsedOf_append] at hall
    · rw [← coe_texts, Multiset.coe_card]
      omega

/-- A window that is full up to the greatest offset holds too many rows. -/
theorem saturated_texts
    (h : fetchActivitySegment libs served.fetch baseUrl wallet retainProvenance acceptance bounds
      = .ok (.saturated boundary pages)) :
    activityMaxOffset + reconciliationPageLimit ≤ (served.held bounds).card := by
  cases segmentFrom_read .start h with
  | saturated hfull _ =>
    rw [← coe_texts, Multiset.coe_card]
    exact (fullPages_texts hfull).1

theorem segmentFrom_succeeds (hwindow : ∀ second, bounds.Holds second → window.Holds second)
    (haligned : offset % reconciliationPageLimit = 0) (hoffset : offset ≤ activityMaxOffset) :
    ∃ result, segmentFrom libs served.fetch baseUrl wallet retainProvenance acceptance bounds offset
      rows anomalies pages = .ok result := by
  have hlimit : reconciliationPageLimit = 500 := rfl
  have hmax : activityMaxOffset = 5000 := rfl
  fun_induction segmentFrom libs served.fetch baseUrl wallet retainProvenance acceptance bounds offset
    rows anomalies pages with
  | case1 offset rows anomalies pages hmod => exact absurd haligned hmod
  | case2 offset rows anomalies pages _ e he =>
    obtain ⟨page, evidence, hpage⟩ := fetchActivityPage_succeeds baseUrl hwindow hoffset
    rw [hpage] at he
    simp at he
  | case3 | case4 => exact ⟨_, rfl⟩
  | case5 rows anomalies pages page evidence anomalies' rows' hlong hmin _ hpage =>
    -- a full page shows some second
    have hempty := List.min?_eq_none_iff.mp hmin
    obtain ⟨_, _, _, _, _, _, hcount, _⟩ := fetchActivityPage_ok hpage
    have hlength := congrArg List.length hempty
    simp only [secondsOf, List.length_append, List.length_map, List.length_nil, rows',
      anomalies'] at hlength
    have hkept : (keptRows retainProvenance page.rows).length = page.rows.length := by
      unfold keptRows
      split <;> simp
    omega
  | case6 offset rows anomalies pages _ page evidence hpage pages' anomalies' rows' _ hne _ ih =>
    have hzero : offset % 500 = 0 := haligned
    refine ih ?_ (by omega)
    show (offset + 500) % 500 = 0
    omega
  | case7 offset rows anomalies pages _ page evidence _ _ _ hword => omega

/-- Every part of the window can be read to an outcome. -/
theorem fetchActivitySegment_succeeds
    (hwindow : ∀ second, bounds.Holds second → window.Holds second) :
    ∃ result, fetchActivitySegment libs served.fetch baseUrl wallet retainProvenance acceptance
      bounds = .ok result :=
  segmentFrom_succeeds hwindow rfl (Nat.zero_le _)

end ServedHistory

end PredictionEdge
