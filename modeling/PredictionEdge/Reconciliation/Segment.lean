import PredictionEdge.Activity.Parse

/-!
# Reading one window of activity

The venue lists a wallet's activity in pages of five hundred rows and up to a greatest offset.
A window is read page by page, to the first page that is not full. If every page is full up to
the greatest offset, what is known is the oldest second that was seen.
-/

namespace PredictionEdge

open Lib

open EventLog (Bytes SourceId ReceivedAt)

def reconciliationPageLimit : Nat := 500
def activityMaxOffset : Nat := 5000

inductive SourceError where
  | transient (message : String)
  | fatal (message : String)
  | rateLimited (retryAfterSecs : Nat)
  deriving DecidableEq, Repr

/-- One fixed request interval: `start` is exclusive and `finish` inclusive. -/
structure ActivityRequestBounds where
  start : Option Int
  finish : Int
  deriving DecidableEq, Repr

/-- Page-level evidence. -/
structure ReconciliationPageEvidence where
  requestUrl : String
  bounds : Option ActivityRequestBounds
  offset : Nat
  rowCount : Nat
  canonicalPageHash : String
  rawPageHash : String
  receivedAt : ReceivedAt
  schemaVersion : Nat
  parserVersion : Nat
  anomalies : List ReadAnomaly
  hasMore : Option Bool
  nextCursor : Option String
  deriving DecidableEq

/-- Complete activity response, normalized into stable ascending order. -/
structure CompleteActivityRead where
  requestedWallet : WalletAddress
  fixedEnd : Int
  rows : List NormalizedActivity
  anomalies : List ReadAnomaly
  pages : List ReconciliationPageEvidence

inductive ActivityReadError where
  | fetch (url : String) (source : SourceError)
  | parse (error : ActivityParseError)
  | identity (error : ActivityIdentityError)
  | invalidOffset (offset limit : Nat)
  | rowOutsideBounds (timestamp : Int) (start : Option Int) (finish : Int)
  | invalidSplit (start : Option Int) (finish boundary : Int)
  | saturatedTerminalSecond (finish : Int) (offset : Nat)
  | canonicalPage (error : String)
  | rowCountOverflow
  | pageTooLarge (rowCount limit : Nat)
  deriving DecidableEq

structure ActivitySegment where
  bounds : ActivityRequestBounds
  rows : List NormalizedActivity
  anomalies : List ReadAnomaly
  pages : List ReconciliationPageEvidence

inductive SegmentResult where
  | complete (segment : ActivitySegment)
  | saturated (boundary : Int) (pages : List ReconciliationPageEvidence)

/-! ## Requests -/

/-- One strict offset page over all position-changing types; both bounds are inclusive. -/
structure ActivityPageRequest where
  user : WalletAddress
  finish : Int
  start : Option Int
  offset : Nat
  deriving DecidableEq

def ActivityPageRequest.url (request : ActivityPageRequest) (base : String) : String :=
  base ++ "/activity?user=" ++ request.user.text
    ++ "&type=TRADE%2CSPLIT%2CMERGE%2CREDEEM%2CCONVERSION&limit=500&offset="
    ++ toString request.offset ++ "&sortDirection=DESC&end=" ++ toString request.finish
    ++ (match request.start with
      | some start => "&start=" ++ toString start
      | none => "")

/-- The body of a response, and when it was received. -/
structure Response where
  raw : Bytes
  receivedAt : ReceivedAt

/-- Whatever answers page requests. -/
abbrev PageFetcher := ActivityPageRequest → Except SourceError Response

def saturatingSucc (i : Int) : Int := min (i + 1) (2 ^ 63 - 1)

/-- The page of a window at an offset: the exclusive start goes on the wire one later. -/
def ActivityRequestBounds.request (bounds : ActivityRequestBounds) (wallet : WalletAddress)
    (offset : Nat) : ActivityPageRequest :=
  ⟨wallet, bounds.finish, bounds.start.map saturatingSucc, offset⟩

/-- The second lies in the window. -/
def ActivityRequestBounds.Holds (bounds : ActivityRequestBounds) (second : Int) : Prop :=
  second ≤ bounds.finish ∧ ∀ start ∈ bounds.start, start < second

instance (bounds : ActivityRequestBounds) (second : Int) : Decidable (bounds.Holds second) :=
  inferInstanceAs (Decidable (_ ∧ _))

/-! ## One segment -/

def activityContext (receivedAt : ReceivedAt) : ActivityParseContext :=
  ⟨⟨"polymarket-public.activity-reconciliation"⟩, ⟨receivedAt.nanos⟩, receivedAt, .rest⟩

/-- A row without its raw text, hash and source. -/
def NormalizedActivity.release (row : NormalizedActivity) : NormalizedActivity :=
  { row with rawRowJson := "", rawRowHash := "", sourceId := ⟨""⟩ }

/-- The seconds of rows and anomalies. -/
def secondsOf (rows : List NormalizedActivity) (anomalies : List ReadAnomaly) : List Int :=
  rows.map NormalizedActivity.second ++ anomalies.map ReadAnomaly.second

section

variable (libs : ActivityLibraries) (fetch : PageFetcher) (baseUrl : String)
  (wallet : WalletAddress) (retainProvenance : Bool) (acceptance : ActivityRowAcceptance)

def keptRows (rows : List NormalizedActivity) : List NormalizedActivity :=
  if retainProvenance then rows else rows.map NormalizedActivity.release

/-- One page of a window: every row of it has to lie in the window. -/
def fetchActivityPage (bounds : ActivityRequestBounds) (offset : Nat) :
    Except ActivityReadError (NormalizedActivityWindow × ReconciliationPageEvidence) := do
  let url := (bounds.request wallet offset).url baseUrl
  let response ← (fetch (bounds.request wallet offset)).mapError (.fetch url)
  let page ← (parseActivityResponseWithAcceptance libs response.raw wallet
    (activityContext response.receivedAt) acceptance).mapError .parse
  match (secondsOf page.rows page.anomalies).find? fun second => ¬ bounds.Holds second with
  | some timestamp => throw (.rowOutsideBounds timestamp bounds.start bounds.finish)
  | none =>
    let rowCount := page.rows.length + page.anomalies.length
    refuseIf (2 ^ 32 ≤ rowCount) .rowCountOverflow
    refuseIf (reconciliationPageLimit < rowCount)
      (.pageTooLarge rowCount reconciliationPageLimit)
    let canonical ← (libs.canonical response.raw).mapError .canonicalPage
    return (page, ⟨url, some bounds, offset, rowCount, libs.blake3 canonical,
      libs.blake3 response.raw, response.receivedAt, activitySchemaVersion,
      activityParserVersion, page.anomalies, none, none⟩)

/-- Read on from an offset: to the first page that is not full, or to the greatest offset. -/
def segmentFrom (bounds : ActivityRequestBounds) (offset : Nat) (rows : List NormalizedActivity)
    (anomalies : List ReadAnomaly) (pages : List ReconciliationPageEvidence) :
    Except ActivityReadError SegmentResult :=
  if offset % reconciliationPageLimit ≠ 0 then
    .error (.invalidOffset offset reconciliationPageLimit)
  else
    match fetchActivityPage libs fetch baseUrl wallet acceptance bounds offset with
    | .error e => .error e
    | .ok (page, evidence) =>
      let pages := pages ++ [evidence]
      let anomalies := anomalies ++ page.anomalies
      let rows := rows ++ keptRows retainProvenance page.rows
      if evidence.rowCount < reconciliationPageLimit then
        .ok (.complete ⟨bounds, rows, anomalies, pages⟩)
      else if offset = activityMaxOffset then
        match (secondsOf rows anomalies).min? with
        | some boundary => .ok (.saturated boundary pages)
        | none => .error (.saturatedTerminalSecond bounds.finish offset)
      else if offset + reconciliationPageLimit < 2 ^ 32 then
        segmentFrom bounds (offset + reconciliationPageLimit) rows anomalies pages
      else .error (.invalidOffset offset reconciliationPageLimit)
termination_by 2 ^ 32 - offset
decreasing_by
  have : reconciliationPageLimit = 500 := rfl
  omega

def fetchActivitySegment (bounds : ActivityRequestBounds) :
    Except ActivityReadError SegmentResult :=
  segmentFrom libs fetch baseUrl wallet retainProvenance acceptance bounds 0 [] [] []

end

/-! ## What a segment saw -/

variable {rows : List NormalizedActivity} {anomalies : List ReadAnomaly} {offset : Nat}
  {pages : List ReconciliationPageEvidence} {page : NormalizedActivityWindow}

section

variable {libs : ActivityLibraries} {fetch : PageFetcher} {baseUrl : String}
  {wallet : WalletAddress} {retainProvenance : Bool} {acceptance : ActivityRowAcceptance}
  {bounds : ActivityRequestBounds}

theorem second_release (row : NormalizedActivity) : row.release.second = row.second := rfl

theorem secondsOf_keptRows (rows : List NormalizedActivity) (anomalies : List ReadAnomaly) :
    secondsOf (keptRows retainProvenance rows) anomalies = secondsOf rows anomalies := by
  unfold keptRows
  split
  · rfl
  · simp [secondsOf, List.map_map, Function.comp_def, second_release]

theorem mem_secondsOf_append {rows' : List NormalizedActivity} {anomalies' : List ReadAnomaly}
    {second : Int} (h : second ∈ secondsOf (rows ++ rows') (anomalies ++ anomalies')) :
    second ∈ secondsOf rows anomalies ∨ second ∈ secondsOf rows' anomalies' := by
  simp only [secondsOf, List.map_append, List.mem_append] at h ⊢
  rcases h with (h | h) | (h | h)
  · exact Or.inl (Or.inl h)
  · exact Or.inr (Or.inl h)
  · exact Or.inl (Or.inr h)
  · exact Or.inr (Or.inr h)

theorem parseRows_calendar {context : ActivityParseContext} : ∀ {texts : List String} {index : Nat} {window : NormalizedActivityWindow},
      parseRows libs wallet context acceptance index texts = .ok window →
      ∀ second ∈ secondsOf window.rows window.anomalies, firstSecond ≤ second
  | [], index, window, h, second, hs => by
    rw [← Except.ok.inj h] at hs
    simp [secondsOf] at hs
  | text :: texts, index, window, h, second, hs => by
    obtain ⟨parsed, hparsed, h⟩ := bind_eq_ok.mp h
    obtain ⟨rest, hrest, h⟩ := bind_eq_ok.mp h
    have ih := parseRows_calendar hrest
    obtain ⟨raw, _, htime⟩ := parseRowWithAcceptance_sourceTime hparsed
    have hhead := (parseSourceTime_range htime).1
    cases parsed with
    | row r =>
      rw [← pure_eq_ok.mp h] at hs
      rcases List.mem_cons.mp hs with rfl | hs
      · exact hhead
      · exact ih second hs
    | anomaly a =>
      rw [← pure_eq_ok.mp h] at hs
      simp only [secondsOf, List.map_cons, List.mem_append, List.mem_cons] at hs ih
      rcases hs with hs | rfl | hs
      · exact ih second (Or.inl hs)
      · exact hhead
      · exact ih second (Or.inr hs)

/-- A page that was read: its response, what it parsed to, and the checks it passed. -/
theorem fetchActivityPage_ok {evidence : ReconciliationPageEvidence}
    (h : fetchActivityPage libs fetch baseUrl wallet acceptance bounds offset
      = .ok (page, evidence)) :
    ∃ response texts, fetch (bounds.request wallet offset) = .ok response
      ∧ libs.rows response.raw = .ok texts
      ∧ parseRows libs wallet (activityContext response.receivedAt) acceptance 0 texts = .ok page
      ∧ (∀ second ∈ secondsOf page.rows page.anomalies, bounds.Holds second)
      ∧ evidence.rowCount = page.rows.length + page.anomalies.length
      ∧ evidence.rowCount ≤ reconciliationPageLimit := by
  obtain ⟨response, hresponse, h⟩ := bind_eq_ok.mp h
  obtain ⟨page', hpage, h⟩ := bind_eq_ok.mp h
  obtain ⟨texts, htexts, hparse⟩ := bind_eq_ok.mp (mapError_eq_ok.mp hpage)
  dsimp only at h
  split at h
  · simp [throw, throwThe, MonadExceptOf.throw] at h
  · rename_i hfind
    obtain ⟨_, _, h⟩ := bind_eq_ok.mp h
    obtain ⟨_, hlimit, h⟩ := bind_eq_ok.mp h
    obtain ⟨canonical, _, h⟩ := bind_eq_ok.mp h
    obtain ⟨rfl, rfl⟩ := Prod.mk.inj (pure_eq_ok.mp h)
    refine ⟨response, texts, mapError_eq_ok.mp hresponse, mapError_eq_ok.mp htexts, hparse,
      ?_, rfl, Nat.le_of_not_lt (refuseIf_eq_ok.mp hlimit)⟩
    intro second hs
    have := List.find?_eq_none.mp hfind second hs
    simpa using this

theorem fetchActivityPage_of {response : Response} {canonical : Bytes}
    (hfetch : fetch (bounds.request wallet offset) = .ok response)
    (hparse : parseActivityResponseWithAcceptance libs response.raw wallet
      (activityContext response.receivedAt) acceptance = .ok page)
    (hinside : ∀ second ∈ secondsOf page.rows page.anomalies, bounds.Holds second)
    (hcount : page.rows.length + page.anomalies.length ≤ reconciliationPageLimit)
    (hcanonical : libs.canonical response.raw = .ok canonical) :
    ∃ evidence, fetchActivityPage libs fetch baseUrl wallet acceptance bounds offset
      = .ok (page, evidence) := by
  have hfind : (secondsOf page.rows page.anomalies).find? (fun second => ¬ bounds.Holds second)
      = none := by
    refine List.find?_eq_none.mpr fun second hs => ?_
    simpa using hinside second hs
  have hword : ¬ 2 ^ 32 ≤ page.rows.length + page.anomalies.length := by
    have : reconciliationPageLimit = 500 := rfl
    omega
  have hlimit : ¬ reconciliationPageLimit < page.rows.length + page.anomalies.length := by omega
  unfold fetchActivityPage
  simp only [hfetch, hparse, hcanonical, Except.mapError, ok_bind, hfind, refuseIf,
    if_neg hword, if_neg hlimit]
  exact ⟨_, rfl⟩

section

variable (libs : ActivityLibraries) (fetch : PageFetcher) (baseUrl : String)
  (wallet : WalletAddress) (retainProvenance : Bool) (acceptance : ActivityRowAcceptance)
  (bounds : ActivityRequestBounds)

/-- The full pages of a window before an offset, and what they held. -/
inductive FullPages : Nat → List NormalizedActivity → List ReadAnomaly → Prop where
  | start : FullPages 0 [] []
  | next {offset : Nat} {rows : List NormalizedActivity} {anomalies : List ReadAnomaly}
      {page : NormalizedActivityWindow} {evidence : ReconciliationPageEvidence} :
      FullPages offset rows anomalies →
      fetchActivityPage libs fetch baseUrl wallet acceptance bounds offset = .ok (page, evidence) →
      evidence.rowCount = reconciliationPageLimit →
      FullPages (offset + reconciliationPageLimit) (rows ++ keptRows retainProvenance page.rows)
        (anomalies ++ page.anomalies)

/-- How the reading of a segment can end. -/
inductive SegmentRead : SegmentResult → Prop where
  /-- A page is not full. -/
  | complete {offset : Nat} {rows : List NormalizedActivity} {anomalies : List ReadAnomaly}
      {page : NormalizedActivityWindow} {evidence : ReconciliationPageEvidence}
      {pages : List ReconciliationPageEvidence} :
      FullPages libs fetch baseUrl wallet retainProvenance acceptance bounds offset rows anomalies →
      fetchActivityPage libs fetch baseUrl wallet acceptance bounds offset = .ok (page, evidence) →
      evidence.rowCount < reconciliationPageLimit →
      SegmentRead (.complete ⟨bounds, rows ++ keptRows retainProvenance page.rows,
        anomalies ++ page.anomalies, pages⟩)
  /-- Every page is full up to the greatest offset. -/
  | saturated {rows : List NormalizedActivity} {anomalies : List ReadAnomaly} {boundary : Int}
      {pages : List ReconciliationPageEvidence} :
      FullPages libs fetch baseUrl wallet retainProvenance acceptance bounds
        (activityMaxOffset + reconciliationPageLimit) rows anomalies →
      (secondsOf rows anomalies).min? = some boundary →
      SegmentRead (.saturated boundary pages)

end

theorem segmentFrom_read {result : SegmentResult}
    (hfull : FullPages libs fetch baseUrl wallet retainProvenance acceptance bounds offset rows
      anomalies)
    (h : segmentFrom libs fetch baseUrl wallet retainProvenance acceptance bounds offset rows
      anomalies pages = .ok result) :
    SegmentRead libs fetch baseUrl wallet retainProvenance acceptance bounds result := by
  fun_induction segmentFrom libs fetch baseUrl wallet retainProvenance acceptance bounds offset rows
    anomalies pages with
  | case1 | case2 => simp at h
  | case3 offset rows anomalies pages _ page evidence hpage pages' anomalies' rows' hshort =>
    rw [← Except.ok.inj h]
    exact .complete hfull hpage hshort
  | case4 rows anomalies pages page evidence pages' anomalies' rows' hlong boundary hmin _ hpage =>
    rw [← Except.ok.inj h]
    obtain ⟨_, _, _, _, _, _, _, hcount⟩ := fetchActivityPage_ok hpage
    exact .saturated (hfull.next hpage (Nat.le_antisymm hcount (Nat.le_of_not_lt hlong))) hmin
  | case5 => simp at h
  | case6 offset rows anomalies pages _ page evidence hpage pages' anomalies' rows' hlong _ _ ih =>
    obtain ⟨_, _, _, _, _, _, _, hcount⟩ := fetchActivityPage_ok hpage
    exact ih (hfull.next hpage (Nat.le_antisymm hcount (Nat.le_of_not_lt hlong))) h
  | case7 => simp at h

/-- A second that can have been seen in a window. -/
def Seen (bounds : ActivityRequestBounds) (second : Int) : Prop :=
  bounds.Holds second ∧ firstSecond ≤ second

theorem FullPages.seen
    (h : FullPages libs fetch baseUrl wallet retainProvenance acceptance bounds offset rows
      anomalies) : ∀ second ∈ secondsOf rows anomalies, Seen bounds second := by
  induction h with
  | start => intro second hs; simp [secondsOf] at hs
  | next _ hpage _ ih =>
    intro second hs
    rcases mem_secondsOf_append hs with hs | hs
    · exact ih second hs
    · rw [secondsOf_keptRows] at hs
      obtain ⟨_, _, _, _, hparse, hholds, _⟩ := fetchActivityPage_ok hpage
      exact ⟨hholds second hs, parseRows_calendar hparse second hs⟩

theorem saturated_seen {boundary : Int}
    (h : fetchActivitySegment libs fetch baseUrl wallet retainProvenance acceptance bounds
      = .ok (.saturated boundary pages)) : Seen bounds boundary := by
  cases segmentFrom_read .start h with
  | saturated hfull hmin => exact hfull.seen boundary (List.min?_mem hmin)

end

end PredictionEdge
