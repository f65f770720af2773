import Mathlib.Data.List.Basic
import PointElevation.Proofs.Host.Ending
import PointElevation.Proofs.Json.Writing
import PointElevation.Proofs.Text.Fixed
import PointElevation.Proofs.Text.Page
import PointElevation.Tool.Elevation

/-!
# The tool for several points

The tool for several points is given a source of heights that answers whatever it likes
(`HeightSource Id`), over a record of what it is asked and told.
-/

namespace PointElevation.Tool

open PointElevation.Response
open PointElevation.Number (Binary digitLimit fixedText)
open PointElevation.Text (Shows Unbroken lines lines_intercalate shows_fixedText unbroken_append
  unbroken_cons unbroken_heightText unbroken_pointText unbroken_toString)

/-! ## Sources that keep a record -/

/-- What a tool can have done with its source. -/
inductive Contact where
  | fetchPoint (latitude longitude : Float)
  | fetchPoints (points : List (List Float))
  | cacheStatus
  | describe
  | canInterpolate
  | report (text : String)

/-- Gives an answer, and notes the contact. -/
def contacted {α : Type} (contact : Contact) (answer : α) : StateM (List Contact) α :=
  fun record => (answer, record ++ [contact])

/-- A source that answers as another one does, and keeps a record. -/
def HeightSource.recorded (source : HeightSource Id) : HeightSource (StateM (List Contact)) where
  fetchPoint latitude longitude :=
    contacted (.fetchPoint latitude longitude) (source.fetchPoint latitude longitude)
  fetchPoints points := contacted (.fetchPoints points) (source.fetchPoints points)
  cacheStatus := contacted .cacheStatus source.cacheStatus
  describe := contacted .describe source.describe
  canInterpolate := contacted .canInterpolate source.canInterpolate
  report text := contacted (.report text) (source.report text)

/-- A response in a mode, or what has failed in writing it. -/
def written (mode : String) (r : Response) : Except String String :=
  match r.format mode with
  | .ok text => .ok text
  | .error fault => .error fault.message

theorem run_attempt_bind {α β : Type} (first : Attempt (StateM (List Contact)) α)
    (next : α → Attempt (StateM (List Contact)) β) (record : List Contact) :
    (first >>= next).run.run record =
      match first.run.run record with
      | (.ok a, asked) => (next a).run.run asked
      | (.error text, asked) => (.error text, asked) := by
  rw [ExceptT.run_bind, StateT.run_bind]
  obtain ⟨outcome, asked⟩ := first.run.run record
  cases outcome with
  | error text => rfl
  | ok a => rfl

theorem run_write (mode : String) (attempt : Attempt (StateM (List Contact)) Response)
    (record : List Contact) :
    (write mode attempt).run.run record =
      let (outcome, asked) := attempt.run.run record
      (outcome >>= written mode, asked) := by
  rw [write, run_attempt_bind]
  obtain ⟨outcome, asked⟩ := attempt.run.run record
  cases outcome with
  | error text => rfl
  | ok r =>
      dsimp only
      change _ = (written mode r, asked)
      unfold written
      cases r.format mode with
      | ok text => rfl
      | error fault => rfl

/-- Whatever fails, the tool answers, and reports what has failed. -/
theorem run_answer (source : HeightSource Id) (name mode : String)
    (attempt : Attempt (StateM (List Contact)) Response) (record : List Contact) :
    (answer source.recorded name mode attempt).run record =
      let (outcome, asked) := attempt.run.run record
      match outcome >>= written mode with
      | .ok text => (text, asked)
      | .error text => (errorText text mode, asked ++ [.report (name ++ " failed: " ++ text)]) := by
  rw [answer, StateT.run_bind, run_write]
  obtain ⟨outcome, asked⟩ := attempt.run.run record
  dsimp only
  cases outcome >>= written mode with
  | ok text => rfl
  | error text => rfl

/-! ## The response -/

/-- The response to a list of points, given the answer of the source, or what has failed. -/
def pointsResponse (points : List (List Float)) (reply : Except String PointsAnswer) :
    Except String Response :=
  match countFault? points with
  | some text => .error text
  | none =>
      match reply with
      | .error text => .error text
      | .ok a =>
          match pointInfos? points a.elevations a.statuses with
          | none => .error "list index out of range"
          | some infos => .ok (.points
              ⟨points.length, infos, a.range, pointsMessage points.length a.statuses⟩)

/-- The answer of the tool, and what it has had to do with the source after that of before. -/
theorem run_elevations (source : HeightSource Id) (points : List (List Float)) (mode : String)
    (record : List Contact) :
    (elevations source.recorded points mode).run record =
      let asked := record ++ if (countFault? points).isNone then [.fetchPoints points] else []
      match pointsResponse points (source.fetchPoints points) >>= written mode with
      | .ok text => (text, asked)
      | .error text =>
          (errorText text mode, asked ++ [.report (elevationsName ++ " failed: " ++ text)]) := by
  unfold elevations pointsResponse
  rw [run_answer]
  cases countFault? points with
  | some text =>
      simp only [Option.isNone_some, Bool.false_eq_true, if_false, List.append_nil]
      rfl
  | none =>
      dsimp only
      rw [run_attempt_bind]
      have hask : (ask (source.recorded.fetchPoints points)).run.run record =
          (source.fetchPoints points, record ++ [.fetchPoints points]) := rfl
      rw [hask]
      cases source.fetchPoints points with
      | error text => rfl
      | ok a =>
          dsimp only
          cases pointInfos? points a.elevations a.statuses with
          | none => rfl
          | some infos => rfl

theorem isNone_countFault?_iff {points : List (List Float)} :
    (countFault? points).isNone = true ↔ 1 ≤ points.length ∧ points.length ≤ 1000 := by
  unfold countFault? maxPoints
  cases points with
  | nil => exact iff_of_false Bool.false_ne_true (fun h => absurd h.1 (by decide))
  | cons point rest =>
      rw [List.isEmpty_cons, if_neg Bool.false_ne_true]
      by_cases hmany : 1000 < (point :: rest).length
      · rw [if_pos hmany]
        exact iff_of_false Bool.false_ne_true (fun h => absurd h.2 (Nat.not_le.mpr hmany))
      · rw [if_neg hmany]
        exact iff_of_true rfl ⟨Nat.succ_pos _, Nat.not_lt.mp hmany⟩

/-! ## Pairing -/

/-- Points with their heights, each put together from one point, one height and one status. -/
structure Paired (points : List (List Float)) (a : PointsAnswer) (infos : List PointInfo) :
    Prop where
  coordinates : infos.map (fun info => [info.latitude, info.longitude]) = points
  elevations : infos.map PointInfo.elevation = a.elevations
  statuses : infos.map PointInfo.status = a.statuses

/-- As many heights and statuses as points are paired with them. -/
theorem exists_paired {points : List (List Float)} {elevations : List Float}
    {statuses : List String} (range : List Float) (hpoints : ∀ point ∈ points, point.length = 2)
    (helevations : elevations.length = points.length)
    (hstatuses : statuses.length = points.length) :
    ∃ infos, pointInfos? points elevations statuses = some infos ∧
      Paired points ⟨elevations, statuses, range⟩ infos := by
  induction points generalizing elevations statuses with
  | nil =>
      rw [List.length_nil, List.length_eq_zero_iff] at helevations hstatuses
      subst helevations hstatuses
      exact ⟨[], rfl, rfl, rfl, rfl⟩
  | cons point rest ih =>
      obtain ⟨hpoint, hrest⟩ := List.forall_mem_cons.mp hpoints
      obtain ⟨latitude, longitude, rfl⟩ := List.length_eq_two.mp hpoint
      obtain ⟨elevation, elevations, rfl⟩ := List.exists_cons_of_length_eq_add_one helevations
      obtain ⟨status, statuses, rfl⟩ := List.exists_cons_of_length_eq_add_one hstatuses
      obtain ⟨infos, hinfos, hpaired⟩ :=
        ih hrest (Nat.succ.inj helevations) (Nat.succ.inj hstatuses)
      refine ⟨⟨latitude, longitude, elevation, status⟩ :: infos, ?_, ?_, ?_, ?_⟩
      · rw [pointInfos?, hinfos]
        rfl
      · rw [List.map_cons, hpaired.coordinates]
      · rw [List.map_cons, hpaired.elevations]
      · rw [List.map_cons, hpaired.statuses]

/-- One to a thousand points that are paired with their heights make up a response. -/
theorem exists_response {points : List (List Float)} {a : PointsAnswer} (hsome : 1 ≤ points.length)
    (hmany : points.length ≤ 1000) (hpoints : ∀ point ∈ points, point.length = 2)
    (helevations : a.elevations.length = points.length)
    (hstatuses : a.statuses.length = points.length) :
    ∃ infos, Paired points a infos ∧ pointsResponse points (.ok a) =
      .ok (.points ⟨points.length, infos, a.range, pointsMessage points.length a.statuses⟩) := by
  obtain ⟨infos, hinfos, hpaired⟩ := exists_paired a.range hpoints helevations hstatuses
  have hcount : countFault? points = none :=
    Option.isNone_iff_eq_none.mp (isNone_countFault?_iff.mpr ⟨hsome, hmany⟩)
  refine ⟨infos, hpaired, ?_⟩
  simp only [pointsResponse, hcount, hinfos]

/-! ## The two forms -/

/-- A line about a point: its coordinates with six decimals, its height with one, and its status as
a mark, unless that is the one of a height. -/
inductive ShowsPoint (info : PointInfo) : List Char → Prop
  | intro {latitude longitude elevation : List Char} :
      Shows 6 latitude (Binary.ofFloat info.latitude) →
      Shows 6 longitude (Binary.ofFloat info.longitude) →
      Shows 1 elevation (Binary.ofFloat info.elevation) →
      ShowsPoint info ("  (".toList ++ latitude ++ ", ".toList ++ longitude ++ "): ".toList
        ++ elevation ++ "m".toList
        ++ if info.status = "ok" then [] else " [".toList ++ info.status.toList ++ "]".toList)

theorem showsPoint_line (info : PointInfo) : ShowsPoint info info.line.toList := by
  have hshows := ShowsPoint.intro (shows_fixedText 6 info.latitude)
    (shows_fixedText 6 info.longitude) (shows_fixedText 1 info.elevation)
  have htext : info.line.toList = "  (".toList ++ (fixedText 6 info.latitude).toList
      ++ ", ".toList ++ (fixedText 6 info.longitude).toList ++ "): ".toList
      ++ (fixedText 1 info.elevation).toList ++ "m".toList
      ++ if info.status = "ok" then [] else " [".toList ++ info.status.toList ++ "]".toList := by
    have hmark : (if info.status = "ok" then "" else " [" ++ info.status ++ "]").toList =
        if info.status = "ok" then [] else " [".toList ++ info.status.toList ++ "]".toList := by
      rw [apply_ite String.toList, String.toList_append, String.toList_append]
      rfl
    have hopening : "  ".toList ++ "(".toList = "  (".toList := by decide
    have hclosing : ")".toList ++ ": ".toList = "): ".toList := by decide
    rw [← hopening, ← hclosing, ← hmark]
    simp only [PointInfo.line, pointText, heightText, String.toList_append, List.append_assoc]
  rw [htext]
  exact hshows

theorem unbroken_line {info : PointInfo} (h : Unbroken info.status.toList) :
    Unbroken info.line.toList := by
  have hmark : Unbroken (if info.status = "ok" then "" else " [" ++ info.status ++ "]").toList := by
    split
    · decide
    · simp only [String.toList_append, unbroken_append]
      exact ⟨⟨by decide, h⟩, by decide⟩
  simp only [PointInfo.line, String.toList_append, unbroken_append]
  exact ⟨⟨⟨⟨by decide, unbroken_pointText _ _⟩, by decide⟩, unbroken_heightText _⟩, hmark⟩

theorem line_ne_nil (info : PointInfo) : info.line.toList ≠ [] := by
  simp only [PointInfo.line, String.toList_append]
  exact List.cons_ne_nil _ _

/-- The three lines above the points in the form for people. -/
def headings (count : Int) (low high : Float) : List String :=
  ["Elevations for " ++ toString count ++ " points",
    "Range: " ++ heightText low ++ " - " ++ heightText high, ""]

theorem unbroken_headings {count : Int} {low high : Float} :
    ∀ heading ∈ headings count low high, Unbroken heading.toList := by
  simp only [headings, List.forall_mem_cons, String.toList_append, unbroken_append]
  refine ⟨⟨⟨by decide, unbroken_toString count⟩, by decide⟩,
    ⟨⟨⟨by decide, unbroken_heightText low⟩, by decide⟩, unbroken_heightText high⟩, by decide, ?_⟩
  exact fun _ hmem => absurd hmem List.not_mem_nil

theorem toText_of_range {r : MultiPointResponse} {low high : Float} {others : List Float}
    (hrange : r.range = low :: high :: others) :
    r.toText =
      .ok ("\n".intercalate (headings r.count low high ++ r.points.map PointInfo.line)) := by
  rw [MultiPointResponse.toText, hrange]
  rfl

/-- The form for people, read line by line. -/
theorem lines_pointsText {count : Int} {low high : Float} {infos : List PointInfo}
    (hne : infos ≠ []) (hstatuses : ∀ info ∈ infos, Unbroken info.status.toList) :
    lines ("\n".intercalate (headings count low high ++ infos.map PointInfo.line)).toList =
      (headings count low high ++ infos.map PointInfo.line).map String.toList := by
  rw [String.toList_intercalate]
  refine lines_intercalate ?_ ?_
  · intro line hline
    obtain ⟨text, htext, rfl⟩ := List.mem_map.mp hline
    rcases List.mem_append.mp htext with hheading | hpoint
    · exact unbroken_headings text hheading
    · obtain ⟨info, hinfo, rfl⟩ := List.mem_map.mp hpoint
      exact unbroken_line (hstatuses info hinfo)
  · intro line hline
    have hpoints : (infos.map PointInfo.line).map String.toList ≠ [] := by simpa using hne
    rw [List.map_append, List.getLast?_append_of_ne_nil _ hpoints] at hline
    obtain ⟨text, htext, rfl⟩ := List.mem_map.mp (List.mem_of_getLast? hline)
    obtain ⟨info, -, rfl⟩ := List.mem_map.mp htext
    exact line_ne_nil info

/-- What a reader gets of a point with its height. -/
def infoAsRead (info : PointInfo) : Json :=
  .object [("lat", .number info.latitude), ("lon", .number info.longitude),
    ("elevation_m", .number info.elevation), ("status", .string info.status)]

/-- The form for programs, read again. -/
theorem parse_pointsJson {r : MultiPointResponse} (hcount : r.count.natAbs < 10 ^ digitLimit) :
    Json.parse r.toJson.render = .ok (.object
      [("point_count", .int r.count), ("points", .array (r.points.map infoAsRead)),
        ("elevation_range", .array (r.range.map Json.number)),
        ("message", .string r.message)]) := by
  have hinfo (info : PointInfo) : info.toJson.asRead = infoAsRead info := rfl
  have hread : r.toJson.asRead = .object
      [("point_count", .int r.count), ("points", .array (r.points.map infoAsRead)),
        ("elevation_range", .array (r.range.map Json.number)),
        ("message", .string r.message)] := by
    simp only [MultiPointResponse.toJson, Json.asRead, Json.asReadMembers, Json.asReadItems_eq,
      List.map_map, Function.comp_def, hinfo]
  have hpoints : Json.Fits 984 (.array (r.points.map infoAsRead)) := by
    refine .array fun item hitem => ?_
    obtain ⟨info, -, rfl⟩ := List.mem_map.mp hitem
    exact .object (by simp [Json.fits_number, Json.Fits.string])
  have hrange : Json.Fits 984 (.array (r.range.map Json.number)) := by
    refine .array fun item hitem => ?_
    obtain ⟨x, -, rfl⟩ := List.mem_map.mp hitem
    exact Json.fits_number _ x
  rw [← hread]
  refine Json.parse_render ?_
  rw [hread]
  exact .object (by simp [hpoints, hrange, Json.Fits.int hcount, Json.Fits.string])

/-! ## Errors -/

/-- The text is one that stands for an error. -/
def IsError (mode text : String) : Prop := ∃ message, text = errorText message mode

theorem isError_errorText (mode message : String) : IsError mode (errorText message mode) :=
  ⟨message, rfl⟩

/-- A form for people has been written only if the range has two ends. -/
theorem exists_range_of_toText {r : MultiPointResponse} {text : String} (h : r.toText = .ok text) :
    ∃ low high others, r.range = low :: high :: others := by
  rw [MultiPointResponse.toText] at h
  cases hrange : r.range with
  | nil =>
      rw [hrange] at h
      cases h
  | cons low rest =>
      cases rest with
      | nil =>
          rw [hrange] at h
          cases h
      | cons high others => exact ⟨low, high, others, rfl⟩

/-- No form for people looks like an error. -/
theorem not_isError_toText {r : MultiPointResponse} {text : String} (h : r.toText = .ok text) :
    ¬ IsError textMode text := by
  rintro ⟨message, rfl⟩
  -- the first word is another one, from its second letter on
  have herror : (errorText message textMode).toList[1]? = some 'r' := by
    rw [errorText, if_pos rfl, ErrorResponse.toText, String.toList_append]
    rfl
  obtain ⟨low, high, others, hrange⟩ := exists_range_of_toText h
  rw [toText_of_range hrange, Except.ok.injEq] at h
  have htext : (errorText message textMode).toList[1]? = some 'l' := by
    rw [← h, String.toList_intercalate, headings]
    simp only [List.cons_append, List.map_cons, List.intercalate_cons_cons, String.toList_append]
    rfl
  rw [herror] at htext
  cases htext

/-- No response to points looks like an error. -/
theorem not_isError_toJson (r : MultiPointResponse) {mode : String} (hmode : mode ≠ textMode) :
    ¬ IsError mode r.toJson.render := by
  rintro ⟨message, htext⟩
  rw [errorText, if_neg hmode] at htext
  have hpoints : r.toJson.render.toList[2]? = some 'p' := by
    rw [Json.render, String.toList_ofList]
    rfl
  have herror : (ErrorResponse.mk message).toJson.render.toList[2]? = some 'e' := by
    rw [Json.render, String.toList_ofList]
    rfl
  rw [htext, herror] at hpoints
  cases hpoints

/-- What a response was made of. -/
theorem eq_points_of_pointsResponse {points : List (List Float)}
    {reply : Except String PointsAnswer} {r : Response} (h : pointsResponse points reply = .ok r) :
    ∃ a infos, reply = .ok a ∧ r = .points
      ⟨points.length, infos, a.range, pointsMessage points.length a.statuses⟩ := by
  unfold pointsResponse at h
  cases hcount : countFault? points with
  | some text =>
      rw [hcount] at h
      cases h
  | none =>
      rw [hcount] at h
      cases reply with
      | error text => cases h
      | ok a =>
          cases hinfos : pointInfos? points a.elevations a.statuses with
          | none =>
              simp only [hinfos] at h
              cases h
          | some infos =>
              simp only [hinfos, Except.ok.injEq] at h
              exact ⟨a, infos, rfl, h.symm⟩

theorem written_textMode {r : MultiPointResponse} {low high : Float} {others : List Float}
    (hrange : r.range = low :: high :: others) :
    written textMode (.points r) =
      .ok ("\n".intercalate (headings r.count low high ++ r.points.map PointInfo.line)) := by
  rw [written, Response.format, if_pos rfl, toText?, Option.getD_some, toText_of_range hrange]

theorem written_of_ne {mode : String} (hmode : mode ≠ textMode) (r : Response) :
    written mode r = .ok r.toJson.render := by
  rw [written, Response.format, if_neg hmode]

/-- A response with two ends of a range is written in every mode, and is not an error. -/
theorem exists_written {r : MultiPointResponse} (hrange : 2 ≤ r.range.length) (mode : String) :
    ∃ text, written mode (.points r) = .ok text ∧ ¬ IsError mode text := by
  by_cases hmode : mode = textMode
  · obtain ⟨low, high, others, hends⟩ : ∃ low high others, r.range = low :: high :: others := by
      match r.range, hrange with
      | low :: high :: others, _ => exact ⟨low, high, others, rfl⟩
    rw [hmode]
    exact ⟨_, written_textMode hends, not_isError_toText (toText_of_range hends)⟩
  · exact ⟨_, written_of_ne hmode _, not_isError_toJson r hmode⟩

/-- Unless the range of an answer is short, the tool answers an error in any mode if there is no
response to be written. -/
theorem isError_elevations_iff {source : HeightSource Id} {points : List (List Float)}
    (hrange : ∀ a, source.fetchPoints points = .ok a → 2 ≤ a.range.length) (mode : String) :
    IsError mode ((elevations source.recorded points mode).run []).1 ↔
      ∃ text, pointsResponse points (source.fetchPoints points) = .error text := by
  rw [run_elevations]
  cases hresponse : pointsResponse points (source.fetchPoints points) with
  | error text => exact iff_of_true (isError_errorText mode text) ⟨text, rfl⟩
  | ok r =>
      obtain ⟨a, infos, hreply, rfl⟩ := eq_points_of_pointsResponse hresponse
      obtain ⟨text, hwritten, hnone⟩ := exists_written
        (r := ⟨points.length, infos, a.range, pointsMessage points.length a.statuses⟩)
        (hrange a hreply) mode
      refine iff_of_false ?_ (fun ⟨text, htext⟩ => by cases htext)
      rw [ok_bind, hwritten]
      exact hnone

/-- The tool for several points is faithful.  It always answers, and asks the source for heights
once if there are one to a thousand points, and otherwise not at all.  If as many heights and
statuses as points come back, with two ends of a range, they are answered point by point with the
number of those that have data.  In every mode but one the answer is a text from which an object
with the very same numbers is read, as long as they are finite.  In that one mode it is a line for
each point, with the digits of its numbers up to a fixed place, and marked by its status unless that
is the one of a height.  And as long as a range has two ends, the modes agree on what is an
error. -/
theorem elevations_faithful (source : HeightSource Id) (points : List (List Float)) :
    (∀ mode, ∃ text reports, (elevations source.recorded points mode).run [] =
        (text, (if 1 ≤ points.length ∧ points.length ≤ 1000 then [.fetchPoints points] else [])
          ++ reports) ∧
      ∀ contact ∈ reports, ∃ message, contact = .report message) ∧
    (∀ a low high, source.fetchPoints points = .ok a → 1 ≤ points.length → points.length ≤ 1000 →
      (∀ point ∈ points, point.length = 2) → a.elevations.length = points.length →
      a.statuses.length = points.length → a.range = [low, high] →
        ∃ infos, Paired points a infos ∧
          (∀ mode ≠ textMode,
            Json.parse ((elevations source.recorded points mode).run []).1 = .ok (.object
              [("point_count", .int points.length),
                ("points", .array (infos.map fun info => .object [("lat", .number info.latitude),
                  ("lon", .number info.longitude), ("elevation_m", .number info.elevation),
                  ("status", .string info.status)])),
                ("elevation_range", .array [.number low, .number high]),
                ("message", .string ("Retrieved elevation for " ++ toString points.length
                  ++ " points (" ++ toString (a.statuses.count "ok") ++ " with data)"))])) ∧
          ((∀ status ∈ a.statuses, Unbroken status.toList) →
            lines ((elevations source.recorded points textMode).run []).1.toList =
              (["Elevations for " ++ toString points.length ++ " points",
                "Range: " ++ heightText low ++ " - " ++ heightText high, ""]
                ++ infos.map PointInfo.line).map String.toList ∧
            ∀ info ∈ infos, ShowsPoint info info.line.toList)) ∧
    ((∀ a, source.fetchPoints points = .ok a → 2 ≤ a.range.length) → ∀ mode ≠ textMode,
      (IsError textMode ((elevations source.recorded points textMode).run []).1 ↔
        IsError mode ((elevations source.recorded points mode).run []).1)) := by
  refine ⟨?_, ?_, ?_⟩
  · intro mode
    rw [run_elevations, List.nil_append, if_congr isNone_countFault?_iff rfl rfl]
    cases pointsResponse points (source.fetchPoints points) >>= written mode with
    | ok text =>
        exact ⟨text, [], by rw [List.append_nil], fun _ hmem => absurd hmem List.not_mem_nil⟩
    | error text =>
        refine ⟨_, _, rfl, fun contact hmem => ?_⟩
        exact ⟨_, List.mem_singleton.mp hmem⟩
  · intro a low high hreply hsome hmany hpoints helevations hstatuses hrange
    obtain ⟨infos, hpaired, hresponse⟩ :=
      exists_response hsome hmany hpoints helevations hstatuses
    refine ⟨infos, hpaired, fun mode hmode => ?_, fun hunbroken => ⟨?_, fun info _ => ?_⟩⟩
    · have hcount : (points.length : Int).natAbs < 10 ^ digitLimit := by
        calc points.length < 10 ^ 4 := by omega
          _ ≤ 10 ^ digitLimit := Nat.pow_le_pow_right (by decide) (by decide)
      rw [run_elevations, hreply, hresponse, ok_bind, written_of_ne hmode, hrange]
      exact parse_pointsJson hcount
    · have hne : infos ≠ [] := by
        rintro rfl
        rw [← hpaired.coordinates] at hsome
        exact absurd hsome (by decide)
      have hmarks : ∀ info ∈ infos, Unbroken info.status.toList := by
        intro info hinfo
        refine hunbroken info.status ?_
        rw [← hpaired.statuses]
        exact List.mem_map_of_mem hinfo
      have hcount : toString (points.length : Int) = toString points.length := rfl
      rw [run_elevations, hreply, hresponse, ok_bind, written_textMode hrange]
      dsimp only
      rw [lines_pointsText hne hmarks, headings, hcount]
    · exact showsPoint_line info
  · intro hrange mode _
    rw [isError_elevations_iff hrange, isError_elevations_iff hrange]

/-- A source with a height for the first of two points. -/
def HeightSource.half : HeightSource Id where
  fetchPoint _ _ := .error "one point is not enough"
  fetchPoints _ := .ok ⟨[-7.5, 0.0], ["ok", "no_tile"], [-7.5, -7.5]⟩
  cacheStatus := .error "no cache"
  describe := .error "no name"
  canInterpolate := .error "no interpolation"
  report _ := ()

/-- Of two points, one is marked, and one is counted. -/
theorem elevations_faithful_half :
    Json.parse ((elevations HeightSource.half.recorded [[46.5, 7.5], [46.25, 8.0]] "json").run
        []).1 = .ok (.object
      [("point_count", .int 2),
        ("points", .array
          [.object [("lat", .float 46.5), ("lon", .float 7.5), ("elevation_m", .float (-7.5)),
            ("status", .string "ok")],
          .object [("lat", .float 46.25), ("lon", .float 8.0), ("elevation_m", .float 0.0),
            ("status", .string "no_tile")]]),
        ("elevation_range", .array [.float (-7.5), .float (-7.5)]),
        ("message", .string "Retrieved elevation for 2 points (1 with data)")]) ∧
      (lines ((elevations HeightSource.half.recorded [[46.5, 7.5], [46.25, 8.0]]
        textMode).run []).1.toList).length = 5 ∧
      (IsError textMode ((elevations HeightSource.half.recorded [[46.5, 7.5], [46.25, 8.0]]
          textMode).run []).1 ↔
        IsError "json" ((elevations HeightSource.half.recorded [[46.5, 7.5], [46.25, 8.0]]
          "json").run []).1) := by
  obtain ⟨-, hanswer, hmodes⟩ :=
    elevations_faithful HeightSource.half [[46.5, 7.5], [46.25, 8.0]]
  obtain ⟨infos, hpaired, hobject, hlines⟩ := hanswer
    ⟨[-7.5, 0.0], ["ok", "no_tile"], [-7.5, -7.5]⟩ (-7.5) (-7.5) rfl (by decide) (by decide)
    (by simp) rfl rfl rfl
  have hlength : infos.length = 2 := by
    rw [← List.length_map PointInfo.elevation, hpaired.elevations]
    rfl
  refine ⟨?_, ?_, hmodes ?_ "json" (by decide)⟩
  · obtain ⟨first, second, rfl⟩ := List.length_eq_two.mp hlength
    obtain ⟨hcoordinates, helevations, hstatuses⟩ := hpaired
    simp only [List.map_cons, List.map_nil, List.cons.injEq, and_true] at hcoordinates
    simp only [List.map_cons, List.map_nil, List.cons.injEq, and_true] at helevations hstatuses
    obtain ⟨⟨hlatitude, hlongitude⟩, hlatitude', hlongitude'⟩ := hcoordinates
    have hfinite : (46.5 : Float).isFinite ∧ (7.5 : Float).isFinite ∧ (46.25 : Float).isFinite ∧
        (8.0 : Float).isFinite ∧ (-7.5 : Float).isFinite ∧ (0.0 : Float).isFinite := by decide
    have hread := hobject "json" (by decide)
    simp only [List.map_cons, List.map_nil, hlatitude, hlongitude, hlatitude', hlongitude',
      helevations, hstatuses, Json.number, hfinite, if_true] at hread
    exact hread
  · rw [(hlines (by decide)).1, List.length_map, List.length_append, List.length_map, hlength]
    rfl
  · intro a hreply
    cases hreply
    exact Nat.le_refl 2

end PointElevation.Tool
