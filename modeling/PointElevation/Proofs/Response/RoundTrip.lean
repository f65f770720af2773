import PointElevation.Proofs.Json.Members
import PointElevation.Proofs.Json.Writing
import PointElevation.Response.Format

/-!
# Reports are read back

An error, a status and the description of the dataset are written as objects that hold their fields
in order.  Such an object can be read, and the report can be built from it again: every member is
found under its name, since the names differ, each type accepts what was written for it, and there
are no members besides the fields.  So a text belongs to one report only.
-/

namespace PointElevation

/-- The members of an object. -/
def Json.members : Json → List (String × Json)
  | .object members => members
  | _ => []

namespace Response

open PointElevation.Number (digitLimit)

/-! ## Kinds of responses -/

/-- What a response is about. -/
inductive Kind where
  | error
  | point
  | pointInfo
  | points
  | status
  | dataset
deriving DecidableEq, Repr

/-- The name under which a response is built. -/
def Kind.name : Kind → String
  | .error => "ErrorResponse"
  | .point => "PointElevationResponse"
  | .pointInfo => "PointInfo"
  | .points => "MultiPointResponse"
  | .status => "StatusResponse"
  | .dataset => "DatasetResponse"

/-- The fields of a response in their order. -/
def Kind.fieldNames : Kind → List String
  | .error => ["error"]
  | .point => PointResponse.names
  | .pointInfo => PointInfo.names
  | .points => MultiPointResponse.names
  | .status => StatusResponse.names
  | .dataset => DatasetResponse.names

theorem Kind.nodup_fieldNames (kind : Kind) : kind.fieldNames.Nodup := by
  cases kind <;> decide

theorem Kind.eq_of_fieldNames {kind other : Kind} (h : kind.fieldNames = other.fieldNames) :
    kind = other := by
  revert h
  cases kind <;> cases other <;> decide

def kind : Response → Kind
  | .error _ => .error
  | .point _ => .point
  | .pointInfo _ => .pointInfo
  | .points _ => .points
  | .status _ => .status
  | .dataset _ => .dataset

/-- The whole numbers in a response. -/
def integers : Response → List Int
  | .error _ | .pointInfo _ => []
  | .point r => [r.x, r.y]
  | .points r => [r.count]
  | .status r => [r.tilesIndexed, r.rastersCached]
  | .dataset r => r.resolution :: r.tileSize :: r.tilePixels :: r.bounds

/-- Reports are about the service: no field of theirs is a floating point number. -/
inductive IsReport : Response → Prop
  | error (r : ErrorResponse) : IsReport (.error r)
  | status (r : StatusResponse) : IsReport (.status r)
  | dataset (r : DatasetResponse) : IsReport (.dataset r)

/-- A report whose whole numbers have no more digits than are read. -/
structure Readable (r : Response) : Prop where
  isReport : IsReport r
  natAbs_lt : ∀ n ∈ r.integers, n.natAbs < 10 ^ digitLimit

/-! ## Members -/

theorem toJson_eq_object (r : Response) : r.toJson = .object r.toJson.members := by
  cases r <;> rfl

/-- The members are the fields in their order. -/
theorem names_members (r : Response) : r.toJson.members.map (·.1) = r.kind.fieldNames := by
  cases r <;> rfl

/-- Each member is found under its name. -/
theorem forall_found (r : Response) :
    ∀ member ∈ r.toJson.members, Json.lastMember? member.1 r.toJson.members = some member.2 := by
  apply Json.forall_lastMember?
  rw [names_members]
  exact r.kind.nodup_fieldNames

/-- There are no members besides the fields. -/
theorem noOthers_members (r : Response) :
    noOthers r.toJson.members r.kind.fieldNames = .valid () := by
  have hnone : (r.toJson.members.map (·.1)).filter (· ∉ r.kind.fieldNames) = [] := by
    rw [names_members, List.filter_eq_nil_iff]
    intro name hname
    simpa using hname
  rw [noOthers, hnone]
  rfl

section Lists

variable {α : Type} {read : Json → Checked α} (write : α → Json)
  (hread : ∀ a, read (write a) = .valid a)

include hread

theorem readItems_map (items : List α) (index : Nat) :
    readItems read index (items.map write) = .valid items := by
  induction items generalizing index with
  | nil => rfl
  | cons item items ih =>
      rw [List.map_cons, readItems, hread, ih]
      rfl

/-- A list is accepted as it was written if its items are. -/
theorem readList_map (items : List α) : readList read (.array (items.map write)) = .valid items :=
  readItems_map write hread items 0

end Lists

/-! ## Building reports again -/

theorem ErrorResponse.ofFields_toJson (r : ErrorResponse) :
    ErrorResponse.ofFields r.toJson.members = .valid r := by
  have hothers : noOthers r.toJson.members ["error"] = .valid () := noOthers_members (.error r)
  rw [ErrorResponse.ofFields, hothers]
  rfl

theorem StatusResponse.ofFields_toJson (r : StatusResponse) :
    StatusResponse.ofFields r.toJson.members = .valid r := by
  have hothers : noOthers r.toJson.members names = .valid () := noOthers_members (.status r)
  have hfound := forall_found (.status r)
  simp only [Response.toJson, toJson, Json.members, List.forall_mem_cons] at hothers hfound
  simp only [ofFields, toJson, Json.members, required, defaulted, hfound, hothers]
  rfl

theorem DatasetResponse.ofFields_toJson (r : DatasetResponse) :
    DatasetResponse.ofFields r.toJson.members = .valid r := by
  have hothers : noOthers r.toJson.members names = .valid () := noOthers_members (.dataset r)
  have hfound := forall_found (.dataset r)
  have hbounds : readList readInt (.array (r.bounds.map .int)) = .valid r.bounds :=
    readList_map .int (fun _ => rfl) r.bounds
  have hstatuses : readList readString (.array (r.statuses.map .string)) = .valid r.statuses :=
    readList_map .string (fun _ => rfl) r.statuses
  simp only [Response.toJson, toJson, Json.members, List.forall_mem_cons] at hothers hfound
  simp only [ofFields, toJson, Json.members, required, defaulted, hfound, hothers, hbounds,
    hstatuses]
  rfl

/-- A report is built again from its own members. -/
theorem ofFields?_toJson {r : Response} (hr : IsReport r) :
    ofFields? r.kind.name r.toJson.members = some (.valid r) := by
  cases hr with
  | error r =>
      show some (Response.error <$> ErrorResponse.ofFields r.toJson.members) = _
      rw [ErrorResponse.ofFields_toJson, Checked.map_valid]
  | status r =>
      show some (Response.status <$> StatusResponse.ofFields r.toJson.members) = _
      rw [StatusResponse.ofFields_toJson, Checked.map_valid]
  | dataset r =>
      show some (Response.dataset <$> DatasetResponse.ofFields r.toJson.members) = _
      rw [DatasetResponse.ofFields_toJson, Checked.map_valid]

/-- Reports that are the same object are the same. -/
theorem eq_of_toJson {r other : Response} (hr : IsReport r)
    (hother : IsReport other) (h : r.toJson = other.toJson) : r = other := by
  have hkind : r.kind = other.kind := by
    apply Kind.eq_of_fieldNames
    rw [← names_members, ← names_members, h]
  have hread := ofFields?_toJson hr
  rw [hkind, h, ofFields?_toJson hother] at hread
  cases hread
  rfl

/-! ## Texts of reports -/

theorem plain_toJson {r : Response} (hr : IsReport r) : Json.Plain r.toJson := by
  cases hr with
  | error r => exact .object (List.forall_mem_singleton.mpr (.string _))
  | status r => exact .object (by simp [Json.Plain.string, Json.Plain.int, Json.Plain.bool])
  | dataset r =>
      have hbounds : Json.Plain (.array (r.bounds.map .int)) := .array_map .int r.bounds
      have hstatuses : Json.Plain (.array (r.statuses.map .string)) := .array_map .string r.statuses
      exact .object (by
        simp [Json.Plain.string, Json.Plain.int, Json.Plain.bool, hbounds, hstatuses])

theorem Readable.fits_toJson {r : Response} (hr : r.Readable) :
    Json.Fits Json.depthLimit r.toJson := by
  obtain ⟨hreport, hsize⟩ := hr
  have hint (room : Nat) : ∀ n ∈ r.integers, Json.Fits room (.int n) :=
    fun n hn => .int (hsize n hn)
  cases hreport with
  | error r => exact .object (List.forall_mem_singleton.mpr (.string _))
  | status r =>
      simp only [integers, List.forall_mem_cons] at hint
      exact .object (by simp [Json.Fits.string, Json.Fits.bool, hint])
  | dataset r =>
      have hstatuses (room : Nat) : Json.Fits (room + 1) (.array (r.statuses.map .string)) :=
        .array (by simp [Json.Fits.string])
      have hbounds (room : Nat) : Json.Fits (room + 1) (.array (r.bounds.map .int)) := by
        refine .array fun item hitem => ?_
        obtain ⟨n, hn, rfl⟩ := List.mem_map.mp hitem
        exact hint room n (by simp [integers, hn])
      simp only [integers, List.forall_mem_cons] at hint
      exact .object (by simp [Json.Fits.string, Json.Fits.bool, hint, hstatuses, hbounds])

/-- What is written of a report is read as the same object. -/
theorem Readable.parse_format {r : Response} (hr : r.Readable) {mode text : String}
    (hmode : mode ≠ textMode) (htext : r.format mode = .ok text) :
    Json.parse text = .ok r.toJson := by
  rw [format, if_neg hmode] at htext
  obtain rfl : r.toJson.render = text := Except.ok.inj htext
  exact (plain_toJson hr.isReport).parse_render hr.fits_toJson

/-- A report that is not written for people loses nothing: its text is an object with the fields in
their order, from which the same report is built again. -/
theorem format_lossless {r : Response} (hr : r.Readable) {mode : String} (hmode : mode ≠ textMode) :
    ∃ text members, r.format mode = .ok text ∧ Json.parse text = .ok (.object members) ∧
      members.map (·.1) = r.kind.fieldNames ∧ ofFields? r.kind.name members = some (.valid r) ∧
      ∀ (other : Response) (otherMode : String), other.Readable → otherMode ≠ textMode →
        other ≠ r → other.format otherMode ≠ .ok text := by
  have htext : r.format mode = .ok r.toJson.render := if_neg hmode
  have hparse := hr.parse_format hmode htext
  refine ⟨_, r.toJson.members, htext, ?_, names_members r, ofFields?_toJson hr.isReport, ?_⟩
  · rw [hparse, ← toJson_eq_object]
  · intro other otherMode hother hotherMode hne hsame
    have hjson : Except.ok other.toJson = Except.ok r.toJson :=
      (hother.parse_format hotherMode hsame).symm.trans hparse
    exact hne (eq_of_toJson hother.isReport hr.isReport (Except.ok.inj hjson))

/-- A description with quotes, controls, characters beyond U+FFFF, lists and a long number. -/
def quotedDataset : DatasetResponse where
  id := "\"id\\u0022\""
  name := "\x00\x1f\t\n\x7f"
  resolution := -1
  coverage := "é/😀"
  bounds := [2480000, -18446744073709551616, 0]
  horizontalSystem := ""
  verticalUnit := "m"
  tileSize := 100000000000000000000
  tilePixels := 2000
  interpolation := true
  statuses := ["ok", "\\", ""]
  license := "null"
  accessUrl := "/?a=1&b=[2]"
  message := "\x08\x0c\r"

theorem format_quotedDataset :
    (Response.dataset quotedDataset).Readable ∧ "json" ≠ textMode ∧
      ∃ text members, (Response.dataset quotedDataset).format "json" = .ok text ∧
        Json.parse text = .ok (.object members) ∧ members.map (·.1) = DatasetResponse.names ∧
        ofFields? "DatasetResponse" members = some (.valid (.dataset quotedDataset)) ∧
        (Response.error ⟨""⟩).format "" ≠ .ok text := by
  have hlimit : 10 ^ 21 ≤ 10 ^ digitLimit := Nat.pow_le_pow_right (by decide) (by decide)
  have hsmall : ∀ n ∈ (Response.dataset quotedDataset).integers, n.natAbs < 10 ^ 21 := by decide
  have hdataset : (Response.dataset quotedDataset).Readable :=
    ⟨.dataset quotedDataset, fun n hn => Nat.lt_of_lt_of_le (hsmall n hn) hlimit⟩
  have herror : (Response.error ⟨""⟩).Readable := ⟨.error ⟨""⟩, nofun⟩
  have hmode : "json" ≠ textMode := by decide
  obtain ⟨text, members, htext, hparse, hnames, hfields, hother⟩ := format_lossless hdataset hmode
  exact ⟨hdataset, hmode, text, members, htext, hparse, hnames, hfields,
    hother (.error ⟨""⟩) "" herror (by decide) nofun⟩

end Response

end PointElevation
