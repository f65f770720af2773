import PointElevation.Json.Value

/-!
# Members of objects

Looking a member up finds the last one with its name.  Under names that differ there is only one.
-/

namespace PointElevation.Json

variable {name : String} {members : List (String × Json)} {value found : Json}

theorem lastMember?_eq_some_iff :
    lastMember? name members = some value ↔
      ∃ before after, members = before ++ (name, value) :: after ∧
        ∀ member ∈ after, member.1 ≠ name := by
  constructor
  · intro h
    obtain ⟨⟨found, _⟩, hfind, rfl⟩ := Option.map_eq_some_iff.mp h
    obtain ⟨hname, behind, front, hmembers, hbehind⟩ := List.find?_eq_some_iff_append.mp hfind
    obtain rfl : found = name := eq_of_beq hname
    refine ⟨front.reverse, behind.reverse, ?_, fun member hmember heq => ?_⟩
    · simpa using congrArg List.reverse hmembers
    · simpa [heq] using hbehind member (List.mem_reverse.mp hmember)
  · rintro ⟨before, after, rfl, hafter⟩
    have hfind : (before ++ (name, value) :: after).reverse.find? (fun member => member.1 == name) =
        some (name, value) := by
      refine List.find?_eq_some_iff_append.mpr
        ⟨beq_self_eq_true name, after.reverse, before.reverse, by simp, fun member hmember => ?_⟩
      simpa using hafter member (List.mem_reverse.mp hmember)
    rw [lastMember?, hfind]
    rfl

theorem member?_eq_some_iff :
    value.member? name = some found ↔
      ∃ before after, value = .object (before ++ (name, found) :: after) ∧
        ∀ member ∈ after, member.1 ≠ name := by
  cases value with
  | object members => simp only [member?, lastMember?_eq_some_iff, object.injEq]
  | _ => simp [member?]

/-- Under names that differ, each member is found. -/
theorem forall_lastMember? (hnames : (members.map (·.1)).Nodup) :
    ∀ member ∈ members, lastMember? member.1 members = some member.2 := by
  rintro ⟨name, value⟩ hmem
  obtain ⟨before, after, rfl⟩ := List.append_of_mem hmem
  refine lastMember?_eq_some_iff.mpr ⟨before, after, rfl, fun member hmember heq => ?_⟩
  rw [List.map_append, List.map_cons, List.nodup_append] at hnames
  have hfresh : name ∉ after.map (·.1) := (List.nodup_cons.mp hnames.2.1).1
  exact hfresh (List.mem_map.mpr ⟨member, hmember, heq⟩)

end PointElevation.Json
