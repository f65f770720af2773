import Mathlib.Tactic.SplitIfs
import PointElevation.Json.Writer
import PointElevation.Proofs.Json.Floats
import PointElevation.Proofs.Json.Reading
import PointElevation.Proofs.Listing.FileName

/-!
# What is written is read

The writer makes one of the texts that a value can have: the compact one, with an escape only where
there has to be one.  So it is read back, as every text is.  What is lost on the way are the
floating point numbers that JSON has no text for (`asRead`); a value without any of these numbers
(`Plain`) is read back as it is.
-/

namespace PointElevation.Json

open PointElevation.Number (Binary jsonStyle)
open PointElevation.Text (hexDigits)

/-- What a reader gets of a floating point number. -/
def number (x : Float) : Json := if x.isFinite then .float x else .null

mutual

/-- What a reader gets of a value. -/
def asRead : Json → Json
  | .float x => number x
  | .array items => .array (asReadItems items)
  | .object members => .object (asReadMembers members)
  | value => value

/-- What a reader gets of the items of an array. -/
def asReadItems : List Json → List Json
  | [] => []
  | item :: rest => asRead item :: asReadItems rest

/-- What a reader gets of the members of an object. -/
def asReadMembers : List (String × Json) → List (String × Json)
  | [] => []
  | (name, value) :: rest => (name, asRead value) :: asReadMembers rest

end

theorem fits_number (room : Nat) (x : Float) : Fits room (number x) := by
  unfold number
  split_ifs
  · exact .float x
  · exact .null

theorem asReadItems_eq (items : List Json) : asReadItems items = items.map asRead := by
  induction items with
  | nil => rfl
  | cons item rest ih => rw [asReadItems, ih, List.map_cons]

theorem asReadMembers_eq (members : List (String × Json)) :
    asReadMembers members = members.map fun member => (member.1, member.2.asRead) := by
  induction members with
  | nil => rfl
  | cons member rest ih => rw [asReadMembers, ih, List.map_cons]

/-! ## Strings -/

theorem spellsUnit_control : ∀ n < 0x20, SpellsUnit (hexDigits 4 n) n := by
  decide

theorem spells_escapedChar (c : Char) : SpellsChar (escapedChar c) c := by
  unfold escapedChar
  split_ifs with hquote hbackslash hb ht hn hf hr hcontrol
  · subst hquote
    exact .short (by decide)
  · subst hbackslash
    exact .short (by decide)
  · subst hb
    exact .short (by decide)
  · subst ht
    exact .short (by decide)
  · subst hn
    exact .short (by decide)
  · subst hf
    exact .short (by decide)
  · subst hr
    exact .short (by decide)
  · exact .unit (by omega) (spellsUnit_control _ hcontrol)
  · exact .raw (Nat.le_of_not_lt hcontrol) hquote hbackslash

theorem spells_flatMap_escapedChar (cs : List Char) : SpellsChars (cs.flatMap escapedChar) cs := by
  induction cs with
  | nil => exact .nil
  | cons c cs ih => exact .cons (spells_escapedChar c) ih

theorem spells_writeString (s : String) : SpellsString (writeString s) s :=
  .intro (spells_flatMap_escapedChar s.toList)

/-! ## Whole numbers -/

theorem spells_toString (n : Int) : Spells (toString n).toList (.int n) := by
  have htext := Spells.int (decide (n < 0)) (whole_toDigits n.natAbs)
  have hsize : natOf (Nat.toDigits 10 n.natAbs) = n.natAbs := Nat.ofDigitChars_ten_toDigits
  have hvalue : signed (decide (n < 0)) n.natAbs = n := by
    simp only [signed, decide_eq_true_eq]
    omega
  rw [hsize, hvalue] at htext
  rw [toList_toString_int]
  simpa [minus] using htext

/-! ## Values -/

theorem writeItems_eq (items : List Json) :
    writeItems items = [','].intercalate (items.map write) := by
  induction items with
  | nil => rfl
  | cons item items ih =>
      cases items with
      | nil => simp only [writeItems, List.map_cons, List.map_nil, List.intercalate_singleton]
      | cons second items =>
          rw [writeItems, ih]
          · simp only [List.map_cons, List.intercalate_cons_cons, List.append_assoc,
              List.singleton_append]
          · exact List.cons_ne_nil second _

/-- A member as it is written, with what a reader gets of it. -/
def Member.written (member : String × Json) : Member :=
  ⟨member.1, writeString member.1, member.2.asRead, write member.2⟩

theorem writeMembers_eq (members : List (String × Json)) :
    writeMembers members =
      [','].intercalate ((members.map Member.written).map Member.text) := by
  induction members with
  | nil => rfl
  | cons member members ih =>
      cases members with
      | nil =>
          simp only [writeMembers, Member.written, Member.text, List.map_cons, List.map_nil,
            List.intercalate_singleton]
      | cons second members =>
          rw [writeMembers, ih]
          · simp only [Member.written, Member.text, List.map_cons, List.intercalate_cons_cons,
              List.append_assoc, List.cons_append, List.nil_append]
          · exact List.cons_ne_nil second _

theorem spells_number (x : Float) :
    Spells (jsonStyle.render (Binary.ofFloat x)).toList (number x) := by
  unfold number
  split_ifs with hfinite
  · exact spells_render hfinite
  · rw [render_of_not_isFinite (Bool.eq_false_iff.mpr hfinite)]
    exact .null

theorem spells_array {items : List Json} (h : ∀ item ∈ items, Spells item.write item.asRead) :
    Spells (Json.array items).write (Json.array items).asRead := by
  rw [write, asRead, writeItems_eq, asReadItems_eq]
  cases items with
  | nil => exact .noItems blank_nil
  | cons item items =>
      let texts := (item :: items).map fun item => (item.write, item.asRead)
      have htexts : ∀ text ∈ texts, Spells text.1 text.2 := by
        intro text htext
        obtain ⟨item, hitem, rfl⟩ := List.mem_map.mp htext
        exact h item hitem
      have harray := Spells.array (List.cons_ne_nil _ _ : texts ≠ []) htexts
      simpa [texts, Function.comp_def] using harray

theorem spells_object {members : List (String × Json)}
    (h : ∀ member ∈ members, Spells member.2.write member.2.asRead) :
    Spells (Json.object members).write (Json.object members).asRead := by
  rw [write, asRead, writeMembers_eq, asReadMembers_eq]
  cases members with
  | nil => exact .noMembers blank_nil
  | cons member members =>
      let texts := (member :: members).map Member.written
      have hnames : ∀ text ∈ texts, SpellsName text.nameText text.name := by
        intro text htext
        obtain ⟨member, _, rfl⟩ := List.mem_map.mp htext
        exact .of_string (spells_writeString member.1)
      have hvalues : ∀ text ∈ texts, Spells text.valueText text.value := by
        intro text htext
        obtain ⟨member, hmember, rfl⟩ := List.mem_map.mp htext
        exact h member hmember
      have hobject := Spells.object (List.cons_ne_nil _ _ : texts ≠ []) hnames hvalues
      simpa [texts, Function.comp_def, Member.written] using hobject

mutual

/-- What is written is a text of what a reader gets. -/
theorem spells_write : (value : Json) → Spells value.write value.asRead
  | .null => .null
  | .bool true => .bool true
  | .bool false => .bool false
  | .int value => spells_toString value
  | .float x => spells_number x
  | .string value => .string (spells_writeString value)
  | .array items => spells_array (forall_items_spells items)
  | .object members => spells_object (forall_members_spells members)

theorem forall_items_spells :
    (items : List Json) → ∀ item ∈ items, Spells item.write item.asRead
  | [] => nofun
  | item :: rest => List.forall_mem_cons.mpr ⟨spells_write item, forall_items_spells rest⟩

theorem forall_members_spells :
    (members : List (String × Json)) →
      ∀ member ∈ members, Spells member.2.write member.2.asRead
  | [] => nofun
  | (_, value) :: rest => List.forall_mem_cons.mpr ⟨spells_write value, forall_members_spells rest⟩

end

/-- A value is read back from its text, but for the numbers that have none. -/
theorem parse_render {value : Json} (hfits : Fits depthLimit value.asRead) :
    parse value.render = .ok value.asRead :=
  parse_of_spells (spells_write value) hfits

/-! ## Values without floating point numbers -/

/-- A value without floating point numbers. -/
inductive Plain : Json → Prop
  | null : Plain .null
  | bool (value : Bool) : Plain (.bool value)
  | int (value : Int) : Plain (.int value)
  | string (value : String) : Plain (.string value)
  | array {items : List Json} : (∀ item ∈ items, Plain item) → Plain (.array items)
  | object {members : List (String × Json)} : (∀ member ∈ members, Plain member.2) →
      Plain (.object members)

theorem Plain.array_map {α : Type} {f : α → Json} (h : ∀ a, Plain (f a)) (items : List α) :
    Plain (.array (items.map f)) := by
  refine .array fun item hitem => ?_
  obtain ⟨a, _, rfl⟩ := List.mem_map.mp hitem
  exact h a

/-- Nothing of such a value is lost. -/
theorem Plain.asRead_eq {value : Json} (h : Plain value) : value.asRead = value := by
  induction h with
  | null => rfl
  | bool value => rfl
  | int value => rfl
  | string value => rfl
  | @array items _ ih =>
      rw [asRead, asReadItems_eq, List.map_congr_left ih, List.map_id']
  | @object members _ ih =>
      have hmembers : members.map (fun member => (member.1, member.2.asRead)) = members :=
        (List.map_congr_left fun member hmember => by rw [ih member hmember]).trans
          (List.map_id' members)
      rw [asRead, asReadMembers_eq, hmembers]

/-- It is read back from its text. -/
theorem Plain.parse_render {value : Json} (h : Plain value) (hfits : Fits depthLimit value) :
    parse value.render = .ok value := by
  rw [← h.asRead_eq] at hfits
  rw [Json.parse_render hfits, h.asRead_eq]

end PointElevation.Json
