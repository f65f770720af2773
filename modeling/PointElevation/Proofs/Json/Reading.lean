import PointElevation.Proofs.Json.Numbers
import PointElevation.Proofs.Json.Strings

/-!
# Every text of a value is read

`parse_of_spells` says that the reader gives back the value of a text, whichever of its texts it
is.  A value stands in front of a rest, and `ReadAs` says how it is read there: the reader takes the
value and stops before the rest, or a little earlier, in the white space that may stand between.

The proof is by induction on the text.  One lemma for each step of the reader comes first; then the
items of an array and the members of an object are read one after the other, by induction on their
number.
-/

namespace PointElevation.Json

open PointElevation.Number (digitLimit)
open PointElevation.Text (exists_cons_of_isDigit)

/-! ## White space -/

theorem skipSpace_blank_append {gap : List Char} (h : Blank gap) (s : List Char) :
    skipSpace (gap ++ s) = skipSpace s :=
  List.dropWhile_append_of_pos h

theorem skipSpace_cons {c : Char} (h : isSpace c = false) (s : List Char) :
    skipSpace (c :: s) = c :: s :=
  List.dropWhile_cons_of_neg (Bool.eq_false_iff.mp h)

theorem skipSpace_gap {gap : List Char} (hgap : Blank gap) {c : Char} (h : isSpace c = false)
    (s : List Char) : skipSpace (gap ++ c :: s) = c :: s := by
  rw [skipSpace_blank_append hgap, skipSpace_cons h]

theorem Ends.blank_append {gap rest : List Char} (hgap : Blank gap) (hrest : Ends rest) :
    Ends (gap ++ rest) := by
  cases gap with
  | nil => exact hrest
  | cons c gap =>
      rintro _ ⟨⟩
      have hc := hgap c List.mem_cons_self
      simp only [isSpace, Bool.or_eq_true, beq_iff_eq] at hc
      rcases hc with ((rfl | rfl) | rfl) | rfl <;> decide

/-! ## Steps of the reader -/

variable {fuel room : Nat} {s rest tail : List Char}

theorem readValue_scalar (hhead : ∀ c ∈ s.head?, c ∉ ['"', '[', '{']) :
    readValue (fuel + 1) room s = demand (readScalar s) := by
  cases s with
  | nil => rfl
  | cons c s =>
      have hc := hhead c rfl
      simp only [List.mem_cons, List.not_mem_nil, or_false, not_or] at hc
      rw [readValue]
      · exact fun _ heq => hc.1 (List.cons.inj heq).1
      · exact fun _ heq => hc.2.1 (List.cons.inj heq).1
      · exact fun _ heq => hc.2.2 (List.cons.inj heq).1

theorem readValue_noItems (h : skipSpace s = ']' :: rest) :
    readValue (fuel + 1) (room + 1) ('[' :: s) = .ok (.array [], rest) := by
  simp only [readValue, enter, bind, Except.bind, h]

theorem readValue_items {items : List Json} (h : ∀ tail, skipSpace s ≠ ']' :: tail)
    (hitems : readItems fuel room (skipSpace s) = .ok (items, rest)) :
    readValue (fuel + 1) (room + 1) ('[' :: s) = .ok (.array items, rest) := by
  simp only [readValue, enter, bind, Except.bind, hitems]
  rfl

theorem readItems_last {item : Json} (hitem : readValue fuel room s = .ok (item, rest))
    (hrest : skipSpace rest = ']' :: tail) :
    readItems (fuel + 1) room s = .ok ([item], tail) := by
  simp only [readItems, hitem, bind, Except.bind, hrest]

theorem readItems_comma {item : Json} {items : List Json} {out : List Char}
    (hitem : readValue fuel room s = .ok (item, rest)) (hrest : skipSpace rest = ',' :: tail)
    (hitems : readItems fuel room (skipSpace tail) = .ok (items, out)) :
    readItems (fuel + 1) room s = .ok (item :: items, out) := by
  simp only [readItems, hitem, bind, Except.bind, hrest, hitems]
  rfl

theorem readValue_noMembers (h : skipSpace s = '}' :: rest) :
    readValue (fuel + 1) (room + 1) ('{' :: s) = .ok (.object [], rest) := by
  simp only [readValue, enter, bind, Except.bind, h]

theorem readValue_members {members : List (String × Json)} (h : ∀ tail, skipSpace s ≠ '}' :: tail)
    (hmembers : readMembers fuel room (skipSpace s) = .ok (members, rest)) :
    readValue (fuel + 1) (room + 1) ('{' :: s) = .ok (.object members, rest) := by
  simp only [readValue, enter, bind, Except.bind, hmembers]
  rfl

section Member

variable {name : String} {value : Json} {colon inner : List Char}
  (hname : readString s = some (name, rest)) (hcolon : skipSpace rest = ':' :: colon)
  (hvalue : readValue fuel room (skipSpace colon) = .ok (value, inner))

include hname hcolon hvalue

theorem readMembers_last (hinner : skipSpace inner = '}' :: tail) :
    readMembers (fuel + 1) room ('"' :: s) = .ok ([(name, value)], tail) := by
  simp only [readMembers, hname, demand, bind, Except.bind, hcolon, hvalue, hinner]

theorem readMembers_comma {members : List (String × Json)} {out : List Char}
    (hinner : skipSpace inner = ',' :: tail)
    (hmembers : readMembers fuel room (skipSpace tail) = .ok (members, out)) :
    readMembers (fuel + 1) room ('"' :: s) = .ok ((name, value) :: members, out) := by
  simp only [readMembers, hname, demand, bind, Except.bind, hcolon, hvalue, hinner, hmembers]
  rfl

end Member

/-! ## How texts begin -/

/-- Arrays and objects, which end with a bracket of their own. -/
def isContainer : Json → Bool
  | .array _ | .object _ => true
  | _ => false

/-- A number begins with a sign or a digit. -/
theorem Digits.head {digits : List Char} (h : Digits digits) (negative : Bool)
    (rest : List Char) : ∃ c tail, minus negative ++ (digits ++ rest) = c :: tail ∧
      isSpace c = false ∧ c ∉ ['"', '[', '{'] ∧ c ≠ ']' := by
  obtain ⟨c, tail, rfl, hother⟩ := exists_cons_of_isDigit h.2 h.1
  cases negative with
  | true => exact ⟨'-', _, rfl, by decide, by decide, by decide⟩
  | false =>
      refine ⟨c, _, rfl, ?_, ?_, hother ']' rfl⟩
      · simp [isSpace, hother ' ' rfl, hother '\t' rfl, hother '\n' rfl, hother '\r' rfl]
      · simp [hother '"' rfl, hother '[' rfl, hother '{' rfl]

/-- A value begins with a character that closes no array, and that opens a container only if the
value is one. -/
theorem Spells.exists_head {text : List Char} {value : Json} (h : Spells text value)
    (rest : List Char) : ∃ c tail, skipSpace (text ++ rest) = c :: tail ∧ c ≠ ']' ∧
      (isContainer value = false → c ∉ ['[', '{']) := by
  induction h generalizing rest with
  | null => exact ⟨'n', _, rfl, by decide, by decide⟩
  | bool value =>
      cases value with
      | true => exact ⟨'t', _, rfl, by decide, by decide⟩
      | false => exact ⟨'f', _, rfl, by decide, by decide⟩
  | notANumber => exact ⟨'N', _, rfl, by decide, by decide⟩
  | infinity => exact ⟨'I', _, rfl, by decide, by decide⟩
  | minusInfinity => exact ⟨'-', _, rfl, by decide, by decide⟩
  | int negative hdigits =>
      obtain ⟨c, tail, htext, hspace, hopen, hclose⟩ := hdigits.1.head negative rest
      rw [List.append_assoc, htext, skipSpace_cons hspace]
      exact ⟨c, tail, rfl, hclose, fun _ hmem => hopen (List.mem_cons_of_mem _ hmem)⟩
  | @float _ pointed _ mark _ negative hdigits =>
      obtain ⟨c, tail, htext, hspace, hopen, hclose⟩ :=
        hdigits.1.head negative (pointed ++ mark ++ rest)
      rw [List.append_assoc, List.append_assoc, htext, skipSpace_cons hspace]
      exact ⟨c, tail, rfl, hclose, fun _ hmem => hopen (List.mem_cons_of_mem _ hmem)⟩
  | string hs =>
      obtain ⟨_⟩ := hs
      exact ⟨'"', _, rfl, by decide, fun _ => by decide⟩
  | noItems => exact ⟨'[', _, rfl, by decide, by rintro ⟨⟩⟩
  | array => exact ⟨'[', _, rfl, by decide, by rintro ⟨⟩⟩
  | noMembers => exact ⟨'{', _, rfl, by decide, by rintro ⟨⟩⟩
  | object => exact ⟨'{', _, rfl, by decide, by rintro ⟨⟩⟩
  | spaced hbefore _ _ ih =>
      rw [List.append_assoc, List.append_assoc, skipSpace_blank_append hbefore]
      exact ih _

/-- A name is read up to its colon. -/
theorem SpellsName.read {text : List Char} {name : String} (h : SpellsName text name)
    (rest : List Char) : ∃ inner gap, skipSpace (text ++ ':' :: rest) = '"' :: inner ∧ Blank gap ∧
      readString inner = some (name, gap ++ ':' :: rest) := by
  obtain @⟨before, _, after, _, hbefore, hquoted, hafter⟩ := h
  obtain ⟨inner, rfl, hread⟩ := readString_of_spells hquoted (after ++ ':' :: rest)
  refine ⟨inner ++ (after ++ ':' :: rest), after, ?_, hafter, hread⟩
  rw [List.append_assoc, List.append_assoc, List.cons_append, skipSpace_gap hbefore rfl]

/-- Texts with commas between them begin with the first. -/
theorem exists_intercalate_cons (text : List Char) (texts : List (List Char)) (rest : List Char) :
    ∃ tail, [','].intercalate (text :: texts) ++ rest = text ++ tail := by
  cases texts with
  | nil => exact ⟨rest, by rw [List.intercalate_singleton]⟩
  | cons second texts =>
      refine ⟨[','] ++ [','].intercalate (second :: texts) ++ rest, ?_⟩
      simp only [List.intercalate_cons_cons, List.append_assoc]

/-! ## Values in front of a rest -/

/-- With enough fuel, the text is read as the value; what is left of it is white space. -/
def ReadAs (room : Nat) (text : List Char) (value : Json) (rest : List Char) : Prop :=
  ∀ fuel, 2 * (text ++ rest).length < fuel →
    ∃ gap, Blank gap ∧ readValue fuel room (skipSpace (text ++ rest)) = .ok (value, gap ++ rest)

theorem ReadAs.of_step {text : List Char} {value : Json}
    (h : ∀ fuel, 2 * (text ++ rest).length ≤ fuel →
      readValue (fuel + 1) room (skipSpace (text ++ rest)) = .ok (value, rest)) :
    ReadAs room text value rest := by
  intro fuel hfuel
  obtain ⟨fuel, rfl⟩ := Nat.exists_eq_add_one_of_ne_zero (Nat.ne_zero_of_lt hfuel)
  exact ⟨[], nofun, h fuel (Nat.le_of_lt_succ hfuel)⟩

theorem readAs_scalar {text : List Char} {value : Json} {c : Char}
    (hhead : text ++ rest = c :: tail) (hspace : isSpace c = false) (hc : c ∉ ['"', '[', '{'])
    (hread : readScalar (text ++ rest) = some (value, rest)) : ReadAs room text value rest := by
  refine .of_step fun fuel _ => ?_
  rw [hhead] at hread ⊢
  rw [skipSpace_cons hspace, readValue_scalar, hread]
  · rfl
  · rintro _ ⟨⟩
    exact hc

/-- The items of an array are read one after the other, up to its closing bracket. -/
theorem readItems_of_readAs {items : List (List Char × Json)} (hne : items ≠ [])
    (hread : ∀ item ∈ items, ∀ rest, Ends rest → ReadAs room item.1 item.2 rest)
    (rest : List Char) :
    ∀ fuel, 2 * ([','].intercalate (items.map (·.1)) ++ ']' :: rest).length + 1 < fuel →
      readItems fuel room (skipSpace ([','].intercalate (items.map (·.1)) ++ ']' :: rest)) =
        .ok (items.map (·.2), rest) := by
  induction items with
  | nil => exact absurd rfl hne
  | cons item items ih =>
      intro fuel hfuel
      obtain ⟨fuel, rfl⟩ := Nat.exists_eq_add_one_of_ne_zero (Nat.ne_zero_of_lt hfuel)
      obtain ⟨hitem, hitems⟩ := List.forall_mem_cons.mp hread
      cases items with
      | nil =>
          have hends : Ends (']' :: rest) := ends_cons (by decide) rest
          rw [List.map_singleton, List.intercalate_singleton] at hfuel ⊢
          obtain ⟨gap, hgap, hvalue⟩ := hitem _ hends fuel (by omega)
          exact readItems_last hvalue (skipSpace_gap hgap rfl rest)
      | cons second items =>
          let others := [','].intercalate ((second :: items).map (·.1)) ++ ']' :: rest
          have htext : [','].intercalate ((item :: second :: items).map (·.1)) ++ ']' :: rest =
              item.1 ++ ',' :: others := by
            simp only [others, List.map_cons, List.intercalate_cons_cons, List.append_assoc,
              List.cons_append, List.nil_append]
          have hends : Ends (',' :: others) := ends_cons (by decide) others
          rw [htext] at hfuel ⊢
          obtain ⟨gap, hgap, hvalue⟩ := hitem _ hends fuel (by omega)
          refine readItems_comma hvalue (skipSpace_gap hgap rfl others)
            (ih (List.cons_ne_nil _ _) hitems fuel ?_)
          rw [List.length_append, List.length_cons] at hfuel
          show 2 * others.length + 1 < fuel
          omega

theorem readAs_array {items : List (List Char × Json)} (hne : items ≠ [])
    (htexts : ∀ item ∈ items, Spells item.1 item.2)
    (hread : ∀ item ∈ items, ∀ rest, Ends rest → ReadAs room item.1 item.2 rest) :
    ReadAs (room + 1) ('[' :: ([','].intercalate (items.map (·.1)) ++ [']']))
      (.array (items.map (·.2))) rest := by
  refine .of_step fun fuel hfuel => ?_
  have htext : '[' :: ([','].intercalate (items.map (·.1)) ++ [']']) ++ rest =
      '[' :: ([','].intercalate (items.map (·.1)) ++ ']' :: rest) := by
    rw [List.cons_append, List.append_assoc, List.singleton_append]
  have hhead : ∀ tail,
      skipSpace ([','].intercalate (items.map (·.1)) ++ ']' :: rest) ≠ ']' :: tail := by
    obtain ⟨item, others, rfl⟩ := List.exists_cons_of_ne_nil hne
    obtain ⟨behind, hbehind⟩ := exists_intercalate_cons item.1 (others.map (·.1)) (']' :: rest)
    obtain ⟨c, _, hskip, hc, -⟩ := (htexts item List.mem_cons_self).exists_head behind
    rw [List.map_cons, hbehind, hskip]
    exact fun tail heq => hc (List.cons.inj heq).1
  rw [htext] at hfuel ⊢
  rw [List.length_cons] at hfuel
  rw [skipSpace_cons rfl]
  exact readValue_items hhead (readItems_of_readAs hne hread rest fuel (by omega))

/-- The members of an object are read one after the other, up to its closing brace. -/
theorem readMembers_of_readAs {members : List Member} (hne : members ≠ [])
    (hnames : ∀ member ∈ members, SpellsName member.nameText member.name)
    (hread : ∀ member ∈ members, ∀ rest, Ends rest →
      ReadAs room member.valueText member.value rest)
    (rest : List Char) :
    ∀ fuel, 2 * ([','].intercalate (members.map Member.text) ++ '}' :: rest).length + 1 < fuel →
      readMembers fuel room
          (skipSpace ([','].intercalate (members.map Member.text) ++ '}' :: rest)) =
        .ok (members.map fun member => (member.name, member.value), rest) := by
  induction members with
  | nil => exact absurd rfl hne
  | cons member members ih =>
      intro fuel hfuel
      obtain ⟨fuel, rfl⟩ := Nat.exists_eq_add_one_of_ne_zero (Nat.ne_zero_of_lt hfuel)
      obtain ⟨hname, hnames⟩ := List.forall_mem_cons.mp hnames
      obtain ⟨hvalue, hvalues⟩ := List.forall_mem_cons.mp hread
      cases members with
      | nil =>
          have htext : [','].intercalate ([member].map Member.text) ++ '}' :: rest =
              member.nameText ++ ':' :: (member.valueText ++ '}' :: rest) := by
            simp only [Member.text, List.map_cons, List.map_nil, List.intercalate_singleton,
              List.append_assoc, List.cons_append]
          have hends : Ends ('}' :: rest) := ends_cons (by decide) rest
          rw [htext] at hfuel ⊢
          rw [List.length_append, List.length_cons] at hfuel
          obtain ⟨inner, gap, hquote, hgap, hstring⟩ := hname.read (member.valueText ++ '}' :: rest)
          obtain ⟨gap', hgap', hinner⟩ := hvalue _ hends fuel (by omega)
          rw [hquote]
          exact readMembers_last hstring (skipSpace_gap hgap rfl _) hinner
            (skipSpace_gap hgap' rfl rest)
      | cons second members =>
          let others := [','].intercalate ((second :: members).map Member.text) ++ '}' :: rest
          have htext :
              [','].intercalate ((member :: second :: members).map Member.text) ++ '}' :: rest =
                member.nameText ++ ':' :: (member.valueText ++ ',' :: others) := by
            simp only [others, Member.text, List.map_cons, List.intercalate_cons_cons,
              List.append_assoc, List.cons_append, List.nil_append]
          have hends : Ends (',' :: others) := ends_cons (by decide) others
          rw [htext] at hfuel ⊢
          rw [List.length_append, List.length_cons] at hfuel
          obtain ⟨inner, gap, hquote, hgap, hstring⟩ :=
            hname.read (member.valueText ++ ',' :: others)
          obtain ⟨gap', hgap', hinner⟩ := hvalue _ hends fuel (by omega)
          rw [hquote]
          refine readMembers_comma hstring (skipSpace_gap hgap rfl _) hinner
            (skipSpace_gap hgap' rfl others) (ih (List.cons_ne_nil _ _) hnames hvalues fuel ?_)
          rw [List.length_append, List.length_cons] at hfuel
          show 2 * others.length + 1 < fuel
          omega

theorem readAs_object {members : List Member} (hne : members ≠ [])
    (hnames : ∀ member ∈ members, SpellsName member.nameText member.name)
    (hread : ∀ member ∈ members, ∀ rest, Ends rest →
      ReadAs room member.valueText member.value rest) :
    ReadAs (room + 1) ('{' :: ([','].intercalate (members.map Member.text) ++ ['}']))
      (.object (members.map fun member => (member.name, member.value))) rest := by
  refine .of_step fun fuel hfuel => ?_
  have htext : '{' :: ([','].intercalate (members.map Member.text) ++ ['}']) ++ rest =
      '{' :: ([','].intercalate (members.map Member.text) ++ '}' :: rest) := by
    rw [List.cons_append, List.append_assoc, List.singleton_append]
  have hhead : ∀ tail,
      skipSpace ([','].intercalate (members.map Member.text) ++ '}' :: rest) ≠ '}' :: tail := by
    obtain ⟨member, others, rfl⟩ := List.exists_cons_of_ne_nil hne
    obtain ⟨behind, hbehind⟩ :=
      exists_intercalate_cons member.text (others.map Member.text) ('}' :: rest)
    obtain ⟨_, _, hskip, -⟩ :=
      (hnames member List.mem_cons_self).read (member.valueText ++ behind)
    rw [List.map_cons, hbehind, Member.text, List.append_assoc, List.cons_append, hskip]
    nofun
  rw [htext] at hfuel ⊢
  rw [List.length_cons] at hfuel
  rw [skipSpace_cons rfl]
  exact readValue_members hhead (readMembers_of_readAs hne hnames hread rest fuel (by omega))

/-! ## Texts -/

/-- A text is read as its value in front of any rest that does not make it longer. -/
theorem Spells.readAs {text : List Char} {value : Json} (h : Spells text value)
    (hfits : Fits room value) (hrest : isContainer value = false → Ends rest) :
    ReadAs room text value rest := by
  induction h generalizing room rest with
  | null => exact readAs_scalar (c := 'n') rfl rfl (by decide) rfl
  | bool value =>
      cases value with
      | true => exact readAs_scalar (c := 't') rfl rfl (by decide) rfl
      | false => exact readAs_scalar (c := 'f') rfl rfl (by decide) rfl
  | notANumber => exact readAs_scalar (c := 'N') rfl rfl (by decide) rfl
  | infinity => exact readAs_scalar (c := 'I') rfl rfl (by decide) rfl
  | minusInfinity => exact readAs_scalar (c := '-') rfl rfl (by decide) rfl
  | @int digits negative hdigits =>
      cases hfits with
      | int hsize =>
          have hnat : natOf digits < 10 ^ digitLimit := by
            cases negative <;> simpa [signed] using hsize
          obtain ⟨c, tail, htext, hspace, hopen, -⟩ := hdigits.1.head negative rest
          rw [← List.append_assoc] at htext
          refine readAs_scalar htext hspace hopen ?_
          rw [List.append_assoc, readScalar_digits hdigits.1, readSize_int hdigits hnat (hrest rfl)]
  | @float digits pointed places mark exponent negative hdigits hplaces hexponent hne =>
      have hassoc : minus negative ++ (digits ++ (pointed ++ mark)) ++ rest =
          minus negative ++ (digits ++ (pointed ++ (mark ++ rest))) := by
        simp only [List.append_assoc]
      obtain ⟨c, tail, htext, hspace, hopen, -⟩ :=
        hdigits.1.head negative (pointed ++ (mark ++ rest))
      refine readAs_scalar (hassoc.trans htext) hspace hopen ?_
      rw [hassoc, readScalar_digits hdigits.1,
        readSize_float hdigits hplaces hexponent hne (hrest rfl)]
  | string hs =>
      obtain ⟨inner, rfl, hread⟩ := readString_of_spells hs rest
      refine .of_step fun fuel _ => ?_
      rw [List.cons_append, skipSpace_cons rfl, readValue, hread]
      rfl
  | @noItems gap hgap =>
      cases hfits with
      | array =>
          refine .of_step fun fuel _ => ?_
          rw [List.cons_append, skipSpace_cons rfl, List.append_assoc]
          exact readValue_noItems (skipSpace_gap hgap rfl rest)
  | @array items hne htexts ih =>
      cases hfits with
      | array hfits =>
          refine readAs_array hne htexts fun item hitem rest hends => ?_
          exact ih item hitem (hfits _ (List.mem_map_of_mem hitem)) fun _ => hends
  | @noMembers gap hgap =>
      cases hfits with
      | object =>
          refine .of_step fun fuel _ => ?_
          rw [List.cons_append, skipSpace_cons rfl, List.append_assoc]
          exact readValue_noMembers (skipSpace_gap hgap rfl rest)
  | @object members hne hnames _ ih =>
      cases hfits with
      | object hfits =>
          refine readAs_object hne hnames fun member hmember rest hends => ?_
          exact ih member hmember (hfits _ (List.mem_map_of_mem hmember)) fun _ => hends
  | @spaced before text after value hbefore htext hafter ih =>
      have hends : isContainer value = false → Ends (after ++ rest) :=
        fun hscalar => (hrest hscalar).blank_append hafter
      intro fuel hfuel
      rw [List.append_assoc, List.append_assoc] at hfuel ⊢
      rw [List.length_append] at hfuel
      obtain ⟨gap, hgap, hread⟩ := ih hfits hends fuel (by omega)
      have hblank : Blank (gap ++ after) :=
        fun c hc => (List.mem_append.mp hc).elim (hgap c) (hafter c)
      refine ⟨gap ++ after, hblank, ?_⟩
      rw [skipSpace_blank_append hbefore, hread, List.append_assoc]

/-- What stands behind a value must be white space. -/
theorem ReadAs.parse_append {text : List Char} {value : Json}
    (h : ReadAs depthLimit text value rest) :
    parse (String.ofList (text ++ rest)) =
      if (skipSpace rest).isEmpty then .ok value else .error .malformed := by
  obtain ⟨gap, hgap, hread⟩ := h (2 * (text ++ rest).length + 2) (by omega)
  simp only [parse, String.toList_ofList, hread, bind, Except.bind, skipSpace_blank_append hgap]

/-- Whichever text of a value is read, the value is found. -/
theorem parse_of_spells {text : List Char} {value : Json} (h : Spells text value)
    (hfits : Fits depthLimit value) : parse (String.ofList text) = .ok value := by
  have hread : ReadAs depthLimit text value [] := h.readAs hfits fun _ => ends_nil
  calc parse (String.ofList text)
    _ = parse (String.ofList (text ++ [])) := by rw [List.append_nil]
    _ = .ok value := hread.parse_append

end PointElevation.Json
