import PointElevation.Host.Network
import PointElevation.Listing.Href

/-!
# Replies that nest too deeply

The reader of JSON goes down one level for each bracket that opens.  A text that begins with more
of them than there is room for is given up at the first one that does not fit, and what follows is
never looked at: the text may be an array that is closed properly, or no JSON at all.  So it is for
the listing service, whose reply is then judged neither well formed nor malformed.
-/

namespace PointElevation

namespace Json

/-- So many opening brackets. -/
def nest (depth : Nat) : List Char := List.replicate depth '['

theorem nest_succ (depth : Nat) (s : List Char) :
    nest (depth + 1) ++ s = '[' :: (nest depth ++ s) := rfl

theorem skipSpace_bracket (s : List Char) : skipSpace ('[' :: s) = '[' :: s := rfl

/-- One bracket more than there is room for.  Two calls go with each level, one for the array and
one for its first item. -/
theorem readValue_nest (room fuel : Nat) (hfuel : 2 * room < fuel) (s : List Char) :
    readValue fuel room (nest (room + 1) ++ s) = .error (.tooDeep .array) := by
  induction room generalizing fuel with
  | zero =>
      obtain ⟨fuel, rfl⟩ := Nat.exists_eq_add_one_of_ne_zero (Nat.ne_of_gt hfuel)
      rfl
  | succ room ih =>
      obtain ⟨fuel, rfl⟩ : ∃ further, fuel = further + 2 := ⟨fuel - 2, by omega⟩
      have hitem := ih fuel (by omega)
      have hitems : readItems (fuel + 1) room (nest (room + 1) ++ s) =
          .error (.tooDeep .array) := by
        simp only [readItems, hitem]
        rfl
      -- the first item is an array again, so the outer one is not empty
      have houter : readValue (fuel + 2) (room + 1) (nest (room + 2) ++ s) =
          (readItems (fuel + 1) room (nest (room + 1) ++ s)).map
            fun read => (Json.array read.1, read.2) := rfl
      rw [houter, hitems]
      rfl

theorem parse_nest {text : String} {s : List Char}
    (htext : text.toList = nest (depthLimit + 1) ++ s) :
    parse text = .error (.tooDeep .array) := by
  have hlength : (nest (depthLimit + 1) ++ s).length = depthLimit + 1 + s.length := by
    rw [List.length_append, nest, List.length_replicate]
  have hread := readValue_nest depthLimit
    (2 * (nest (depthLimit + 1) ++ s).length + 2) (by omega) s
  rw [nest_succ] at hread
  simp only [parse, htext, nest_succ, skipSpace_bracket, hread]
  rfl

end Json

theorem listingAddress_nest {reply : String} {s : List Char}
    (hreply : reply.toList = Json.nest (Json.depthLimit + 1) ++ s) :
    listingAddress reply = .error (.tooDeep .array) := by
  simp only [listingAddress, Json.parse_nest hreply]

namespace Text

/-- Bytes of ASCII are a character each. -/
theorem utf8Run_ascii {bytes : List UInt8} (h : ∀ b ∈ bytes, b < 0x80) :
    utf8Run none bytes = bytes.map fun b => Char.ofNat b.toNat := by
  induction bytes with
  | nil => rfl
  | cons b rest ih =>
      rw [List.forall_mem_cons] at h
      simp only [utf8Run, utf8Step, utf8Start, h.1, if_true, ih h.2, List.map_cons,
        List.singleton_append]

end Text

/-- A body of nothing but opening brackets. -/
def nestedBody (depth : Nat) : ByteArray := ⟨Array.replicate depth 0x5B⟩

theorem decodeUtf8_nestedBody (depth : Nat) :
    (Text.decodeUtf8 (nestedBody depth)).toList = Json.nest depth := by
  have hascii : ∀ b ∈ List.replicate depth (0x5B : UInt8), b < 0x80 := by
    intro b hmem
    rw [List.eq_of_mem_replicate hmem]
    decide
  simp only [Text.decodeUtf8, nestedBody, String.toList_ofList, Array.toList_replicate,
    Text.utf8Run_ascii hascii, List.map_replicate]
  rfl

/-- With enough of them, it is a reply that is not judged. -/
theorem listingAddress_nestedBody {depth : Nat} (hdepth : Json.depthLimit < depth) :
    listingAddress (Text.decodeUtf8 (nestedBody depth)) = .error (.tooDeep .array) := by
  refine listingAddress_nest (s := Json.nest (depth - (Json.depthLimit + 1))) ?_
  rw [decodeUtf8_nestedBody, Json.nest, Json.nest, Json.nest, List.replicate_append_replicate]
  rw [Nat.add_sub_of_le hdepth]

end PointElevation
