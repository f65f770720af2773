import PointElevation.Disk.Path

/-!
# Files and directories

A tree assigns a node to every location that exists; the root always exists and is a directory.
All operations keep one node for a location, and what they do is said by `get?`.
-/

namespace PointElevation

/-- What stands at a location. -/
inductive Node where
  | file (content : ByteArray)
  | directory
deriving Inhabited

/-- The locations that exist, and what stands there. -/
structure FileTree where
  nodes : List (Location × Node)
deriving Inhabited

/-- Looking up in a list from which entries were left out by their keys. -/
theorem lookup_filter {κ ν : Type} [BEq κ] [LawfulBEq κ] (keep : κ → Bool) (k : κ)
    (entries : List (κ × ν)) :
    (entries.filter fun entry => keep entry.1).lookup k
      = if keep k then entries.lookup k else none := by
  induction entries with
  | nil => simp
  | cons entry rest ih =>
    obtain ⟨k', v⟩ := entry
    by_cases hk : k = k'
    · subst hk
      cases hkeep : keep k <;> simp [hkeep, ih]
    · have hne : (k == k') = false := by simpa using hk
      cases hkeep : keep k' <;> simp [hkeep, List.lookup_cons, hne, ih]

namespace FileTree

instance : EmptyCollection FileTree := ⟨⟨[]⟩⟩

/-- What stands at a location. -/
def get? (t : FileTree) (l : Location) : Option Node :=
  if l = [] then some .directory else t.nodes.lookup l

/-- Puts a node at a location. -/
def insert (t : FileTree) (l : Location) (n : Node) : FileTree :=
  ⟨(l, n) :: t.nodes.filter fun entry => entry.1 != l⟩

/-- Removes what stands at a location. -/
def erase (t : FileTree) (l : Location) : FileTree := ⟨t.nodes.filter fun entry => entry.1 != l⟩

/-- Removes a location and everything below it. -/
def eraseTree (t : FileTree) (l : Location) : FileTree :=
  ⟨t.nodes.filter fun entry => !l.isPrefixOf entry.1⟩

@[simp] theorem get?_nil (t : FileTree) : t.get? [] = some .directory := rfl

theorem get?_insert {t : FileTree} {l l' : Location} {n : Node} (h : l ≠ []) :
    (t.insert l n).get? l' = if l' = l then some n else t.get? l' := by
  by_cases hl : l' = l
  · subst hl; simp [get?, insert, h]
  · have hne : (l' == l) = false := by simpa using hl
    simp only [get?, insert, List.lookup_cons, hne, lookup_filter (fun k => k != l)]
    simp [hl]

theorem get?_erase {t : FileTree} {l l' : Location} (h : l ≠ []) :
    (t.erase l).get? l' = if l' = l then none else t.get? l' := by
  simp only [get?, erase, lookup_filter (fun k => k != l)]
  by_cases hl : l' = l
  · subst hl; simp [h]
  · simp [hl]

theorem get?_eraseTree {t : FileTree} {l l' : Location} (h : l' ≠ []) :
    (t.eraseTree l).get? l' = if l.isPrefixOf l' then none else t.get? l' := by
  simp only [get?, eraseTree, lookup_filter (fun k => !l.isPrefixOf k)]
  by_cases hl : l.isPrefixOf l' <;> simp [h, hl]

end FileTree

end PointElevation
