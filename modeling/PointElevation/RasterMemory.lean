import PointElevation.Disk.Path
import PointElevation.Raster

/-!
# Rasters in memory

Decoded tiles are kept by key.  The memory is bounded in the simplest way: when a raster comes in
and more than `limit` are already held, all of those are forgotten first.  A raster that is held
is never replaced.

`Pipeline` is the way on which a raster is found that is not held: the address of the tile, its
file, and what the file decodes to.  `get` answers from the memory or goes that way, and keeps what
it finds; a way that fails leaves the memory as it was.
-/

namespace PointElevation

/-- Rasters by key, the newest first. -/
structure RasterMemory where
  limit : Int
  held : List (TileKey × Raster)
deriving Inhabited

namespace RasterMemory

/-- The number of rasters above which the memory is emptied. -/
def defaultLimit : Int := 100

/-- A memory that holds nothing. -/
def empty (limit : Int) : RasterMemory := ⟨limit, []⟩

/-- The raster held for a key. -/
def find? (m : RasterMemory) (key : TileKey) : Option Raster := m.held.lookup key

/-- The number of rasters held. -/
def size (m : RasterMemory) : Nat := m.held.length

def holds (m : RasterMemory) (key : TileKey) : Bool := (m.find? key).isSome

/-- Forgets everything. -/
def clear (m : RasterMemory) : RasterMemory := { m with held := [] }

/-- Whether everything is forgotten before a raster comes in. -/
def overfull (m : RasterMemory) : Bool := m.limit < m.size

/-- Takes in a raster for a key that is not held. -/
def insert (m : RasterMemory) (key : TileKey) (raster : Raster) : RasterMemory :=
  if m.holds key then m
  else if m.overfull then { m with held := [(key, raster)] }
  else { m with held := (key, raster) :: m.held }

@[simp] theorem find?_empty (limit : Int) (key : TileKey) : (empty limit).find? key = none := rfl

@[simp] theorem find?_clear (m : RasterMemory) (key : TileKey) : m.clear.find? key = none := rfl

@[simp] theorem limit_insert (m : RasterMemory) (key : TileKey) (raster : Raster) :
    (m.insert key raster).limit = m.limit := by
  unfold insert
  split
  · rfl
  · split <;> rfl

/-- What came in is held, unless something was held already. -/
theorem find?_insert_self (m : RasterMemory) (key : TileKey) (raster : Raster) :
    (m.insert key raster).find? key = some ((m.find? key).getD raster) := by
  unfold insert holds
  cases hfound : m.find? key with
  | some held => simp [hfound]
  | none =>
    simp only [Option.isSome_none, Bool.false_eq_true, if_false, Option.getD_none]
    split <;> simp [find?]

end RasterMemory

/-- The stages from a key to a raster, on a state of any kind. -/
structure Pipeline (ε σ : Type) where
  /-- the address of a tile, if there is such a tile -/
  address : TileKey → EStateM ε σ (Option String)
  /-- the file of a tile with an address -/
  file : TileKey → String → EStateM ε σ FilePath
  /-- the raster in a file -/
  decode : FilePath → EStateM ε σ Raster
  /-- what is done when the memory is emptied to make room -/
  emptied : σ → σ

namespace Pipeline

variable {ε σ : Type} (p : Pipeline ε σ)

/-- The raster of a key, found without any memory. -/
def load (key : TileKey) : EStateM ε σ (Option Raster) := do
  match ← p.address key with
  | none => pure none
  | some url =>
      let path ← p.file key url
      let raster ← p.decode path
      pure (some raster)

/-- Takes in a raster. -/
def put (key : TileKey) (raster : Raster) : EStateM ε (RasterMemory × σ) Unit :=
  modify fun (memory, s) =>
    (memory.insert key raster,
      if !memory.holds key && memory.overfull then p.emptied s else s)

/-- The raster of a key, from memory if it is held. -/
def get (key : TileKey) : EStateM ε (RasterMemory × σ) (Option Raster) := fun (memory, s) =>
  match memory.find? key with
  | some raster => .ok (some raster) (memory, s)
  | none =>
      match p.load key s with
      | .error fault s => .error fault (memory, s)
      | .ok none s => .ok none (memory, s)
      | .ok (some raster) s => (do p.put key raster; pure (some raster)) (memory, s)

end Pipeline

end PointElevation
