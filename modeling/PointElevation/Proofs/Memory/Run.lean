import PointElevation.Proofs.Provider.Coherence

/-!
# Runs of a memory of rasters

A memory over a pipeline is asked for rasters, given rasters, asked what it holds, and cleared.
One such step is a `MemoryStep`, and a `MemoryTurn` is a step with its answer and the states around
it; `Pipeline.run` takes one turn after another, whether or not they fail.

What was asked and answered says what happened to the memory (`MemoryTurn.change`), and
`Pipeline.memory_turn` that nothing else did: it was cleared, it was given a raster, or it was left
alone.  What a run keeps is shown one turn at a time (`Pipeline.run_keeps`), and it may speak of the
turns that have been taken.
-/

namespace PointElevation

/-- What a memory can be asked to do. -/
inductive MemoryStep where
  | get (key : TileKey)
  | put (key : TileKey) (raster : Raster)
  | holds (key : TileKey)
  | clear

/-- What it answers. -/
inductive MemoryAnswer where
  | found (raster : Option Raster)
  | held (isHeld : Bool)
  | done

/-- A step, its answer, and the memory on both sides of it, with what the pipeline works on. -/
structure MemoryTurn (ε σ : Type) where
  step : MemoryStep
  before : RasterMemory × σ
  answer : Except ε MemoryAnswer
  after : RasterMemory × σ

/-! ## Taking in a raster -/

namespace RasterMemory

variable {m : RasterMemory} {key : TileKey} {raster : Raster}

theorem holds_eq_false_iff : m.holds key = false ↔ m.find? key = none := by
  rw [holds, Option.isSome_eq_false_iff, Option.isNone_iff_eq_none]

/-- What is held stays, and nothing else comes in for its key. -/
theorem insert_of_held (h : m.holds key = true) : m.insert key raster = m := by
  rw [insert, if_pos h]

/-- A memory that is over its limit is emptied first. -/
theorem insert_of_overfull (h : m.holds key = false) (hover : m.overfull = true) :
    m.insert key raster = { m with held := [(key, raster)] } := by
  rw [insert, if_neg (by rw [h]; decide), if_pos hover]

theorem insert_of_room (h : m.holds key = false) (hroom : m.overfull = false) :
    m.insert key raster = { m with held := (key, raster) :: m.held } := by
  rw [insert, if_neg (by rw [h]; decide), if_neg (by rw [hroom]; decide)]

end RasterMemory

/-- What happens to a memory in a turn. -/
inductive MemoryChange where
  | nothing
  | cleared
  /-- a raster is put in, for a key that may be held already -/
  | brought (key : TileKey) (raster : Raster)

/-- What happened to the memory, by what was asked and answered: a raster is brought if it is put
there, or found for a key that is not held. -/
def MemoryTurn.change {ε σ : Type} (q : MemoryTurn ε σ) : MemoryChange :=
  match q.step, q.answer with
  | .clear, _ => .cleared
  | .put key raster, _ => .brought key raster
  | .get key, .ok (.found (some raster)) =>
      if q.before.1.holds key then .nothing else .brought key raster
  | _, _ => .nothing

/-! ## Turns -/

namespace Pipeline

variable {ε σ : Type} (p : Pipeline ε σ)

/-- Does what is asked. -/
def perform : MemoryStep → EStateM ε (RasterMemory × σ) MemoryAnswer
  | .get key => .found <$> p.get key
  | .put key raster => do
      p.put key raster
      pure .done
  | .holds key => do
      let (memory, _) ← MonadState.get
      pure (.held (memory.holds key))
  | .clear => do
      modify fun (memory, s) => (memory.clear, s)
      pure .done

/-- Takes a turn. -/
def turn (t : RasterMemory × σ) (step : MemoryStep) : MemoryTurn ε σ :=
  match p.perform step t with
  | .ok answer t' => ⟨step, t, .ok answer, t'⟩
  | .error fault t' => ⟨step, t, .error fault, t'⟩

/-- Takes one turn after another; the turns, and the state after all of them. -/
def run (t : RasterMemory × σ) : List MemoryStep → List (MemoryTurn ε σ) × (RasterMemory × σ)
  | [] => ([], t)
  | step :: rest =>
      let (turns, last) := run (p.turn t step).after rest
      (p.turn t step :: turns, last)

variable {p} {t : RasterMemory × σ} {key : TileKey} {raster : Raster}

@[simp] theorem turn_step (t : RasterMemory × σ) (step : MemoryStep) :
    (p.turn t step).step = step := by
  unfold turn
  split <;> rfl

@[simp] theorem turn_before (t : RasterMemory × σ) (step : MemoryStep) :
    (p.turn t step).before = t := by
  unfold turn
  split <;> rfl

theorem turn_get_of_held (h : t.1.find? key = some raster) :
    p.turn t (.get key) = ⟨.get key, t, .ok (.found (some raster)), t⟩ := by
  simp only [turn, perform, map_apply, get_of_held h t.2]

theorem change_get_of_held (h : t.1.find? key = some raster) :
    (p.turn t (.get key)).change = .nothing := by
  have hheld : t.1.holds key = true := by rw [RasterMemory.holds, h, Option.isSome_some]
  rw [turn_get_of_held h, MemoryTurn.change]
  exact if_pos hheld

/-- A key that is not held is answered as the pipeline answers, and the memory takes in what has
been found. -/
theorem turn_get_of_free (h : t.1.find? key = none) :
    p.turn t (.get key) =
      match p.load key t.2 with
      | .error fault s => ⟨.get key, t, .error fault, (t.1, s)⟩
      | .ok none s => ⟨.get key, t, .ok (.found none), (t.1, s)⟩
      | .ok (some raster) s => ⟨.get key, t, .ok (.found (some raster)),
          (t.1.insert key raster, if t.1.overfull then p.emptied s else s)⟩ := by
  simp only [turn, perform, map_apply, get_of_free h t.2]
  cases p.load key t.2 with
  | error fault s => rfl
  | ok found s => cases found <;> rfl

/-- Nothing but the change happens to the memory. -/
theorem memory_turn (t : RasterMemory × σ) (step : MemoryStep) :
    (p.turn t step).after.1 =
      match (p.turn t step).change with
      | .nothing => t.1
      | .cleared => t.1.clear
      | .brought key raster => t.1.insert key raster := by
  cases step with
  | put key raster => rfl
  | holds key => rfl
  | clear => rfl
  | get key =>
      cases hfind : t.1.find? key with
      | some raster => rw [change_get_of_held hfind, turn_get_of_held hfind]
      | none =>
          have hfree := RasterMemory.holds_eq_false_iff.mpr hfind
          rw [turn_get_of_free hfind]
          cases p.load key t.2 with
          | error fault s => rfl
          | ok found s =>
              cases found with
              | none => rfl
              | some raster => simp [MemoryTurn.change, hfree]

/-- The turns of a run are those of its steps. -/
theorem map_step_run (t : RasterMemory × σ) (steps : List MemoryStep) :
    (p.run t steps).1.map MemoryTurn.step = steps := by
  induction steps generalizing t with
  | nil => rfl
  | cons step rest ih => rw [run, List.map_cons, turn_step, ih]

section Keeps

variable (invariant : List (MemoryTurn ε σ) → RasterMemory × σ → Prop)
  (hturn : ∀ past t step, invariant past t →
    invariant (past ++ [p.turn t step]) (p.turn t step).after)

include hturn

/-- What every turn keeps, given the turns before it, is kept after some turns. -/
theorem run_keeps_after {past : List (MemoryTurn ε σ)} (steps : List MemoryStep)
    (h : invariant past t) : invariant (past ++ (p.run t steps).1) (p.run t steps).2 := by
  induction steps generalizing past t with
  | nil =>
      rw [run, List.append_nil]
      exact h
  | cons step rest ih =>
      have hrest := ih (hturn past t step h)
      rw [List.append_assoc, List.singleton_append] at hrest
      exact hrest

/-- What every turn keeps, given the turns before it, a run keeps. -/
theorem run_keeps (steps : List MemoryStep) (h : invariant [] t) :
    invariant (p.run t steps).1 (p.run t steps).2 := run_keeps_after invariant hturn steps h

end Keeps

end Pipeline

end PointElevation
