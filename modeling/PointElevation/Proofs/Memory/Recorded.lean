import PointElevation.Proofs.Memory.Run

/-!
# Stages that keep a record

What a memory does with the stages below it is seen best when they do nothing but answer.  `Stages`
are their answers, which depend on what is asked alone; as a pipeline they work on the list of the
calls that were made so far.

* `Stages.uncached` is what the stages come to for a key, and `Stages.calls` are the calls this
  takes.
* `Stages.pipeline_load` puts the two together: without a memory, a key is answered by the one and
  the record grows by the other.
-/

namespace PointElevation

variable {ε α : Type}

/-- The answers of an index, a store and a decoder. -/
structure Stages (ε : Type) where
  /-- the address of a tile, if there is such a tile -/
  address : TileKey → Except ε (Option String)
  /-- the file of a tile with an address -/
  file : TileKey → String → Except ε FilePath
  /-- the raster in a file -/
  decode : FilePath → Except ε Raster

/-- A call of one of the stages. -/
inductive StageCall where
  | address (key : TileKey)
  | file (key : TileKey) (url : String)
  | decode (path : FilePath)
deriving DecidableEq, Repr

/-- Gives an answer, and notes the calls that it took. -/
def recorded (calls : List StageCall) (answer : Except ε α) : EStateM ε (List StageCall) α :=
  fun record =>
    match answer with
    | .ok a => .ok a (record ++ calls)
    | .error fault => .error fault (record ++ calls)

theorem recorded_ok (calls : List StageCall) (a : α) (record : List StageCall) :
    recorded (ε := ε) calls (.ok a) record = .ok a (record ++ calls) := rfl

theorem recorded_error (calls : List StageCall) (fault : ε) (record : List StageCall) :
    recorded (α := α) calls (.error fault) record = .error fault (record ++ calls) := rfl

namespace Stages

variable (stages : Stages ε) (key : TileKey)

/-- The stages as a pipeline that keeps a record. -/
def pipeline : Pipeline ε (List StageCall) where
  address key := recorded [.address key] (stages.address key)
  file key url := recorded [.file key url] (stages.file key url)
  decode path := recorded [.decode path] (stages.decode path)
  emptied := id

/-- The raster of a key: nothing for a key that is not known, and otherwise the first fault or what
is decoded in the end. -/
def uncached : Except ε (Option Raster) := do
  match ← stages.address key with
  | none => pure none
  | some url =>
      let path ← stages.file key url
      let raster ← stages.decode path
      pure (some raster)

/-- The calls that a key takes: the index is asked once, the store if the key is known, and the
decoder if there is a file. -/
def calls : List StageCall :=
  .address key ::
    match stages.address key with
    | .ok (some url) =>
        .file key url ::
          match stages.file key url with
          | .ok path => [.decode path]
          | .error _ => []
    | _ => []

/-- The pipeline answers as the stages do, and records their calls. -/
theorem pipeline_load :
    stages.pipeline.load key = recorded (stages.calls key) (stages.uncached key) := by
  funext record
  simp only [Pipeline.load, pipeline, uncached, calls, bind_apply]
  cases stages.address key with
  | error fault => rfl
  | ok found =>
      cases found with
      | none => rfl
      | some url =>
          simp only [recorded_ok, bind_apply, ok_bind]
          cases stages.file key url with
          | error fault =>
              simp only [recorded_error, error_bind, List.append_assoc, List.singleton_append]
          | ok path =>
              simp only [recorded_ok, ok_bind]
              cases stages.decode path with
              | error fault =>
                  simp only [recorded_error, error_bind, List.append_assoc, List.cons_append,
                    List.nil_append]
              | ok raster =>
                  rw [recorded_ok, List.append_assoc, List.append_assoc]
                  rfl

/-- Stages on land: every key but one is known, and one file is torn. -/
def onLand : Stages String where
  address key := .ok (if key = "sea" then none else some key)
  file _ url := .ok (.ofLocation [url])
  decode path := if path.name = "torn" then .error "torn" else .ok default

end Stages

end PointElevation
