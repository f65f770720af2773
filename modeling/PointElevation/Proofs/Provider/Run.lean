import PointElevation.Proofs.Provider.Query
import PointElevation.Proofs.Tiff.AnyLayout

/-!
# Runs of a provider

What a provider can be asked to do is an `Action`, and each of them leaves the service in some state
however it ends.  `Service.Reachable` is every state that actions lead to from a new provider, over
any disk and any network.  `Service.Kept` is what has to be checked of an invariant: of all the
operations only two touch the caches, the way to a raster and the release.
-/

namespace PointElevation

/-- What a provider can be asked to do. -/
inductive Action where
  | lookup (latitude longitude : Float)
  | elevation (latitude longitude : Float)
  | fetchPoints (points : List (List Float))
  | status
  | setAutoRemove (autoRemove : Bool)
  | release

/-- What comes of an action. -/
inductive Outcome where
  | answer (answer : Lookup)
  | height (height : Float)
  | batch (batch : Batch)
  | status (status : CacheStatus)
  | done
  | malformed (point : List Float)
  | raised (cause : Failure)

/-- What comes of a fault of a batch. -/
def Outcome.ofBatchFault : BatchFault → Outcome
  | .malformedPoint point => .malformed point
  | .escaped cause => .raised cause

namespace Provider

/-- A provider as it is made: its directory has a place without dots, and it holds nothing. -/
structure Fresh (directory : Location) (p : Provider) : Prop where
  dots : ".." ∉ directory
  place : p.directory = .ofLocation directory
  projection : p.projection = .lv95
  index : p.index = .unloaded p.directory p.downloader
  memory : p.memory = .empty RasterMemory.defaultLimit

/-- Making a provider changes nothing. -/
theorem ends_create (directory : String) (shared : Option Downloader) (timeout : Float)
    (autoRemove : Bool) (h : Host) :
    Ends (create directory shared timeout autoRemove) h
      (fun p h' => h' = h ∧ ∃ l, p.Fresh l) (fun _ h' => h' = h) := by
  have hmade : ∀ (path : FilePath) (start : Location) (downloader : Downloader),
      Fresh (path.resolve start)
        { directory := .ofLocation (path.resolve start)
          downloader
          ownsDownloader := shared.isNone
          autoRemove
          projection := .lv95
          index := .unloaded (.ofLocation (path.resolve start)) downloader
          memory := .empty RasterMemory.defaultLimit } :=
    fun path start _ => ⟨path.dots_notMem_resolve start, rfl, rfl, rfl, rfl⟩
  -- nothing but the resolved path matters of the directory's name
  simp only [create]
  generalize FilePath.ofString (if directory.isEmpty then defaultDirectory else directory) = path
  simp only [ends_bind, Host.ends_recast, Host.ends_askDisk]
  refine ⟨fun node _ => ?_, fun _ _ => trivial⟩
  split
  · exact rfl
  · by_cases hillegal : path.hasIllegalName = true
    · rw [if_pos hillegal]
      exact rfl
    · rw [if_neg hillegal]
      simp only [ends_bind, ends_pure, Host.ends_recast, Host.ends_askDisk]
      exact ⟨fun start _ => ⟨trivial, _, hmade path start _⟩, fun _ _ => trivial⟩

/-- The provider over the default directory, with a downloader of its own. -/
def standard (timeout : Float) (autoRemove : Bool) : Provider where
  directory := .ofLocation ["tmp", "swissalti3d"]
  downloader := ⟨Downloader.defaultUserAgent, timeout⟩
  ownsDownloader := true
  autoRemove
  projection := .lv95
  index :=
    .unloaded (.ofLocation ["tmp", "swissalti3d"]) ⟨Downloader.defaultUserAgent, timeout⟩
  memory := .empty RasterMemory.defaultLimit

end Provider

/-- A host that has nothing on its disk yet. -/
def Host.bare (n : Network) : Host := ⟨⟨∅, some []⟩, n, ∅⟩

/-- The standard provider can be made wherever no file has the place of its directory. -/
theorem Provider.create_standard {h : Host} (node : Option Node)
    (hfind : h.disk.find (.ofLocation ["tmp", "swissalti3d"]) = .ok node)
    (hplain : ∀ content, node ≠ some (.file content)) (timeout : Float) (autoRemove : Bool) :
    create "" none timeout autoRemove h = .ok (standard timeout autoRemove) h := by
  have hempty : ("" : String).isEmpty = true := by decide
  have hpath : FilePath.ofString defaultDirectory = .ofLocation ["tmp", "swissalti3d"] := by
    decide +kernel
  simp only [create, hempty, if_true, hpath, bind_apply, Host.recast, Host.askDisk, hfind]
  cases node with
  | none => rfl
  | some node =>
      cases node with
      | file content => exact absurd rfl (hplain content)
      | directory => rfl

/-- On a bare host the standard provider can be made. -/
theorem Provider.create_bare (n : Network) (timeout : Float) (autoRemove : Bool) :
    create "" none timeout autoRemove (.bare n) = .ok (standard timeout autoRemove) (.bare n) :=
  create_standard none rfl (fun _ => by simp) timeout autoRemove

/-- A listing of two tiles. -/
def croppedListing : String := "h/a_b_2600-1200\nh/a_b_2601-1200"

/-- A disk with this listing in the default directory and a file for each tile, which have three
rows and two columns. -/
def Disk.cropped : Disk where
  tree := ⟨[(["tmp"], .directory), (["tmp", "swissalti3d"], .directory),
    (["tmp", "swissalti3d", "mappings.csv"], .file croppedListing.toUTF8),
    (["tmp", "swissalti3d", "a_b_2600-1200"], .file Tiff.planarFile),
    (["tmp", "swissalti3d", "a_b_2601-1200"], .file Tiff.planarFile)]⟩
  workDirectory := some []

/-- On that disk it can be made too, and finds its directory there. -/
theorem Provider.create_cropped (n : Network) (timeout : Float) (autoRemove : Bool) :
    create "" none timeout autoRemove ⟨.cropped, n, ∅⟩ =
      .ok (standard timeout autoRemove) ⟨.cropped, n, ∅⟩ :=
  create_standard (some .directory) rfl (by simp) timeout autoRemove

namespace Service

/-- What comes of an operation, and the service after it. -/
def ending {ε α : Type} (operation : ServiceM ε α) (good : α → Outcome) (bad : ε → Outcome)
    (s : Service) : Outcome × Service :=
  match operation s with
  | .ok a s' => (good a, s')
  | .error fault s' => (bad fault, s')

/-- What comes of an action, and the service after it. -/
def perform (s : Service) : Action → Outcome × Service
  | .lookup latitude longitude => ending (lookup latitude longitude) .answer .raised s
  | .elevation latitude longitude => ending (elevation latitude longitude) .height .raised s
  | .fetchPoints points => ending (fetchPoints points) .batch .ofBatchFault s
  | .status => (.status s.provider.status, s)
  | .setAutoRemove autoRemove =>
      (.done, { s with provider := s.provider.setAutoRemove autoRemove })
  | .release => ending release (fun _ => .done) .raised s

/-- What comes of one action after another, and the service after all of them. -/
def performAll (s : Service) : List Action → List Outcome × Service
  | [] => ([], s)
  | action :: rest =>
      let (outcome, s₁) := s.perform action
      let (outcomes, s₂) := s₁.performAll rest
      (outcome :: outcomes, s₂)

/-- The states of a provider from its creation on. -/
inductive Reachable : Service → Prop
  | created {directory : String} {shared : Option Downloader} {timeout : Float} {autoRemove : Bool}
      {h h' : Host} {p : Provider} :
      Provider.create directory shared timeout autoRemove h = .ok p h' → Reachable ⟨p, h'⟩
  | performed {s : Service} (action : Action) : Reachable s → Reachable (s.perform action).2

/-! ## Invariants -/

/-- A property that the operations on the caches keep, and everything else too. -/
structure Kept (invariant : Service → Prop) : Prop where
  noted : ∀ s level text, invariant s → invariant (s.noted level text)
  rasterOf : ∀ s (position : Position), invariant s →
    EndsIn (rasterOf position.tileKey) s invariant
  setAutoRemove : ∀ s autoRemove, invariant s →
    invariant { s with provider := s.provider.setAutoRemove autoRemove }
  release : ∀ s, invariant s → EndsIn release s invariant

section Kept

variable {invariant : Service → Prop} {s s' : Service}

theorem ending_of_endsIn {ε α : Type} {operation : ServiceM ε α} {good : α → Outcome}
    {bad : ε → Outcome} (h : EndsIn operation s invariant) :
    invariant (ending operation good bad s).2 := by
  unfold ending
  cases hrun : operation s with
  | ok a s' => exact h.of_ok hrun
  | error fault s' => exact h.of_error hrun

/-- A query keeps what messages keep and what the way to its raster keeps. -/
theorem endsIn_lookup (hnoted : ∀ s level text, invariant s → invariant (s.noted level text))
    (hraster : ∀ position : Position, EndsIn (rasterOf position.tileKey) s invariant)
    (latitude longitude : Float) (hs : invariant s) :
    EndsIn (lookup latitude longitude) s invariant := by
  have hlogged : ∀ {s₁ s' : Service}, invariant s₁ → s₁.Logged s' → invariant s' := by
    rintro s₁ s' hs₁ (rfl | ⟨level, text, rfl⟩)
    · exact hs₁
    · exact hnoted _ _ _ hs₁
  refine (ends_lookup latitude longitude s).mono ?_ ?_
  · intro answer s' hanswers
    cases hanswers with
    | outside _ hlog => exact hlogged hs hlog
    | found _ hrun hlog => exact hlogged ((hraster _).of_ok hrun) hlog
    | degraded _ hrun _ hlog => exact hlogged ((hraster _).of_error hrun) hlog
  · intro cause s' hend
    obtain ⟨position, -, hrun⟩ := hend
    exact (hraster position).of_error hrun

namespace Kept

theorem lookup (hkept : Kept invariant) (latitude longitude : Float) (s : Service)
    (hs : invariant s) : EndsIn (lookup latitude longitude) s invariant :=
  endsIn_lookup hkept.noted (fun position => hkept.rasterOf s position hs) latitude longitude hs

theorem lookupAll (hkept : Kept invariant) (points : List (Float × Float)) (s : Service)
    (hs : invariant s) : EndsIn (lookupAll points) s invariant :=
  endsIn_mapM (fun point s hs => hkept.lookup point.1 point.2 s hs) points hs

theorem fetchPoints (hkept : Kept invariant) (points : List (List Float)) (s : Service)
    (hs : invariant s) : EndsIn (fetchPoints points) s invariant := by
  unfold Service.fetchPoints
  cases points.find? fun point => (pair? point).isNone with
  | some point => exact hs
  | none =>
      simp only [EndsIn, ends_bind, Host.ends_recast, ends_pure]
      exact hkept.lookupAll _ s hs

/-- What is kept is kept by every action. -/
theorem perform (hkept : Kept invariant) (action : Action) (hs : invariant s) :
    invariant (s.perform action).2 := by
  cases action with
  | lookup latitude longitude => exact ending_of_endsIn (hkept.lookup latitude longitude s hs)
  | elevation latitude longitude =>
      refine ending_of_endsIn ?_
      simp only [EndsIn, elevation, ends_bind, ends_pure]
      exact hkept.lookup latitude longitude s hs
  | fetchPoints points => exact ending_of_endsIn (hkept.fetchPoints points s hs)
  | status => exact hs
  | setAutoRemove autoRemove => exact hkept.setAutoRemove s autoRemove hs
  | release => exact ending_of_endsIn (hkept.release s hs)

theorem performAll (hkept : Kept invariant) (actions : List Action) (hs : invariant s) :
    invariant (s.performAll actions).2 := by
  induction actions generalizing s with
  | nil => exact hs
  | cons action rest ih => exact ih (hkept.perform action hs)

end Kept

end Kept

end Service

end PointElevation
