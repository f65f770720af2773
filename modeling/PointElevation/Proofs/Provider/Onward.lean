import Mathlib.Logic.Relation
import PointElevation.Proofs.Provider.CacheRun

/-!
# Runs that keep the directory

A provider starts from any disk and any network (`Service.Opened`).  What is asked of it comes down
to queries for single points, switches of what a release removes, and releases; `Service.Onward`
leads through any number of these, as long as no release removes the directory.  Every action that
keeps the directory is such a way, and so are the parts of a query for many points.

The projection is left open: nothing here depends on where points lie.
-/

namespace PointElevation

open Host

namespace Service

variable {s s' s₀ t : Service}

/-! ## The start -/

/-- A service as it starts: a provider has just been made, for whatever projection of points. -/
inductive Opened : Service → Prop
  | intro {path : String} {shared : Option Downloader} {timeout : Float} {autoRemove : Bool}
      {h h' : Host} {p : Provider} (projection : Projection) :
      Provider.create path shared timeout autoRemove h = .ok p h' →
        Opened ⟨{ p with projection }, h'⟩

/-- It holds nothing at the start, so its caches are coherent. -/
theorem Opened.fresh (h : s.Opened) : s.provider.index.listing = none ∧
    ∃ directory, s.Coherent directory RasterMemory.defaultLimit := by
  cases h with
  | @intro path shared timeout autoRemove h h' p projection hcreate =>
      obtain ⟨-, directory, hfresh⟩ :=
        (Provider.ends_create path shared timeout autoRemove h).of_ok hcreate
      have hcoherent := hfresh.coherent RasterMemory.defaultLimit h'
      rw [← hfresh.memory] at hcoherent
      refine ⟨?_, directory, hcoherent.dots, hcoherent.place, hcoherent.caches⟩
      dsimp only
      rw [hfresh.index]
      rfl

theorem Opened.coherent (h : s.Opened) :
    ∃ directory, s.Coherent directory RasterMemory.defaultLimit := h.fresh.2

/-! ## Steps -/

/-- One thing that a provider is asked to do, other than to remove its directory. -/
inductive Step : Service → Service → Prop
  | lookup (s : Service) (latitude longitude : Float) :
      Step s (lastState (lookup latitude longitude) s)
  | setAutoRemove (s : Service) (autoRemove : Bool) :
      Step s { s with provider := s.provider.setAutoRemove autoRemove }
  | release {s : Service} : s.provider.autoRemove = false → Step s (lastState release s)

/-- The second service comes from the first without the directory being removed. -/
def Onward : Service → Service → Prop := Relation.ReflTransGen Step

/-- An action that leaves the directory where it is. -/
def Keeps (s : Service) (action : Action) : Prop :=
  action = .release → s.provider.autoRemove = false

theorem keeps_of_ne {action : Action} (h : action ≠ .release) : s.Keeps action :=
  fun heq => absurd heq h

/-- Actions that one after another leave the directory where it is. -/
def KeepsAll (s : Service) : List Action → Prop
  | [] => True
  | action :: rest => s.Keeps action ∧ (s.perform action).2.KeepsAll rest

theorem ending_snd {ε α : Type} (operation : ServiceM ε α) (good : α → Outcome)
    (bad : ε → Outcome) (s : Service) :
    (ending operation good bad s).2 = lastState operation s := by
  unfold ending lastState
  cases operation s <;> rfl

theorem onward_lookup (s : Service) (latitude longitude : Float) :
    EndsIn (lookup latitude longitude) s s.Onward :=
  endsIn_iff.mpr (.single (.lookup s latitude longitude))

theorem onward_fetchPoints (s : Service) (points : List (List Float)) :
    EndsIn (fetchPoints points) s s.Onward := by
  unfold fetchPoints
  cases points.find? fun point => (pair? point).isNone with
  | some point => exact .refl
  | none =>
      simp only [EndsIn, ends_bind, ends_recast, ends_pure]
      have hstep : ∀ (point : Float × Float) (t : Service), s.Onward t →
          EndsIn (lookup point.1 point.2) t s.Onward := fun point t hst =>
        (onward_lookup t point.1 point.2).mono (fun _ _ htu => hst.trans htu)
          fun _ _ htu => hst.trans htu
      exact endsIn_mapM hstep _ .refl

theorem onward_perform {action : Action} (h : s.Keeps action) : s.Onward (s.perform action).2 := by
  cases action with
  | lookup latitude longitude => exact ending_of_endsIn (onward_lookup s latitude longitude)
  | elevation latitude longitude =>
      refine ending_of_endsIn ?_
      simp only [EndsIn, elevation, ends_bind, ends_pure]
      exact onward_lookup s latitude longitude
  | fetchPoints points => exact ending_of_endsIn (onward_fetchPoints s points)
  | status => exact .refl
  | setAutoRemove autoRemove => exact .single (.setAutoRemove s autoRemove)
  | release =>
      rw [perform, ending_snd]
      exact .single (.release (h rfl))

theorem onward_performAll {actions : List Action} (h : s.KeepsAll actions) :
    s.Onward (s.performAll actions).2 := by
  induction actions generalizing s with
  | nil => exact .refl
  | cons action rest ih => exact (onward_perform h.1).trans (ih h.2)

/-! ## What lasts -/

/-- The second service has forgotten the rasters, and possibly closed the client. -/
structure Forgot (s s' : Service) : Prop where
  provider : s'.provider = s.provider.clearMemory
  disk : s'.host.disk = s.host.disk
  network : s'.host.network = s.host.network
  requests : s'.host.journal.requests = s.host.journal.requests
  files : s'.host.journal.files = s.host.journal.files

/-- A release that keeps the directory forgets the rasters and does nothing else. -/
theorem forgot_release (h : s.provider.autoRemove = false) : EndsIn release s s.Forgot := by
  have hkeep : s.provider.clearMemory.autoRemove = false := h
  simp only [EndsIn, release_eq, ends_bind, ends_modify, ends_get, removeDirectory, hkeep,
    Bool.false_eq_true, if_false]
  by_cases howns : s.provider.clearMemory.ownsDownloader = true
  · simp only [howns, if_true, ends_bind, onHost, ends_onPart, Downloader.close, ends_record,
      ends_pure]
    exact ⟨rfl, rfl, rfl, rfl, rfl⟩
  · simp only [howns, Bool.false_eq_true, if_false, ends_pure]
    exact ⟨rfl, rfl, rfl, rfl, rfl⟩

/-- A property that everything but removing the directory keeps. -/
structure KeptOnward (invariant : Service → Prop) : Prop where
  noted : ∀ s level text, invariant s → invariant (s.noted level text)
  rasterOf : ∀ s (position : Position), invariant s →
    EndsIn (rasterOf position.tileKey) s invariant
  setAutoRemove : ∀ s autoRemove, invariant s →
    invariant { s with provider := s.provider.setAutoRemove autoRemove }
  forgot : ∀ s s', s.Forgot s' → invariant s → invariant s'

theorem KeptOnward.step {invariant : Service → Prop} (hkept : KeptOnward invariant)
    (h : s.Step t) (hs : invariant s) : invariant t := by
  cases h with
  | lookup latitude longitude =>
      refine endsIn_iff.mp (endsIn_lookup hkept.noted (fun position => ?_) latitude longitude hs)
      exact hkept.rasterOf s position hs
  | setAutoRemove autoRemove => exact hkept.setAutoRemove s autoRemove hs
  | release hkeep => exact hkept.forgot s _ (endsIn_iff.mp (forgot_release hkeep)) hs

theorem KeptOnward.onward {invariant : Service → Prop} (hkept : KeptOnward invariant)
    (h : s.Onward t) (hs : invariant s) : invariant t := by
  -- over the steps between the two
  induction h with
  | refl => exact hs
  | tail _ hstep ih => exact hkept.step hstep ih

end Service

end PointElevation
