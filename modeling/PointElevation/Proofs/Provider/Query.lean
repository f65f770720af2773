import PointElevation.Proofs.Host.Ending
import PointElevation.Provider.Query

/-!
# What a query comes to

A query touches the service in one place, where it asks for the raster of a tile; all else is a
function of the point and of what was found, and messages.  `Projection.locate`, `Lookup.ofFound`
and `Lookup.ofFault` are these functions, and `Service.ends_lookup` puts them together.
-/

namespace PointElevation

open PointElevation.Host

/-- The position of a point in the coverage, or else the answer for the point. -/
def Projection.locate (project : Projection) (latitude longitude : Float) :
    Except Lookup Position :=
  if !(latitude.isFinite && longitude.isFinite) then .error (.without .outsideCoverage ⟨0, 0⟩ none)
  else
    match project.position? latitude longitude with
    | none => .error (.without .outsideCoverage ⟨0, 0⟩ none)
    | some position =>
        if position.Covered then .ok position
        else .error (.without .outsideCoverage position none)

namespace Lookup

/-- The answer for what was found. -/
def ofFound (position : Position) : Option Raster → Lookup
  | none => .without .noTile position (some position.tileKey)
  | some raster =>
      match raster.sample position with
      | .error _ => .without .decodeFailed position (some position.tileKey)
      | .ok value =>
          if value.isNaN then .without .noData position (some position.tileKey)
          else ⟨value.toFloat, .ok, position, some position.tileKey⟩

/-- The answer for a fault, unless it belongs to no stage. -/
def ofFault (position : Position) : Fault → Except Failure Lookup
  | .index _ => .ok (.without .indexUnavailable position (some position.tileKey))
  | .download _ => .ok (.without .downloadFailed position (some position.tileKey))
  | .decode _ => .ok (.without .decodeFailed position (some position.tileKey))
  | .escaped cause => .error cause

/-- Without the status of a height there is no height. -/
theorem elevation_ofFault {position : Position} {fault : Fault} {answer : Lookup}
    (h : ofFault position fault = .ok answer) : answer.status ≠ .ok ∧ answer.elevation = 0.0 := by
  cases fault <;> cases h <;> exact ⟨Status.noConfusion, rfl⟩

theorem elevation_ofFound {position : Position} {found : Option Raster}
    (h : (ofFound position found).status ≠ .ok) : (ofFound position found).elevation = 0.0 := by
  unfold ofFound at h ⊢
  cases found with
  | none => rfl
  | some raster =>
      cases hsample : raster.sample position with
      | error missing =>
          simp only [hsample]
          rfl
      | ok value =>
          simp only [hsample] at h ⊢
          by_cases hmissing : value.isNaN = true
          · rw [if_pos hmissing]
            rfl
          · rw [if_neg hmissing] at h
            exact absurd rfl h

end Lookup

/-- A point without a position is outside of the coverage, and of every tile. -/
theorem Projection.answer_of_locate {project : Projection} {latitude longitude : Float}
    {answer : Lookup} (h : project.locate latitude longitude = .error answer) :
    ∃ position, answer = .without .outsideCoverage position none := by
  unfold locate at h
  split at h
  · cases h
    exact ⟨_, rfl⟩
  · split at h
    · cases h
      exact ⟨_, rfl⟩
    · split at h <;> cases h
      exact ⟨_, rfl⟩

theorem Projection.elevation_locate {project : Projection} {latitude longitude : Float}
    {answer : Lookup} (h : project.locate latitude longitude = .error answer) :
    answer.status ≠ .ok ∧ answer.elevation = 0.0 := by
  obtain ⟨position, rfl⟩ := answer_of_locate h
  exact ⟨Status.noConfusion, rfl⟩

namespace Service

/-- The service with a message more in the log of its host. -/
def noted (s : Service) (level : Level) (text : String) : Service :=
  { s with host := s.host.note level text }

/-- The second service is the first, but for a message. -/
def Logged (s s' : Service) : Prop := s' = s ∨ ∃ level text, s' = s.noted level text

theorem Logged.disk {s s' : Service} (h : s.Logged s') : s'.host.disk = s.host.disk := by
  rcases h with rfl | ⟨level, text, rfl⟩ <;> rfl

/-- The service with what an operation on memory, index and host has left. -/
def withCached (s : Service) (t : RasterMemory × Indexed) : Service :=
  ⟨{ s.provider with memory := t.1, index := t.2.index }, t.2.host⟩

theorem ends_rasterOf {s : Service} {key : TileKey} {good : Option Raster → Service → Prop}
    {bad : Fault → Service → Prop} :
    Ends (rasterOf key) s good bad ↔
      Ends ((Provider.pipeline s.provider.directory s.provider.downloader).get key) s.cached
        (fun found t => good found (s.withCached t)) fun fault t => bad fault (s.withCached t) := by
  simp only [rasterOf, ends_bind, ends_get, onCached, ends_onPart]
  rfl

/-- What a query can answer, and the service after it. -/
inductive Answers (s : Service) (latitude longitude : Float) : Lookup → Service → Prop
  | outside {answer : Lookup} {s' : Service} :
      s.provider.projection.locate latitude longitude = .error answer → s.Logged s' →
        Answers s latitude longitude answer s'
  | found {position : Position} {found : Option Raster} {s₁ s' : Service} :
      s.provider.projection.locate latitude longitude = .ok position →
        rasterOf position.tileKey s = .ok found s₁ → s₁.Logged s' →
          Answers s latitude longitude (.ofFound position found) s'
  | degraded {position : Position} {fault : Fault} {answer : Lookup} {s₁ s' : Service} :
      s.provider.projection.locate latitude longitude = .ok position →
        rasterOf position.tileKey s = .error fault s₁ → Lookup.ofFault position fault = .ok answer →
          s₁.Logged s' → Answers s latitude longitude answer s'

theorem ends_degrade (position : Position) (fault : Fault) (s : Service) :
    Ends (degrade position.tileKey position fault) s
      (fun answer s' => Lookup.ofFault position fault = .ok answer ∧ s.Logged s')
      (fun cause s' => fault = .escaped cause ∧ s' = s) := by
  cases fault with
  | escaped cause => exact ⟨rfl, rfl⟩
  | index _ | download _ | decode _ => exact ⟨rfl, .inr ⟨.warning, _, rfl⟩⟩

theorem ends_sampleLookup (position : Position) (raster : Raster) (s : Service) :
    Ends (sampleLookup position.tileKey position raster) s
      (fun answer s' => answer = .ofFound position (some raster) ∧ s.Logged s')
      (fun _ _ => False) := by
  simp only [sampleLookup, Lookup.ofFound]
  cases raster.sample position with
  | error missing => exact ⟨rfl, .inr ⟨.warning, _, rfl⟩⟩
  | ok value =>
      dsimp only
      by_cases hmissing : value.isNaN = true
      · simp only [hmissing, if_true]
        exact ⟨rfl, .inr ⟨.debug, _, rfl⟩⟩
      · simp only [hmissing, Bool.false_eq_true, if_false]
        exact ⟨rfl, .inl rfl⟩

theorem ends_lookupCovered (position : Position) (s : Service) :
    Ends (lookupCovered position) s
      (fun answer s' =>
        (∃ found s₁, rasterOf position.tileKey s = .ok found s₁ ∧ s₁.Logged s' ∧
          answer = .ofFound position found) ∨
        ∃ fault s₁, rasterOf position.tileKey s = .error fault s₁ ∧
          Lookup.ofFault position fault = .ok answer ∧ s₁.Logged s')
      (fun cause s' => rasterOf position.tileKey s = .error (.escaped cause) s') := by
  simp only [lookupCovered, ends_bind, ends_outcome]
  refine (ends_self (rasterOf position.tileKey) s).mono ?_ ?_
  · intro found s₁ hrun
    cases found with
    | none => exact .inl ⟨none, s₁, hrun, .inr ⟨.warning, _, rfl⟩, rfl⟩
    | some raster =>
        refine (ends_sampleLookup position raster s₁).mono ?_ fun _ _ => False.elim
        intro answer s' hend
        obtain ⟨hanswer, hlogged⟩ := hend
        exact .inl ⟨some raster, s₁, hrun, hlogged, hanswer⟩
  · intro fault s₁ hrun
    refine (ends_degrade position fault s₁).mono ?_ ?_
    · intro answer s' hend
      obtain ⟨hanswer, hlogged⟩ := hend
      exact .inr ⟨fault, s₁, hrun, hanswer, hlogged⟩
    · intro cause s' hend
      obtain ⟨rfl, rfl⟩ := hend
      exact hrun

/-- A query answers, or fails with a cause that belongs to no stage. -/
theorem ends_lookup (latitude longitude : Float) (s : Service) :
    Ends (lookup latitude longitude) s
      (fun answer s' => s.Answers latitude longitude answer s')
      (fun cause s' => ∃ position,
        s.provider.projection.locate latitude longitude = .ok position ∧
          rasterOf position.tileKey s = .error (.escaped cause) s') := by
  simp only [lookup]
  by_cases hfinite : (latitude.isFinite && longitude.isFinite) = true
  · simp only [hfinite, Bool.not_true, Bool.false_eq_true, if_false, ends_bind, ends_get]
    cases hposition : s.provider.projection.position? latitude longitude with
    | none =>
        refine .outside ?_ (.inr ⟨.warning, _, rfl⟩)
        simp [Projection.locate, hfinite, hposition]
    | some position =>
        dsimp only
        by_cases hcovered : position.Covered
        · have hplace : s.provider.projection.locate latitude longitude = .ok position := by
            simp [Projection.locate, hfinite, hposition, hcovered]
          rw [if_pos hcovered]
          refine (ends_lookupCovered position s).mono ?_ ?_
          · intro answer s' hend
            rcases hend with ⟨found, s₁, hrun, hlogged, rfl⟩ | ⟨fault, s₁, hrun, hanswer, hlogged⟩
            · exact .found hplace hrun hlogged
            · exact .degraded hplace hrun hanswer hlogged
          · exact fun cause s' hrun => ⟨position, hplace, hrun⟩
        · rw [if_neg hcovered]
          refine .outside ?_ (.inl rfl)
          simp [Projection.locate, hfinite, hposition, hcovered]
  · simp only [hfinite, Bool.not_false, if_true]
    refine .outside ?_ (.inl rfl)
    simp [Projection.locate, hfinite]

/-- A query raises exactly what the way to the raster raises, and that belongs to no stage. -/
theorem lookup_raises_iff {latitude longitude : Float} {s : Service} {cause : Failure} :
    (∃ s', lookup latitude longitude s = .error cause s') ↔ ∃ position,
      s.provider.projection.locate latitude longitude = .ok position ∧
        ∃ s', rasterOf position.tileKey s = .error (.escaped cause) s' := by
  have hends := ends_lookup latitude longitude s
  constructor
  · rintro ⟨s', hrun⟩
    obtain ⟨position, hplace, hraster⟩ := hends.of_error hrun
    exact ⟨position, hplace, s', hraster⟩
  · rintro ⟨position, hplace, s', hraster⟩
    -- none of the answers goes with such a raster, so the query has raised something
    cases hrun : lookup latitude longitude s with
    | ok answer s'' =>
        cases hends.of_ok hrun with
        | outside hplace' _ => cases hplace.symm.trans hplace'
        | found hplace' hraster' _ =>
            cases hplace.symm.trans hplace'
            cases hraster.symm.trans hraster'
        | degraded hplace' hraster' hanswer _ =>
            cases hplace.symm.trans hplace'
            cases hraster.symm.trans hraster'
            cases hanswer
    | error cause' s'' =>
        obtain ⟨position', hplace', hraster'⟩ := hends.of_error hrun
        cases hplace.symm.trans hplace'
        cases hraster.symm.trans hraster'
        exact ⟨_, rfl⟩

end Service

end PointElevation
