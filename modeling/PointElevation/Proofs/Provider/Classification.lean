import PointElevation.Proofs.Grid.Cell
import PointElevation.Proofs.Listing.Nesting
import PointElevation.Proofs.Provider.Verdict

/-!
# Which answer a query gives

A point without a place in the coverage is answered at once; `Projection.Outside` says which points
these are.  For every other one the answer is that of the verdict.  What a query raises instead of
answering is listed in `Service.Escapes`, and on a network that fails like a client only this is
little: the disk refuses a path, or the reply of the listing service nests too deeply.
-/

namespace PointElevation

open Host
open PointElevation.Number (Binary)

/-! ## Points without a place -/

/-- The point has no place in the coverage: it is none, it is not projected to one of the plane, or
that is outside. -/
inductive Projection.Outside (project : Projection) (latitude longitude : Float) : Prop
  | unmeasured : latitude.isFinite = false ∨ longitude.isFinite = false →
      Outside project latitude longitude
  | unprojected :
      (Binary.ofFloat (project latitude longitude).1).rational? = none ∨
        (Binary.ofFloat (project latitude longitude).2).rational? = none →
          Outside project latitude longitude
  | uncovered {x y : ℚ} :
      (Binary.ofFloat (project latitude longitude).1).rational? = some x →
        (Binary.ofFloat (project latitude longitude).2).rational? = some y →
          ¬ (Position.ofPoint x y).Covered → Outside project latitude longitude

section Located

variable {project : Projection} {latitude longitude : Float} {position : Position}

theorem Projection.locate_eq_ok_iff :
    project.locate latitude longitude = .ok position ↔
      (latitude.isFinite = true ∧ longitude.isFinite = true) ∧
        project.position? latitude longitude = some position ∧ position.Covered := by
  rw [← Bool.and_eq_true, locate]
  by_cases hfinite : (latitude.isFinite && longitude.isFinite) = true
  · rw [if_neg (by rw [hfinite]; decide)]
    cases project.position? latitude longitude with
    | none => simp
    | some place =>
        dsimp only
        by_cases hcovered : place.Covered
        · rw [if_pos hcovered]
          simp only [Except.ok.injEq, hfinite, Option.some.injEq, true_and]
          exact ⟨fun heq => ⟨heq, heq ▸ hcovered⟩, fun h => h.1⟩
        · rw [if_neg hcovered]
          simp only [reduceCtorEq, Option.some.injEq, false_iff]
          rintro ⟨-, rfl, hposition⟩
          exact hcovered hposition
  · rw [if_pos (by rw [Bool.not_eq_true] at hfinite; rw [hfinite]; rfl)]
    simp [hfinite]

/-- A point is outside or has a place. -/
theorem Projection.outside_iff :
    project.Outside latitude longitude ↔ ∀ position,
      project.locate latitude longitude ≠ .ok position := by
  simp only [ne_eq, locate_eq_ok_iff, position?_eq]
  constructor
  · rintro houtside position ⟨⟨hlatitude, hlongitude⟩, hplace, hcovered⟩
    cases houtside with
    | unmeasured hinfinite => simp [hlatitude, hlongitude] at hinfinite
    | unprojected hnone => rcases hnone with hnone | hnone <;> simp [hnone] at hplace
    | uncovered hx hy hnot =>
        simp only [hx, hy, Option.bind_some, Option.map_some, Option.some.injEq] at hplace
        exact hnot (hplace ▸ hcovered)
  · intro hnowhere
    by_cases hfinite : latitude.isFinite = true ∧ longitude.isFinite = true
    · cases hx : (Binary.ofFloat (project latitude longitude).1).rational? with
      | none => exact .unprojected (.inl hx)
      | some x =>
          cases hy : (Binary.ofFloat (project latitude longitude).2).rational? with
          | none => exact .unprojected (.inr hy)
          | some y =>
              refine .uncovered hx hy fun hcovered => hnowhere _ ⟨hfinite, ?_, hcovered⟩
              simp [hx, hy]
    · rw [not_and_or, Bool.not_eq_true, Bool.not_eq_true] at hfinite
      exact .unmeasured hfinite

end Located

/-! ## Classification -/

namespace Service

/-- What an answer says of the point, of the service that was asked, and of the service then. -/
structure Classified (s : Service) (latitude longitude : Float) (answer : Lookup) (s' : Service) :
    Prop where
  /-- points are outside exactly if they have no place in the coverage -/
  outside : answer.status = .outsideCoverage ↔ s.provider.projection.Outside latitude longitude
  /-- then no tile is named, and nothing but the log is touched -/
  untouched : answer.status = .outsideCoverage → answer.key = none ∧ s.Logged s'
  /-- every other point has a tile, which is that of its position -/
  placed : answer.status ≠ .outsideCoverage →
    s.provider.projection.position? latitude longitude = some answer.position ∧
      answer.position.Covered ∧ answer.key = some answer.position.tileKey
  /-- and the status and the height are decided by the first stage that fails -/
  decided : answer.status ≠ .outsideCoverage → ∀ status height,
    (answer.status = status ∧ answer.elevation = height) ↔ s.Verdict answer.position status height
  /-- where the raster is held, nothing but the log is touched either -/
  held : ∀ key raster, answer.key = some key → s.provider.memory.find? key = some raster →
    s.Logged s'

section Classified

variable {s s' : Service} {latitude longitude : Float} {answer : Lookup}

theorem classified_of_lookup (honly : s.host.network.Only (Reply.FailsAs Failure.Unstaged))
    (hrun : lookup latitude longitude s = .ok answer s') :
    s.Classified latitude longitude answer s' := by
  cases hplace : s.provider.projection.locate latitude longitude with
  | ok position =>
      -- the point has a place, so a verdict says what the answer is
      have hverdict := verdict_of_lookup honly hrun hplace
      have hanswer := hverdict.answer_eq hrun hplace
      have hposition : answer.position = position := by rw [hanswer]
      have hkey : answer.key = some position.tileKey := by rw [hanswer]
      have hinside := hverdict.ne_outsideCoverage
      have hplaced := Projection.locate_eq_ok_iff.mp hplace
      rw [← hposition] at hplace hplaced hverdict hkey
      constructor
      · refine iff_of_false hinside fun houtside => ?_
        exact Projection.outside_iff.mp houtside _ hplace
      · exact fun houtside => absurd houtside hinside
      · exact fun _ => ⟨hplaced.2.1, hplaced.2.2, hkey⟩
      · intro _ status height
        constructor
        · rintro ⟨rfl, rfl⟩
          exact hverdict
        · intro hother
          rw [hother.answer_eq hrun hplace]
          exact ⟨rfl, rfl⟩
      · intro key raster hnamed hheld
        cases hkey.symm.trans hnamed
        exact logged_of_held hrun hplace hheld
  | error outside =>
      have houtside : s.provider.projection.Outside latitude longitude :=
        Projection.outside_iff.mpr fun position hplace' => by cases hplace.symm.trans hplace'
      cases (ends_lookup latitude longitude s).of_ok hrun with
      | found hplace' _ _ => cases hplace.symm.trans hplace'
      | degraded hplace' _ _ _ => cases hplace.symm.trans hplace'
      | outside hplace' hlogged =>
          obtain ⟨position, rfl⟩ := Projection.answer_of_locate hplace'
          constructor
          · exact iff_of_true rfl houtside
          · exact fun _ => ⟨rfl, hlogged⟩
          · exact fun hinside => absurd rfl hinside
          · exact fun hinside => absurd rfl hinside
          · exact fun _ _ _ _ => hlogged

end Classified

section Escapes

variable {index : TileIndex} {h : Host} {s : Service} {key : TileKey} {cause : Failure}

/-- Where only requests fail, the listing service is no reason to raise what it fails with. -/
theorem escapes_of_request (hescapes : index.Escapes h cause)
    (honly : h.network.Only (Reply.FailsAs fun f => f.isRequest = true)) :
    cause.kind = .nesting ∨ ∃ fault, cause = .ofDisk fault := by
  cases hescapes with
  | unasked _ => exact .inr ⟨_, rfl⟩
  | nesting _ _ _ => exact .inl rfl
  | illegalName _ _ _ _ => exact .inr ⟨_, rfl⟩
  | unanswered _ htext hescaped =>
      have hends := index.downloader.ends_fetchText listingServiceUrl h
      cases hrun : index.downloader.fetchText listingServiceUrl h with
      | ok reply h' => cases htext.symm.trans (hends.of_ok hrun).text
      | error fault h' =>
          obtain ⟨failure, -, hasked⟩ := hends.of_error hrun
          cases htext.symm.trans hasked.text
          have hrequest := hasked.failsAs honly fun _ hrequest => hrequest
          rw [hescaped] at hrequest
          cases hrequest

theorem Escapes.of_request (hescapes : s.Escapes key cause)
    (honly : s.host.network.Only (Reply.FailsAs fun f => f.isRequest = true)) :
    cause.kind = .nesting ∨ ∃ fault, cause = .ofDisk fault := by
  cases hescapes with
  | listing _ hescapes => exact escapes_of_request hescapes honly
  | tile _ _ hescapes => cases hescapes <;> exact .inr ⟨_, rfl⟩

end Escapes

/-- Coherent caches and the sort of replies that are left last through releases too. -/
theorem kept_only (directory : Location) (limit : Int) (Q : String → Reply → Prop) :
    Kept fun s => s.Coherent directory limit ∧ s.host.network.Only Q where
  noted := (keptOnward_only directory limit Q).noted
  rasterOf := (keptOnward_only directory limit Q).rasterOf
  setAutoRemove := (keptOnward_only directory limit Q).setAutoRemove
  release := fun s h => by
    have hreleased : ∀ s', Released directory s s' →
        s'.Coherent directory limit ∧ s'.host.network.Only Q :=
      fun s' hreleased => ⟨h.1.released hreleased, hreleased.network ▸ h.2⟩
    exact (ends_release h.1.dots h.1.place).mono (fun _ => hreleased) fun _ => hreleased

/-- In every state of a provider, for every projection and over every disk, with a network that
fails like a client or like the system: a query raises exactly what `Escapes` lists, and every
answer that it gives is classified by the first stage that fails.  With a network that fails like a
client only, it raises nothing but refusals of the disk, and that the reply of the listing service
nests too deeply. -/
theorem lookup_classifies {s₀ : Service} (h : s₀.Opened)
    (honly : s₀.host.network.Only Reply.Orderly) (actions : List Action)
    (latitude longitude : Float) :
    let s := (s₀.performAll actions).2
    (∀ cause, (∃ s', lookup latitude longitude s = .error cause s') ↔ ∃ position,
      s.provider.projection.locate latitude longitude = .ok position ∧
        s.Escapes position.tileKey cause) ∧
    (s₀.host.network.Only (Reply.FailsAs fun f => f.isRequest = true) →
      ∀ cause s', lookup latitude longitude s = .error cause s' →
        cause.kind = .nesting ∨ ∃ fault, cause = .ofDisk fault) ∧
    ∀ answer s', lookup latitude longitude s = .ok answer s' →
      s.Classified latitude longitude answer s' := by
  intro s
  obtain ⟨directory, hstart⟩ := h.coherent
  have hkept : ∀ Q : String → Reply → Prop, s₀.host.network.Only Q →
      s.Coherent directory RasterMemory.defaultLimit ∧ s.host.network.Only Q :=
    fun Q hQ => (kept_only directory _ Q).performAll actions ⟨hstart, hQ⟩
  obtain ⟨hcoherent, honly⟩ := hkept _ honly
  have hraises : ∀ cause, (∃ s', lookup latitude longitude s = .error cause s') ↔ ∃ position,
      s.provider.projection.locate latitude longitude = .ok position ∧
        s.Escapes position.tileKey cause := by
    intro cause
    simp only [lookup_raises_iff, hcoherent.rasterOf_escapes_iff honly]
  have hunstaged : s.host.network.Only (Reply.FailsAs Failure.Unstaged) :=
    fun url r hmay cause hcause => (honly url r hmay cause hcause).unstaged
  refine ⟨hraises, ?_, fun answer s' hrun => classified_of_lookup hunstaged hrun⟩
  intro hrequest cause s' hrun
  obtain ⟨position, -, hescapes⟩ := (hraises cause).mp ⟨s', hrun⟩
  exact hescapes.of_request (hkept _ hrequest).2

/-- So a listing service that sends nothing but brackets is not without a listing: the query
raises.  Over a directory with a listing of no tiles, there is no tile. -/
theorem lookup_classifies_nested :
    let s : Service := ⟨.fixed, .bare ⟨[], [.response 200 "OK" [nestedBody 100000] none]⟩⟩
    let t : Service := ⟨.fixed, ⟨.barren, ⟨[], []⟩, ∅⟩⟩
    s.Opened ∧ s.host.network.Only Reply.Orderly ∧
      (∃ s', lookup 46.95 7.44 s = .error ⟨.nesting,
        "maximum recursion depth exceeded while decoding a JSON array from a unicode string"⟩ s') ∧
      ∃ answer t', lookup 46.95 7.44 t = .ok answer t' ∧ t.Verdict answer.position .noTile 0.0 := by
  intro s t
  have hopened : s.Opened := .intro .fixed (Provider.create_bare _ 10.0 false)
  have horderly : s.host.network.Only Reply.Orderly :=
    Network.only_shared fun url cause hcause => by cases hcause
  have htext : s.host.network.text listingServiceUrl =
      .ok (Text.decodeUtf8 (.empty ++ nestedBody 100000)) := rfl
  rw [ByteArray.empty_append] at htext
  have hdeep : Json.depthLimit < 100000 := by decide
  have hescapes : s.Escapes (Position.tileKey ⟨2600000, 1200000⟩)
      ⟨.nesting, (ReplyFault.tooDeep .array).message⟩ :=
    .listing rfl (.nesting (exists?_bare _ 10.0 false) htext (listingAddress_nestedBody hdeep))
  refine ⟨hopened, horderly, ?_, ?_⟩
  · exact ((lookup_classifies hopened horderly [] 46.95 7.44).1 _).mpr
      ⟨_, Projection.locate_fixed, hescapes⟩
  · obtain ⟨t', hrun, -⟩ := lookup_barren ⟨[], []⟩
    have honly : t.host.network.Only Reply.Orderly := fun url r hmay => absurd hmay List.not_mem_nil
    have hclassified :=
      (lookup_classifies (opened_barren ⟨[], []⟩) honly [] 46.95 7.44).2.2 _ _ hrun
    exact ⟨_, t', hrun, (hclassified.decided nofun _ _).mp ⟨rfl, rfl⟩⟩

end Service

end PointElevation
