import PointElevation.Proofs.Number.Order
import PointElevation.Proofs.Number.Widening
import PointElevation.Proofs.Provider.Run

/-!
# Batches of points

A batch is the queries for its points, one after the other (`Service.lookupAll_of_performAll`), with
the range of the heights that were found; and it is nothing at all if one of the points is no pair.

Behind the range is the fold with which the least and the greatest of some numbers are found
(`Batch.foldl_choice`).  It depends on every height being a number, since a comparison with what is
none chooses wrongly: a height comes from a sample that is a number, and stays one
(`Service.Answers.isNaN_elevation`).
-/

namespace PointElevation

open PointElevation.Number (rank le_iff_rank lt_iff_rank)

/-! ## Ranges -/

/-- A range for some answers: zero twice if none of them has a height, and otherwise two of their
heights, between which the others lie. -/
inductive Batch.Spans (answers : List Lookup) : Float × Float → Prop
  | nothing : (∀ answer ∈ answers, answer.status ≠ .ok) → Spans answers (0.0, 0.0)
  | heights {low high : Lookup} : low ∈ answers → low.status = .ok → high ∈ answers →
      high.status = .ok →
        (∀ answer ∈ answers, answer.status = .ok →
          low.elevation ≤ answer.elevation ∧ answer.elevation ≤ high.elevation) →
          Spans answers (low.elevation, high.elevation)

namespace Batch

/-- A choice that goes on with the better of two numbers ends with one of them, and none of them is
better. -/
theorem foldl_choice {choose : Float → Float → Float} (better : Float → Float → Prop)
    (hrefl : ∀ a, better a a) (htrans : ∀ a b c, better a b → better b c → better a c)
    (hchoose : ∀ a b, a.isNaN = false → b.isNaN = false →
      (choose a b = a ∨ choose a b = b) ∧ better (choose a b) a ∧ better (choose a b) b)
    {first : Float} {others : List Float} (hfirst : first.isNaN = false)
    (hothers : ∀ x ∈ others, x.isNaN = false) :
    others.foldl choose first ∈ first :: others ∧
      ∀ x ∈ first :: others, better (others.foldl choose first) x := by
  induction others generalizing first with
  | nil =>
      refine ⟨List.mem_cons_self, fun x hx => ?_⟩
      rw [List.mem_singleton.mp hx]
      exact hrefl first
  | cons second others ih =>
      have hsecond := hothers second List.mem_cons_self
      obtain ⟨hone, hleft, hright⟩ := hchoose first second hfirst hsecond
      have hnumber : (choose first second).isNaN = false := by
        rcases hone with heq | heq
        · rw [heq]
          exact hfirst
        · rw [heq]
          exact hsecond
      obtain ⟨hmem, hbetter⟩ := ih hnumber fun x hx => hothers x (List.mem_cons_of_mem _ hx)
      have hchosen := hbetter _ List.mem_cons_self
      rw [List.foldl_cons]
      constructor
      · rcases List.mem_cons.mp hmem with heq | hmem
        · rw [heq]
          rcases hone with heq | heq <;> simp [heq]
        · exact List.mem_cons_of_mem _ (List.mem_cons_of_mem _ hmem)
      · intro x hx
        rcases List.mem_cons.mp hx with rfl | hx
        · exact htrans _ _ _ hchosen hleft
        · rcases List.mem_cons.mp hx with rfl | hx
          · exact htrans _ _ _ hchosen hright
          · exact hbetter x (List.mem_cons_of_mem _ hx)

section Choices

variable {a b : Float}

theorem lesser_choice (ha : a.isNaN = false) (hb : b.isNaN = false) :
    (lesser a b = a ∨ lesser a b = b) ∧ rank (lesser a b) ≤ rank a ∧
      rank (lesser a b) ≤ rank b := by
  unfold lesser
  by_cases hlt : b < a
  · rw [if_pos hlt]
    exact ⟨.inr rfl, ((lt_iff_rank hb ha).mp hlt).le, le_rfl⟩
  · rw [if_neg hlt]
    exact ⟨.inl rfl, le_rfl, not_lt.mp (mt (lt_iff_rank hb ha).mpr hlt)⟩

theorem greater_choice (ha : a.isNaN = false) (hb : b.isNaN = false) :
    (greater a b = a ∨ greater a b = b) ∧ rank a ≤ rank (greater a b) ∧
      rank b ≤ rank (greater a b) := by
  unfold greater
  by_cases hgt : b > a
  · rw [if_pos hgt]
    exact ⟨.inr rfl, ((lt_iff_rank ha hb).mp hgt).le, le_rfl⟩
  · rw [if_neg hgt]
    exact ⟨.inl rfl, le_rfl, not_lt.mp (mt (lt_iff_rank ha hb).mpr hgt)⟩

end Choices

/-- The ends of the range of some numbers are among them, and bound them. -/
theorem rangeOf_bounds {numbers : List Float} (hne : numbers ≠ [])
    (h : ∀ x ∈ numbers, x.isNaN = false) :
    (rangeOf numbers).1 ∈ numbers ∧ (rangeOf numbers).2 ∈ numbers ∧
      ∀ x ∈ numbers, (rangeOf numbers).1 ≤ x ∧ x ≤ (rangeOf numbers).2 := by
  cases numbers with
  | nil => exact absurd rfl hne
  | cons first others =>
      have hfirst := h first List.mem_cons_self
      have hothers : ∀ x ∈ others, x.isNaN = false := fun x hx => h x (List.mem_cons_of_mem _ hx)
      obtain ⟨hlow, hleast⟩ := foldl_choice (fun a b => rank a ≤ rank b)
        (fun _ => le_rfl) (fun _ _ _ => le_trans) (fun _ _ => lesser_choice) hfirst hothers
      obtain ⟨hhigh, hgreatest⟩ := foldl_choice (fun a b => rank b ≤ rank a)
        (fun _ => le_rfl) (fun _ _ _ hab hbc => le_trans hbc hab) (fun _ _ => greater_choice)
        hfirst hothers
      refine ⟨hlow, hhigh, fun x hx => ⟨?_, ?_⟩⟩
      · exact (le_iff_rank (h _ hlow) (h x hx)).mpr (hleast x hx)
      · exact (le_iff_rank (h x hx) (h _ hhigh)).mpr (hgreatest x hx)

theorem mem_heights {answers : List Lookup} {x : Float} :
    x ∈ heights answers ↔ ∃ answer ∈ answers, answer.status = .ok ∧ answer.elevation = x := by
  simp [heights, Lookup.hasData, and_assoc]

/-- The range of a batch spans its answers, if all heights are numbers. -/
theorem spans_ofLookups {answers : List Lookup}
    (h : ∀ answer ∈ answers, answer.status = .ok → answer.elevation.isNaN = false) :
    Spans answers (ofLookups answers).range := by
  have hnumbers : ∀ x ∈ heights answers, x.isNaN = false := by
    intro x hx
    obtain ⟨answer, hmem, hok, rfl⟩ := mem_heights.mp hx
    exact h answer hmem hok
  cases hheights : heights answers with
  | nil =>
      have hrange : (ofLookups answers).range = (0.0, 0.0) := by rw [ofLookups, hheights, rangeOf]
      rw [hrange]
      refine .nothing fun answer hmem hok => ?_
      have hheight := mem_heights.mpr ⟨answer, hmem, hok, rfl⟩
      rw [hheights] at hheight
      exact List.not_mem_nil hheight
  | cons first others =>
      have hne : heights answers ≠ [] := by
        rw [hheights]
        exact List.cons_ne_nil _ _
      obtain ⟨hlow, hhigh, hbounds⟩ := rangeOf_bounds hne hnumbers
      obtain ⟨low, hlowMem, hlowOk, hlowEq⟩ := mem_heights.mp hlow
      obtain ⟨high, hhighMem, hhighOk, hhighEq⟩ := mem_heights.mp hhigh
      have hrange : (ofLookups answers).range = (low.elevation, high.elevation) :=
        Prod.ext hlowEq.symm hhighEq.symm
      rw [hrange]
      refine .heights hlowMem hlowOk hhighMem hhighOk fun answer hmem hok => ?_
      rw [hlowEq, hhighEq]
      exact hbounds _ (mem_heights.mpr ⟨answer, hmem, hok, rfl⟩)

end Batch

/-! ## One query after another -/

/-- A point as a list of two numbers. -/
def pointOf (point : Float × Float) : List Float := [point.1, point.2]

/-- The queries for some points, one after the other. -/
def Action.lookups (points : List (Float × Float)) : List Action :=
  points.map fun point => .lookup point.1 point.2

theorem Lookup.isNaN_ofFound {position : Position} {found : Option Raster}
    (h : (ofFound position found).status = .ok) :
    (ofFound position found).elevation.isNaN = false := by
  unfold ofFound at h ⊢
  cases found with
  | none => cases h
  | some raster =>
      cases hsample : raster.sample position with
      | error missing =>
          simp only [hsample] at h
          cases h
      | ok value =>
          simp only [hsample] at h ⊢
          by_cases hmissing : value.isNaN = true
          · rw [if_pos hmissing] at h
            cases h
          · rw [if_neg hmissing]
            exact value.isNaN_toFloat.trans (Bool.eq_false_iff.mpr hmissing)

theorem isNone_pair?_iff {point : List Float} :
    (pair? point).isNone = true ↔ point.length ≠ 2 := by
  match point with
  | [] => exact iff_of_true rfl (by decide)
  | [_] => exact iff_of_true rfl (by simp)
  | [_, _] => exact iff_of_false Bool.false_ne_true (not_not_intro rfl)
  | _ :: _ :: _ :: rest => exact iff_of_true rfl (by simp)

theorem Host.recast_bind {ε ε' σ α β : Type} (f : ε → ε') (first : EStateM ε σ β)
    (next : β → EStateM ε σ α) :
    recast f (first >>= next) = recast f first >>= fun b => recast f (next b) := by
  funext s
  simp only [recast, bind_apply]
  cases first s with
  | ok b s' => rfl
  | error fault s' => rfl

namespace Service

variable {s s' : Service} {points : List (Float × Float)}

/-- A height is a number. -/
theorem Answers.isNaN_elevation {latitude longitude : Float} {answer : Lookup}
    (h : s.Answers latitude longitude answer s') (hok : answer.status = .ok) :
    answer.elevation.isNaN = false := by
  cases h with
  | outside hplace _ => exact absurd hok (Projection.elevation_locate hplace).1
  | found _ _ _ => exact Lookup.isNaN_ofFound hok
  | degraded _ _ hanswer _ => exact absurd hok (Lookup.elevation_ofFault hanswer).1

theorem length_performAll (s : Service) (actions : List Action) :
    (s.performAll actions).1.length = actions.length := by
  induction actions generalizing s with
  | nil => rfl
  | cons action rest ih => rw [performAll, List.length_cons, List.length_cons, ih]

/-- If none of the queries raises anything, they are answered together as they are one by one. -/
theorem lookupAll_of_performAll
    (h : ∀ cause, .raised cause ∉ (s.performAll (Action.lookups points)).1) :
    ∃ answers, lookupAll points s = .ok answers (s.performAll (Action.lookups points)).2 ∧
      (s.performAll (Action.lookups points)).1 = answers.map .answer ∧
        ∀ answer ∈ answers, answer.status = .ok → answer.elevation.isNaN = false := by
  induction points generalizing s with
  | nil => exact ⟨[], rfl, rfl, fun _ hmem => absurd hmem List.not_mem_nil⟩
  | cons point rest ih =>
      cases hrun : lookup point.1 point.2 s with
      | error cause s₁ =>
          have hraised : .raised cause ∈ (s.performAll (Action.lookups (point :: rest))).1 := by
            simp [Action.lookups, performAll, perform, ending, hrun]
          exact absurd hraised (h cause)
      | ok answer s₁ =>
          have hall : s.performAll (Action.lookups (point :: rest)) =
              (.answer answer :: (s₁.performAll (Action.lookups rest)).1,
                (s₁.performAll (Action.lookups rest)).2) := by
            simp [Action.lookups, performAll, perform, ending, hrun]
          rw [hall] at h ⊢
          obtain ⟨answers, hrest, houtcomes, hnumbers⟩ :=
            ih (s := s₁) fun cause hmem => h cause (List.mem_cons_of_mem _ hmem)
          refine ⟨answer :: answers, ?_, ?_, ?_⟩
          · rw [lookupAll] at hrest
            simp only [lookupAll, List.mapM_cons, bind_apply, hrun, hrest, pure_apply]
          · rw [houtcomes, List.map_cons]
          · have hfirst := (ends_lookup point.1 point.2 s).of_ok hrun
            exact List.forall_mem_cons.mpr ⟨hfirst.isNaN_elevation, hnumbers⟩

/-! ## Batches -/

/-- Points that are pairs are looked up. -/
theorem fetchPoints_pointOf (points : List (Float × Float)) :
    fetchPoints (points.map pointOf) =
      (do
        let answers ← Host.recast .escaped (lookupAll points)
        pure (.ofLookups answers)) := by
  have hpairs : (points.map pointOf).filterMap pair? = points := by
    rw [List.filterMap_map]
    exact List.filterMap_some
  have hfind : (points.map pointOf).find? (fun point => (pair? point).isNone) = none := by
    rw [List.find?_eq_none]
    intro point hmem
    obtain ⟨pair, -, rfl⟩ := List.mem_map.mp hmem
    exact Bool.false_ne_true
  rw [fetchPoints, hfind, hpairs]

/-- If there are points that are no pairs, the first of them is complained of, before anything else
is done. -/
theorem fetchPoints_malformed {points : List (List Float)}
    (h : ∃ point ∈ points, point.length ≠ 2) (s : Service) :
    ∃ before point after, points = before ++ point :: after ∧
      (∀ earlier ∈ before, earlier.length = 2) ∧ point.length ≠ 2 ∧
        fetchPoints points s = .error (.malformedPoint point) s := by
  obtain ⟨malformed, hmem, hlength⟩ := h
  have hsome : (points.find? fun point => (pair? point).isNone).isSome = true :=
    List.find?_isSome.mpr ⟨malformed, hmem, isNone_pair?_iff.mpr hlength⟩
  obtain ⟨point, hfind⟩ := Option.isSome_iff_exists.mp hsome
  obtain ⟨hpoint, before, after, hpoints, hbefore⟩ := List.find?_eq_some_iff_append.mp hfind
  refine ⟨before, point, after, hpoints, fun earlier hearlier => ?_, isNone_pair?_iff.mp hpoint, ?_⟩
  · have hpair := hbefore earlier hearlier
    rw [Bool.not_eq_true'] at hpair
    exact Decidable.not_not.mp (mt isNone_pair?_iff.mpr (Bool.eq_false_iff.mp hpair))
  · rw [fetchPoints, hfind]
    rfl

/-- A batch in two parts is one part after the other. -/
theorem fetchPoints_append (first second : List (Float × Float)) :
    fetchPoints ((first ++ second).map pointOf) =
      (do
        let x ← fetchPoints (first.map pointOf)
        let y ← fetchPoints (second.map pointOf)
        pure (.ofLookups (x.lookups ++ y.lookups))) := by
  have happend : lookupAll (first ++ second) =
      (do
        let xs ← lookupAll first
        let ys ← lookupAll second
        pure (xs ++ ys)) := List.mapM_append
  rw [fetchPoints_pointOf, fetchPoints_pointOf, fetchPoints_pointOf, happend]
  simp only [Host.recast_bind, bind_assoc, pure_bind]
  rfl

/-- Batches are single queries.  If one of the points is no pair, the first such point is complained
of and nothing at all has changed.  Otherwise, and if none of the queries raises anything when they
are made one after the other, a batch has their answers, in their order and with the state that they
leave behind, and a range that spans them.  A batch of two lists of points is the batch of the one
followed by that of the other. -/
theorem fetchPoints_eq_lookups (s : Service) :
    (∀ points : List (List Float), (∃ point ∈ points, point.length ≠ 2) →
      ∃ before point after, points = before ++ point :: after ∧
        (∀ earlier ∈ before, earlier.length = 2) ∧ point.length ≠ 2 ∧
        fetchPoints points s = .error (.malformedPoint point) s ∧
        (BatchFault.malformedPoint point).message =
          "Point must be [lat, lon], got " ++ listText point) ∧
    (∀ points : List (Float × Float),
      let singly := s.performAll (Action.lookups points)
      (∀ cause, .raised cause ∉ singly.1) →
        ∃ batch, fetchPoints (points.map pointOf) s = .ok batch singly.2 ∧
          singly.1 = batch.lookups.map .answer ∧ batch.lookups.length = points.length ∧
          Batch.Spans batch.lookups batch.range) ∧
    ∀ first second : List (Float × Float),
      fetchPoints ((first ++ second).map pointOf) s =
        (do
          let x ← fetchPoints (first.map pointOf)
          let y ← fetchPoints (second.map pointOf)
          pure (Batch.ofLookups (x.lookups ++ y.lookups))) s := by
  refine ⟨?_, ?_, fun first second => by rw [fetchPoints_append]⟩
  · intro points hmalformed
    obtain ⟨before, point, after, hpoints, hbefore, hpoint, hrun⟩ :=
      fetchPoints_malformed hmalformed s
    exact ⟨before, point, after, hpoints, hbefore, hpoint, hrun, rfl⟩
  · intro points singly hraised
    obtain ⟨answers, hrun, houtcomes, hnumbers⟩ := lookupAll_of_performAll hraised
    have hlength : answers.length = points.length := by
      have hcount := congrArg List.length houtcomes
      rw [length_performAll, List.length_map, Action.lookups, List.length_map] at hcount
      exact hcount.symm
    refine ⟨.ofLookups answers, ?_, houtcomes, hlength, Batch.spans_ofLookups hnumbers⟩
    rw [fetchPoints_pointOf, bind_apply, Host.recast, hrun]
    rfl

end Service

/-- A projection for points that are given in metres. -/
def Projection.plane : Projection := fun x y => (x, y)

/-- A provider that holds two pixels of a tile, both below the level of the sea. -/
def Service.hollow : Service where
  provider := { Provider.standard 10.0 false with
    projection := .plane
    memory := ⟨100, [("2600-1200", .ofFn 1 2 fun _ column => .ofInt (column - 7))]⟩ }
  host := .bare ⟨[], []⟩

def Outcome.isRaised : Outcome → Bool
  | .raised _ => true
  | _ => false

/-- A list with a single number is complained of; two points below the level of the sea and one
without a height are spanned by the heights of the two. -/
theorem Service.fetchPoints_eq_lookups_hollow :
    (∃ point, point.length ≠ 2 ∧
      fetchPoints [[2600000.5, 1200999.5], [7.0], []] hollow =
        .error (.malformedPoint point) hollow) ∧
    ∃ batch s, fetchPoints [[2600000.5, 1200999.5], [0.0, 0.0], [2600002.5, 1200999.0]] hollow =
        .ok batch s ∧ batch.lookups.length = 3 ∧ Batch.Spans batch.lookups batch.range := by
  obtain ⟨hmalformed, hbatch, -⟩ := fetchPoints_eq_lookups hollow
  obtain ⟨-, point, -, -, -, hpoint, hcomplaint, -⟩ :=
    hmalformed [[2600000.5, 1200999.5], [7.0], []] ⟨[7.0], by simp, by simp⟩
  have hnone : (hollow.performAll (Action.lookups [(2600000.5, 1200999.5), (0.0, 0.0),
      (2600002.5, 1200999.0)])).1.any Outcome.isRaised = false := by
    decide +kernel
  obtain ⟨batch, hrun, -, hlength, hspans⟩ := hbatch
    [(2600000.5, 1200999.5), (0.0, 0.0), (2600002.5, 1200999.0)] fun cause hmem =>
      absurd (List.any_eq_true.mpr ⟨_, hmem, rfl⟩) (Bool.eq_false_iff.mp hnone)
  exact ⟨⟨point, hpoint, hcomplaint⟩, batch, _, hrun, hlength, hspans⟩

end PointElevation
