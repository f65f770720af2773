import PointElevation.Proofs.Memory.Recorded

/-!
# A memory does as the stages without one

However a memory over some stages is used, a key that is not held is answered as the stages answer
it, at the cost of their calls, and only a raster that is found changes what is held.  A key that is
held costs nothing; its raster is the first that was offered since the memory was last emptied, and
this is what the stages would come to unless somebody has put it there.

* `MemoryTurn.offers` are the rasters that were offered along a run, whether they came in or not,
  since the memory was last emptied.  `lookup_offers` is the invariant: the first of them for a key
  is the one that is held.
* `uncached_of_held` is the invariant of a run in which no raster is put into the memory.
-/

namespace PointElevation

variable {ε σ : Type}

/-! ## Offers -/

namespace MemoryTurn

/-- The rasters that were offered up to the end of a turn, given those before it.  One that finds no
room is the first after the memory was emptied. -/
def addOffer (entries : List (TileKey × Raster)) (q : MemoryTurn ε σ) : List (TileKey × Raster) :=
  match q.change with
  | .nothing => entries
  | .cleared => []
  | .brought key raster =>
      if !q.before.1.holds key && q.before.1.overfull then [(key, raster)]
      else entries ++ [(key, raster)]

/-- The rasters that were offered since the memory was made, cleared or emptied, the oldest
first. -/
def offers (turns : List (MemoryTurn ε σ)) : List (TileKey × Raster) := turns.foldl addOffer []

theorem offers_concat (turns : List (MemoryTurn ε σ)) (q : MemoryTurn ε σ) :
    offers (turns ++ [q]) = addOffer (offers turns) q := by
  rw [offers, List.foldl_append, List.foldl_cons, List.foldl_nil, offers]

end MemoryTurn

section Offers

variable {entries : List (TileKey × Raster)} {m : RasterMemory}

/-- Of two lists, the first that has an entry for a key counts. -/
theorem lookup_concat (key : TileKey) (raster : Raster) (other : TileKey) :
    (entries ++ [(key, raster)]).lookup other =
      (entries.lookup other).or (if other = key then some raster else none) := by
  rw [List.lookup_append]
  by_cases hkey : other = key
  · rw [if_pos hkey, hkey, List.lookup_cons_self]
  · rw [if_neg hkey, List.lookup_cons, beq_false_of_ne hkey, List.lookup_nil]

/-- A raster that is offered is held if there is none for its key, and then nothing but what was
held before is for the other keys, unless the memory was emptied. -/
theorem find?_insert (h : ∀ key, m.find? key = entries.lookup key) (key : TileKey)
    (raster : Raster) (other : TileKey) :
    (m.insert key raster).find? other =
      (if !m.holds key && m.overfull then [(key, raster)]
        else entries ++ [(key, raster)]).lookup other := by
  cases hheld : m.holds key with
  | true =>
      rw [RasterMemory.insert_of_held hheld, Bool.not_true, Bool.false_and, if_neg (by decide),
        lookup_concat, h]
      split
      · rename_i hkey
        obtain ⟨held, hfind⟩ := Option.isSome_iff_exists.mp hheld
        rw [hkey, ← h, hfind, Option.some_or]
      · rw [Option.or_none]
  | false =>
      cases hover : m.overfull with
      | true =>
          rw [RasterMemory.insert_of_overfull hheld hover]
          rfl
      | false =>
          rw [RasterMemory.insert_of_room hheld hover, Bool.and_false, if_neg (by decide),
            lookup_concat, ← h, RasterMemory.find?, List.lookup_cons]
          by_cases hkey : other = key
          · have hfree : m.find? key = none := RasterMemory.holds_eq_false_iff.mp hheld
            rw [if_pos hkey, hkey, hfree, beq_self_eq_true, Option.none_or]
          · rw [if_neg hkey, beq_false_of_ne hkey, Option.or_none]
            rfl

/-- What is held for a key is the first raster that was offered for it. -/
theorem lookup_addOffer {p : Pipeline ε σ} {t : RasterMemory × σ}
    (h : ∀ key, t.1.find? key = entries.lookup key) (step : MemoryStep) (key : TileKey) :
    (p.turn t step).after.1.find? key =
      (MemoryTurn.addOffer entries (p.turn t step)).lookup key := by
  rw [Pipeline.memory_turn, MemoryTurn.addOffer, Pipeline.turn_before]
  cases (p.turn t step).change with
  | nothing => exact h key
  | cleared => rfl
  | brought other raster => exact find?_insert h other raster key

theorem lookup_offers {p : Pipeline ε σ} (limit : Int) (s : σ) (steps : List MemoryStep)
    (key : TileKey) :
    (p.run (.empty limit, s) steps).2.1.find? key =
      (MemoryTurn.offers (p.run (.empty limit, s) steps).1).lookup key := by
  refine Pipeline.run_keeps (fun past t => ∀ key, t.1.find? key =
    (MemoryTurn.offers past).lookup key) ?_ steps (fun _ => rfl) key
  intro past t step h key
  rw [MemoryTurn.offers_concat]
  exact lookup_addOffer h step key

end Offers

/-! ## Turns over recorded stages -/

namespace Stages

variable {stages : Stages ε} {t : RasterMemory × List StageCall} {key : TileKey} {raster : Raster}

/-- A key that is not held is answered as without a memory, which takes in what was found. -/
theorem turn_get_of_free (h : t.1.find? key = none) :
    stages.pipeline.turn t (.get key) =
      ⟨.get key, t, .found <$> stages.uncached key,
        (match stages.uncached key with
          | .ok (some raster) => t.1.insert key raster
          | _ => t.1, t.2 ++ stages.calls key)⟩ := by
  rw [Pipeline.turn_get_of_free h, pipeline_load]
  cases stages.uncached key with
  | error fault => rfl
  | ok found =>
      cases found with
      | none => rfl
      | some raster =>
          -- what is said when the memory is emptied is no call
          have hsaid : (if t.1.overfull then stages.pipeline.emptied (t.2 ++ stages.calls key)
              else t.2 ++ stages.calls key) = t.2 ++ stages.calls key := ite_self _
          simp only [recorded_ok, hsaid]
          rfl

/-- What is found for a key that is not held is brought. -/
theorem change_get_of_free (h : t.1.find? key = none) :
    (stages.pipeline.turn t (.get key)).change =
      match stages.uncached key with
      | .ok (some raster) => .brought key raster
      | _ => .nothing := by
  have hfree := RasterMemory.holds_eq_false_iff.mpr h
  rw [turn_get_of_free h]
  cases stages.uncached key with
  | error fault => rfl
  | ok found =>
      cases found with
      | none => rfl
      | some raster =>
          change (if t.1.holds key then _ else _) = _
          rw [hfree, if_neg Bool.false_ne_true]

/-- A raster is brought by the one who puts it there, or by the stages. -/
theorem uncached_of_brought {step : MemoryStep}
    (h : (stages.pipeline.turn t step).change = .brought key raster) :
    step = .put key raster ∨ stages.uncached key = .ok (some raster) := by
  cases step with
  | put other offered =>
      cases h
      exact .inl rfl
  | holds other => cases h
  | clear => cases h
  | get other =>
      right
      cases hfind : t.1.find? other with
      | some held =>
          rw [Pipeline.change_get_of_held hfind] at h
          cases h
      | none =>
          rw [change_get_of_free hfind] at h
          split at h
          · cases h
            assumption
          · cases h

/-- As long as nobody puts a raster into the memory, what is held is what the stages come to. -/
theorem uncached_of_held (stages : Stages ε) (limit : Int) (steps : List MemoryStep)
    (hputs : ∀ key raster, .put key raster ∉ steps) :
    ∀ entry ∈ (stages.pipeline.run (.empty limit, []) steps).2.1.held,
      stages.uncached entry.1 = .ok (some entry.2) := by
  refine Pipeline.run_keeps (fun past t =>
    (∀ key raster, .put key raster ∉ past.map MemoryTurn.step) →
      ∀ entry ∈ t.1.held, stages.uncached entry.1 = .ok (some entry.2)) ?_ steps
    (fun _ entry hmem => absurd hmem List.not_mem_nil) ?_
  · intro past t step h hputs entry hmem
    rw [List.map_append, List.map_singleton, Pipeline.turn_step] at hputs
    have hpast := h fun key raster hput => hputs key raster (List.mem_append_left _ hput)
    rw [Pipeline.memory_turn] at hmem
    cases hchange : (stages.pipeline.turn t step).change with
    | nothing =>
        rw [hchange] at hmem
        exact hpast entry hmem
    | cleared =>
        rw [hchange] at hmem
        exact absurd hmem List.not_mem_nil
    | brought key raster =>
        rw [hchange] at hmem
        rcases RasterMemory.mem_held_insert hmem with rfl | hheld
        · rcases uncached_of_brought hchange with rfl | huncached
          · exact absurd (List.mem_append_right _ List.mem_cons_self) (hputs key raster)
          · exact huncached
        · exact hpast entry hheld
  · rw [Pipeline.map_step_run]
    exact hputs

end Stages

/-- The memory simulates the stages below it.  For every behaviour of the index, the store and the
decoder, and after every run, a key that is not held is answered as without a memory, with one call
of the index, one of the store if the key is known, and one of the decoder if there is a file, and
what is held changes only if there is a raster to return.  A key that is held is answered with the
first raster that was offered for it since the memory was last emptied, and nothing is called or
changed.  So if nobody has put a raster into the memory, every key is answered as without it. -/
theorem get_simulates_uncached (stages : Stages ε) (limit : Int) (steps : List MemoryStep)
    (key : TileKey) :
    let (turns, t) := stages.pipeline.run (.empty limit, []) steps
    let q := stages.pipeline.turn t (.get key)
    (t.1.holds key = false →
      q.answer = .found <$> stages.uncached key ∧ q.after.2 = t.2 ++ stages.calls key ∧
        ((∀ raster, q.answer ≠ .ok (.found (some raster))) → q.after.1 = t.1)) ∧
    (t.1.holds key = true → ∃ raster, (MemoryTurn.offers turns).lookup key = some raster ∧
      q.answer = .ok (.found (some raster)) ∧ q.after = t) ∧
    ((∀ key raster, .put key raster ∉ steps) → q.answer = .found <$> stages.uncached key) := by
  have hoffers := lookup_offers (p := stages.pipeline) limit [] steps key
  have huncached := Stages.uncached_of_held stages limit steps
  generalize stages.pipeline.run (.empty limit, []) steps = taken at hoffers huncached ⊢
  obtain ⟨turns, t⟩ := taken
  dsimp only at hoffers huncached ⊢
  refine ⟨?_, ?_, ?_⟩
  · intro hfree
    rw [Stages.turn_get_of_free (RasterMemory.holds_eq_false_iff.mp hfree)]
    refine ⟨rfl, rfl, fun hnothing => ?_⟩
    dsimp only at hnothing ⊢
    cases hfound : stages.uncached key with
    | error fault => rfl
    | ok found =>
        cases found with
        | none => rfl
        | some raster =>
            rw [hfound] at hnothing
            exact absurd rfl (hnothing raster)
  · intro hheld
    obtain ⟨raster, hfind⟩ := Option.isSome_iff_exists.mp hheld
    rw [Pipeline.turn_get_of_held hfind]
    exact ⟨raster, hoffers.symm.trans hfind, rfl, rfl⟩
  · intro hputs
    cases hfind : t.1.find? key with
    | none => rw [Stages.turn_get_of_free hfind]
    | some raster =>
        rw [Pipeline.turn_get_of_held hfind,
          huncached hputs (key, raster) (RasterMemory.mem_held hfind)]
        rfl

/-- After two rasters were put in for one key, the first of them is found; a key with a torn file
fails again and again, at the full cost; and while nobody has put in anything, a key that was
forgotten meanwhile is found as before. -/
theorem get_simulates_uncached_torn :
    let t := (Stages.onLand.pipeline.run (.empty 0, [])
      [.put "alp" (.ofFn 1 1 fun _ _ => .ofInt 7), .put "alp" default, .get "torn"]).2
    let again := Stages.onLand.pipeline.turn t (.get "torn")
    again.answer = .error "torn" ∧ again.after.2 = t.2 ++
        [.address "torn", .file "torn" "torn", .decode (.ofLocation ["torn"])] ∧
      (Stages.onLand.pipeline.turn t (.get "alp")).answer =
        .ok (.found (some (.ofFn 1 1 fun _ _ => .ofInt 7))) ∧
      (Stages.onLand.pipeline.turn (Stages.onLand.pipeline.run (.empty 0, [])
        [.get "alp", .get "bern"]).2 (.get "alp")).answer = .ok (.found (some default)) := by
  obtain ⟨hfree, -, -⟩ := get_simulates_uncached Stages.onLand 0
    [.put "alp" (.ofFn 1 1 fun _ _ => .ofInt 7), .put "alp" default, .get "torn"] "torn"
  obtain ⟨hanswer, hcalls, -⟩ := hfree rfl
  obtain ⟨-, hheld, -⟩ := get_simulates_uncached Stages.onLand 0
    [.put "alp" (.ofFn 1 1 fun _ _ => .ofInt 7), .put "alp" default, .get "torn"] "alp"
  obtain ⟨raster, hfirst, hfound, -⟩ := hheld rfl
  obtain ⟨-, -, huncached⟩ := get_simulates_uncached Stages.onLand 0 [.get "alp", .get "bern"] "alp"
  have hforgotten := huncached (by simp)
  cases hfirst
  exact ⟨hanswer, hcalls, hfound, hforgotten⟩

end PointElevation
