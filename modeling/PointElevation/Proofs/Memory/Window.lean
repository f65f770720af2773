import PointElevation.Proofs.Memory.Recorded

/-!
# The window of a memory

The memory keeps no account of what it holds: it grows until it is over its limit, and then the
next raster finds it emptied.  So it always holds the last few of the rasters that came in, and how
many is a matter of counting them: with a limit of `m`, the numbers go from one to `m + 1` and start
again.  A limit below zero is as good as zero.

* `MemoryTurn.arrivals` are the rasters that came in along a run since it was last cleared.  A
  raster that is brought for a key that is held does not come in.
* `window` is the length of the cycle, and `window_succ_of_le` and `window_succ_of_lt` are its two
  steps: the window grows, or it starts again.
* `Windowed` is the invariant: what is held are the arrivals inside the window.
-/

namespace PointElevation

variable {ε σ : Type}

/-! ## The cycle -/

/-- How many of `n` rasters that came in are held with a limit. -/
def window (limit : Int) (n : Nat) : Nat :=
  if n = 0 then 0 else (n - 1) % (limit.toNat + 1) + 1

@[simp] theorem window_zero (limit : Int) : window limit 0 = 0 := rfl

theorem window_succ (limit : Int) (n : Nat) : window limit (n + 1) = n % (limit.toNat + 1) + 1 :=
  rfl

theorem window_le (limit : Int) (n : Nat) : window limit n ≤ limit.toNat + 1 := by
  cases n with
  | zero => exact Nat.zero_le _
  | succ n => exact Nat.mod_lt n (Nat.succ_pos _)

theorem window_le_self (limit : Int) (n : Nat) : window limit n ≤ n := by
  cases n with
  | zero => exact Nat.le_refl _
  | succ n => exact Nat.succ_le_succ (Nat.mod_le n _)

/-- As long as the limit is not passed, the window grows. -/
theorem window_succ_of_le {limit : Int} {n : Nat} (h : (window limit n : Int) ≤ limit) :
    window limit (n + 1) = window limit n + 1 := by
  cases n with
  | zero => rw [window_succ, Nat.zero_mod, window_zero]
  | succ n =>
      rw [window_succ] at h
      have hroom : n % (limit.toNat + 1) + 1 < limit.toNat + 1 := by omega
      rw [window_succ, window_succ, ← Nat.mod_add_mod, Nat.mod_eq_of_lt hroom]

/-- Once it is passed, the window starts again. -/
theorem window_succ_of_lt {limit : Int} {n : Nat} (h : limit < (window limit n : Int)) :
    window limit (n + 1) = 1 := by
  cases n with
  | zero => rw [window_succ, Nat.zero_mod]
  | succ n =>
      have hlast : n % (limit.toNat + 1) + 1 = limit.toNat + 1 := by
        have hle := window_le limit (n + 1)
        rw [window_succ] at h hle
        omega
      rw [window_succ, ← Nat.mod_add_mod, hlast, Nat.mod_self]

/-! ## What came in -/

namespace MemoryTurn

/-- The rasters that came in up to the end of a turn, given those that came in before it. -/
def addArrival (entries : List (TileKey × Raster)) (q : MemoryTurn ε σ) :
    List (TileKey × Raster) :=
  match q.change with
  | .nothing => entries
  | .cleared => []
  | .brought key raster => if q.before.1.holds key then entries else (key, raster) :: entries

/-- The rasters that came in since the memory was made or last cleared, the newest first. -/
def arrivals (turns : List (MemoryTurn ε σ)) : List (TileKey × Raster) := turns.foldl addArrival []

theorem arrivals_concat (turns : List (MemoryTurn ε σ)) (q : MemoryTurn ε σ) :
    arrivals (turns ++ [q]) = addArrival (arrivals turns) q := by
  rw [arrivals, List.foldl_append, List.foldl_cons, List.foldl_nil, arrivals]

end MemoryTurn

/-! ## The invariant -/

/-- What a memory holds are the last of the rasters that came in, as many as the window has, and no
two of them for one key. -/
structure Windowed (limit : Int) (entries : List (TileKey × Raster)) (m : RasterMemory) : Prop where
  limit_eq : m.limit = limit
  held_eq : m.held = entries.take (window limit entries.length)
  nodup : (m.held.map Prod.fst).Nodup

namespace Windowed

variable {limit : Int} {entries : List (TileKey × Raster)} {m : RasterMemory} {key : TileKey}
  {raster : Raster}

theorem size_eq (h : Windowed limit entries m) : m.size = window limit entries.length := by
  rw [RasterMemory.size, h.held_eq, List.length_take, Nat.min_eq_left (window_le_self _ _)]

theorem cleared (h : Windowed limit entries m) : Windowed limit [] m.clear :=
  ⟨h.limit_eq, rfl, List.nodup_nil⟩

/-- A raster that comes in is the first of the window, which has grown or started again. -/
theorem inserted (h : Windowed limit entries m) (hfree : m.holds key = false) :
    Windowed limit ((key, raster) :: entries) (m.insert key raster) := by
  have hnew := RasterMemory.notMem_keys (RasterMemory.holds_eq_false_iff.mp hfree)
  have hover : m.overfull = decide (limit < (window limit entries.length : Int)) := by
    rw [RasterMemory.overfull, h.limit_eq, h.size_eq]
  by_cases hpassed : limit < (window limit entries.length : Int)
  · rw [RasterMemory.insert_of_overfull hfree (by rw [hover]; exact decide_eq_true hpassed)]
    refine ⟨h.limit_eq, ?_, List.nodup_singleton _⟩
    rw [List.length_cons, window_succ_of_lt hpassed, List.take_succ_cons, List.take_zero]
  · rw [RasterMemory.insert_of_room hfree (by rw [hover]; exact decide_eq_false hpassed)]
    refine ⟨h.limit_eq, ?_, List.nodup_cons.mpr ⟨hnew, h.nodup⟩⟩
    rw [List.length_cons, window_succ_of_le (Int.not_lt.mp hpassed), List.take_succ_cons,
      ← h.held_eq]

/-- Every turn moves the window as it should. -/
theorem turn {p : Pipeline ε σ} {t : RasterMemory × σ} (h : Windowed limit entries t.1)
    (step : MemoryStep) :
    Windowed limit (MemoryTurn.addArrival entries (p.turn t step)) (p.turn t step).after.1 := by
  rw [Pipeline.memory_turn, MemoryTurn.addArrival, Pipeline.turn_before]
  cases (p.turn t step).change with
  | nothing => exact h
  | cleared => exact h.cleared
  | brought key raster =>
      dsimp only
      cases hheld : t.1.holds key with
      | true =>
          rw [if_pos rfl, RasterMemory.insert_of_held hheld]
          exact h
      | false =>
          rw [if_neg (by decide)]
          exact h.inserted hheld

theorem run {p : Pipeline ε σ} (limit : Int) (s : σ) (steps : List MemoryStep) :
    Windowed limit (MemoryTurn.arrivals (p.run (.empty limit, s) steps).1)
      (p.run (.empty limit, s) steps).2.1 := by
  have hstart : Windowed limit (MemoryTurn.arrivals ([] : List (MemoryTurn ε σ))) (.empty limit) :=
    ⟨rfl, rfl, List.nodup_nil⟩
  refine Pipeline.run_keeps (fun past t => Windowed limit (MemoryTurn.arrivals past) t.1) ?_ steps
    hstart
  intro past t step h
  rw [MemoryTurn.arrivals_concat]
  exact h.turn step

end Windowed

/-- The window closes over what came in.  However a memory that starts empty is used, whatever its
limit is and whatever fails below it: once `n` rasters came in since the start or since it was last
cleared, it holds `(n - 1) mod (M + 1) + 1` of them, which are the last ones with the values with
which they came in, where `M` is the limit or zero.  So it never holds more than `M + 1` rasters,
and the last one that came in is held. -/
theorem window_of_arrivals (p : Pipeline ε σ) (limit : Int) (s : σ) (steps : List MemoryStep) :
    let (turns, m, _) := p.run (.empty limit, s) steps
    let entries := MemoryTurn.arrivals turns
    (entries ≠ [] →
      m.size = (entries.length - 1) % ((max limit 0).toNat + 1) + 1 ∧
        m.held = entries.take m.size ∧ (m.held.map Prod.fst).Nodup) ∧
    m.size ≤ (max limit 0).toNat + 1 ∧
    ∀ key raster, entries.head? = some (key, raster) → m.find? key = some raster := by
  have hwindowed := Windowed.run (p := p) limit s steps
  generalize p.run (.empty limit, s) steps = taken at hwindowed ⊢
  obtain ⟨turns, m, s'⟩ := taken
  have hlimit : (max limit 0).toNat = limit.toNat := by omega
  have hsize : m.size = window limit (MemoryTurn.arrivals turns).length := hwindowed.size_eq
  have hheld : m.held = (MemoryTurn.arrivals turns).take m.size := by
    rw [hsize]
    exact hwindowed.held_eq
  dsimp only
  rw [hlimit]
  refine ⟨fun hsome => ⟨?_, hheld, hwindowed.nodup⟩, ?_, ?_⟩
  · rw [hsize, window, if_neg (mt List.length_eq_zero_iff.mp hsome)]
  · rw [hsize]
    exact window_le limit _
  · intro key raster hlast
    cases hentries : MemoryTurn.arrivals turns with
    | nil =>
        rw [hentries] at hlast
        exact absurd hlast (by simp)
    | cons entry older =>
        rw [hentries, List.head?_cons, Option.some_inj] at hlast
        have hfirst : m.held = (key, raster) :: older.take (older.length % (limit.toNat + 1)) := by
          rw [hheld, hsize, hentries, hlast, List.length_cons, window_succ, List.take_succ_cons]
        rw [RasterMemory.find?, hfirst, List.lookup_cons_self]

/-- With a limit of one, the third raster that comes in finds the memory emptied; a key that is held
already, one that is not known and one that fails do not count. -/
theorem window_of_arrivals_third :
    let (turns, m, _) := Stages.onLand.pipeline.run (.empty 1, []) [.get "alp", .put "alp" default,
      .get "torn", .get "sea", .holds "alp", .get "bern", .get "chur"]
    (MemoryTurn.arrivals turns).map Prod.fst = ["chur", "bern", "alp"] ∧ m.size = (3 - 1) % 2 + 1 ∧
      m.held = (MemoryTurn.arrivals turns).take m.size ∧ m.find? "chur" = some default := by
  obtain ⟨hlast, -, hfound⟩ := window_of_arrivals Stages.onLand.pipeline 1 [] [.get "alp",
    .put "alp" default, .get "torn", .get "sea", .holds "alp", .get "bern", .get "chur"]
  obtain ⟨hsize, hheld, -⟩ := hlast (List.cons_ne_nil _ _)
  exact ⟨rfl, hsize, hheld, hfound "chur" default rfl⟩

end PointElevation
