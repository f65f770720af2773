import PointElevation.Host.Basic

/-!
# How an operation ends

Every operation of the service ends well or badly, and in both cases in a state.  `Ends` says
what holds at either end; it is an equivalence on every way in which operations are put together,
so the end of a composed operation is read off its parts by rewriting.  `EndsIn` is the case where
both ends are asked the same, which is how an invariant is kept whatever fails.
-/

namespace PointElevation

variable {ε ε' σ τ α β : Type}

/-! ## Outcomes -/

theorem ok_bind (a : α) (next : α → Except ε β) : (Except.ok a >>= next) = next a := rfl

theorem error_bind (fault : ε) (next : α → Except ε β) :
    (Except.error fault >>= next) = Except.error fault := rfl

/-- What ends well has begun well. -/
theorem exists_of_bind_eq_ok {x : Except ε α} {next : α → Except ε β} {b : β}
    (h : (x >>= next) = .ok b) : ∃ a, x = .ok a ∧ next a = .ok b := by
  cases x with
  | error fault => cases h
  | ok a => exact ⟨a, rfl, h⟩

/-! ## Operations applied to a state -/

section Applied

variable (s : σ)

theorem pure_apply (a : α) : (pure a : EStateM ε σ α) s = .ok a s := rfl

theorem throw_apply (fault : ε) : (throw fault : EStateM ε σ α) s = .error fault s := rfl

theorem get_apply : (get : EStateM ε σ σ) s = .ok s s := rfl

theorem modify_apply (change : σ → σ) :
    (modify change : EStateM ε σ PUnit) s = .ok ⟨⟩ (change s) := rfl

theorem bind_apply (first : EStateM ε σ β) (next : β → EStateM ε σ α) :
    (first >>= next) s =
      match first s with
      | .ok b s' => next b s'
      | .error fault s' => .error fault s' := by
  simp only [bind, EStateM.bind]
  cases first s <;> rfl

theorem map_apply (f : β → α) (first : EStateM ε σ β) :
    (f <$> first) s =
      match first s with
      | .ok b s' => .ok (f b) s'
      | .error fault s' => .error fault s' := by
  simp only [Functor.map, EStateM.map]
  cases first s <;> rfl

theorem tryCatch_apply (operation : EStateM ε σ α) (handler : ε → EStateM ε σ α) :
    (tryCatch operation handler) s =
      match operation s with
      | .ok a s' => .ok a s'
      | .error fault s' => handler fault s' := by
  change EStateM.tryCatch operation handler s = _
  delta EStateM.tryCatch
  cases operation s <;> rfl

end Applied

/-! ## Ends -/

/-- An operation that starts in `s` ends well with `good`, or badly with `bad`. -/
def Ends (operation : EStateM ε σ α) (s : σ) (good : α → σ → Prop) (bad : ε → σ → Prop) : Prop :=
  match operation s with
  | .ok a s' => good a s'
  | .error fault s' => bad fault s'

/-- An operation that starts in `s` ends in a state of which `end_` holds, well or badly. -/
def EndsIn (operation : EStateM ε σ α) (s : σ) (end_ : σ → Prop) : Prop :=
  Ends operation s (fun _ => end_) fun _ => end_

/-- The state in which an operation ends, well or badly. -/
def lastState (operation : EStateM ε σ α) (s : σ) : σ :=
  match operation s with
  | .ok _ s' => s'
  | .error _ s' => s'

section Rules

variable {good : α → σ → Prop} {bad : ε → σ → Prop} {s s' : σ}

theorem Ends.mono {operation : EStateM ε σ α} {good' : α → σ → Prop} {bad' : ε → σ → Prop}
    (h : Ends operation s good bad) (hgood : ∀ a s', good a s' → good' a s')
    (hbad : ∀ fault s', bad fault s' → bad' fault s') : Ends operation s good' bad' := by
  unfold Ends at h ⊢
  cases hrun : operation s with
  | ok a s' =>
      rw [hrun] at h
      exact hgood a s' h
  | error fault s' =>
      rw [hrun] at h
      exact hbad fault s' h

/-- Both ends of one operation may be described apart and put together. -/
theorem Ends.and {operation : EStateM ε σ α} {good' : α → σ → Prop} {bad' : ε → σ → Prop}
    (h : Ends operation s good bad) (h' : Ends operation s good' bad') :
    Ends operation s (fun a s' => good a s' ∧ good' a s')
      (fun fault s' => bad fault s' ∧ bad' fault s') := by
  unfold Ends at h h' ⊢
  cases hrun : operation s with
  | ok a s' =>
      rw [hrun] at h h'
      exact ⟨h, h'⟩
  | error fault s' =>
      rw [hrun] at h h'
      exact ⟨h, h'⟩

theorem Ends.of_ok {operation : EStateM ε σ α} {a : α} (h : Ends operation s good bad)
    (hrun : operation s = .ok a s') : good a s' := by
  unfold Ends at h
  rwa [hrun] at h

theorem Ends.of_error {operation : EStateM ε σ α} {fault : ε} (h : Ends operation s good bad)
    (hrun : operation s = .error fault s') : bad fault s' := by
  unfold Ends at h
  rwa [hrun] at h

theorem ends_of_ok {operation : EStateM ε σ α} {a : α} (hrun : operation s = .ok a s') :
    Ends operation s good bad ↔ good a s' := by
  rw [Ends, hrun]

theorem ends_of_error {operation : EStateM ε σ α} {fault : ε}
    (hrun : operation s = .error fault s') : Ends operation s good bad ↔ bad fault s' := by
  rw [Ends, hrun]

/-- Every operation ends as it does. -/
theorem ends_self (operation : EStateM ε σ α) (s : σ) :
    Ends operation s (fun a s' => operation s = .ok a s')
      fun fault s' => operation s = .error fault s' := by
  unfold Ends
  cases operation s with
  | ok a s' => rfl
  | error fault s' => rfl

@[simp] theorem ends_pure {a : α} : Ends (pure a) s good bad ↔ good a s := Iff.rfl

@[simp] theorem ends_throw {fault : ε} : Ends (throw fault) s good bad ↔ bad fault s := Iff.rfl

@[simp] theorem ends_bind {first : EStateM ε σ β} {next : β → EStateM ε σ α} :
    Ends (first >>= next) s good bad ↔
      Ends first s (fun b s' => Ends (next b) s' good bad) bad := by
  simp only [Ends, bind_apply]
  cases first s with
  | ok b s' => rfl
  | error fault s' => rfl

@[simp] theorem ends_get {good : σ → σ → Prop} : Ends get s good bad ↔ good s s := Iff.rfl

@[simp] theorem ends_modify {good : PUnit → σ → Prop} {change : σ → σ} :
    Ends (modify change) s good bad ↔ good ⟨⟩ (change s) := Iff.rfl

@[simp] theorem ends_tryCatch {operation : EStateM ε σ α} {handler : ε → EStateM ε σ α} :
    Ends (tryCatch operation handler) s good bad ↔
      Ends operation s good fun fault s' => Ends (handler fault) s' good bad := by
  simp only [Ends, tryCatch_apply]
  cases operation s with
  | ok a s' => rfl
  | error fault s' => rfl

end Rules

namespace Host

@[simp] theorem ends_recast {operation : EStateM ε σ α} {f : ε → ε'} {s : σ} {good : α → σ → Prop}
    {bad : ε' → σ → Prop} :
    Ends (recast f operation) s good bad ↔
      Ends operation s good fun fault s' => bad (f fault) s' := by
  simp only [Ends, recast]
  cases operation s with
  | ok a s' => rfl
  | error fault s' => rfl

@[simp] theorem ends_outcome {operation : EStateM ε σ α} {s : σ} {good : Except ε α → σ → Prop}
    {bad : ε' → σ → Prop} :
    Ends (outcome operation) s good bad ↔
      Ends operation s (fun a s' => good (.ok a) s') fun fault s' => good (.error fault) s' := by
  simp only [Ends, outcome]
  cases operation s with
  | ok a s' => rfl
  | error fault s' => rfl

@[simp] theorem ends_onPart {operation : EStateM ε τ α} {part : σ → τ} {update : σ → τ → σ} {s : σ}
    {good : α → σ → Prop} {bad : ε → σ → Prop} :
    Ends (onPart part update operation) s good bad ↔
      Ends operation (part s) (fun a t => good a (update s t))
        fun fault t => bad fault (update s t) := by
  simp only [Ends, onPart]
  cases operation (part s) with
  | ok a t => rfl
  | error fault t => rfl

section Primitives

variable {h : Host} {good : PUnit → Host → Prop} {bad : ε → Host → Prop}

@[simp] theorem ends_say {level : Level} {text : String} :
    Ends (say level text) h good bad ↔ good ⟨⟩ (h.note level text) := Iff.rfl

@[simp] theorem ends_record {entry : Journal → Journal} :
    Ends (record entry) h good bad ↔ good ⟨⟩ { h with journal := entry h.journal } := Iff.rfl

/-- The host after a request. -/
def sent (h : Host) (r : Request) : Host :=
  { h with
    network := (h.network.next r.url).2
    journal := { h.journal with requests := h.journal.requests ++ [r] } }

theorem filed_nil (h : Host) : h.filed [] = h := by
  simp [filed]

theorem filed_filed (h : Host) (events more : List FileEvent) :
    (h.filed events).filed more = h.filed (events ++ more) := by
  simp [filed]

@[simp] theorem ends_send {r : Request} {good : Reply → Host → Prop} :
    Ends (send r) h good bad ↔ good (h.network.next r.url).1 (h.sent r) := Iff.rfl

@[simp] theorem ends_onDisk {operation : DiskM α} {good : α → Host → Prop}
    {bad : Failure → Host → Prop} :
    Ends (onDisk operation) h good bad ↔
      Ends operation h.disk (fun a disk => good a { h with disk := disk })
        fun fault disk => bad (.ofDisk fault) { h with disk := disk } := by
  simp only [Ends, onDisk]
  cases operation h.disk with
  | ok a disk => rfl
  | error fault disk => rfl

@[simp] theorem ends_onFiles {o : FileOperation} {good : o.Result → Host → Prop}
    {bad : Failure → Host → Prop} :
    Ends (onFiles o) h good bad ↔
      Ends o.run h.disk (fun a disk => good a ({ h with disk := disk }.filed [⟨o, h.disk⟩]))
        fun fault disk => bad (.ofDisk fault) ({ h with disk := disk }.filed [⟨o, h.disk⟩]) :=
  ends_onDisk

@[simp] theorem ends_askDisk {question : Disk → Except DiskFault α} {good : α → Host → Prop}
    {bad : Failure → Host → Prop} :
    Ends (askDisk question) h good bad ↔
      (∀ a, question h.disk = .ok a → good a h) ∧
        ∀ fault, question h.disk = .error fault → bad (.ofDisk fault) h := by
  simp only [Ends, askDisk]
  cases question h.disk with
  | ok a => simp
  | error fault => simp

end Primitives

end Host

/-! ## Keeping what holds in every state -/

theorem endsIn_iff {operation : EStateM ε σ α} {s : σ} {end_ : σ → Prop} :
    EndsIn operation s end_ ↔ end_ (lastState operation s) := by
  unfold EndsIn Ends lastState
  cases operation s with
  | ok a s' => rfl
  | error fault s' => rfl

theorem EndsIn.of_ok {operation : EStateM ε σ α} {s s' : σ} {a : α} {end_ : σ → Prop}
    (h : EndsIn operation s end_) (hrun : operation s = .ok a s') : end_ s' :=
  Ends.of_ok h hrun

theorem EndsIn.of_error {operation : EStateM ε σ α} {s s' : σ} {fault : ε} {end_ : σ → Prop}
    (h : EndsIn operation s end_) (hrun : operation s = .error fault s') : end_ s' :=
  Ends.of_error h hrun

/-- What every operation on a member keeps, going through a list of them keeps. -/
theorem endsIn_mapM {invariant : σ → Prop} {operation : β → EStateM ε σ α}
    (hstep : ∀ b s, invariant s → EndsIn (operation b) s invariant) (bs : List β) {s : σ}
    (hs : invariant s) : EndsIn (bs.mapM operation) s invariant := by
  induction bs generalizing s with
  | nil => simpa [EndsIn] using hs
  | cons b rest ih =>
      simp only [EndsIn, List.mapM_cons, ends_bind, ends_pure]
      refine Ends.mono (hstep b s hs) (fun _ s' hs' => ?_) fun _ _ hs' => hs'
      exact ih hs'

end PointElevation
