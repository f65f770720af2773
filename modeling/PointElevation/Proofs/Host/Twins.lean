import PointElevation.Proofs.Host.Ending
import PointElevation.Provider.Basic

/-!
# Two runs side by side

Two hosts can be alike without being equal: what the log says has no effect on anything else.
`Abreast` is what two ends of one operation have to do with each other, and `Blind` is an operation
that does not see the difference between states that are related, so that two runs of it stay side
by side.  Blindness goes through everything by which operations are put together; in the end,
queries for a tile are blind to the log.
-/

namespace PointElevation

variable {ε ε' σ τ α β : Type}

/-- Two ends are the same but for their states, which are related. -/
def Abreast (related : σ → σ → Prop) : EStateM.Result ε σ α → EStateM.Result ε σ α → Prop
  | .ok a s, .ok b t => a = b ∧ related s t
  | .error fault s, .error fault' t => fault = fault' ∧ related s t
  | _, _ => False

/-- An operation that comes to the same in states that are related. -/
def Blind (related : σ → σ → Prop) (operation : EStateM ε σ α) : Prop :=
  ∀ s t, related s t → Abreast related (operation s) (operation t)

/-- Two ends that are abreast are both good or both bad. -/
theorem Abreast.ok_or_error {related : σ → σ → Prop} {r r' : EStateM.Result ε σ α}
    (h : Abreast related r r') :
    (∃ a s t, r = .ok a s ∧ r' = .ok a t ∧ related s t) ∨
      ∃ fault s t, r = .error fault s ∧ r' = .error fault t ∧ related s t := by
  cases r with
  | ok a s =>
      cases r' with
      | ok b t =>
          obtain ⟨rfl, hst⟩ := h
          exact .inl ⟨a, s, t, rfl, rfl, hst⟩
      | error fault t => exact h.elim
  | error fault s =>
      cases r' with
      | ok b t => exact h.elim
      | error fault' t =>
          obtain ⟨rfl, hst⟩ := h
          exact .inr ⟨fault, s, t, rfl, rfl, hst⟩

namespace Blind

variable {related : σ → σ → Prop}

theorem pure (a : α) : Blind (ε := ε) related (pure a) := fun _ _ h => ⟨rfl, h⟩

theorem throw (fault : ε) : Blind related (throw fault : EStateM ε σ α) := fun _ _ h => ⟨rfl, h⟩

theorem bind {first : EStateM ε σ β} {next : β → EStateM ε σ α} (hfirst : Blind related first)
    (hnext : ∀ b, Blind related (next b)) : Blind related (first >>= next) := by
  intro s t h
  simp only [bind_apply]
  -- two good ends have the same result, so both go on with the same operation
  rcases (hfirst s t h).ok_or_error with ⟨b, s', t', hs, ht, hst⟩ | ⟨fault, s', t', hs, ht, hst⟩
  · rw [hs, ht]
    exact hnext b s' t' hst
  · rw [hs, ht]
    exact ⟨rfl, hst⟩

theorem modify {change : σ → σ} (h : ∀ s t, related s t → related (change s) (change t)) :
    Blind (ε := ε) related (modify change) := fun s t hst => ⟨rfl, h s t hst⟩

/-- Looking at nothing but what is the same in both states. -/
theorem get {next : σ → EStateM ε σ α} (hview : ∀ s t, related s t → next s = next t)
    (hnext : ∀ s, Blind related (next s)) : Blind related (get >>= next) := by
  intro s t h
  simp only [bind_apply, get_apply]
  rw [← hview s t h]
  exact hnext s s t h

theorem tryCatch {operation : EStateM ε σ α} {handler : ε → EStateM ε σ α}
    (hoperation : Blind related operation) (hhandler : ∀ fault, Blind related (handler fault)) :
    Blind related (tryCatch operation handler) := by
  intro s t h
  simp only [tryCatch_apply]
  rcases (hoperation s t h).ok_or_error with
    ⟨a, s', t', hs, ht, hst⟩ | ⟨fault, s', t', hs, ht, hst⟩
  · rw [hs, ht]
    exact ⟨rfl, hst⟩
  · rw [hs, ht]
    exact hhandler fault s' t' hst

theorem forM {operation : β → EStateM ε σ PUnit} (h : ∀ b, Blind related (operation b))
    (bs : List β) : Blind related (bs.forM operation) := by
  induction bs with
  | nil => exact pure _
  | cons b rest ih => exact (h b).bind fun _ => ih

theorem mapM {operation : β → EStateM ε σ α} (h : ∀ b, Blind related (operation b))
    (bs : List β) : Blind related (bs.mapM operation) := by
  induction bs with
  | nil => exact pure _
  | cons b rest ih =>
      rw [List.mapM_cons]
      exact (h b).bind fun _ => ih.bind fun _ => pure _

theorem recast {operation : EStateM ε σ α} (h : Blind related operation) (f : ε → ε') :
    Blind related (Host.recast f operation) := by
  intro s t hst
  simp only [Host.recast]
  rcases (h s t hst).ok_or_error with ⟨a, s', t', hs, ht, hst'⟩ | ⟨fault, s', t', hs, ht, hst'⟩
  · rw [hs, ht]
    exact ⟨rfl, hst'⟩
  · rw [hs, ht]
    exact ⟨rfl, hst'⟩

theorem outcome {operation : EStateM ε σ α} (h : Blind related operation) :
    Blind (ε := ε') related (Host.outcome operation) := by
  intro s t hst
  simp only [Host.outcome]
  rcases (h s t hst).ok_or_error with ⟨a, s', t', hs, ht, hst'⟩ | ⟨fault, s', t', hs, ht, hst'⟩
  · rw [hs, ht]
    exact ⟨rfl, hst'⟩
  · rw [hs, ht]
    exact ⟨rfl, hst'⟩

theorem onPart {inner : τ → τ → Prop} {operation : EStateM ε τ α} {part : σ → τ}
    {update : σ → τ → σ} (h : Blind inner operation)
    (hpart : ∀ s t, related s t → inner (part s) (part t))
    (hupdate : ∀ s t a b, related s t → inner a b → related (update s a) (update t b)) :
    Blind related (Host.onPart part update operation) := by
  intro s t hst
  have hab := h _ _ (hpart s t hst)
  simp only [Host.onPart]
  rcases hab.ok_or_error with ⟨a, s', t', hs, ht, hst'⟩ | ⟨fault, s', t', hs, ht, hst'⟩
  · rw [hs, ht]
    exact ⟨rfl, hupdate s t s' t' hst hst'⟩
  · rw [hs, ht]
    exact ⟨rfl, hupdate s t s' t' hst hst'⟩

end Blind

/-! ## Hosts -/

/-- A message that says something else than that rasters are forgotten. -/
def Message.isLasting (m : Message) : Bool := m ≠ ⟨.debug, Provider.emptiedNote⟩

namespace Host

/-- Two hosts are the same but for messages about forgotten rasters. -/
structure Alike (h h' : Host) : Prop where
  disk : h.disk = h'.disk
  network : h.network = h'.network
  requests : h.journal.requests = h'.journal.requests
  pauses : h.journal.pauses = h'.journal.pauses
  closings : h.journal.closings = h'.journal.closings
  files : h.journal.files = h'.journal.files
  messages : h.journal.messages.filter Message.isLasting =
    h'.journal.messages.filter Message.isLasting

theorem Alike.refl (h : Host) : h.Alike h := ⟨rfl, rfl, rfl, rfl, rfl, rfl, rfl⟩

theorem Alike.note {h h' : Host} (halike : h.Alike h') (level : Level) (text : String) :
    (h.note level text).Alike (h'.note level text) :=
  { halike with
    messages := by simp only [Host.note, List.filter_append, halike.messages] }

/-- What is said when rasters are forgotten makes no difference. -/
theorem Alike.note_left {h h' : Host} (halike : h.Alike h') :
    (h.note .debug Provider.emptiedNote).Alike h' :=
  { halike with
    messages := by
      simp only [Host.note, List.filter_append, ← halike.messages]
      simp [Message.isLasting] }

theorem Alike.symm {h h' : Host} (halike : h.Alike h') : h'.Alike h :=
  ⟨halike.disk.symm, halike.network.symm, halike.requests.symm, halike.pauses.symm,
    halike.closings.symm, halike.files.symm, halike.messages.symm⟩

theorem blind_say (level : Level) (text : String) : Blind (ε := ε) Alike (say level text) :=
  .modify fun _ _ h => h.note level text

theorem blind_send (r : Request) : Blind (ε := ε) Alike (send r) := by
  intro h h' halike
  have hnetwork := halike.network
  have hnext : (h.network.next r.url) = (h'.network.next r.url) := by rw [hnetwork]
  refine ⟨congrArg Prod.fst hnext, ?_⟩
  exact
    { halike with
      network := congrArg Prod.snd hnext
      requests := congrArg (· ++ [r]) halike.requests }

theorem blind_askDisk (question : Disk → Except DiskFault α) : Blind Alike (askDisk question) := by
  intro h h' halike
  simp only [askDisk, halike.disk]
  cases question h'.disk with
  | ok a => exact ⟨rfl, halike⟩
  | error fault => exact ⟨rfl, halike⟩

theorem blind_onDisk (operation : DiskM α) : Blind Alike (onDisk operation) := by
  intro h h' halike
  simp only [onDisk, halike.disk]
  cases operation h'.disk with
  | ok a disk => exact ⟨rfl, { halike with disk := rfl }⟩
  | error fault disk => exact ⟨rfl, { halike with disk := rfl }⟩

theorem blind_onFiles (o : FileOperation) : Blind Alike (onFiles o) := by
  intro h h' halike
  have hfiles := congrArg (· ++ [(⟨o, h'.disk⟩ : FileEvent)]) halike.files
  unfold onFiles
  rw [halike.disk]
  exact blind_onDisk o.run _ _ { halike with files := hfiles }

theorem blind_pause (seconds : Float) : Blind (ε := ε) Alike (pause seconds) :=
  .modify fun _ _ h => { h with pauses := congrArg (· ++ [seconds]) h.pauses }

end Host

end PointElevation
