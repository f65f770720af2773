import PointElevation.Proofs.Download.Publication
import PointElevation.Proofs.Listing.Entry
import PointElevation.Proofs.Listing.Nesting
import PointElevation.Proofs.Provider.Requests
import PointElevation.Proofs.Provider.Verdict

/-!
# An index over its life

An index is asked for addresses, one question after another, and between the questions anything may
happen to the disk and to the network.  Its life has two parts.  While it has no listing, each
question tries to obtain one from scratch, whatever became of the questions before; a question that
fails leaves an index like a new one, and a disk with further directories at most
(`Question.Fails`).  The first question that obtains a listing ends this part (`Question.Loads`).
From then on the listing answers alone (`Question.Serves`): no later question looks at the disk or
at the network, so nothing that happens to them can be seen in an answer.

The two parts are those of a run, by induction over its events (`questions_of_listing`,
`questions_of_none`), and one question is one step of it (`ask_of_listing`, `ask_of_none`).

A question that fails says that there is no listing to be had, with the exceptions that
`TileIndex.Escapes` lists.
-/

namespace PointElevation

open Host
open PointElevation.Text (LineBreak Written asciiChar decodeAscii lines_unifyLineEnds)

/-! ## The text of the file -/

/-- The listing in a file, each byte read as a character. -/
def Listing.ofBytes (bytes : ByteArray) : Listing := .ofText (bytes.data.toList.map asciiChar)

/-- Line ends need not be unified before a listing is read. -/
theorem Listing.ofText_decodeAscii (bytes : ByteArray) :
    ofText (decodeAscii bytes) = ofBytes bytes := by
  rw [ofBytes, ofText, ofText, decodeAscii, lines_unifyLineEnds]

/-! ## One attempt -/

namespace TileIndex

variable {index : TileIndex} {h h' : Host} {fault : Fault}

/-- Where the listing is not obtained, at most directories were made. -/
theorem Unobtained.made (hunobtained : Unobtained index h fault h') :
    h.disk.Made (h.disk.OnWay index.directory) h'.disk := by
  cases hunobtained with
  | unasked _ => exact .refl _ _
  | unreadable _ _ => exact .refl _ _
  | unanswered _ hasked => exact hasked.disk ▸ .refl _ _
  | unaddressed _ hasked _ => exact hasked.disk ▸ .refl _ _
  | unpublished _ hasked _ _ hfail =>
      have hmade := hfail.made
      rw [mappingFile_parent, hasked.disk] at hmade
      exact hmade

/-- A download of the listing starts at the listing service. -/
theorem endsIn_fetch_service (index : TileIndex) (h : Host) :
    EndsIn index.fetch h fun h' => ∃ more,
      h.Requested (⟨listingServiceUrl, false, index.downloader.timeout⟩ :: more) h' := by
  obtain ⟨n, -, hrun⟩ := index.downloader.fetchText_eq listingServiceUrl h
  let first : Request := ⟨listingServiceUrl, false, index.downloader.timeout⟩
  let h₁ := h.attempted first Downloader.pauses n
  have hfirst : h.Requested (first :: List.replicate n first) h₁ := rfl
  have hboth : ∀ {second : List Request} {h' : Host}, h₁.Requested second h' →
      ∃ more, h.Requested (first :: more) h' := by
    intro second h' hsecond
    refine ⟨List.replicate n first ++ second, ?_⟩
    rw [Requested, hsecond, hfirst, List.append_assoc, List.cons_append]
  unfold EndsIn Ends
  rw [fetch_eq, hrun]
  cases (h.network.reply listingServiceUrl n).text listingServiceUrl with
  | error failure => exact ⟨_, hfirst⟩
  | ok reply =>
      dsimp only
      cases listingAddress reply with
      | error cause => exact ⟨_, hfirst⟩
      | ok url =>
          have hends := index.downloader.endsIn_fetchFile_requested url index.mappingFile h₁
          dsimp only
          cases hfile : index.downloader.fetchFile url index.mappingFile h₁ with
          | ok _ h' =>
              obtain ⟨count, -, hsecond⟩ := hends.of_ok hfile
              exact hboth hsecond
          | error fault h' =>
              obtain ⟨count, -, hsecond⟩ := hends.of_error hfile
              exact hboth hsecond

theorem requested_of_obtain_error (habsent : h.disk.exists? index.mappingFile = .ok false)
    (hrun : index.obtain h = .error fault h') :
    ∃ more, h.Requested (⟨listingServiceUrl, false, index.downloader.timeout⟩ :: more) h' := by
  have hends := index.endsIn_fetch_service h
  rw [obtain_of_absent habsent] at hrun
  cases hfetch : index.fetch h with
  | error fault₁ h₁ =>
      rw [hfetch] at hrun
      cases hrun
      exact hends.of_error hfetch
  | ok _ h₁ =>
      -- reading the file asks for nothing more
      rw [hfetch] at hrun
      obtain ⟨rfl, -⟩ := (ends_readFile index h₁).of_error hrun
      exact hends.of_ok hfetch

end TileIndex

/-! ## Questions -/

/-- What happens to an index, or around it: it is asked for the address of a tile, or the host is
changed by somebody else. -/
inductive IndexEvent where
  | ask (key : TileKey)
  | change (world : Host → Host)

/-- A question that an index was asked, with the answer and the states before and after it. -/
structure Question where
  key : TileKey
  before : Indexed
  answer : Except Fault (Option String)
  after : Indexed

/-- Asks for the address of a tile. -/
def Indexed.ask (s : Indexed) (key : TileKey) : Question :=
  match TileIndex.resolve key s with
  | .ok url? s' => ⟨key, s, .ok url?, s'⟩
  | .error fault s' => ⟨key, s, .error fault, s'⟩

/-- The questions that are asked in a run of events. -/
def Indexed.questions (s : Indexed) : List IndexEvent → List Question
  | [] => []
  | .ask key :: rest => s.ask key :: (s.ask key).after.questions rest
  | .change world :: rest => Indexed.questions { s with host := world s.host } rest

namespace Question

/-- No listing is obtained.  The index is the one without a listing, before and after, and the
answer is that of a fresh attempt. -/
structure Fails (index : TileIndex) (q : Question) : Prop where
  before : q.before.index = index
  after : q.after.index = index
  attempt : ∃ fault, q.answer = .error fault ∧
    index.obtain q.before.host = .error fault q.after.host
  /-- there is no listing to be had, or something is raised that belongs to no stage -/
  answer : (∃ cause, q.answer = .error (.index cause)) ∨ ∃ cause, q.answer = .error (.escaped cause)
  /-- and the second is so exactly in the cases that are listed -/
  escaped : ∀ cause, q.answer = .error (.escaped cause) ↔ index.Escapes q.before.host cause
  /-- where the file is not there, the listing service is asked -/
  requests : q.before.host.disk.exists? index.mappingFile = .ok false → ∃ more,
    q.before.host.Requested (⟨listingServiceUrl, false, index.downloader.timeout⟩ :: more)
      q.after.host
  /-- nothing comes to the disk but directories, -/
  made : q.before.host.disk.Made (q.before.host.disk.OnWay index.directory) q.after.host.disk
  /-- and the file stays what it was -/
  file : (∃ l, q.before.host.disk.locate index.mappingFile = .ok l) ∨
      (q.before.host.disk.tree.Rooted ∧ ".." ∉ index.mappingFile.names) →
    q.after.host.disk.node? index.mappingFile = q.before.host.disk.node? index.mappingFile

/-- A listing is obtained, and it is what the bytes of the file say, whether the file was there
before or they have just come as the body of a reply. -/
structure Loads (index : TileIndex) (bytes : ByteArray) (q : Question) : Prop where
  before : q.before.index = index
  after : q.after.index = index.loaded (.ofBytes bytes)
  answer : q.answer = .ok ((Listing.ofBytes bytes).url? q.key)
  read : q.after.host.disk.read index.mappingFile = .ok bytes
  source : (q.before.host.disk.exists? index.mappingFile = .ok true ∧
      q.after.host.disk = q.before.host.disk ∧ q.before.host.Requested [] q.after.host) ∨
    (q.before.host.disk.exists? index.mappingFile = .ok false ∧ ∃ text url reply,
      q.before.host.network.text listingServiceUrl = .ok text ∧ listingAddress text = .ok url ∧
        (url, reply) ∈ q.before.host.exchanges q.after.host ∧ reply.content url = .ok bytes)

/-- The listing answers, and would answer the same on any host; the host is left alone. -/
structure Serves (listing : Listing) (q : Question) : Prop where
  answer : q.answer = .ok (listing.url? q.key)
  after : q.after = q.before
  anywhere : ∀ host, TileIndex.resolve q.key { q.before with host := host } =
    .ok (listing.url? q.key) { q.before with host := host }

/-- Nothing leaves a question that loads. -/
theorem Loads.not_escapes {index : TileIndex} {bytes : ByteArray} {q : Question}
    (h : q.Loads index bytes) (cause : Failure) : ¬ index.Escapes q.before.host cause := by
  rw [TileIndex.escapes_iff]
  rcases h.source with ⟨hexists, -⟩ | ⟨habsent, text, url, reply, htext, haddress, -⟩
  · rw [hexists]
    exact id
  · simp only [habsent, htext, haddress]
    rintro ⟨⟨hillegal, -⟩, -⟩
    have hread := h.read
    rw [Disk.read, locate_eq_illegalName_iff.mpr hillegal] at hread
    cases hread

/-- A file that is there is loaded as it is. -/
theorem Loads.read_before {index : TileIndex} {bytes : ByteArray} {q : Question}
    (h : q.Loads index bytes)
    (hexists : q.before.host.disk.exists? index.mappingFile = .ok true) :
    q.before.host.disk.read index.mappingFile = .ok bytes := by
  rcases h.source with ⟨-, hdisk, -⟩ | ⟨habsent, -⟩
  · rw [← hdisk]
    exact h.read
  · cases hexists.symm.trans habsent

/-- A question that can read the file does not fail. -/
theorem Fails.not_read {index : TileIndex} {q : Question} (h : q.Fails index) {bytes : ByteArray}
    (hexists : q.before.host.disk.exists? index.mappingFile = .ok true) :
    q.before.host.disk.read index.mappingFile ≠ .ok bytes := by
  intro hread
  obtain ⟨fault, -, hrun⟩ := h.attempt
  rw [TileIndex.obtain_of_present hexists, TileIndex.readFile_of_read hread] at hrun
  cases hrun

end Question

/-! ## One question -/

namespace Indexed

variable {s s' : Indexed} {listing : Listing} {key : TileKey}

theorem ask_of_load_ok (hload : TileIndex.load s = .ok listing s') :
    s.ask key = ⟨key, s, .ok (listing.url? key), s'⟩ := by
  simp only [ask, TileIndex.resolve, bind_apply, hload, pure_apply]

theorem ask_of_load_error {fault : Fault} (hload : TileIndex.load s = .error fault s') :
    s.ask key = ⟨key, s, .error fault, s'⟩ := by
  simp only [ask, TileIndex.resolve, bind_apply, hload]

@[simp] theorem ask_key (s : Indexed) (key : TileKey) : (s.ask key).key = key := by
  unfold ask
  split <;> rfl

@[simp] theorem ask_before (s : Indexed) (key : TileKey) : (s.ask key).before = s := by
  unfold ask
  split <;> rfl

/-- With a listing, a question is answered by it. -/
theorem ask_of_listing (hlisting : s.index.listing = some listing) (key : TileKey) :
    (s.ask key).Serves listing ∧ (s.ask key).after = s := by
  rw [ask_of_load_ok (TileIndex.load_of_listing hlisting)]
  refine ⟨⟨rfl, rfl, fun host => ?_⟩, rfl⟩
  have hload : TileIndex.load { s with host := host } = .ok listing { s with host := host } :=
    TileIndex.load_of_listing hlisting
  simp only [TileIndex.resolve, bind_apply, hload, pure_apply]

/-- Without a listing, a question tries to obtain one. -/
theorem ask_of_none (hlisting : s.index.listing = none) (honly : s.host.network.Only Reply.Orderly)
    (key : TileKey) :
    (s.ask key).Fails s.index ∨ ∃ bytes, (s.ask key).Loads s.index bytes := by
  have hload := TileIndex.load_of_none hlisting
  have hends := TileIndex.ends_obtain s.index s.host
  cases hrun : s.index.obtain s.host with
  | error fault h' =>
      have hunobtained := hends.of_error hrun
      have hunstaged : s.host.network.Only (Reply.FailsAs Failure.Unstaged) :=
        fun url r hmay cause hcause => (honly url r hmay cause hcause).unstaged
      rw [hrun] at hload
      rw [ask_of_load_error hload]
      refine .inl ⟨rfl, rfl, ⟨fault, rfl, hrun⟩, ?_, ?_, ?_, hunobtained.made, ?_⟩
      · simpa using hunobtained.index_or_escaped hunstaged
      · intro cause
        rw [Except.error.injEq]
        exact hunobtained.escaped_iff honly
      · exact fun habsent => TileIndex.requested_of_obtain_error habsent hrun
      · have hmade := hunobtained.made
        rw [← TileIndex.mappingFile_parent] at hmade
        exact hmade.node?_eq
  | ok listing h' =>
      rw [hrun] at hload
      rw [ask_of_load_ok hload]
      right
      cases hends.of_ok hrun with
      | @present bytes hexists hread =>
          rw [Listing.ofText_decodeAscii]
          exact ⟨bytes, rfl, rfl, rfl, hread, .inl ⟨hexists, rfl, (List.append_nil _).symm⟩⟩
      | @fetched text url h₁ _ publication hexists hasked haddress =>
          rw [Listing.ofText_decodeAscii]
          refine ⟨publication.bytes, rfl, rfl, rfl, publication.read, .inr ⟨hexists, ?_⟩⟩
          have hasks := hasked.runs.mem_exchanges_of_right publication.runs publication.asked
          exact ⟨text, url, publication.reply, hasked.text, haddress, hasks, publication.content⟩

/-! ## All questions -/

/-- From the first listing on, all questions are answered by it. -/
theorem questions_of_listing (hlisting : s.index.listing = some listing)
    (events : List IndexEvent) : ∀ q ∈ s.questions events, q.Serves listing := by
  induction events generalizing s with
  | nil => exact fun _ hq => absurd hq List.not_mem_nil
  | cons event rest ih =>
      cases event with
      | change world => exact ih hlisting
      | ask key =>
          obtain ⟨hserves, hafter⟩ := ask_of_listing hlisting key
          have hrest := ih hlisting
          rw [← hafter] at hrest
          exact List.forall_mem_cons.mpr ⟨hserves, hrest⟩

end Indexed

/-- The questions of an index that is asked for the first time: some fail, one obtains the listing,
and the listing answers the others.  There need not be any that fails, or any that does not. -/
def TileIndex.LoadsOnce (index : TileIndex) (questions : List Question) : Prop :=
  ∃ failed others, questions = failed ++ others ∧ (∀ q ∈ failed, q.Fails index) ∧
    (others = [] ∨ ∃ q served bytes, others = q :: served ∧ q.Loads index bytes ∧
      ∀ q' ∈ served, q'.Serves (.ofBytes bytes))

/-- The first of some questions fails, or it obtains the listing that answers the others. -/
theorem TileIndex.loadsOnce_cons_iff {index : TileIndex} {q : Question}
    {questions : List Question} :
    index.LoadsOnce (q :: questions) ↔ (q.Fails index ∧ index.LoadsOnce questions) ∨
      ∃ bytes, q.Loads index bytes ∧ ∀ q' ∈ questions, q'.Serves (.ofBytes bytes) := by
  constructor
  · rintro ⟨failed, others, hall, hfailed, hothers⟩
    cases failed with
    | nil =>
        rcases hothers with rfl | ⟨first, served, bytes, rfl, hloads, hserved⟩
        · cases hall
        · obtain ⟨rfl, rfl⟩ := List.cons.inj hall
          exact .inr ⟨bytes, hloads, hserved⟩
    | cons first failed =>
        obtain ⟨rfl, hrest⟩ := List.cons.inj hall
        obtain ⟨hfails, hfailed⟩ := List.forall_mem_cons.mp hfailed
        exact .inl ⟨hfails, failed, others, hrest, hfailed, hothers⟩
  · rintro (⟨hfails, failed, others, rfl, hfailed, hothers⟩ | ⟨bytes, hloads, hserved⟩)
    · exact ⟨q :: failed, others, rfl, List.forall_mem_cons.mpr ⟨hfails, hfailed⟩, hothers⟩
    · exact ⟨[], _, rfl, fun _ hq => absurd hq List.not_mem_nil,
        .inr ⟨q, questions, bytes, rfl, hloads, hserved⟩⟩

/-- A question that raises what belongs to no stage does not obtain the listing. -/
theorem TileIndex.LoadsOnce.fails_of_escapes {index : TileIndex} {q : Question}
    {questions : List Question} {cause : Failure} (h : index.LoadsOnce (q :: questions))
    (hescapes : index.Escapes q.before.host cause) :
    q.Fails index ∧ index.LoadsOnce questions := by
  rcases loadsOnce_cons_iff.mp h with hfails | ⟨bytes, hloads, -⟩
  · exact hfails
  · exact absurd hescapes (hloads.not_escapes cause)

/-- A question that can read the file obtains the listing from it. -/
theorem TileIndex.LoadsOnce.loads_of_read {index : TileIndex} {q : Question}
    {questions : List Question} {bytes : ByteArray} (h : index.LoadsOnce (q :: questions))
    (hexists : q.before.host.disk.exists? index.mappingFile = .ok true)
    (hread : q.before.host.disk.read index.mappingFile = .ok bytes) :
    q.Loads index bytes ∧ ∀ q' ∈ questions, q'.Serves (.ofBytes bytes) := by
  rcases loadsOnce_cons_iff.mp h with ⟨hfails, -⟩ | ⟨content, hloads, hserved⟩
  · exact absurd hread (hfails.not_read hexists)
  · obtain rfl := Except.ok.inj (hread.symm.trans (hloads.read_before hexists))
    exact ⟨hloads, hserved⟩

theorem Indexed.questions_of_none {s : Indexed} (hlisting : s.index.listing = none)
    (events : List IndexEvent)
    (honly : ∀ q ∈ s.questions events, q.before.index.isLoaded = false →
      q.before.host.network.Only Reply.Orderly) : s.index.LoadsOnce (s.questions events) := by
  -- the events still ahead; the index is the same before each of them, until one loads it
  induction events generalizing s with
  | nil => exact ⟨[], [], rfl, fun _ hq => absurd hq List.not_mem_nil, .inl rfl⟩
  | cons event rest ih =>
      cases event with
      | change world => exact ih (s := { s with host := world s.host }) hlisting honly
      | ask key =>
          obtain ⟨hfirst, hrest⟩ := List.forall_mem_cons.mp honly
          rw [ask_before, TileIndex.isLoaded, hlisting] at hfirst
          rw [questions, TileIndex.loadsOnce_cons_iff]
          rcases ask_of_none hlisting (hfirst rfl) key with hfails | ⟨bytes, hloads⟩
          · have hothers := ih (hfails.after ▸ hlisting) hrest
            rw [hfails.after] at hothers
            exact .inl ⟨hfails, hothers⟩
          · have hlisting' : (s.ask key).after.index.listing = some (.ofBytes bytes) := by
              rw [hloads.after]
              rfl
            exact .inr ⟨bytes, hloads, questions_of_listing hlisting' rest⟩

namespace TileIndex

/-- An index loads once.  Over any disk and any directory, whatever happens between the questions,
and as long as there is no listing with a network that fails like a client or like the system: the
questions fail until one obtains the listing, and each of them is a fresh attempt that leaves an
index without a listing and the file as it was; from then on the listing that the file held at that
moment answers, and neither the disk nor the network is used. -/
theorem resolve_loads_once (directory : FilePath) (downloader : Downloader) (h : Host)
    (events : List IndexEvent)
    (honly : ∀ q ∈ Indexed.questions ⟨.unloaded directory downloader, h⟩ events,
      q.before.index.isLoaded = false → q.before.host.network.Only Reply.Orderly) :
    let index := TileIndex.unloaded directory downloader
    (index.isLoaded = false ∧ index.size = 0) ∧
      index.LoadsOnce (Indexed.questions ⟨index, h⟩ events) :=
  ⟨⟨rfl, rfl⟩, Indexed.questions_of_none rfl events honly⟩

/-- The listing service sends nothing but brackets, then somebody puts the file in its place, and
then everything is gone: the first question raises, the second reads the file, and the third is
answered like the second. -/
theorem resolve_loads_once_nested :
    let nested : Network := ⟨[], [.response 200 "OK" [nestedBody 100000] none]⟩
    let bytes : ByteArray := ⟨#[97, 47, 98, 95, 99, 95, 100, 13, 10]⟩
    let present : Host := ⟨⟨⟨[(["cache", "mappings.csv"], .file bytes), (["cache"], .directory)]⟩,
      some []⟩, ⟨[], []⟩, ∅⟩
    let events : List IndexEvent := [.ask "d", .change fun _ => present, .ask "d",
      .change fun _ => .bare ⟨[], []⟩, .ask "d"]
    let s : Indexed := ⟨.unloaded (.ofLocation ["cache"]) ⟨"client", 10.0⟩, .bare nested⟩
    (∀ q ∈ s.questions events, q.before.index.isLoaded = false →
      q.before.host.network.Only Reply.Orderly) ∧
    (s.questions events).map Question.answer = [
      .error (.escaped ⟨.nesting,
        "maximum recursion depth exceeded while decoding a JSON array from a unicode string"⟩),
      .ok (some "a/b_c_d"), .ok (some "a/b_c_d")] := by
  intro nested bytes present events s
  have hempty : Network.Only Reply.Orderly ⟨[], []⟩ :=
    fun url r hmay => absurd hmay List.not_mem_nil
  have hnested : nested.Only Reply.Orderly :=
    Network.only_shared fun url cause hcause => by cases hcause
  obtain ⟨q₁, hq₁⟩ : ∃ q, q = s.ask "d" := ⟨_, rfl⟩
  obtain ⟨q₂, hq₂⟩ : ∃ q, q = Indexed.ask { q₁.after with host := present } "d" := ⟨_, rfl⟩
  obtain ⟨q₃, hq₃⟩ : ∃ q, q = Indexed.ask { q₂.after with host := .bare ⟨[], []⟩ } "d" := ⟨_, rfl⟩
  have hbefore₁ : q₁.before = s := by rw [hq₁, Indexed.ask_before]
  have hbefore₂ : q₂.before.host = present := by rw [hq₂, Indexed.ask_before]
  have hbefore₃ : q₃.before.host = .bare ⟨[], []⟩ := by rw [hq₃, Indexed.ask_before]
  have hquestions : s.questions events = [q₁, q₂, q₃] := by
    simp only [events, Indexed.questions, hq₁, hq₂, hq₃]
  have honly : ∀ q ∈ s.questions events, q.before.index.isLoaded = false →
      q.before.host.network.Only Reply.Orderly := by
    rw [hquestions]
    simp only [List.forall_mem_cons, hbefore₁, hbefore₂, hbefore₃]
    exact ⟨fun _ => hnested, fun _ => hempty, fun _ => hempty,
      fun _ hq => absurd hq List.not_mem_nil⟩
  have hlife :=
    (resolve_loads_once (.ofLocation ["cache"]) ⟨"client", 10.0⟩ (.bare nested) events honly).2
  refine ⟨honly, ?_⟩
  rw [hquestions] at hlife ⊢
  have hfile : s.index.mappingFile = .ofLocation (["cache"] ++ [mappingsName]) := mappingFile_eq rfl
  -- the first question
  have hescapes : s.index.Escapes q₁.before.host
      ⟨.nesting, (ReplyFault.tooDeep .array).message⟩ := by
    have habsent : s.host.disk.exists? s.index.mappingFile = .ok false := by
      rw [hfile]
      rfl
    have htext : nested.text listingServiceUrl = .ok (Text.decodeUtf8 (nestedBody 100000)) := by
      rw [← ByteArray.empty_append (b := nestedBody 100000)]
      rfl
    have hdeep : Json.depthLimit < 100000 := by decide
    rw [hbefore₁]
    exact .nesting habsent htext (listingAddress_nestedBody hdeep)
  obtain ⟨hfails, hlife⟩ := hlife.fails_of_escapes hescapes
  have hanswer₁ := (hfails.escaped _).mpr hescapes
  -- the second, and with it the third
  have hexists : q₂.before.host.disk.exists? s.index.mappingFile = .ok true := by
    rw [hbefore₂, hfile]
    rfl
  have hread : q₂.before.host.disk.read s.index.mappingFile = .ok bytes := by
    rw [hbefore₂, hfile]
    rfl
  have hurl : (Listing.ofBytes bytes).url? "d" = some "a/b_c_d" :=
    (Listing.url?_ofText_eq_some_iff (.cons .carriageReturnLineFeed (by decide) .nil)).mpr
      ⟨[], "a/b_c_d".toList, [], rfl, by decide, by decide, nofun⟩
  obtain ⟨hloads, hserved⟩ := hlife.loads_of_read hexists hread
  have hanswer₂ := hloads.answer
  have hanswer₃ := (hserved q₃ List.mem_cons_self).answer
  rw [hq₂, Indexed.ask_key, hurl, ← hq₂] at hanswer₂
  rw [hq₃, Indexed.ask_key, hurl, ← hq₃] at hanswer₃
  rw [List.map_cons, List.map_cons, List.map_cons, List.map_nil, hanswer₁, hanswer₂, hanswer₃]
  rfl

end TileIndex

end PointElevation
