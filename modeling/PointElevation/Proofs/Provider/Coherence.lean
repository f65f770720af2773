import PointElevation.Proofs.Provider.Stages

/-!
# Coherence of the caches

A listing in memory, files on the disk and rasters in memory repeat one another, and nothing ever
compares them.  `Caches.Coherent` is the invariant that makes this harmless: a listing that is
held is that of its file, if the file is there, and a raster that is held is what the file of its
tile would be decoded to now.

The invariant survives because the files of the directory are kept apart by their names: a download
for another key writes neither to the file of a held raster nor to the notes beside it.  Its
consequence is that the memory is never seen (`Caches.Coherent.ends_get`): the answer for a key is
that of the way without memory.
-/

namespace PointElevation

open PointElevation.TileIndex (Obtained Unobtained Loads)
open PointElevation.Text (decodeAscii)

/-! ## Tile files on changing disks -/

section Disks

variable {directory : Location} {d d' : Disk} {url : String} {key : TileKey} {raster : Raster}

/-- A raster depends on the file of the tile and the notes beside it, and on nothing else in a
directory that can be reached. -/
theorem tileRaster_congr (hkey : keyOfUrl? url = some key) (hdots : ".." ∉ directory)
    (hreach : d.tree.Reaches directory) (hreach' : d'.tree.Reaches directory)
    (hfile : d'.tree.get? (directory ++ [fileName url]) = d.tree.get? (directory ++ [fileName url]))
    (hnotes : d'.tree.get? (directory ++ [fileName url ++ notesSuffix]) =
      d.tree.get? (directory ++ [fileName url ++ notesSuffix])) :
    tileRaster d' (tileFile (.ofLocation directory) url) =
      tileRaster d (tileFile (.ofLocation directory) url) := by
  have hname := isFileName_fileName hkey
  have hnotesName := isFileName_notes url
  rw [tileFile_eq hkey, tileRaster, tileRaster, sideFile_ofLocation hnotesName,
    toOption_read_congr (dots_notMem_append hdots hname) hreach hreach' hfile,
    toOption_read_congr (dots_notMem_append hdots hnotesName) hreach hreach' hnotes]

theorem place_of_tileRaster (hkey : keyOfUrl? url = some key) (hdots : ".." ∉ directory)
    (h : tileRaster d (tileFile (.ofLocation directory) url) = .ok raster) :
    Nameable directory (fileName url) ∧ d.tree.Reaches directory ∧
      ∃ bytes, d.tree.get? (directory ++ [fileName url]) = some (.file bytes) := by
  obtain ⟨bytes, hread⟩ := exists_read_of_tileRaster h
  rw [tileFile_eq hkey] at hread
  have hfile := dots_notMem_append hdots (isFileName_fileName hkey)
  obtain ⟨hnameable, hreach, hget⟩ := (read_place_eq_ok_iff hfile).mp hread
  exact ⟨hnameable, hreach, bytes, hget⟩

/-- A file with a raster is there. -/
theorem exists?_of_tileRaster (hkey : keyOfUrl? url = some key) (hdots : ".." ∉ directory)
    (h : tileRaster d (tileFile (.ofLocation directory) url) = .ok raster) :
    d.exists? (tileFile (.ofLocation directory) url) = .ok true := by
  obtain ⟨hnameable, hreach, bytes, hget⟩ := place_of_tileRaster hkey hdots h
  have hfile := dots_notMem_append hdots (isFileName_fileName hkey)
  rw [tileFile_eq hkey, exists?_place_eq_true_iff hfile, hget]
  exact ⟨hnameable, hreach, by simp⟩

/-- Making directories changes no raster. -/
theorem Disk.Grown.tileRaster_eq (hgrown : Grown directory d d') (hkey : keyOfUrl? url = some key)
    (hdots : ".." ∉ directory)
    (h : tileRaster d (tileFile (.ofLocation directory) url) = .ok raster) :
    tileRaster d' (tileFile (.ofLocation directory) url) = .ok raster := by
  obtain ⟨-, hreach, -⟩ := place_of_tileRaster hkey hdots h
  rw [← h]
  exact tileRaster_congr hkey hdots hreach (hreach.mono hgrown.directory_stays)
    (hgrown.get?_name _) (hgrown.get?_name _)

/-- Putting a file in the directory changes no raster but that of the file and the one that the file
is a note on. -/
theorem Disk.Gained.tileRaster_eq {name : String} {bytes : ByteArray}
    (hgained : Gained directory name bytes d d') (hkey : keyOfUrl? url = some key)
    (hdots : ".." ∉ directory) (hfile : fileName url ≠ name)
    (hnotes : fileName url ++ notesSuffix ≠ name)
    (h : tileRaster d (tileFile (.ofLocation directory) url) = .ok raster) :
    tileRaster d' (tileFile (.ofLocation directory) url) = .ok raster := by
  obtain ⟨-, hreach, -⟩ := place_of_tileRaster hkey hdots h
  rw [← h]
  exact tileRaster_congr hkey hdots hreach hgained.reaches (hgained.get?_of_ne hfile)
    (hgained.get?_of_ne hnotes)

end Disks

/-! ## Rasters by key -/

namespace RasterMemory

variable {memory : RasterMemory} {key : TileKey} {raster : Raster}

theorem mem_held (h : memory.find? key = some raster) : (key, raster) ∈ memory.held := by
  obtain ⟨before, after, heq, -⟩ := List.lookup_eq_some_iff.mp h
  rw [heq]
  exact List.mem_append_right _ List.mem_cons_self

/-- What is held after a raster came in is that raster, or was held before. -/
theorem mem_held_insert {entry : TileKey × Raster} (h : entry ∈ (memory.insert key raster).held) :
    entry = (key, raster) ∨ entry ∈ memory.held := by
  unfold insert at h
  split at h
  · exact .inr h
  · split at h
    · exact .inl (List.mem_singleton.mp h)
    · exact List.mem_cons.mp h

theorem notMem_keys (h : memory.find? key = none) : key ∉ memory.held.map Prod.fst := by
  intro hmem
  obtain ⟨entry, hentry, rfl⟩ := List.mem_map.mp hmem
  have hne := List.lookup_eq_none_iff.mp h entry hentry
  simp at hne

end RasterMemory

namespace Pipeline

variable {ε σ : Type} {p : Pipeline ε σ} {memory : RasterMemory} {key : TileKey} {raster : Raster}

theorem get_of_held (h : memory.find? key = some raster) (s : σ) :
    p.get key (memory, s) = .ok (some raster) (memory, s) := by
  simp only [get, h]

/-- A key that is not held is looked for, and a raster that is found is taken in. -/
theorem get_of_free (h : memory.find? key = none) (s : σ) :
    p.get key (memory, s) =
      match p.load key s with
      | .error fault s₁ => .error fault (memory, s₁)
      | .ok none s₁ => .ok none (memory, s₁)
      | .ok (some raster) s₁ =>
          .ok (some raster)
            (memory.insert key raster, if memory.overfull then p.emptied s₁ else s₁) := by
  have hholds : memory.holds key = false := by simp [RasterMemory.holds, h]
  simp only [get, h]
  cases p.load key s with
  | error fault s₁ => rfl
  | ok found s₁ =>
      cases found with
      | none => rfl
      | some raster =>
          simp only [put, bind_apply, modify_apply, pure_apply, hholds, Bool.not_false,
            Bool.true_and]

end Pipeline

/-! ## The invariant -/

/-- Listing, files and rasters of a directory agree. -/
structure Caches.Coherent (directory : Location) (limit : Int) (memory : RasterMemory)
    (s : Indexed) : Prop where
  place : s.index.directory = .ofLocation directory
  keyed : ∀ listing, s.index.listing = some listing → listing.Keyed
  written : ∀ listing node, s.index.listing = some listing →
    s.host.disk.tree.get? (directory ++ [mappingsName]) = some node →
      ∃ bytes, node = .file bytes ∧ listing = .ofText (decodeAscii bytes)
  held : ∀ key raster, (key, raster) ∈ memory.held → ∃ listing url,
    s.index.listing = some listing ∧ listing.url? key = some url ∧
      tileRaster s.host.disk (tileFile (.ofLocation directory) url) = .ok raster
  /-- the keys are those of positions, so none looks like the name of notes -/
  positional : ∀ key ∈ memory.held.map Prod.fst, ∃ p : Position, key = p.tileKey
  nodup : (memory.held.map Prod.fst).Nodup
  limit_eq : memory.limit = limit
  size_le : memory.size ≤ limit.toNat + 1

namespace Caches.Coherent

variable {directory : Location} {limit : Int} {memory : RasterMemory} {s s' : Indexed} {h' : Host}
  {listing : Listing} {key : TileKey} {url : String} {raster : Raster}

/-- Nothing is said of the rasters while there are none. -/
theorem cleared (h : Coherent directory limit memory s) :
    Coherent directory limit memory.clear s where
  place := h.place
  keyed := h.keyed
  written := h.written
  held := fun _ _ hmem => absurd hmem List.not_mem_nil
  positional := fun _ hmem => absurd hmem List.not_mem_nil
  nodup := List.nodup_nil
  limit_eq := h.limit_eq
  size_le := Nat.zero_le _

/-- The invariant lasts through a change of the disk that keeps the listing's file and the rasters
that are held. -/
theorem onDisk (h : Coherent directory limit memory s)
    (hmappings : h'.disk.tree.get? (directory ++ [mappingsName]) =
      s.host.disk.tree.get? (directory ++ [mappingsName]))
    (hrasters : ∀ key raster listing url, (key, raster) ∈ memory.held →
      s.index.listing = some listing → listing.url? key = some url →
        tileRaster s.host.disk (tileFile (.ofLocation directory) url) = .ok raster →
          tileRaster h'.disk (tileFile (.ofLocation directory) url) = .ok raster) :
    Coherent directory limit memory { s with host := h' } where
  place := h.place
  keyed := h.keyed
  written := fun listing node hlisting hnode =>
    h.written listing node hlisting (hmappings.symm.trans hnode)
  held := fun key raster hmem => by
    obtain ⟨listing, url, hlisting, hurl, hraster⟩ := h.held key raster hmem
    exact ⟨listing, url, hlisting, hurl, hrasters key raster listing url hmem hlisting hurl hraster⟩
  positional := h.positional
  nodup := h.nodup
  limit_eq := h.limit_eq
  size_le := h.size_le

theorem note (h : Coherent directory limit memory s) (level : Level) (text : String) :
    Coherent directory limit memory { s with host := s.host.note level text } :=
  h.onDisk rfl fun _ _ _ _ _ _ _ hraster => hraster

theorem grown (h : Coherent directory limit memory s) (hdots : ".." ∉ directory)
    (hgrown : Disk.Grown directory s.host.disk h'.disk) :
    Coherent directory limit memory { s with host := h' } :=
  h.onDisk (hgrown.get?_name _) fun _ _ _ _ _ hlisting hurl hraster =>
    hgrown.tileRaster_eq (h.keyed _ hlisting _ _ hurl) hdots hraster

/-- The file of a tile that is not held may come to the directory. -/
theorem gained (h : Coherent directory limit memory s) (hdots : ".." ∉ directory)
    (hlisting : s.index.listing = some listing) (hurl : listing.url? key = some url)
    (hfree : key ∉ memory.held.map Prod.fst) (hposition : ∃ p : Position, key = p.tileKey)
    {bytes : ByteArray}
    (hgained : Disk.Gained directory (fileName url) bytes s.host.disk h'.disk) :
    Coherent directory limit memory { s with host := h' } := by
  have hkey := h.keyed listing hlisting key url hurl
  refine h.onDisk (hgained.get?_of_ne (Ne.symm (fileName_ne_mappings hkey))) ?_
  intro key' raster' listing' url' hmem hlisting' hurl' hraster'
  have hkey' := h.keyed listing' hlisting' key' url' hurl'
  have hne : key ≠ key' := by
    rintro rfl
    exact hfree (List.mem_map_of_mem hmem)
  refine hgained.tileRaster_eq hkey' hdots ?_ ?_ hraster'
  · exact fun hname => hne (key_eq_of_fileName_eq hkey' hkey hname).symm
  · -- the file could be a note on the other tile, but then its key would end like one
    intro hname
    rcases key_of_fileName_eq_notes hkey' hkey hname.symm with heq | hnotes
    · exact hne heq
    · obtain ⟨p, rfl⟩ := hposition
      exact tileKey_ne_append_notes p key' hnotes

/-! ## What the stages keep -/

/-- While no listing is held, no raster is. -/
theorem held_eq_nil (h : Coherent directory limit memory s) (hlisting : s.index.listing = none) :
    memory.held = [] := by
  rw [List.eq_nil_iff_forall_not_mem]
  rintro ⟨key, raster⟩ hmem
  obtain ⟨listing, url, hsome, -⟩ := h.held key raster hmem
  rw [hlisting] at hsome
  cases hsome

theorem loads (h : Coherent directory limit memory s) (hdots : ".." ∉ directory)
    (hloads : Loads s listing s') : Coherent directory limit memory s' := by
  have hfile := dots_notMem_append hdots isFileName_mappings
  cases hloads with
  | held _ => exact h
  | @obtained h₁ text hlisting hobtained =>
      have hnil := h.held_eq_nil hlisting
      -- whichever way it was obtained, the listing is that of its file
      have hfacts : ∃ bytes, h₁.disk.tree.get? (directory ++ [mappingsName]) = some (.file bytes) ∧
          listing = .ofText (decodeAscii bytes) := by
        cases hobtained with
        | present _ hread =>
            rw [TileIndex.mappingFile_eq h.place, read_place_eq_ok_iff hfile] at hread
            exact ⟨_, hread.2.2, rfl⟩
        | fetched publication _ _ _ =>
            have hgained := publication.gained (TileIndex.mappingFile_eq h.place) hfile
            exact ⟨_, hgained.here, rfl⟩
      have hkeyed := hobtained.keyed
      obtain ⟨bytes, hget, heq⟩ := hfacts
      constructor
      · exact h.place
      · intro listing' hlisting'
        cases hlisting'
        exact hkeyed
      · intro listing' node hlisting' hnode
        cases hlisting'
        cases hget.symm.trans hnode
        exact ⟨bytes, rfl, heq⟩
      · intro key raster hmem
        rw [hnil] at hmem
        cases hmem
      · exact h.positional
      · exact h.nodup
      · exact h.limit_eq
      · exact h.size_le

theorem unobtained (h : Coherent directory limit memory s) (hdots : ".." ∉ directory)
    {fault : Fault} (hunobtained : Unobtained s.index s.host fault h') :
    Coherent directory limit memory { s with host := h' } :=
  h.grown hdots (hunobtained.grown hdots h.place)

theorem ensured (h : Coherent directory limit memory s) (hdots : ".." ∉ directory)
    (hlisting : s.index.listing = some listing) (hurl : listing.url? key = some url)
    (hfree : key ∉ memory.held.map Prod.fst) (hposition : ∃ p : Position, key = p.tileKey)
    (hensured : Ensured (tileFile (.ofLocation directory) url) url s.host h') :
    Coherent directory limit memory { s with host := h' } := by
  have hkey := h.keyed listing hlisting key url hurl
  cases hensured with
  | present _ => exact h
  | fetched publication _ =>
      have hfile := dots_notMem_append hdots (isFileName_fileName hkey)
      have hgained := publication.gained (tileFile_eq hkey) hfile
      exact h.gained hdots hlisting hurl hfree hposition hgained

theorem unensured (h : Coherent directory limit memory s) (hdots : ".." ∉ directory)
    (hlisting : s.index.listing = some listing) (hurl : listing.url? key = some url) {fault : Fault}
    (hunensured : Unensured (tileFile (.ofLocation directory) url) url s.host fault h') :
    Coherent directory limit memory { s with host := h' } :=
  h.grown hdots (hunensured.grown hdots (h.keyed listing hlisting key url hurl))

/-- What the file of a tile decodes to may be held for its key. -/
theorem insert (h : Coherent directory limit memory s) (hlisting : s.index.listing = some listing)
    (hurl : listing.url? key = some url) (hfree : memory.find? key = none)
    (hposition : ∃ p : Position, key = p.tileKey)
    (hraster : tileRaster s.host.disk (tileFile (.ofLocation directory) url) = .ok raster) :
    Coherent directory limit (memory.insert key raster) s := by
  constructor
  · exact h.place
  · exact h.keyed
  · exact h.written
  · intro key' raster' hmem
    rcases RasterMemory.mem_held_insert hmem with heq | hmem
    · cases heq
      exact ⟨listing, url, hlisting, hurl, hraster⟩
    · exact h.held key' raster' hmem
  · intro key' hmem
    obtain ⟨⟨key', raster'⟩, hentry, rfl⟩ := List.mem_map.mp hmem
    rcases RasterMemory.mem_held_insert hentry with heq | hmem
    · cases heq
      exact hposition
    · exact h.positional key' (List.mem_map_of_mem hmem)
  · simp only [RasterMemory.insert, RasterMemory.holds, hfree, Option.isSome_none,
      Bool.false_eq_true, if_false]
    split
    · exact List.nodup_singleton _
    · exact List.nodup_cons.mpr ⟨RasterMemory.notMem_keys hfree, h.nodup⟩
  · rw [RasterMemory.limit_insert]
    exact h.limit_eq
  · -- one raster more than the limit, because the memory is emptied only when it is over it
    have hsize := h.size_le
    simp only [RasterMemory.insert, RasterMemory.holds, hfree, Option.isSome_none,
      Bool.false_eq_true, if_false, RasterMemory.overfull, h.limit_eq, decide_eq_true_eq,
      RasterMemory.size]
    split
    · simp
    · rename_i hroom
      simp only [List.length_cons]
      omega

/-! ## The memory is not seen -/

/-- For a key that is held, the way without memory comes to the same raster and changes nothing. -/
theorem load_of_held (h : Coherent directory limit memory s) (hdots : ".." ∉ directory)
    (hheld : memory.find? key = some raster) (d : Downloader) :
    (Provider.pipeline (.ofLocation directory) d).load key s = .ok (some raster) s := by
  obtain ⟨listing, url, hlisting, hurl, hraster⟩ := h.held key raster (RasterMemory.mem_held hheld)
  have hpresent := exists?_of_tileRaster (h.keyed _ hlisting _ _ hurl) hdots hraster
  have hread := readTile_of_tileRaster hraster
  simp [Pipeline.load, Provider.pipeline, TileIndex.resolve, TileIndex.load, hlisting, hurl,
    ensureTileFile, onIndexedHost, Host.onPart, Host.recast, Host.askDisk, hpresent, hread,
    bind_apply, map_apply, get_apply, pure_apply]

/-- Loading the listing leaves the caches coherent. -/
theorem load (h : Coherent directory limit memory s) (hdots : ".." ∉ directory)
    (hload : TileIndex.load s = .ok listing s') :
    Coherent directory limit memory s' ∧ s'.index.listing = some listing :=
  have hloads := TileIndex.loads_of_load hload
  ⟨h.loads hdots hloads, hloads.listing_eq⟩

/-- Finding a raster leaves the caches coherent, and the raster may then be held. -/
theorem finds (h : Coherent directory limit memory s) (hdots : ".." ∉ directory)
    (hfree : memory.find? key = none) (hposition : ∃ p : Position, key = p.tileKey)
    {found : Option Raster} (hfinds : Provider.Finds (.ofLocation directory) key s found s') :
    Coherent directory limit memory s' ∧
      ∀ raster ∈ found, Coherent directory limit (memory.insert key raster) s' := by
  cases hfinds with
  | nothing hload _ => exact ⟨(h.load hdots hload).1, by simp⟩
  | raster hload hurl hensured hraster =>
      obtain ⟨hloaded, hlisting⟩ := h.load hdots hload
      have hensured := hloaded.ensured hdots hlisting hurl (RasterMemory.notMem_keys hfree)
        hposition hensured
      refine ⟨hensured, fun raster hmem => ?_⟩
      cases hmem
      exact hensured.insert hlisting hurl hfree hposition hraster

theorem misses (h : Coherent directory limit memory s) (hdots : ".." ∉ directory)
    (hfree : memory.find? key = none) (hposition : ∃ p : Position, key = p.tileKey) {fault : Fault}
    (hmisses : Provider.Misses (.ofLocation directory) key s fault s') :
    Coherent directory limit memory s' := by
  cases hmisses with
  | unlisted _ _ hunobtained => exact h.unobtained hdots hunobtained
  | unensured hload hurl hunensured =>
      obtain ⟨hloaded, hlisting⟩ := h.load hdots hload
      exact hloaded.unensured hdots hlisting hurl hunensured
  | undecoded hload hurl hensured _ =>
      obtain ⟨hloaded, hlisting⟩ := h.load hdots hload
      exact hloaded.ensured hdots hlisting hurl (RasterMemory.notMem_keys hfree) hposition hensured

/-- With coherent caches, a key is answered as without memory, but for what is said when the memory
is emptied. -/
theorem ends_get (h : Coherent directory limit memory s) (hdots : ".." ∉ directory)
    (hposition : ∃ p : Position, key = p.tileKey) (d : Downloader) :
    Ends ((Provider.pipeline (.ofLocation directory) d).get key) (memory, s)
      (fun found t => Coherent directory limit t.1 t.2 ∧
        ∃ s₁, (Provider.pipeline (.ofLocation directory) d).load key s = .ok found s₁ ∧
          (t.2 = s₁ ∨ t.2 = { s₁ with host := s₁.host.note .debug Provider.emptiedNote }))
      (fun fault t => Coherent directory limit t.1 t.2 ∧
        (Provider.pipeline (.ofLocation directory) d).load key s = .error fault t.2) := by
  unfold Ends
  -- a raster that is held is what would be found, and one that is not held is looked for
  cases hfind : memory.find? key with
  | some raster =>
      rw [Pipeline.get_of_held hfind]
      exact ⟨h, s, h.load_of_held hdots hfind d, .inl rfl⟩
  | none =>
      have hends := Provider.ends_pipeline_load (.ofLocation directory) d key s
      rw [Pipeline.get_of_free hfind]
      cases hload : (Provider.pipeline (.ofLocation directory) d).load key s with
      | error fault s₁ => exact ⟨h.misses hdots hfind hposition (hends.of_error hload), rfl⟩
      | ok found s₁ =>
          obtain ⟨hcoherent, hinsert⟩ := h.finds hdots hfind hposition (hends.of_ok hload)
          cases found with
          | none => exact ⟨hcoherent, s₁, rfl, .inl rfl⟩
          | some raster =>
              dsimp only
              -- the memory is emptied before the raster comes in, and says so
              by_cases hempty : memory.overfull = true
              · rw [if_pos hempty]
                exact ⟨(hinsert raster rfl).note _ _, s₁, rfl, .inr rfl⟩
              · rw [if_neg hempty]
                exact ⟨hinsert raster rfl, s₁, rfl, .inl rfl⟩

end Caches.Coherent

end PointElevation
