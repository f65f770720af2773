import PointElevation.Proofs.Host.FileEvents
import Mathlib.Data.List.Perm.Subperm
import PointElevation.Proofs.Provider.Coherence
import PointElevation.Proofs.Provider.Run

/-!
# Caches along a run

Coherence is kept by all that a provider can be asked to do: queries keep it by
`Caches.Coherent.ends_get`, and a release forgets the rasters before it removes their files.  So it
holds in every state that can be reached, and with it what the counts of a provider say.
-/

namespace PointElevation

open PointElevation.Text (decodeAscii)

/-! ## Removing a directory -/

theorem Disk.ends_removeTree {directory : Location} (hdots : ".." ∉ directory) (d : Disk) :
    Ends (removeTree (.ofLocation directory)) d (fun _ d' => d' = d.without directory)
      (fun _ d' => d' = d) := by
  simp only [removeTree, ends_bind, ends_get, ends_ask]
  refine ⟨fun l hlocate => ?_, fun _ _ => trivial⟩
  obtain ⟨-, root, hstart, hwalk⟩ := locate_eq_ok_iff.mp hlocate
  obtain rfl : [] = root := by simpa [Disk.start, FilePath.ofLocation] using hstart
  obtain rfl : l = directory := FileTree.walk_eq_append hdots hwalk
  cases d.tree.get? l with
  | none => exact rfl
  | some node =>
      cases node with
      | directory => exact rfl
      | file content => exact rfl

theorem Disk.get?_without (d : Disk) (directory : Location) (name : String) :
    (d.without directory).tree.get? (directory ++ [name]) = none := by
  have hbelow : directory.isPrefixOf (directory ++ [name]) = true := by
    simp [List.isPrefixOf_iff_prefix]
  rw [without, FileTree.get?_eraseTree (by simp), if_pos hbelow]

/-- Once the rasters are forgotten, the directory may go. -/
theorem Caches.Coherent.released {directory : Location} {limit : Int} {memory : RasterMemory}
    {s : Indexed} (h : Coherent directory limit memory s) {host : Host}
    (hdisk : host.disk = s.host.disk ∨ host.disk = s.host.disk.without directory) :
    Coherent directory limit memory.clear { s with host := host } :=
  { h.cleared with
    written := fun listing node hlisting hnode => by
      -- the listing's file is as it was, or it has gone with the directory
      rcases hdisk with heq | heq
      · exact h.written listing node hlisting (heq ▸ hnode)
      · rw [heq, Disk.get?_without] at hnode
        cases hnode
    held := fun _ _ hmem => absurd hmem List.not_mem_nil }

/-! ## Every action keeps the caches coherent -/

namespace Service

/-- What a release may have done to a service, whether or not it failed. -/
structure Released (directory : Location) (s s' : Service) : Prop where
  provider : s'.provider = s.provider.clearMemory
  network : s'.host.network = s.host.network
  requests : s'.host.journal.requests = s.host.journal.requests
  disk : s'.host.disk = s.host.disk ∨ s'.host.disk = s.host.disk.without directory
  work : s.host.Work [] s'.host ∨ s.provider.autoRemove = true ∧
    s.host.Work [⟨.removeTree (.ofLocation directory), s.host.disk⟩] s'.host

/-- Removes the directory of a provider, if it is there and meant to go. -/
def removeDirectory (p : Provider) : ServiceM Failure Unit := do
  if p.autoRemove then
    if ← onHost (Host.askDisk (·.exists? p.directory)) then
      onHost (Host.say .info ("Removing swissalti3d cache " ++ toString p.directory))
      onHost (Host.onFiles (.removeTree p.directory))

/-- A release forgets the rasters, closes the client and removes the directory. -/
theorem release_eq :
    release = (do
      modify fun s => { s with provider := s.provider.clearMemory }
      let p := (← get).provider
      if p.ownsDownloader then onHost p.downloader.close
      removeDirectory p) := rfl

theorem ends_removeDirectory {directory : Location} (hdots : ".." ∉ directory) {p : Provider}
    (hplace : p.directory = .ofLocation directory) {s s₁ : Service}
    (hremoves : p.autoRemove = s.provider.autoRemove) (hreleased : Released directory s s₁)
    (hidle : s.host.Work [] s₁.host) :
    EndsIn (removeDirectory p) s₁ (Released directory s) := by
  have hdisk : s₁.host.disk = s.host.disk := hidle.disk_eq
  unfold removeDirectory
  cases hauto : p.autoRemove with
  | false => exact hreleased
  | true =>
      simp only [if_true, EndsIn, ends_bind, onHost, Host.ends_onPart, Host.ends_askDisk]
      refine ⟨fun present _ => ?_, fun _ _ => hreleased⟩
      cases present with
      | false => exact hreleased
      | true =>
          simp only [if_true, ends_bind, Host.ends_onPart, Host.ends_say]
          -- whether or not the disk refuses it, this is the one thing that is done
          let gone : FileEvent := ⟨.removeTree p.directory, s₁.host.disk⟩
          let noted := s₁.host.note .info ("Removing swissalti3d cache " ++ toString p.directory)
          have hend : ∀ h' : Host,
              h'.disk = s.host.disk ∨ h'.disk = s.host.disk.without directory →
                noted.Work [gone] h' → h' = { noted with disk := h'.disk }.filed [gone] →
                  Released directory s { s₁ with host := h' } := by
            intro h' hends hlast heq
            have hwork : s.host.Work [gone] h' := hidle.trans ⟨hlast.files, hlast.follow⟩
            simp only [gone, hplace, hdisk] at hwork
            exact
              { provider := hreleased.provider
                network := (congrArg Host.network heq).trans hreleased.network
                requests := (congrArg (·.journal.requests) heq).trans hreleased.requests
                disk := hends
                work := .inr ⟨hremoves ▸ hauto, hwork⟩ }
          have hends := Disk.ends_removeTree hdots s₁.host.disk
          rw [← hplace] at hends
          refine Host.ends_onFiles_of_work (fun _ h' hrun hlast heq => ?_)
            fun _ h' hrun hlast heq => ?_
          · exact hend h' (.inr (hdisk ▸ hends.of_ok hrun)) hlast heq
          · exact hend h' (.inl ((hends.of_error hrun).trans hdisk)) hlast heq

theorem ends_release {directory : Location} (hdots : ".." ∉ directory) {s : Service}
    (hplace : s.provider.directory = .ofLocation directory) :
    EndsIn release s (Released directory s) := by
  have hremove : ∀ s₁ : Service, Released directory s s₁ → s.host.Work [] s₁.host →
      EndsIn (removeDirectory s.provider.clearMemory) s₁ (Released directory s) :=
    fun s₁ hreleased hidle => ends_removeDirectory hdots hplace rfl hreleased hidle
  simp only [EndsIn, release_eq, ends_bind, ends_modify, ends_get] at hremove ⊢
  by_cases howns : s.provider.clearMemory.ownsDownloader = true
  · simp only [howns, if_true, ends_bind, onHost, Host.ends_onPart, Downloader.close,
      Host.ends_record]
    exact hremove _ ⟨rfl, rfl, rfl, .inl rfl, .inl (.idle rfl rfl)⟩ (.idle rfl rfl)
  · simp only [howns, Bool.false_eq_true, if_false]
    exact hremove _ ⟨rfl, rfl, rfl, .inl rfl, .inl (.refl _)⟩ (.refl _)

/-- The caches of a service are coherent. -/
structure Coherent (directory : Location) (limit : Int) (s : Service) : Prop where
  dots : ".." ∉ directory
  place : s.provider.directory = .ofLocation directory
  caches : Caches.Coherent directory limit s.provider.memory ⟨s.provider.index, s.host⟩

namespace Coherent

variable {directory : Location} {limit : Int} {s : Service}

theorem noted (h : s.Coherent directory limit) (level : Level) (text : String) :
    (s.noted level text).Coherent directory limit :=
  ⟨h.dots, h.place, h.caches.note level text⟩

/-- With coherent caches, a query for a raster is answered as without memory, and what it does to
index and host is the same but for a message. -/
theorem ends_rasterOf (h : s.Coherent directory limit) (position : Position) :
    Ends (rasterOf position.tileKey) s
      (fun found s' => s'.Coherent directory limit ∧ ∃ memory t,
        (Provider.pipeline (.ofLocation directory) s.provider.downloader).load
          position.tileKey ⟨s.provider.index, s.host⟩ = .ok found t ∧
        (s' = s.withCached (memory, t) ∨
          s' = (s.withCached (memory, t)).noted .debug Provider.emptiedNote))
      (fun fault s' => s'.Coherent directory limit ∧ ∃ memory t,
        (Provider.pipeline (.ofLocation directory) s.provider.downloader).load
          position.tileKey ⟨s.provider.index, s.host⟩ = .error fault t ∧
        s' = s.withCached (memory, t)) := by
  rw [Service.ends_rasterOf, h.place]
  refine (h.caches.ends_get h.dots ⟨position, rfl⟩ s.provider.downloader).mono ?_ ?_
  · intro found t hend
    obtain ⟨hcoherent, t', hload, heq⟩ := hend
    refine ⟨⟨h.dots, h.place, hcoherent⟩, t.1, t', hload, ?_⟩
    rcases heq with rfl | heq
    · exact .inl rfl
    · refine .inr ?_
      rw [withCached, heq]
      rfl
  · intro fault t hend
    obtain ⟨hcoherent, hload⟩ := hend
    exact ⟨⟨h.dots, h.place, hcoherent⟩, t.1, t.2, hload, rfl⟩

/-- What the way without memory finds is what is answered. -/
theorem rasterOf_of_load_ok (h : s.Coherent directory limit) {position : Position}
    {found : Option Raster} {a : Indexed}
    (hload : (Provider.pipeline (.ofLocation directory) s.provider.downloader).load
      position.tileKey ⟨s.provider.index, s.host⟩ = .ok found a) :
    ∃ memory s', rasterOf position.tileKey s = .ok found s' ∧ s'.Coherent directory limit ∧
      (s' = s.withCached (memory, a) ∨
        s' = (s.withCached (memory, a)).noted .debug Provider.emptiedNote) := by
  have hends := h.ends_rasterOf position
  cases hrun : rasterOf position.tileKey s with
  | ok found' s' =>
      obtain ⟨hcoherent, memory, t, hload', heq⟩ := hends.of_ok hrun
      cases hload.symm.trans hload'
      exact ⟨memory, s', rfl, hcoherent, heq⟩
  | error fault s' =>
      obtain ⟨-, memory, t, hload', -⟩ := hends.of_error hrun
      cases hload.symm.trans hload'

theorem rasterOf_of_load_error (h : s.Coherent directory limit) {position : Position}
    {fault : Fault} {a : Indexed}
    (hload : (Provider.pipeline (.ofLocation directory) s.provider.downloader).load
      position.tileKey ⟨s.provider.index, s.host⟩ = .error fault a) :
    ∃ memory, rasterOf position.tileKey s = .error fault (s.withCached (memory, a)) ∧
      (s.withCached (memory, a)).Coherent directory limit := by
  have hends := h.ends_rasterOf position
  cases hrun : rasterOf position.tileKey s with
  | ok found s' =>
      obtain ⟨-, memory, t, hload', -⟩ := hends.of_ok hrun
      cases hload.symm.trans hload'
  | error fault' s' =>
      obtain ⟨hcoherent, memory, t, hload', rfl⟩ := hends.of_error hrun
      cases hload.symm.trans hload'
      exact ⟨memory, rfl, hcoherent⟩

theorem released (h : s.Coherent directory limit) {s' : Service}
    (hreleased : Released directory s s') : s'.Coherent directory limit := by
  obtain ⟨p, host⟩ := s'
  obtain ⟨rfl, -, -, hdisk⟩ := hreleased
  exact ⟨h.dots, h.place, h.caches.released hdisk⟩

end Coherent

theorem kept_coherent (directory : Location) (limit : Int) : Kept (Coherent directory limit) where
  noted := fun _ level text h => h.noted level text
  rasterOf := fun _ position h =>
    (h.ends_rasterOf position).mono (fun _ _ hgood => hgood.1) fun _ _ hbad => hbad.1
  setAutoRemove := fun _ _ h => ⟨h.dots, h.place, h.caches⟩
  release := fun _ h => (ends_release h.dots h.place).mono (fun _ _ hgood => h.released hgood)
    fun _ _ hbad => h.released hbad

end Service

/-- A new provider has coherent caches, whatever is on the disk. -/
theorem Provider.Fresh.coherent {directory : Location} {p : Provider} (h : p.Fresh directory)
    (limit : Int) (host : Host) :
    Service.Coherent directory limit ⟨{ p with memory := .empty limit }, host⟩ where
  dots := h.dots
  place := h.place
  caches :=
    { place := by rw [h.index]; exact h.place
      keyed := fun _ hlisting => by
        rw [h.index] at hlisting
        cases hlisting
      written := fun _ _ hlisting => by
        rw [h.index] at hlisting
        cases hlisting
      held := fun _ _ hmem => absurd hmem List.not_mem_nil
      positional := fun _ hmem => absurd hmem List.not_mem_nil
      nodup := List.nodup_nil
      limit_eq := rfl
      size_le := Nat.zero_le _ }

namespace Service

theorem Reachable.coherent {s : Service} (h : s.Reachable) :
    ∃ directory, s.Coherent directory RasterMemory.defaultLimit := by
  -- over the actions since the provider was made
  induction h with
  | @created directory shared timeout autoRemove h h' p hcreate =>
      obtain ⟨-, l, hfresh⟩ :=
        (Provider.ends_create directory shared timeout autoRemove h).of_ok hcreate
      have hcoherent := hfresh.coherent RasterMemory.defaultLimit h'
      rw [← hfresh.memory] at hcoherent
      exact ⟨l, hcoherent⟩
  | performed action _ ih =>
      obtain ⟨directory, hcoherent⟩ := ih
      exact ⟨directory, (kept_coherent directory _).perform action hcoherent⟩

/-- On a bare host the listing of the standard provider is not there. -/
theorem exists?_bare (n : Network) (timeout : Float) (autoRemove : Bool) :
    (Host.bare n).disk.exists? (Provider.standard timeout autoRemove).index.mappingFile =
      .ok false := by
  have hplace : (Provider.standard timeout autoRemove).index.directory =
      .ofLocation ["tmp", "swissalti3d"] := rfl
  rw [TileIndex.mappingFile_eq hplace]
  rfl

/-! ## What can be seen of the caches -/

/-- What memory, disk and counts of a provider say of one another. -/
structure CachesAgree (s : Service) : Prop where
  /-- a raster that is held has a listed tile, and is what the tile's file would be read as -/
  held : ∀ key raster, s.provider.memory.find? key = some raster → ∃ listing url,
    s.provider.index.listing = some listing ∧ listing.url? key = some url ∧
      s.host.disk.exists? (tileFile s.provider.directory url) = .ok true ∧
        readTile (tileFile s.provider.directory url) elevationBand s.host = .ok raster s.host
  /-- a listing that is held is what its file would be read as, if that is there -/
  listed : ∀ listing, s.provider.index.listing = some listing →
    s.host.disk.exists? s.provider.index.mappingFile = .ok true →
      s.provider.index.readFile s.host = .ok listing s.host
  unloaded : s.provider.index.isLoaded = false → s.provider.status.tilesIndexed = 0
  counted : s.provider.status.rastersCached ≤
    min s.provider.status.tilesIndexed (RasterMemory.defaultLimit.toNat + 1)

variable {directory : Location} {limit : Int} {s : Service}

theorem Coherent.held (h : s.Coherent directory limit) {key : TileKey} {raster : Raster}
    (hheld : s.provider.memory.find? key = some raster) : ∃ listing url,
    s.provider.index.listing = some listing ∧ listing.url? key = some url ∧
      s.host.disk.exists? (tileFile s.provider.directory url) = .ok true ∧
        readTile (tileFile s.provider.directory url) elevationBand s.host = .ok raster s.host := by
  obtain ⟨listing, url, hlisting, hurl, hraster⟩ :=
    h.caches.held key raster (RasterMemory.mem_held hheld)
  have hkey := h.caches.keyed listing hlisting key url hurl
  rw [h.place]
  exact ⟨listing, url, hlisting, hurl, exists?_of_tileRaster hkey h.dots hraster,
    readTile_of_tileRaster hraster⟩

theorem Coherent.listed (h : s.Coherent directory limit) {listing : Listing}
    (hlisting : s.provider.index.listing = some listing)
    (hexists : s.host.disk.exists? s.provider.index.mappingFile = .ok true) :
    s.provider.index.readFile s.host = .ok listing s.host := by
  have hfile := dots_notMem_append h.dots isFileName_mappings
  rw [TileIndex.mappingFile_eq h.caches.place, exists?_place_eq_true_iff hfile] at hexists
  obtain ⟨hnameable, hreach, hnode⟩ := hexists
  obtain ⟨node, hget⟩ := Option.ne_none_iff_exists'.mp hnode
  obtain ⟨bytes, rfl, rfl⟩ := h.caches.written listing node hlisting hget
  have hread := (read_place_eq_ok_iff hfile).mpr ⟨hnameable, hreach, hget⟩
  simp [TileIndex.readFile, TileIndex.mappingFile_eq h.caches.place, Host.recast, Host.askDisk,
    hread, map_apply]

/-- There are not more rasters than tiles in the listing. -/
theorem Coherent.rastersCached_le (h : s.Coherent directory limit) :
    s.provider.status.rastersCached ≤ s.provider.status.tilesIndexed := by
  change s.provider.memory.held.length ≤ s.provider.index.size
  cases hlisting : s.provider.index.listing with
  | none => rw [h.caches.held_eq_nil hlisting]; exact Nat.zero_le _
  | some listing =>
      -- the keys of the rasters are listed, and no key comes twice
      have hsubset : s.provider.memory.held.map Prod.fst ⊆ listing.urls.keys := by
        intro key hkey
        obtain ⟨⟨key, raster⟩, hmem, rfl⟩ := List.mem_map.mp hkey
        obtain ⟨listing', url, hlisting', hurl, -⟩ := h.caches.held key raster hmem
        cases hlisting.symm.trans hlisting'
        rw [Std.HashMap.mem_keys, Std.HashMap.mem_iff_isSome_getElem?]
        exact Option.isSome_of_eq_some hurl
      have hlength := (h.caches.nodup.subperm hsubset).length_le
      rw [List.length_map, Std.HashMap.length_keys] at hlength
      rw [TileIndex.size, hlisting]
      exact hlength

theorem Coherent.cachesAgree (h : s.Coherent directory RasterMemory.defaultLimit) :
    s.CachesAgree where
  held := fun _ _ hheld => h.held hheld
  listed := fun _ hlisting hexists => h.listed hlisting hexists
  unloaded := fun hloaded => by
    simp only [TileIndex.isLoaded, Option.isSome_eq_false_iff, Option.isNone_iff_eq_none] at hloaded
    simp [Provider.status, TileIndex.size, hloaded]
  counted := Nat.le_min.mpr ⟨h.rastersCached_le, h.caches.size_le⟩

/-- In every state of a provider its caches agree: whatever was on the disk, whatever the network
answers, and in whatever order it was asked for heights, told to remove its directory, and
released. -/
theorem cachesAgree_of_reachable (h : s.Reachable) : s.CachesAgree := by
  obtain ⟨directory, hcoherent⟩ := h.coherent
  exact hcoherent.cachesAgree

/-- So they do after queries for points in the two tiles that a disk has. -/
theorem cachesAgree_cropped :
    Service.CachesAgree
      (((⟨.standard 10.0 true, ⟨.cropped, ⟨[], []⟩, ∅⟩⟩ : Service).perform
        (.lookup 46.96007 7.43864)).2.perform (.lookup 46.96007 7.45179)).2 :=
  cachesAgree_of_reachable
    (.performed (.lookup 46.96007 7.45179) (.performed (.lookup 46.96007 7.43864)
      (.created (Provider.create_cropped ⟨[], []⟩ 10.0 true))))

end Service

end PointElevation
