import FireCrow.Agents.ExtractionAccounting
import FireCrow.Agents.SnapshotWalk

/-!
# Snapshots of accepted archives

An extraction and a snapshot count apart, one the entries of an archive and the
other the files of a tree.  What an accepted archive leaves has been charged
for, so its snapshot is within the limits and takes down every file once.
-/

namespace FireCrow.Agents.Fetch

open FireCrow.Library
open FireCrow.Library.Stateful

/-- A regular file below the destination. -/
def RegularFile (dest : Path) (files : FileSystem) (path : Path) : Prop :=
  Below dest path ∧ files.isFile path = true

/-! ## Paths as texts -/

theorem Inside.relativeTo_injective {dest path other : Path}
    (inside : Inside dest path) (inside' : Inside dest other)
    (same : relativeTo dest path = relativeTo dest other) : path = other := by
  rcases inside with ⟨parts, rfl, nonempty, relative⟩
  rcases inside' with ⟨parts', rfl, nonempty', relative'⟩
  rw [relativeTo, relativeTo, List.drop_left, List.drop_left] at same
  have plain {parts : List Text} (relative : Relative parts) :
      ∀ part ∈ parts, Paths.Plain part := fun part member =>
    ⟨(relative.normal part member).nonempty,
      (relative.normal part member).single⟩
  rw [← Paths.splitOn_join (plain relative) nonempty, same,
    Paths.splitOn_join (plain relative') nonempty']

/-! ## What is left and what was charged -/

section Charged

variable {dest : Path} {world : World}

theorem bytes_filter_isFile (files : FileSystem) (paths : List Path) :
    files.bytes (paths.filter files.isFile) = files.bytes paths := by
  induction paths with
  | nil => rfl
  | cons path paths ih =>
      unfold FileSystem.bytes at ih ⊢
      cases file : files.isFile path with
      | true =>
          rw [List.filter_cons_of_pos file, List.map_cons, List.sum_cons, ih,
            List.map_cons, List.sum_cons]
      | false =>
          rw [List.filter_cons_of_neg (by simp [file]), ih, List.map_cons,
            List.sum_cons, FileSystem.size_eq_zero file, Nat.zero_add]

/-- The files of a listing are no more and no longer than what was charged. -/
theorem Sound.charged (sound : Sound dest 0 world)
    (listing : Listing dest world.files) :
    listing.paths.countP world.files.isFile ≤ world.fileCount ∧
      world.files.bytes listing.paths ≤ world.total := by
  rcases sound.counted with ⟨count, few, counted⟩
  have nodup : (listing.paths.filter world.files.isFile).Nodup :=
    listing.nodup.filter _
  have there : ∀ path ∈ (listing.paths.filter world.files.isFile).toFinset,
      Below dest path ∧ world.files.isFile path = true := by
    intro path member
    have inside := List.mem_filter.1 (List.mem_toFinset.1 member)
    exact ⟨((listing.mem_iff path).1 inside.1).1, inside.2⟩
  have within := counted _ there
  rw [List.toFinset_card_of_nodup nodup,
    List.sum_toFinset world.files.size nodup] at within
  constructor
  · rw [List.countP_eq_length_filter]
    exact within.1.trans few
  · rw [← bytes_filter_isFile]
    exact within.2

end Charged

/-! ## Agreement -/

section Agreement

variable [UnicodeTables]

/-- The snapshot counts every regular file below the destination once and lists
those that are manifests, and those that are sensitive, by their paths. -/
structure Agrees (dest : Path) (files : FileSystem) (counted : List Path)
    (snapshot : RepoSnapshot) : Prop where
  once : counted.Nodup
  whole : ∀ path, path ∈ counted ↔ RegularFile dest files path
  fileCount : snapshot.fileCount = counted.length
  totalSize : snapshot.totalSize = (counted.map files.size).sum
  manifestsOnce : snapshot.manifests.Nodup
  manifests : ∀ rel, rel ∈ snapshot.manifests ↔
    ∃ path, RegularFile dest files path ∧ namesManifest path = true ∧
      relativeTo dest path = rel
  sensitiveOnce : snapshot.securitySensitive.Nodup
  sensitive : ∀ rel, rel ∈ snapshot.securitySensitive ↔
    ∃ path, RegularFile dest files path ∧ isSecuritySensitivePath rel = true ∧
      relativeTo dest path = rel

theorem Recorded.agrees {dest : Path} {files : FileSystem}
    {inventory : Inventory} (recorded : Recorded dest files inventory)
    (listing : Listing dest files)
    (perm : inventory.recorded.Perm listing.paths)
    (inside : ∀ path ∈ listing.paths, Inside dest path) (commitSha : Text) :
    Agrees dest files (inventory.recorded.filter files.isFile)
      (inventory.snapshot commitSha) := by
  have once : (inventory.recorded.filter files.isFile).Nodup :=
    (perm.nodup_iff.2 listing.nodup).filter _
  have whole : ∀ path, path ∈ inventory.recorded.filter files.isFile ↔
      RegularFile dest files path := by
    intro path
    rw [List.mem_filter, perm.mem_iff, listing.mem_iff]
    constructor
    · exact fun counted => ⟨counted.1.1, counted.2⟩
    · rintro ⟨below, file⟩
      rcases FileSystem.isFile_iff.1 file with ⟨content, present⟩
      exact ⟨⟨below, present ▸ Option.some_ne_none _⟩, file⟩
  have injective : ∀ path ∈ inventory.recorded.filter files.isFile,
      ∀ other ∈ inventory.recorded.filter files.isFile,
        relativeTo dest path = relativeTo dest other → path = other := by
    intro path member other member'
    exact (inside path (perm.mem_iff.1 (List.mem_of_mem_filter member))).relativeTo_injective
      (inside other (perm.mem_iff.1 (List.mem_of_mem_filter member')))
  constructor
  · exact once
  · exact whole
  · show inventory.fileCount = _
    rw [recorded.fileCount, List.countP_eq_length_filter]
  · show inventory.totalSize = _
    rw [recorded.totalSize]
    exact (bytes_filter_isFile files _).symm
  · apply (sortBy_perm id inventory.manifests).nodup_iff.2
    rw [recorded.manifests]
    apply List.Nodup.map_on _ (once.filter _)
    intro path member other member'
    exact injective path (List.mem_of_mem_filter member) other
      (List.mem_of_mem_filter member')
  · intro rel
    show rel ∈ sortBy id inventory.manifests ↔ _
    rw [mem_sortBy, recorded.manifests, List.mem_map]
    constructor
    · rintro ⟨path, member, rfl⟩
      have kept := List.mem_filter.1 member
      exact ⟨path, (whole path).1 kept.1, kept.2, rfl⟩
    · rintro ⟨path, file, manifest, rfl⟩
      exact ⟨path, List.mem_filter.2 ⟨(whole path).2 file, manifest⟩, rfl⟩
  · apply (sortBy_perm id inventory.securitySensitive).nodup_iff.2
    rw [recorded.securitySensitive]
    exact (once.map_on injective).filter _
  · intro rel
    show rel ∈ sortBy id inventory.securitySensitive ↔ _
    rw [mem_sortBy, recorded.securitySensitive, List.mem_filter, List.mem_map]
    constructor
    · rintro ⟨⟨path, member, rfl⟩, sensitive⟩
      exact ⟨path, (whole path).1 member, sensitive, rfl⟩
    · rintro ⟨path, file, sensitive, rfl⟩
      exact ⟨⟨path, (whole path).2 file, rfl⟩, sensitive⟩

/-- Whatever archive is accepted, its files can be listed, and in whichever
order they are: the snapshot of the destination is not refused for its size but
only where the operating system refuses a call; it counts every regular file
once, with no more files and bytes than were charged, and lists exactly the
manifests and the security-sensitive files. -/
theorem snapshot_agrees_with_extraction (env : Environment) (dest : Path)
    (stream : Stream) (files : FileSystem) (last : World)
    (fresh : Fresh dest files)
    (accepted : extractTarballWithCancel env dest stream files = .ok () last) :
    Nonempty (Listing dest last.files) ∧
      ∀ (listing : Listing dest last.files) (refuses : Nat → Option Text)
        (commitSha : Text),
        (∀ stop walked,
          snapshotRepo refuses listing commitSha = .error stop walked →
            stop ≠ .failed .payloadTooLarge ∧ Refused refuses stop) ∧
        ∀ snapshot walked,
          snapshotRepo refuses listing commitSha = .ok snapshot walked →
            Agrees dest last.files
              (walked.recorded.filter last.files.isFile) snapshot ∧
            snapshot.fileCount ≤ last.fileCount ∧
            snapshot.totalSize ≤ last.total := by
  have sound := fresh.extracted accepted
  refine ⟨⟨changedListing fresh accepted⟩, ?_⟩
  intro listing refuses commitSha
  have charged := sound.charged listing
  have few := charged.1.trans sound.fewEntries
  have walks := snapshotRepo_yields refuses sound.tree few
    (charged.2.trans sound.fewBytes) commitSha
  constructor
  · intro stop walked run
    have refused := walks.2 stop walked run
    refine ⟨?_, refused⟩
    rintro rfl
    rcases refused.1 with ⟨message, same⟩
    cases same
  · intro snapshot walked run
    rcases walks.1 snapshot walked run with ⟨rfl, recorded, perm⟩
    refine ⟨recorded.agrees listing perm ?_ commitSha, ?_, ?_⟩
    · intro path member
      have there := (listing.mem_iff path).1 member
      exact (fresh.inside accepted there.1 there.2).2
    · show walked.fileCount ≤ _
      rw [recorded.fileCount, perm.countP_eq]
      exact charged.1
    · show walked.totalSize ≤ _
      rw [recorded.totalSize, FileSystem.bytes_perm perm]
      exact charged.2

section Order

variable {env : Environment} {dest : Path} {stream : Stream}
  {files : FileSystem} {last : World} (fresh : Fresh dest files)
  (accepted : extractTarballWithCancel env dest stream files = .ok () last)
include fresh accepted

theorem snapshot_yields (refuses : Nat → Option Text)
    (listing : Listing dest last.files) (commitSha : Text) :
    (∀ snapshot walked,
      snapshotRepo refuses listing commitSha = .ok snapshot walked →
        snapshot = walked.snapshot commitSha ∧
          Recorded dest last.files walked ∧
            walked.recorded.Perm listing.paths) ∧
      ∀ stop walked,
        snapshotRepo refuses listing commitSha = .error stop walked →
          Refused refuses stop := by
  have sound := fresh.extracted accepted
  have charged := sound.charged listing
  exact snapshotRepo_yields refuses sound.tree
    (charged.1.trans sound.fewEntries) (charged.2.trans sound.fewBytes)
    commitSha

/-- Whatever archive is accepted, two snapshots of it agree in everything but
the languages and the binary files, in whichever orders the operating system
lists the directories. -/
theorem snapshot_order_independent (first second : Listing dest last.files)
    (refuses refuses' : Nat → Option Text) (commitSha : Text)
    {left right : RepoSnapshot} {walked walked' : Inventory}
    (run : snapshotRepo refuses first commitSha = .ok left walked)
    (run' : snapshotRepo refuses' second commitSha = .ok right walked') :
    right = { left with
      languages := right.languages
      binaryFileCount := right.binaryFileCount } := by
  rcases (snapshot_yields fresh accepted refuses first commitSha).1 left walked
    run with ⟨rfl, recorded, perm⟩
  rcases (snapshot_yields fresh accepted refuses' second commitSha).1 right
    walked' run' with ⟨rfl, recorded', perm'⟩
  have listed : second.paths.Perm first.paths :=
    (List.perm_ext_iff_of_nodup second.nodup first.nodup).2 fun path =>
      (second.mem_iff path).trans (first.mem_iff path).symm
  have same : walked'.recorded.Perm walked.recorded :=
    (perm'.trans listed).trans perm.symm
  have sorted {left right : List Text} (perm : left.Perm right) :
      sortBy id left = sortBy id right :=
    sortBy_eq_of_perm perm fun _ _ _ _ equal => equal
  have files := same.filter last.files.isFile
  simp only [Inventory.snapshot, recorded'.fileCount, recorded.fileCount,
    recorded'.totalSize, recorded.totalSize, recorded'.manifests,
    recorded.manifests, recorded'.directories, recorded.directories,
    recorded'.securitySensitive, recorded.securitySensitive, same.countP_eq,
    FileSystem.bytes_perm same, sorted ((files.filter namesManifest).map _),
    sorted ((same.filter last.files.isDirectory).map _),
    sorted ((files.map _).filter isSecuritySensitivePath)]

end Order

end Agreement

/-! ## A sample archive -/

theorem emptyDest_fresh : Fresh [("dest" : Text)] emptyDest where
  root := emptyDest_rooted
  empty := by
    rintro path ⟨⟨parts, rfl⟩, apart⟩
    apply if_neg
    rintro (nothing | same)
    · cases nothing
    · exact apart same

/-- The header of a file, its bytes and their padding. -/
def fileEntry (name : Text) (content : Bytes) : Bytes :=
  headerBlock name (Text.ofNat content.length) '0' ++ content ++
    List.replicate (pad content.length) 0

/-- A manifest, again with fewer bytes, and a file with secrets. -/
def overwritten : Stream :=
  ⟨fileEntry "a/Cargo.toml" [91, 97, 93] ++ fileEntry "a/Cargo.toml" [91] ++
    fileEntry "a/.env" [65, 61], none⟩

def accepts : EStateM.Result Stop World Unit → Bool
  | .ok _ _ => true
  | .error _ _ => false

section Sample

attribute [local instance] UnicodeTables.ascii

theorem snapshot_agrees_with_extraction_overwritten :
    ∃ (last : World) (listing : Listing [("dest" : Text)] last.files)
      (snapshot : RepoSnapshot) (walked : Inventory),
      extractTarballWithCancel calm [("dest" : Text)] overwritten emptyDest =
        .ok () last ∧
      snapshotRepo (fun _ => none) listing "abc" = .ok snapshot walked ∧
      Agrees [("dest" : Text)] last.files
        (walked.recorded.filter last.files.isFile) snapshot ∧
      snapshot.fileCount ≤ last.fileCount ∧ snapshot.totalSize ≤ last.total := by
  have ended : accepts (extractTarballWithCancel calm [("dest" : Text)]
      overwritten emptyDest) = true := by
    decide +kernel
  cases extracted : extractTarballWithCancel calm [("dest" : Text)] overwritten
      emptyDest with
  | error stop last =>
      rw [extracted] at ended
      cases ended
  | ok value last =>
      rcases snapshot_agrees_with_extraction calm [("dest" : Text)] overwritten
        emptyDest last emptyDest_fresh extracted with ⟨⟨listing⟩, agrees⟩
      have walks := agrees listing (fun _ => none) "abc"
      cases run : snapshotRepo (fun _ => none) listing "abc" with
      | error stop walked =>
          rcases (walks.1 stop walked run).2.2 with ⟨question, refused⟩
          exact absurd rfl refused
      | ok snapshot walked =>
          exact ⟨last, listing, snapshot, walked, rfl, run,
            walks.2 snapshot walked run⟩

theorem snapshot_order_independent_overwritten :
    ∃ (last : World) (first second : Listing [("dest" : Text)] last.files)
      (left right : RepoSnapshot), second.paths = first.paths.reverse ∧
      right = { left with
        languages := right.languages
        binaryFileCount := right.binaryFileCount } := by
  have ended : accepts (extractTarballWithCancel calm [("dest" : Text)]
      overwritten emptyDest) = true := by
    decide +kernel
  cases extracted : extractTarballWithCancel calm [("dest" : Text)] overwritten
      emptyDest with
  | error stop last =>
      rw [extracted] at ended
      cases ended
  | ok value last =>
      have taken (listing : Listing [("dest" : Text)] last.files) :
          ∃ snapshot walked,
            snapshotRepo (fun _ => none) listing "abc" = .ok snapshot walked := by
        cases run : snapshotRepo (fun _ => none) listing "abc" with
        | error stop walked =>
            rcases ((snapshot_yields emptyDest_fresh extracted _ listing
              "abc").2 stop walked run).2 with ⟨question, refused⟩
            exact absurd rfl refused
        | ok snapshot walked => exact ⟨snapshot, walked, rfl⟩
      let first := changedListing emptyDest_fresh extracted
      let second : Listing [("dest" : Text)] last.files :=
        ⟨first.paths.reverse, List.nodup_reverse.2 first.nodup,
          fun path => List.mem_reverse.trans (first.mem_iff path)⟩
      rcases taken first with ⟨left, walked, run⟩
      rcases taken second with ⟨right, walked', run'⟩
      exact ⟨last, first, second, left, right, rfl,
        snapshot_order_independent emptyDest_fresh extracted first second _ _
          "abc" run run'⟩

end Sample

end FireCrow.Agents.Fetch
