import FireCrow.Agents.ExtractedTree
import FireCrow.Library.TreeWalk

/-!
# What the snapshot takes down

On a tree of directories and files the walk meets everything below the
destination once.  Its counters and lists are those of what it has met, so it is
too large for the walk only where what there is exceeds a limit.
-/

namespace FireCrow.Agents.Fetch

open FireCrow.Library
open FireCrow.Library.Stateful

/-! ## Listings as trees -/

def FileSystem.isDirectory (files : FileSystem) (path : Path) : Bool :=
  files path = some .directory

theorem FileSystem.isDirectory_iff {files : FileSystem} {path : Path} :
    files.isDirectory path = true ↔ files path = some .directory :=
  decide_eq_true_iff

theorem FileSystem.isDirectory_file {files : FileSystem} {path : Path}
    {content : Bytes} (present : files path = some (.file content)) :
    files.isDirectory path = false := by
  rw [FileSystem.isDirectory, present]
  rfl

section Listed

variable {dest : Path} {files : FileSystem}

theorem Listing.closed (listing : Listing dest files) (tree : Tree dest files) :
    TreeWalk.Closed dest files.isDirectory listing.paths where
  nodup := listing.nodup
  under path member := ((listing.mem_iff path).1 member).1
  parent := by
    intro path member proper
    have there := (listing.mem_iff path).1 member
    have present := tree.parent path there.1 there.2
    have below : Below dest path.dropLast := ⟨there.1.prefix_dropLast, proper⟩
    refine ⟨(listing.mem_iff _).2 ⟨below, ?_⟩, FileSystem.isDirectory_iff.2 present⟩
    rw [present]
    exact Option.some_ne_none _

/-- The bytes of some files. -/
def FileSystem.bytes (files : FileSystem) (paths : List Path) : Nat :=
  (paths.map files.size).sum

theorem FileSystem.bytes_singleton (path : Path) :
    files.bytes [path] = files.size path := by
  rw [FileSystem.bytes, List.map_singleton, List.sum_singleton]

theorem FileSystem.bytes_append (left right : List Path) :
    files.bytes (left ++ right) = files.bytes left + files.bytes right := by
  rw [FileSystem.bytes, List.map_append, List.sum_append]
  rfl

theorem FileSystem.bytes_perm {left right : List Path} (perm : left.Perm right) :
    files.bytes left = files.bytes right :=
  (perm.map files.size).sum_eq

end Listed

/-! ## Inventories -/

/-- A path below the destination, as a text. -/
def relativeTo (dest path : Path) : Text :=
  Text.join ['/'] (path.drop dest.length)

section Walk

variable [UnicodeTables]

/-- The counters and lists are those of what has been taken down. -/
structure Recorded (dest : Path) (files : FileSystem) (inventory : Inventory) :
    Prop where
  fileCount : inventory.fileCount = inventory.recorded.countP files.isFile
  totalSize : inventory.totalSize = files.bytes inventory.recorded
  manifests : inventory.manifests =
    ((inventory.recorded.filter files.isFile).filter namesManifest).map
      (relativeTo dest)
  directories : inventory.directories =
    (inventory.recorded.filter files.isDirectory).map (relativeTo dest)
  securitySensitive : inventory.securitySensitive =
    ((inventory.recorded.filter files.isFile).map (relativeTo dest)).filter
      isSecuritySensitivePath

/-- The operating system has refused a call. -/
def Refused (refuses : Nat → Option Text) (stop : Stop) : Prop :=
  (∃ message, stop = .failed (.internal message)) ∧
    ∃ question, refuses question ≠ none

variable (refuses : Nat → Option Text) {dest : Path} {files : FileSystem}
  {inventory : Inventory}

omit [UnicodeTables] in
theorem callWalk_yields (message : Text) :
    Yields (callWalk refuses message) inventory
      (fun _ last => last = { inventory with clock := inventory.clock + 1 })
      (fun stop _ => Refused refuses stop) := by
  unfold callWalk askOs
  simp only [yields_bind, yields_get, yields_set, yields_pure]
  cases refused : refuses inventory.clock with
  | none => rfl
  | some reason =>
      exact ⟨⟨_, rfl⟩, inventory.clock, refused ▸ Option.some_ne_none _⟩

variable {path : Path}

omit [UnicodeTables] in
theorem relativePath_yields (below : dest <+: path) :
    Yields (relativePath dest path) inventory
      (fun rel last => rel = relativeTo dest path ∧ last = inventory)
      (fun _ _ => False) := by
  unfold relativePath
  rw [if_pos below]
  exact ⟨rfl, rfl⟩

omit [UnicodeTables] in
theorem limitWalk_yields {limit amount : Nat} (within : amount ≤ limit) :
    Yields (limitWalk limit amount) inventory
      (fun _ last => last = inventory) (fun _ _ => False) := by
  unfold limitWalk
  rw [if_neg (not_lt.2 within)]
  rfl

variable {content : Bytes}

omit [UnicodeTables] in
theorem countFile_yields
    (few : inventory.fileCount + 1 ≤ maxFileCount)
    (light : inventory.totalSize + content.length ≤ maxTotalBytes) :
    Yields (countFile content) inventory
      (fun _ last => last =
        { inventory with
          fileCount := inventory.fileCount + 1
          totalSize := inventory.totalSize + content.length })
      (fun _ _ => False) := by
  have exact_sum : saturatingAdd inventory.totalSize content.length =
      inventory.totalSize + content.length := by
    unfold saturatingAdd maxTotalBytes at *
    omega
  unfold countFile
  simp only [yields_bind, yields_modify, yields_get]
  apply (limitWalk_yields few).mono
  · rintro _ _ rfl
    show Yields
      (limitWalk maxTotalBytes (saturatingAdd inventory.totalSize content.length))
      { inventory with
        fileCount := inventory.fileCount + 1
        totalSize := saturatingAdd inventory.totalSize content.length } _ _
    rw [exact_sum]
    exact limitWalk_yields light
  · exact fun _ _ impossible => impossible

theorem noteManifest_yields (path : Path) (rel : Text) :
    Yields (noteManifest path rel) inventory
      (fun _ last => last =
        { inventory with
          manifests := inventory.manifests ++
            if namesManifest path then [rel] else [] })
      (fun _ _ => False) := by
  unfold noteManifest
  split
  · rfl
  · rw [List.append_nil]
    rfl

theorem noteContent_yields (content : Bytes) (rel : Text) :
    Yields (noteContent refuses content rel) inventory
      (fun _ last => ∃ binaryFileCount clock, last =
        { inventory with
          securitySensitive := inventory.securitySensitive ++
            if isSecuritySensitivePath rel then [rel] else []
          binaryFileCount := binaryFileCount
          clock := clock })
      (fun _ _ => False) := by
  unfold noteContent
  split
  · exact ⟨inventory.binaryFileCount, inventory.clock, rfl⟩
  · rw [List.append_nil]
    unfold readPrefix askOs
    simp only [yields_bind, yields_get, yields_set, yields_pure]
    cases refuses inventory.clock with
    | some reason => exact ⟨_, _, rfl⟩
    | none =>
        simp only [yields_pure]
        split
        · exact ⟨_, _, rfl⟩
        · exact ⟨_, _, rfl⟩

theorem noteLanguage_yields (path : Path) :
    Yields (noteLanguage path) inventory
      (fun _ last => ∃ languages, last =
        { inventory with languages := languages })
      (fun _ _ => False) := by
  unfold noteLanguage
  cases languageOf path with
  | some | none => exact ⟨_, rfl⟩

/-! ## Entries -/

/-- A file that is there adds one to the count and its length to the bytes. -/
theorem Recorded.file
    (recorded : Recorded dest files inventory)
    (present : files path = some (.file content))
    (languages : SortedMap Text Nat) (binaryFileCount clock : Nat) :
    Recorded dest files
      { inventory with
        fileCount := inventory.fileCount + 1
        totalSize := inventory.totalSize + content.length
        languages := languages
        manifests := inventory.manifests ++
          if namesManifest path then [relativeTo dest path] else []
        binaryFileCount := binaryFileCount
        securitySensitive := inventory.securitySensitive ++
          if isSecuritySensitivePath (relativeTo dest path) then
            [relativeTo dest path] else []
        recorded := inventory.recorded ++ [path]
        clock := clock } := by
  have file : files.isFile path = true :=
    FileSystem.isFile_iff.2 ⟨content, present⟩
  have directory := FileSystem.isDirectory_file present
  constructor
  · rw [List.countP_append, List.countP_singleton, if_pos file,
      recorded.fileCount]
  · rw [FileSystem.bytes_append, FileSystem.bytes_singleton,
      FileSystem.size_file present, recorded.totalSize]
  · rw [List.filter_append, List.filter_singleton, file, recorded.manifests]
    cases manifest : namesManifest path with
    | true | false => simp [manifest]
  · rw [List.filter_append, List.filter_singleton, directory,
      recorded.directories]
    simp
  · rw [List.filter_append, List.filter_singleton, file,
      recorded.securitySensitive]
    cases sensitive : isSecuritySensitivePath (relativeTo dest path) with
    | true | false => simp [sensitive]

theorem Recorded.directory
    (recorded : Recorded dest files inventory)
    (present : files path = some .directory) (stack : List Path) :
    Recorded dest files
      { inventory with
        directories := inventory.directories ++ [relativeTo dest path]
        stack := stack
        recorded := inventory.recorded ++ [path] } := by
  have file : files.isFile path = false := by
    rw [FileSystem.isFile, present]
  have directory : files.isDirectory path = true :=
    FileSystem.isDirectory_iff.2 present
  constructor
  · rw [List.countP_append, List.countP_singleton, file, recorded.fileCount]
    rfl
  · rw [FileSystem.bytes_append, FileSystem.bytes_singleton,
      FileSystem.size_eq_zero file, recorded.totalSize]
    rfl
  · rw [List.filter_append, List.filter_singleton, file, recorded.manifests]
    simp
  · rw [List.filter_append, List.filter_singleton, directory,
      recorded.directories]
    simp
  · rw [List.filter_append, List.filter_singleton, file,
      recorded.securitySensitive]
    simp

/-- What some entries change: they are taken down, and the directories among
them are pushed. -/
structure Takes (dest : Path) (files : FileSystem) (entries : List Path)
    (inventory last : Inventory) : Prop where
  holds : Recorded dest files last
  recorded : last.recorded = inventory.recorded ++ entries
  stack : last.stack =
    (entries.filter files.isDirectory).reverse ++ inventory.stack

theorem Takes.append {first second : List Path} {middle last : Inventory}
    (takes : Takes dest files first inventory middle)
    (takes' : Takes dest files second middle last) :
    Takes dest files (first ++ second) inventory last where
  holds := takes'.holds
  recorded := by
    rw [takes'.recorded, takes.recorded, List.append_assoc]
  stack := by
    rw [takes'.stack, takes.stack, List.filter_append, List.reverse_append,
      List.append_assoc]

section

variable (recorded : Recorded dest files inventory)
include recorded

theorem snapshotFile_yields (below : dest <+: path)
    (present : files path = some (.file content))
    (few : inventory.fileCount + 1 ≤ maxFileCount)
    (light : inventory.totalSize + content.length ≤ maxTotalBytes) :
    Yields (snapshotFile refuses dest path content) inventory
      (fun _ last => Takes dest files [path] inventory last)
      (fun _ _ => False) := by
  unfold snapshotFile
  rw [yields_bind]
  apply (countFile_yields few light).mono _ fun _ _ impossible => impossible
  rintro _ _ rfl
  rw [yields_bind]
  apply (relativePath_yields below).mono _ fun _ _ impossible => impossible
  rintro _ _ ⟨rfl, rfl⟩
  rw [yields_bind]
  apply (noteManifest_yields path _).mono _ fun _ _ impossible => impossible
  rintro _ _ rfl
  rw [yields_bind]
  apply (noteContent_yields refuses content _).mono _
    fun _ _ impossible => impossible
  rintro _ _ ⟨binaryFileCount, clock, rfl⟩
  rw [yields_bind]
  apply (noteLanguage_yields path).mono _ fun _ _ impossible => impossible
  rintro _ _ ⟨languages, rfl⟩
  refine ⟨recorded.file present languages binaryFileCount clock, rfl, ?_⟩
  rw [List.filter_singleton, FileSystem.isDirectory_file present]
  rfl

theorem snapshotDirectory_yields (below : dest <+: path)
    (present : files path = some .directory) :
    Yields (snapshotDirectory dest path) inventory
      (fun _ last => Takes dest files [path] inventory last)
      (fun _ _ => False) := by
  unfold snapshotDirectory
  rw [yields_bind]
  apply (relativePath_yields below).mono _ fun _ _ impossible => impossible
  rintro _ _ ⟨rfl, rfl⟩
  refine ⟨recorded.directory present _, rfl, ?_⟩
  rw [List.filter_singleton, FileSystem.isDirectory_iff.2 present]
  rfl

theorem Recorded.asked
    (clock : Nat) : Recorded dest files { inventory with clock := clock } :=
  ⟨recorded.fileCount, recorded.totalSize, recorded.manifests,
    recorded.directories, recorded.securitySensitive⟩

end

theorem snapshotEntry_yields (tree : Tree dest files)
    (recorded : Recorded dest files inventory) (below : Below dest path)
    (present : files path ≠ none)
    (few : (inventory.recorded ++ [path]).countP files.isFile ≤ maxFileCount)
    (light : files.bytes (inventory.recorded ++ [path]) ≤ maxTotalBytes) :
    Yields (snapshotEntry refuses dest files path) inventory
      (fun _ last => Takes dest files [path] inventory last)
      (fun stop _ => Refused refuses stop) := by
  unfold snapshotEntry
  rw [yields_bind]
  apply (callWalk_yields refuses _).mono _ fun _ _ refused => refused
  rintro _ _ rfl
  rw [yields_bind]
  apply (callWalk_yields refuses _).mono _ fun _ _ refused => refused
  rintro _ _ rfl
  have recorded' := recorded.asked (inventory.clock + 1 + 1)
  cases kind : files path with
  | none => exact absurd kind present
  | some node =>
      cases node with
      | link toDirectory =>
          exact absurd kind (tree.plain path below toDirectory)
      | directory =>
          apply (snapshotDirectory_yields recorded' below.1 kind).mono
          · exact fun _ _ takes => ⟨takes.holds, takes.recorded, takes.stack⟩
          · exact fun _ _ impossible => impossible.elim
      | file content =>
          rw [List.countP_append, List.countP_singleton,
            if_pos (FileSystem.isFile_iff.2 ⟨content, kind⟩),
            ← recorded.fileCount] at few
          rw [FileSystem.bytes_append, FileSystem.bytes_singleton,
            FileSystem.size_file kind, ← recorded.totalSize] at light
          apply (snapshotFile_yields refuses recorded' below.1 kind few light).mono
          · exact fun _ _ takes => ⟨takes.holds, takes.recorded, takes.stack⟩
          · exact fun _ _ impossible => impossible.elim

theorem snapshotEntries_yields {entries : List Path} (tree : Tree dest files)
    (recorded : Recorded dest files inventory)
    (there : ∀ path ∈ entries, Below dest path ∧ files path ≠ none)
    (few : (inventory.recorded ++ entries).countP files.isFile ≤ maxFileCount)
    (light : files.bytes (inventory.recorded ++ entries) ≤ maxTotalBytes) :
    Yields (snapshotEntries refuses dest files entries) inventory
      (fun _ last => Takes dest files entries inventory last)
      (fun stop _ => Refused refuses stop) := by
  induction entries generalizing inventory with
  | nil => exact ⟨recorded, (List.append_nil _).symm, rfl⟩
  | cons path rest ih =>
      have split : inventory.recorded ++ path :: rest =
          inventory.recorded ++ [path] ++ rest := by simp
      rw [split] at few light
      have here := there path List.mem_cons_self
      have fewHere : (inventory.recorded ++ [path]).countP files.isFile ≤
          maxFileCount := by
        rw [List.countP_append] at few
        exact (Nat.le_add_right _ _).trans few
      have lightHere : files.bytes (inventory.recorded ++ [path]) ≤
          maxTotalBytes := by
        rw [FileSystem.bytes_append] at light
        exact (Nat.le_add_right _ _).trans light
      unfold snapshotEntries
      rw [yields_bind]
      apply (snapshotEntry_yields refuses tree recorded here.1 here.2 fewHere
        lightHere).mono _ fun _ _ refused => refused
      intro _ middle takes
      rw [← takes.recorded] at few light
      apply (ih takes.holds
        (fun other member => there other (List.mem_cons_of_mem _ member))
        few light).mono _ fun _ _ refused => refused
      exact fun _ last takes' => takes.append takes'

/-! ## The whole walk -/

variable {listing : Listing dest files}

variable {current : Path}

omit [UnicodeTables] in
theorem readDir_yields
    (present : files current = some .directory) :
    Yields (readDir refuses listing current) inventory
      (fun entries last => entries = TreeWalk.children listing.paths current ∧
        last = { inventory with clock := inventory.clock + 1 })
      (fun stop _ => Refused refuses stop) := by
  unfold readDir
  rw [yields_bind]
  apply (callWalk_yields refuses _).mono _ fun _ _ refused => refused
  rintro _ _ rfl
  rw [present]
  exact ⟨rfl, rfl⟩

/-- What has been taken down and what is below the stack is all there is. -/
structure Standing (listing : Listing dest files) (inventory : Inventory) :
    Prop where
  holds : Recorded dest files inventory
  whole : (inventory.recorded ++
    TreeWalk.pending listing.paths inventory.stack).Perm listing.paths
  stacked : ∀ current ∈ inventory.stack,
    dest <+: current ∧ files current = some .directory

section

variable (tree : Tree dest files)
include tree

/-- A turn reads the directory on the top of the stack. -/
theorem Standing.turn {stack : List Path} {last : Inventory}
    (standing : Standing listing inventory)
    (top : inventory.stack = current :: stack)
    (holds : Recorded dest files last)
    (recorded : last.recorded =
      inventory.recorded ++ TreeWalk.children listing.paths current)
    (pushed : last.stack =
      TreeWalk.pushed files.isDirectory listing.paths current ++ stack) :
    Standing listing last := by
  have stacked := standing.stacked
  rw [top] at stacked
  have here := stacked current List.mem_cons_self
  have visit := (listing.closed tree).pending_visit here.1 stack
  have whole := standing.whole
  rw [top] at whole
  constructor
  · exact holds
  · rw [recorded, pushed, List.append_assoc]
    exact (visit.append_left _).trans whole
  · intro other member
    rw [pushed] at member
    rcases List.mem_append.1 member with new | old
    · have child := TreeWalk.mem_pushed.1 new
      exact ⟨here.1.trans (TreeWalk.prefix_child child.1),
        FileSystem.isDirectory_iff.1 child.2⟩
    · exact stacked other (List.mem_cons_of_mem _ old)

theorem snapshotTurn_yields {stack : List Path}
    (standing : Standing listing inventory)
    (top : inventory.stack = current :: stack)
    (few : listing.paths.countP files.isFile ≤ maxFileCount)
    (light : files.bytes listing.paths ≤ maxTotalBytes) :
    Yields (do
        let entries ← readDir refuses listing current
        snapshotEntries refuses dest files entries)
      { inventory with stack := stack }
      (fun _ last => Standing listing last ∧
        TreeWalk.load files.isDirectory listing.paths last.stack + 1 =
          TreeWalk.load files.isDirectory listing.paths inventory.stack)
      (fun stop _ => Refused refuses stop) := by
  have closed := listing.closed tree
  have here := standing.stacked current (top ▸ List.mem_cons_self)
  have met := ((closed.pending_visit here.1 stack).append_left
    inventory.recorded).trans (top ▸ standing.whole)
  rw [← List.append_assoc] at met
  have counts := met.countP_eq files.isFile
  have sizes : files.bytes _ = files.bytes _ := FileSystem.bytes_perm met
  rw [List.countP_append] at counts
  rw [FileSystem.bytes_append] at sizes
  have fewHere : (inventory.recorded ++
      TreeWalk.children listing.paths current).countP files.isFile ≤
        maxFileCount := by
    omega
  have lightHere : files.bytes (inventory.recorded ++
      TreeWalk.children listing.paths current) ≤ maxTotalBytes := by
    omega
  have there : ∀ path ∈ TreeWalk.children listing.paths current,
      Below dest path ∧ files path ≠ none :=
    fun path child => (listing.mem_iff path).1 (TreeWalk.mem_children.1 child).1
  rw [yields_bind]
  apply (readDir_yields refuses here.2).mono _ fun _ _ refused => refused
  rintro _ _ ⟨rfl, rfl⟩
  have holds : Recorded dest files
      { inventory with
        stack := stack
        clock := inventory.clock + 1 } :=
    ⟨standing.holds.fileCount, standing.holds.totalSize,
      standing.holds.manifests, standing.holds.directories,
      standing.holds.securitySensitive⟩
  apply (snapshotEntries_yields refuses tree holds there fewHere lightHere).mono _
    fun _ _ refused => refused
  intro _ last takes
  have pushed : last.stack = TreeWalk.pushed files.isDirectory listing.paths
      current ++ stack := takes.stack
  refine ⟨standing.turn tree top takes.holds takes.recorded pushed, ?_⟩
  rw [pushed, top]
  exact closed.load_visit here.1 stack

theorem snapshotLoop_yields (fuel : Nat) (standing : Standing listing inventory)
    (few : listing.paths.countP files.isFile ≤ maxFileCount)
    (light : files.bytes listing.paths ≤ maxTotalBytes)
    (enough : TreeWalk.load files.isDirectory listing.paths inventory.stack <
      fuel) :
    Yields (snapshotLoop refuses listing fuel) inventory
      (fun _ last => Recorded dest files last ∧
        last.recorded.Perm listing.paths)
      (fun stop _ => Refused refuses stop) := by
  induction fuel generalizing inventory with
  | zero => exact absurd enough (Nat.not_lt_zero _)
  | succ fuel ih =>
      unfold snapshotLoop popStack
      simp only [yields_bind, yields_get]
      cases top : inventory.stack with
      | nil =>
          have whole := standing.whole
          rw [top, TreeWalk.pending, List.flatMap_nil, List.append_nil] at whole
          exact ⟨standing.holds, whole⟩
      | cons current stack =>
          have turn := snapshotTurn_yields refuses tree standing top few light
          simp only [yields_bind, yields_set, yields_pure] at turn ⊢
          apply turn.mono _ fun _ _ refused => refused
          intro entries middle rest
          apply Yields.mono rest _ fun _ _ refused => refused
          rintro _ last ⟨standing', fewer⟩
          exact ih standing' (by omega)

theorem standing_start :
    Standing listing (Inventory.start dest) where
  holds := ⟨rfl, rfl, rfl, rfl, rfl⟩
  whole := by
    show (TreeWalk.pending listing.paths [dest]).Perm listing.paths
    rw [(listing.closed tree).pending_root]
  stacked := by
    intro current member
    rw [List.mem_singleton.1 member]
    exact ⟨List.prefix_refl _, tree.root.here⟩

theorem snapshotRepo_yields
    (few : listing.paths.countP files.isFile ≤ maxFileCount)
    (light : files.bytes listing.paths ≤ maxTotalBytes) (commitSha : Text) :
    (∀ snapshot last,
      snapshotRepo refuses listing commitSha = .ok snapshot last →
        snapshot = last.snapshot commitSha ∧ Recorded dest files last ∧
          last.recorded.Perm listing.paths) ∧
    ∀ stop last, snapshotRepo refuses listing commitSha = .error stop last →
      Refused refuses stop := by
  have enough : TreeWalk.load files.isDirectory listing.paths
      (Inventory.start dest).stack < listing.paths.length + 2 := by
    show TreeWalk.load files.isDirectory listing.paths [dest] < _
    rw [TreeWalk.load, (listing.closed tree).pending_root]
    have := List.countP_le_length (p := files.isDirectory) (l := listing.paths)
    rw [List.length_singleton]
    omega
  have walked : Yields (do
      snapshotLoop refuses listing (listing.paths.length + 2)
      let inventory ← get
      return inventory.snapshot commitSha) (Inventory.start dest)
      (fun snapshot last => snapshot = last.snapshot commitSha ∧
        Recorded dest files last ∧ last.recorded.Perm listing.paths)
      (fun stop _ => Refused refuses stop) := by
    rw [yields_bind]
    apply (snapshotLoop_yields refuses tree _ (standing_start tree) few light
      enough).mono _ fun _ _ refused => refused
    exact fun _ last walked => ⟨rfl, walked⟩
  unfold Yields at walked
  constructor
  · intro snapshot last run
    unfold snapshotRepo at run
    rw [run] at walked
    exact walked
  · intro stop last run
    unfold snapshotRepo at run
    rw [run] at walked
    exact walked

end

end Walk

end FireCrow.Agents.Fetch
