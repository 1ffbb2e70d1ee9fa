import FireCrow.Agents.ExtractionSafety
import FireCrow.Agents.Snapshot

/-!
# The tree that an extraction leaves

Below the destination there are only directories and files, each in a directory
of the tree.  Every entry of a file is charged before its bytes are written, and
the bytes once more as they are, so however the entries overwrite one another,
the files that are left are no more and no longer than what was charged.
-/

namespace FireCrow.Agents.Fetch

open FireCrow.Library
open FireCrow.Library.Stateful

/-! ## Files that are there -/

def FileSystem.isFile (files : FileSystem) (path : Path) : Bool :=
  match files path with
  | some (.file _) => true
  | _ => false

/-- The length of a file. -/
def FileSystem.size (files : FileSystem) (path : Path) : Nat :=
  match files path with
  | some (.file content) => content.length
  | _ => 0

@[simp]
theorem FileSystem.set_self (files : FileSystem) (path : Path)
    (node : Option Node) : files.set path node path = node :=
  if_pos rfl

theorem FileSystem.set_other (files : FileSystem) {path other : Path}
    (node : Option Node) (apart : other ≠ path) :
    files.set path node other = files other :=
  if_neg apart

variable {files : FileSystem}

theorem FileSystem.isFile_iff {path : Path} :
    files.isFile path = true ↔ ∃ content, files path = some (.file content) := by
  unfold FileSystem.isFile
  split
  · rename_i content present
    exact ⟨fun _ => ⟨content, present⟩, fun _ => rfl⟩
  · rename_i other
    exact ⟨nofun, fun ⟨content, present⟩ => absurd present (other content)⟩

theorem FileSystem.isFile_congr {files' : FileSystem} {path : Path}
    (same : files' path = files path) :
    files'.isFile path = files.isFile path := by
  unfold FileSystem.isFile
  rw [same]

theorem FileSystem.size_congr {files' : FileSystem} {path : Path}
    (same : files' path = files path) : files'.size path = files.size path := by
  unfold FileSystem.size
  rw [same]

theorem FileSystem.size_file {path : Path}
    {content : Bytes} (present : files path = some (.file content)) :
    files.size path = content.length := by
  rw [FileSystem.size, present]

theorem FileSystem.size_eq_zero {path : Path}
    (other : files.isFile path = false) : files.size path = 0 := by
  unfold FileSystem.size
  split
  · rename_i content present
    rw [FileSystem.isFile_iff.2 ⟨content, present⟩] at other
    cases other
  · rfl

/-! ## Paths below the destination -/

variable {dest path : Path}

theorem Below.prefix_dropLast (below : Below dest path) :
    dest <+: path.dropLast := by
  rcases below with ⟨⟨parts, rfl⟩, apart⟩
  have nonempty : parts ≠ [] := by
    rintro rfl
    exact apart (List.append_nil _)
  rw [List.dropLast_append_of_ne_nil nonempty]
  exact List.prefix_append _ _

theorem Below.not_above (below : Below dest path) : ¬ path <+: dest := by
  intro above
  exact below.2 (above.eq_of_length_le below.1.length_le)

theorem below_append {parts : Path} (nonempty : parts ≠ []) :
    Below dest (dest ++ parts) :=
  ⟨List.prefix_append _ _, fun same => nonempty (List.append_right_eq_self.1 same)⟩

/-! ## The shape of the tree -/

/-- Below the destination there are no links, and what there is has its parent
there as a directory. -/
structure Tree (dest : Path) (files : FileSystem) : Prop where
  root : Rooted dest files
  parent : ∀ path, Below dest path → files path ≠ none →
    files path.dropLast = some .directory
  plain : ∀ path, Below dest path → ∀ toDirectory,
    files path ≠ some (.link toDirectory)

/-- The destination stands and nothing is below it. -/
structure Fresh (dest : Path) (files : FileSystem) : Prop where
  root : Rooted dest files
  empty : ∀ path, Below dest path → files path = none

theorem Fresh.tree
    (fresh : Fresh dest files) : Tree dest files where
  root := fresh.root
  parent path below present := absurd (fresh.empty path below) present
  plain path below toDirectory linked := by
    rw [fresh.empty path below] at linked
    cases linked

/-- What is put in a directory, in the place of no directory. -/
theorem Tree.set {node : Node}
    (tree : Tree dest files) (below : Below dest path)
    (plain : ∀ toDirectory, node ≠ .link toDirectory)
    (vacant : files path ≠ some .directory)
    (stands : files path.dropLast = some .directory) :
    Tree dest (files.set path (some node)) := by
  have parent_kept (child : Path) (present : files child = some .directory) :
      files.set path (some node) child = some .directory := by
    have apart : child ≠ path := by
      rintro rfl
      exact vacant present
    rw [files.set_other _ apart]
    exact present
  have above_kept (other : Path) (above : other <+: dest) :
      files.set path (some node) other = files other :=
    files.set_other _ fun same => below.not_above (same ▸ above)
  constructor
  · constructor
    · rw [above_kept dest (List.prefix_refl _)]
      exact tree.root.here
    · intro other above nonempty
      rw [above_kept other above]
      exact tree.root.above other above nonempty
  · intro child childBelow present
    apply parent_kept
    by_cases same : child = path
    · rw [same]
      exact stands
    · rw [files.set_other _ same] at present
      exact tree.parent child childBelow present
  · intro other otherBelow toDirectory linked
    by_cases same : other = path
    · rw [same, files.set_self] at linked
      exact plain toDirectory (Option.some.inj linked)
    · rw [files.set_other _ same] at linked
      exact tree.plain other otherBelow toDirectory linked

/-- What is a directory or leads to one is a directory, below. -/
theorem Tree.directory {node : Node}
    (tree : Tree dest files) (below : dest <+: path)
    (present : files path = some node) (leads : node.isDir = true) :
    node = .directory := by
  by_cases same : path = dest
  · rw [same, tree.root.here] at present
    exact (Option.some.inj present).symm
  · cases node with
    | directory => rfl
    | file content => cases leads
    | link toDirectory =>
        exact absurd present (tree.plain path ⟨below, same⟩ toDirectory)

/-! ## What has been charged for -/

/-- Whichever files there are, they are so many and so long at most. -/
def Counted (dest : Path) (files : FileSystem) (count total : Nat) : Prop :=
  ∀ paths : Finset Path,
    (∀ path ∈ paths, Below dest path ∧ files.isFile path = true) →
      paths.card ≤ count ∧ ∑ path ∈ paths, files.size path ≤ total

variable {total count : Nat}

theorem Counted.mono
    {count' total' : Nat} (counted : Counted dest files count total)
    (more : count ≤ count') (longer : total ≤ total') :
    Counted dest files count' total' :=
  fun paths there =>
    ⟨(counted paths there).1.trans more, (counted paths there).2.trans longer⟩

theorem Fresh.counted (fresh : Fresh dest files) : Counted dest files 0 0 := by
  intro paths there
  have none : paths = ∅ := by
    apply Finset.eq_empty_of_forall_notMem
    intro path member
    rcases FileSystem.isFile_iff.1 (there path member).2 with ⟨content, present⟩
    rw [fresh.empty path (there path member).1] at present
    cases present
  rw [none]
  exact ⟨le_refl _, le_refl _⟩

/-- A change of one path changes one summand. -/
theorem sum_size_set (files : FileSystem) (path : Path) (content : Bytes)
    (paths : Finset Path) :
    ∑ other ∈ paths, (files.set path (some (.file content))).size other ≤
      ∑ other ∈ paths.erase path, files.size other + content.length := by
  have others : ∑ other ∈ paths.erase path,
      (files.set path (some (.file content))).size other =
        ∑ other ∈ paths.erase path, files.size other := by
    apply Finset.sum_congr rfl
    intro other member
    exact FileSystem.size_congr
      (files.set_other _ (Finset.ne_of_mem_erase member))
  have here : (files.set path (some (.file content))).size path =
      content.length :=
    FileSystem.size_file (files.set_self _ _)
  by_cases member : path ∈ paths
  · rw [← Finset.sum_erase_add _ _ member, others, here]
  · rw [← others, Finset.erase_eq_of_notMem member]
    exact Nat.le_add_right _ _

theorem mem_erase_there {node : Option Node} {paths : Finset Path}
    (there : ∀ other ∈ paths,
      Below dest other ∧ (files.set path node).isFile other = true) :
    ∀ other ∈ paths.erase path,
      Below dest other ∧ files.isFile other = true := by
  intro other member
  have inside := there other (Finset.mem_of_mem_erase member)
  rw [FileSystem.isFile_congr
    (files.set_other node (Finset.ne_of_mem_erase member))] at inside
  exact inside

section

variable (counted : Counted dest files count total)
include counted

/-- Another file, or one in the place of a file, with its bytes. -/
theorem Counted.set_file (content : Bytes) :
    Counted dest (files.set path (some (.file content))) (count + 1)
      (total + content.length) := by
  intro paths there
  have rest := counted (paths.erase path) (mem_erase_there there)
  constructor
  · calc paths.card ≤ (paths.erase path).card + 1 :=
          Nat.sub_le_iff_le_add.1 Finset.pred_card_le_card_erase
      _ ≤ count + 1 := Nat.add_le_add_right rest.1 1
  · calc ∑ other ∈ paths, (files.set path (some (.file content))).size other
        ≤ ∑ other ∈ paths.erase path, files.size other + content.length :=
          sum_size_set files path content paths
      _ ≤ total + content.length := Nat.add_le_add_right rest.2 _

/-- More bytes at the end of a file that is there. -/
theorem Counted.append {content : Bytes} (below : Below dest path)
    (present : files path = some (.file content)) (chunk : Bytes) :
    Counted dest (files.set path (some (.file (content ++ chunk)))) count
      (total + chunk.length) := by
  intro paths there
  have before : ∀ other ∈ insert path (paths.erase path),
      Below dest other ∧ files.isFile other = true := by
    intro other member
    rcases Finset.mem_insert.1 member with rfl | inside
    · exact ⟨below, FileSystem.isFile_iff.2 ⟨content, present⟩⟩
    · exact mem_erase_there there other inside
  have rest := counted _ before
  rw [Finset.card_insert_of_notMem (Finset.notMem_erase _ _),
    Finset.sum_insert (Finset.notMem_erase _ _),
    FileSystem.size_file present] at rest
  constructor
  · exact (Nat.sub_le_iff_le_add.1 Finset.pred_card_le_card_erase).trans rest.1
  · have changed := sum_size_set files path (content ++ chunk) paths
    rw [List.length_append] at changed
    omega

/-- A directory in the place of nothing. -/
theorem Counted.set_directory :
    Counted dest (files.set path (some .directory)) count total := by
  intro paths there
  have absent : path ∉ paths := by
    intro member
    have file := (there path member).2
    unfold FileSystem.isFile at file
    rw [files.set_self] at file
    cases file
  have before := mem_erase_there there
  rw [Finset.erase_eq_of_notMem absent] at before
  have same : ∑ other ∈ paths, (files.set path (some .directory)).size other =
      ∑ other ∈ paths, files.size other := by
    apply Finset.sum_congr rfl
    intro other member
    apply FileSystem.size_congr
    exact files.set_other _ fun equal => absent (equal ▸ member)
  rw [same]
  exact counted paths before

end

end FireCrow.Agents.Fetch
