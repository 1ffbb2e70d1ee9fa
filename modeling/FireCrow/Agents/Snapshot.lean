import FireCrow.Agents.Extraction
import FireCrow.Library.SortedMap
import FireCrow.Library.StableSort

/-!
# Snapshots

The tree that an archive left is walked once more, from a stack of directories.
Files are counted and weighed again, under the limits of the extraction;
manifests and security-sensitive files are listed by their paths below the
destination, and what looks binary is told by the first bytes of a file.
-/

namespace FireCrow.Agents.Fetch

open FireCrow.Library

def snapshotSniffBytes : Nat := 8000

/-- What the scanner will see. -/
structure RepoSnapshot where
  commitSha : Text
  fileCount : Nat
  totalSize : Nat
  languages : SortedMap Text Nat
  manifests : List Text
  directories : List Text
  binaryFileCount : Nat
  securitySensitive : List Text

/-! ## Names -/

def languageExtensions : List (List Text × Text) :=
  [(["rs"], "Rust"), (["py", "pyi"], "Python"),
    (["js", "mjs", "cjs", "jsx"], "JavaScript"),
    (["ts", "mts", "cts", "tsx"], "TypeScript"), (["go"], "Go"),
    (["java"], "Java"), (["rb"], "Ruby"), (["php"], "PHP"), (["c", "h"], "C"),
    (["cpp", "cc", "cxx", "hpp", "hh", "hxx"], "C++"), (["cs"], "C#"),
    (["swift"], "Swift"), (["kt", "kts"], "Kotlin"), (["scala"], "Scala"),
    (["sh", "bash"], "Shell"), (["ps1"], "PowerShell"), (["sql"], "SQL"),
    (["html", "htm"], "HTML"), (["css", "scss", "less"], "CSS"),
    (["vue", "svelte"], "JavaScript"), (["sol"], "Solidity"),
    (["tf"], "Terraform"), (["yaml", "yml"], "YAML"), (["json"], "JSON"),
    (["toml"], "TOML"), (["xml"], "XML"), (["md", "markdown"], "Markdown")]

def languageForExtension (ext : Text) : Option Text :=
  (languageExtensions.find? fun entry => ext ∈ entry.1).map (·.2)

def manifestFileNames : List Text :=
  ["package.json", "package-lock.json", "yarn.lock", "pnpm-lock.yaml",
    "cargo.toml", "cargo.lock", "go.mod", "go.sum", "requirements.txt",
    "pipfile", "pipfile.lock", "poetry.lock", "pyproject.toml", "gemfile",
    "gemfile.lock", "pom.xml", "build.gradle", "build.gradle.kts",
    "composer.json", "composer.lock"]

def isManifestFileName (fileName : Text) : Bool := fileName ∈ manifestFileNames

/-- The last part between two separators. -/
def lastPart (separator : Char) (text : Text) : Text :=
  (text.splitOn separator).getLastD []

/-- Documentation about a container definition is none. -/
def docExtensions : List Text := ["md", "markdown", "txt", "rst", "adoc"]

def reviewedComponents : List Text :=
  ["config", "terraform", "kubernetes", "k8s"]

section Walk

variable [UnicodeTables]

/-- Secrets, containers, workflows and infrastructure, told by the path. -/
def isSecuritySensitivePath (repoRelativePath : Text) : Bool :=
  let lower := repoRelativePath.toLowercase
  let name := lastPart '/' lower
  if name = ".env" || name.startsWith ".env." then true
  else if name.contains "credentials" then true
  else if name = "config" || name.startsWith "config." then true
  else if name.endsWith ".tfstate" || name.endsWith ".tfvars" then true
  else if name = "dockerfile" || name.startsWith "dockerfile-" ||
      name.startsWith "dockerfile_" ||
      (name.startsWith "dockerfile." && lastPart '.' name ∉ docExtensions) then
    true
  else if name.startsWith "docker-compose." then true
  else if lower.contains ".github/workflows/" then true
  else if name.endsWith ".tf" || name.endsWith ".tofu" then true
  else if name = "kustomization.yaml" || name = "kustomization.yml" then true
  else (lower.splitOn '/').any (· ∈ reviewedComponents)

def looksBinary (sample : Bytes) : Bool := sample.contains 0

/-- What follows the last dot of a name that does not start with it. -/
def extension (fileName : Text) : Option Text :=
  (Text.rsplitOnce '.' fileName).bind fun parts =>
    if parts.1.isEmpty then none else some parts.2

/-! ## The tree -/

/-- Strictly below a directory. -/
def Below (dest path : Path) : Prop := dest <+: path ∧ path ≠ dest

instance (dest path : Path) : Decidable (Below dest path) :=
  inferInstanceAs (Decidable (_ ∧ _))

/-- What there is below a directory, in the order in which the operating system
lists it. -/
structure Listing (dest : Path) (files : FileSystem) where
  paths : List Path
  nodup : paths.Nodup
  mem_iff : ∀ path, path ∈ paths ↔ Below dest path ∧ files path ≠ none

/-- What a directory holds. -/
def Listing.entries {dest : Path} {files : FileSystem}
    (listing : Listing dest files) (current : Path) : List Path :=
  listing.paths.filter fun path => path.dropLast = current

/-! ## The walk -/

structure Inventory where
  fileCount : Nat
  totalSize : Nat
  languages : SortedMap Text Nat
  manifests : List Text
  directories : List Text
  binaryFileCount : Nat
  securitySensitive : List Text
  /-- The directories that are still to be read, the next one first. -/
  stack : List Path
  /-- The files and directories that have been taken down. -/
  recorded : List Path
  clock : Nat

abbrev Walking := EStateM Stop Inventory

def refuseWalk {Value : Type} (error : AppError) : Walking Value :=
  throw (.failed error)

/-- The reason for which the operating system refuses a call, if it does. -/
def askOs (refuses : Nat → Option Text) : Walking (Option Text) := do
  let inventory ← get
  set { inventory with clock := inventory.clock + 1 }
  return refuses inventory.clock

def callWalk (refuses : Nat → Option Text) (message : Text) : Walking Unit := do
  match ← askOs refuses with
  | some reason => refuseWalk (.internal (message ++ reason))
  | none => return ()

def limitWalk (limit amount : Nat) : Walking Unit :=
  if limit < amount then refuseWalk .payloadTooLarge else pure ()

/-- The path below the destination, as a text. -/
def relativePath (dest path : Path) : Walking Text :=
  if dest <+: path then return Text.join ['/'] (path.drop dest.length)
  else refuseWalk (.internal "snapshot path error: prefix not found")

/-- The first bytes of a file, or none where it cannot be read. -/
def readPrefix (refuses : Nat → Option Text) (content : Bytes) (limit : Nat) :
    Walking Bytes := do
  match ← askOs refuses with
  | some _ => return []
  | none => return content.take limit

def countFile (content : Bytes) : Walking Unit := do
  modify fun inventory =>
    { inventory with fileCount := inventory.fileCount + 1 }
  limitWalk maxFileCount (← get).fileCount
  modify fun inventory =>
    { inventory with
      totalSize := saturatingAdd inventory.totalSize content.length }
  limitWalk maxTotalBytes (← get).totalSize

/-- Whether the name of a file is that of a manifest. -/
def namesManifest (path : Path) : Bool :=
  path.getLast?.any fun fileName => isManifestFileName fileName.toLowercase

def languageOf (path : Path) : Option Text :=
  (path.getLast?.bind extension).bind fun ext =>
    languageForExtension ext.toLowercase

def noteManifest (path : Path) (rel : Text) : Walking Unit := do
  if namesManifest path then
    modify fun inventory =>
      { inventory with manifests := inventory.manifests ++ [rel] }

/-- A sensitive file is listed, and any other one sniffed. -/
def noteContent (refuses : Nat → Option Text) (content : Bytes) (rel : Text) :
    Walking Unit := do
  if isSecuritySensitivePath rel then
    modify fun inventory =>
      { inventory with
        securitySensitive := inventory.securitySensitive ++ [rel] }
  else
    if looksBinary (← readPrefix refuses content snapshotSniffBytes) then
      modify fun inventory =>
        { inventory with binaryFileCount := inventory.binaryFileCount + 1 }

def noteLanguage (path : Path) : Walking Unit := do
  match languageOf path with
  | some lang =>
      modify fun inventory =>
        { inventory with languages := inventory.languages.increment lang }
  | none => return ()

def snapshotFile (refuses : Nat → Option Text) (dest path : Path)
    (content : Bytes) : Walking Unit := do
  countFile content
  let rel ← relativePath dest path
  noteManifest path rel
  noteContent refuses content rel
  noteLanguage path
  modify fun inventory =>
    { inventory with recorded := inventory.recorded ++ [path] }

def snapshotDirectory (dest path : Path) : Walking Unit := do
  let rel ← relativePath dest path
  modify fun inventory =>
    { inventory with
      directories := inventory.directories ++ [rel]
      stack := path :: inventory.stack
      recorded := inventory.recorded ++ [path] }

/-- A link is passed over. -/
def snapshotEntry (refuses : Nat → Option Text) (dest : Path)
    (files : FileSystem) (path : Path) : Walking Unit := do
  callWalk refuses ("snapshot walk failed: " : Text)
  callWalk refuses ("snapshot stat failed: " : Text)
  match files path with
  | some (.link _) => return ()
  | some .directory => snapshotDirectory dest path
  | some (.file content) => snapshotFile refuses dest path content
  | none =>
      refuseWalk (.internal
        "snapshot stat failed: No such file or directory")

def snapshotEntries (refuses : Nat → Option Text) (dest : Path)
    (files : FileSystem) : List Path → Walking Unit
  | [] => return ()
  | path :: rest => do
      snapshotEntry refuses dest files path
      snapshotEntries refuses dest files rest

def readDir (refuses : Nat → Option Text) {dest : Path} {files : FileSystem}
    (listing : Listing dest files) (current : Path) : Walking (List Path) := do
  callWalk refuses ("snapshot walk failed: " : Text)
  match files current with
  | some node =>
      if node.isDir then return listing.entries current
      else refuseWalk (.internal "snapshot walk failed: Not a directory")
  | none =>
      refuseWalk (.internal
        "snapshot walk failed: No such file or directory")

def popStack : Walking (Option Path) := do
  let inventory ← get
  match inventory.stack with
  | [] => return none
  | current :: stack =>
      set { inventory with stack := stack }
      return some current

def snapshotLoop (refuses : Nat → Option Text) {dest : Path}
    {files : FileSystem} (listing : Listing dest files) : Nat → Walking Unit
  | 0 => throw .unfinished
  | fuel + 1 => do
      match ← popStack with
      | none => return ()
      | some current =>
          let entries ← readDir refuses listing current
          snapshotEntries refuses dest files entries
          snapshotLoop refuses listing fuel

def Inventory.start (dest : Path) : Inventory where
  fileCount := 0
  totalSize := 0
  languages := ∅
  manifests := []
  directories := []
  binaryFileCount := 0
  securitySensitive := []
  stack := [dest]
  recorded := []
  clock := 0

def Inventory.snapshot (inventory : Inventory) (commitSha : Text) :
    RepoSnapshot where
  commitSha := commitSha
  fileCount := inventory.fileCount
  totalSize := inventory.totalSize
  languages := inventory.languages
  manifests := sortBy id inventory.manifests
  directories := sortBy id inventory.directories
  binaryFileCount := inventory.binaryFileCount
  securitySensitive := sortBy id inventory.securitySensitive

/-- Walk a directory: every turn reads another directory below it, and there is
one more for the directory itself and one to find the stack empty. -/
def snapshotRepo (refuses : Nat → Option Text) {dest : Path}
    {files : FileSystem} (listing : Listing dest files) (commitSha : Text) :
    EStateM.Result Stop Inventory RepoSnapshot :=
  (do
    snapshotLoop refuses listing (listing.paths.length + 2)
    let inventory ← get
    return inventory.snapshot commitSha : Walking RepoSnapshot).run
      (.start dest)

end Walk

end FireCrow.Agents.Fetch
