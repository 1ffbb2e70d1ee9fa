import FireCrow.Agents.ExtractionSafety
import FireCrow.Agents.Osv
import FireCrow.Agents.Semgrep

/-!
# The paths of findings

A scanner prints a file by its place below the directory that it was shown:
the mount of its container, or the directory itself when it runs natively.  The
adapters strip one of the two, the mount, and they strip nothing of what the
archive has put in between.
-/

namespace FireCrow.Agents

open FireCrow.Library FireCrow.Schemas

/-! ## Places in the tree -/

/-- A path of names, with at least one. -/
structure Place where
  parts : List Text
  nonempty : parts ≠ []
  plain : ∀ part ∈ parts, Paths.Plain part

namespace Place

/-- The mount of the container. -/
def mount : Place where
  parts := ["scan"]
  nonempty := by decide
  plain := by
    intro part member
    rw [List.mem_singleton.1 member]
    exact ⟨by decide, by decide⟩

def append (root place : Place) : Place where
  parts := root.parts ++ place.parts
  nonempty := by
    intro empty
    exact place.nonempty (List.append_eq_nil_iff.1 empty).2
  plain := by
    intro part member
    rcases List.mem_append.1 member with above | below
    · exact root.plain part above
    · exact place.plain part below

/-- The path under which a scanner that is shown a directory reports a file. -/
def reportedIn (root place : Place) : Text :=
  Paths.render (root.append place).parts

end Place

/-- The directory of the system for temporary files. -/
structure TempDir where
  parts : List Text
  plain : ∀ part ∈ parts, Paths.Plain part

structure Uuid where
  text : Text
  single : '/' ∉ text

/-- The directory that a fetch creates for one scan. -/
def TempDir.scanDirectory (temp : TempDir) (uuid : Uuid) : Place where
  parts := temp.parts ++ [("firecrow-scan-" : Text) ++ uuid.text]
  nonempty := by simp
  plain := by
    intro part member
    rcases List.mem_append.1 member with above | own
    · exact temp.plain part above
    · rw [List.mem_singleton.1 own]
      refine ⟨by simp, fun slash => ?_⟩
      rcases List.mem_append.1 slash with constant | inside
      · exact absurd constant (by decide)
      · exact uuid.single inside

/-! ## What is recorded -/

theorem sourceMount_eq : sourceMount = Paths.render Place.mount.parts := by
  decide

/-- A path that starts with a name has no slash to strip. -/
theorem dropWhile_join {parts : List Text}
    (plain : ∀ part ∈ parts, Paths.Plain part) :
    (Text.join ['/'] parts).dropWhile (· == '/') = Text.join ['/'] parts := by
  cases parts with
  | nil => rfl
  | cons first rest =>
      have named := plain first List.mem_cons_self
      obtain ⟨letter, name, spelled⟩ :=
        List.exists_cons_of_ne_nil named.nonempty
      have other : letter ≠ '/' := by
        intro same
        exact named.single (spelled ▸ same ▸ List.mem_cons_self)
      have opens : ∃ back, Text.join ['/'] (first :: rest) = letter :: back := by
        by_cases last : rest = []
        · exact ⟨name, by
            rw [last, Text.join, List.intercalate_singleton, spelled]⟩
        · exact ⟨_, by
            rw [Text.join, List.intercalate_cons_of_ne_nil last, spelled]
            rfl⟩
      obtain ⟨back, same⟩ := opens
      rw [same, List.dropWhile_cons_of_neg (by simpa using other)]

/-- The adapters strip the mount, and only where something is left. -/
theorem normalizeRepoPath_render {parts : List Text}
    (plain : ∀ part ∈ parts, Paths.Plain part) :
    normalizeRepoPath (Paths.render parts) =
      Text.join ['/']
        (if Place.mount.parts <+: parts ∧ Place.mount.parts ≠ parts
          then parts.drop 1 else parts) := by
  have mounted := Paths.startsWith_render_iff Place.mount.plain plain
    (by decide : Place.mount.parts ≠ [])
  unfold normalizeRepoPath
  rw [sourceMount_eq]
  dsimp only
  by_cases below : Place.mount.parts <+: parts ∧ Place.mount.parts ≠ parts
  · rw [if_pos (mounted.2 below), if_pos below]
    obtain ⟨rest, rfl⟩ := below.1
    have restNonempty : rest ≠ [] := by
      rintro rfl
      exact below.2 (List.append_nil _).symm
    have spelled : Paths.render (Place.mount.parts ++ rest) =
        (Paths.render Place.mount.parts ++ ['/']) ++ Text.join ['/'] rest := by
      rw [Paths.render, Paths.join_append (by decide) restNonempty,
        Paths.render, List.append_assoc, List.singleton_append,
        List.cons_append]
    rw [spelled, List.drop_left]
    exact dropWhile_join fun part member =>
      plain part (List.mem_append_right _ member)
  · rw [if_neg (fun starts => below (mounted.1 starts)), if_neg below,
      Paths.render, List.dropWhile_cons_of_pos (by decide)]
    exact dropWhile_join plain

/-- What the adapters leave of a directory. -/
def stripMount (parts : List Text) : List Text :=
  if Place.mount.parts <+: parts then parts.drop 1 else parts

def Place.left (root : Place) : List Text := stripMount root.parts

/-- What is recorded of a reported file. -/
theorem normalizeRepoPath_reported (root place : Place) :
    normalizeRepoPath (root.reportedIn place) =
      Text.join ['/'] (root.left ++ place.parts) := by
  have opens : Place.mount.parts <+: root.parts ++ place.parts ↔
      Place.mount.parts <+: root.parts := by
    obtain ⟨first, rest, same⟩ := List.exists_cons_of_ne_nil root.nonempty
    rw [same, List.cons_append]
    simp only [Place.mount, List.cons_prefix_cons, List.nil_prefix, and_true]
  have longer : Place.mount.parts ≠ root.parts ++ place.parts := by
    intro same
    have counted := congrArg List.length same
    have rootCounted := List.length_pos_iff.2 root.nonempty
    have placeCounted := List.length_pos_iff.2 place.nonempty
    simp only [Place.mount, List.length_cons, List.length_nil,
      List.length_append] at counted
    omega
  unfold Place.reportedIn
  rw [normalizeRepoPath_render (root.append place).plain]
  unfold Place.left stripMount
  by_cases mounted : Place.mount.parts <+: root.parts
  · rw [if_pos ⟨opens.2 mounted, longer⟩, if_pos mounted]
    congr 1
    exact List.drop_append_of_le_length (List.length_pos_iff.2 root.nonempty)
  · rw [if_neg fun both => mounted (opens.1 both.1), if_neg mounted]
    rfl

theorem left_mount : Place.mount.left = [] := by
  decide

theorem recorded_injective {first second : List Text}
    (plainFirst : ∀ part ∈ first, Paths.Plain part)
    (plainSecond : ∀ part ∈ second, Paths.Plain part)
    (same : Text.join ['/'] first = Text.join ['/'] second) : first = second :=
  Paths.render_injective plainFirst plainSecond
    (by rw [Paths.render, Paths.render, same])

theorem Place.left_plain (root : Place) :
    ∀ part ∈ root.left, Paths.Plain part := by
  intro part member
  unfold Place.left stripMount at member
  split at member
  · exact root.plain part (List.mem_of_mem_drop member)
  · exact root.plain part member

/-- Two directories record a file alike when the adapters leave the same of
them. -/
theorem normalizeRepoPath_reported_iff (first second place : Place) :
    normalizeRepoPath (first.reportedIn place) =
        normalizeRepoPath (second.reportedIn place) ↔
      first.left = second.left := by
  rw [normalizeRepoPath_reported, normalizeRepoPath_reported]
  constructor
  · intro same
    have plain : ∀ root : Place, ∀ part ∈ root.left ++ place.parts,
        Paths.Plain part := by
      intro root part member
      rcases List.mem_append.1 member with above | below
      · exact root.left_plain part above
      · exact place.plain part below
    exact List.append_cancel_right
      (recorded_injective (plain first) (plain second) same)
  · intro same
    rw [same]

/-! ## Reports -/

section Reports

variable [FloatFormat] [TextDigest] [UnicodeTables]

/-- The report of a scanner. -/
inductive ScannerReport where
  | gitleaks (rows : List GitleaksFinding)
  | osv (doc : List Osv.OsvSourceResult)
  | semgrep (results : List Semgrep.SemgrepResult)

/-- The findings of the adapters; storage identifiers are drawn by the
caller. -/
def ScannerReport.findings (tree : Osv.SourceTree) (ids : Nat → Text) :
    ScannerReport → List Finding
  | .gitleaks rows =>
      rows.mapIdx fun index found => findingFromGitleaks (ids index) found
  | .osv doc => Osv.findingsFromDoc tree ids doc
  | .semgrep results => Semgrep.findingsFromSemgrep ids results

/-- A row of Gitleaks.  Without a commit, the fingerprint is spelled out of the
path that was seen, the rule and the line. -/
structure GitleaksRow where
  place : Place
  found : GitleaksFinding
  spelledFingerprint : Bool

def GitleaksRow.shownIn (root : Place) (row : GitleaksRow) :
    GitleaksFinding :=
  { row.found with
    file := root.reportedIn row.place
    fingerprint :=
      if row.spelledFingerprint then
        root.reportedIn row.place ++ ':' :: row.found.ruleId ++
          ':' :: Text.ofInt row.found.startLine.toInt
      else row.found.fingerprint }

structure OsvRow where
  place : Place
  packages : List Osv.OsvPackageResult

def OsvRow.shownIn (root : Place) (row : OsvRow) : Osv.OsvSourceResult where
  sourcePath := root.reportedIn row.place
  packages := row.packages

structure SemgrepRow where
  place : Place
  result : Semgrep.SemgrepResult

def SemgrepRow.shownIn (root : Place) (row : SemgrepRow) :
    Semgrep.SemgrepResult :=
  { row.result with path := root.reportedIn row.place }

/-- What a scanner finds in a tree, wherever it is shown the tree. -/
inductive TreeReport where
  | gitleaks (rows : List GitleaksRow)
  | osv (rows : List OsvRow)
  | semgrep (rows : List SemgrepRow)

namespace TreeReport

/-- What it prints when it is shown the tree in a directory. -/
def shownIn (root : Place) : TreeReport → ScannerReport
  | .gitleaks rows => .gitleaks (rows.map (·.shownIn root))
  | .osv rows => .osv (rows.map (·.shownIn root))
  | .semgrep rows => .semgrep (rows.map (·.shownIn root))

/-- Every row names the file at this place. -/
def Names (place : Place) : TreeReport → Prop
  | .gitleaks rows => ∀ row ∈ rows, row.place = place
  | .osv rows => ∀ row ∈ rows, row.place = place
  | .semgrep rows => ∀ row ∈ rows, row.place = place

/-- No row with a usable location: no secret, no advisory, no detection. -/
def NothingDetected : TreeReport → Prop
  | .gitleaks rows => rows = []
  | .osv rows => ∀ row ∈ rows, ∀ package ∈ row.packages,
      package.groups = [] ∧ package.vulnerabilities = []
  | .semgrep rows => ∀ row ∈ rows,
      (Semgrep.validateSemgrepLocation
        (row.shownIn Place.mount)).isOk = false

end TreeReport

omit [TextDigest] [UnicodeTables] in
theorem docAdvisories_manifest {root place : Place} {rows : List OsvRow}
    (named : ∀ row ∈ rows, row.place = place) :
    ∀ advisory ∈ Osv.docAdvisories (rows.map (·.shownIn root)),
      advisory.manifest = normalizeRepoPath (root.reportedIn place) := by
  intro advisory member
  obtain ⟨source, sourceMember, inSource⟩ := List.mem_flatMap.1 member
  obtain ⟨row, rowMember, rfl⟩ := List.mem_map.1 sourceMember
  obtain ⟨package, _, inPackage⟩ := List.mem_flatMap.1 inSource
  obtain ⟨ids, _, rfl⟩ := List.mem_map.1 inPackage
  rw [← named row rowMember]
  rfl

/-- The recorded path of every finding is the stripped one. -/
theorem filePath_of_mem_findings {tree : Osv.SourceTree} {ids : Nat → Text}
    {root place : Place} {report : TreeReport} (named : report.Names place) :
    ∀ finding ∈ (report.shownIn root).findings tree ids,
      finding.filePath = some (normalizeRepoPath (root.reportedIn place)) := by
  intro finding member
  cases report with
  | gitleaks rows =>
      obtain ⟨index, bound, rfl⟩ := List.mem_mapIdx.1 member
      rw [List.getElem_map]
      have same := named _ (List.getElem_mem (by simpa using bound))
      simp only [findingFromGitleaks, GitleaksRow.shownIn, same]
  | osv rows =>
      obtain ⟨index, bound, rfl⟩ := List.mem_mapIdx.1 member
      have manifest := docAdvisories_manifest named _ (List.getElem_mem bound)
      simp only [Osv.osvGroupFinding, manifest]
  | semgrep rows =>
      obtain ⟨index, bound, rfl⟩ := List.mem_mapIdx.1 member
      have inside := List.getElem_mem bound
      obtain ⟨row, rowMember, same⟩ :=
        List.mem_map.1 (List.mem_filter.1 inside).1
      have path := congrArg (fun found => found.path) same
      have shown : (row.shownIn root).path = root.reportedIn place := by
        rw [← named row rowMember]
        rfl
      simp only [Semgrep.findingFromSemgrep, ← path, shown]

/-! ## The directory of the archive -/

/-- A name that an archive can give to a directory. -/
structure DirectoryName (name : Text) : Prop where
  plain : Paths.Plain name
  notCurrent : name ≠ ['.']
  notParent : name ≠ ['.', '.']

omit [FloatFormat] [TextDigest] [UnicodeTables] in
theorem DirectoryName.keeps {name : Text} (directory : DirectoryName name) :
    Fetch.keeps name = true := by
  simp [Fetch.keeps, directory.plain.nonempty, directory.notCurrent,
    directory.notParent]

omit [FloatFormat] [TextDigest] [UnicodeTables] in
theorem trimCurrent_entry {top : Text} (directory : DirectoryName top)
    (path : Text) :
    Fetch.trimCurrent (top ++ '/' :: path) = top ++ '/' :: path := by
  obtain ⟨letter, name, rfl⟩ :=
    List.exists_cons_of_ne_nil directory.plain.nonempty
  rw [List.cons_append]
  unfold Fetch.trimCurrent
  split
  · rename_i rest same
    obtain ⟨dot, slash⟩ := List.cons.inj same
    cases name with
    | nil => exact absurd (by rw [dot]) directory.notCurrent
    | cons second name =>
        have head := (List.cons.inj slash).1
        exact absurd (head ▸ List.mem_cons_of_mem _ List.mem_cons_self)
          directory.plain.single
  · rfl

omit [FloatFormat] [TextDigest] [UnicodeTables] in
/-- Where an extraction puts an entry. -/
theorem safeJoin_parts {dest out : Fetch.Path} {name : Text}
    (joined : Fetch.safeJoin dest name = .ok out) :
    out = dest ++
      ((Fetch.trimCurrent name).splitOn '/').filter Fetch.keeps := by
  unfold Fetch.safeJoin at joined
  generalize Fetch.trimCurrent name = name at joined ⊢
  simp only [throw, throwThe, MonadExceptOf.throw, bind, Except.bind, pure,
    Except.pure] at joined
  split at joined
  · cases joined
  split at joined
  · cases joined
  split at joined
  · cases joined
  rename_i path pushed
  split at joined
  · cases joined
  cases joined
  rw [(Fetch.pushComponents_eq_ok pushed).1, Fetch.components_pushed]

/-- The place of a file of the repository below the directory that the archive
has for all of them. -/
def entryPlace (top path : Text) (directory : DirectoryName top) : Place where
  parts := top :: (path.splitOn '/').filter Fetch.keeps
  nonempty := List.cons_ne_nil _ _
  plain := by
    intro part member
    rcases List.mem_cons.1 member with rfl | below
    · exact directory.plain
    · have inside := List.mem_filter.1 below
      have kept : (part ≠ [] ∧ part ≠ ['.']) ∧ part ≠ ['.', '.'] := by
        simpa [Fetch.keeps] using inside.2
      exact ⟨kept.1.1, Paths.slash_not_mem_of_mem_splitOn inside.1⟩

omit [FloatFormat] [TextDigest] [UnicodeTables] in
theorem safeJoin_entry {dest out : Fetch.Path} {top path : Text}
    (directory : DirectoryName top)
    (joined : Fetch.safeJoin dest (top ++ '/' :: path) = .ok out) :
    out = dest ++ (entryPlace top path directory).parts := by
  have single : top.splitOn '/' = [top] := by
    have split : (Text.join ['/'] [top]).splitOn '/' = [top] :=
      Paths.splitOn_join
        (fun part member => List.mem_singleton.1 member ▸ directory.plain)
        (List.cons_ne_nil _ _)
    simpa [Text.join, List.intercalate_singleton] using split
  rw [safeJoin_parts joined, trimCurrent_entry directory,
    List.splitOn_append_cons_self, single, List.singleton_append,
    List.filter_cons_of_pos directory.keeps]
  rfl

omit [FloatFormat] [TextDigest] [UnicodeTables] in
/-- The parts of a path spell no path that is longer than it. -/
theorem join_entryPlace_ne {top path : Text} (directory : DirectoryName top) :
    Text.join ['/'] (entryPlace top path directory).parts ≠ path := by
  intro same
  have split := Paths.splitOn_join (entryPlace top path directory).plain
    (entryPlace top path directory).nonempty
  rw [same] at split
  have kept := congrArg (List.filter Fetch.keeps) split
  rw [entryPlace, List.filter_cons_of_pos directory.keeps, List.filter_filter]
    at kept
  simp only [Bool.and_self] at kept
  have counted := congrArg List.length kept
  rw [List.length_cons] at counted
  exact Nat.succ_ne_self _ counted.symm

omit [FloatFormat] [TextDigest] [UnicodeTables] in
/-- The recorded path of a file leads to it from the directory. -/
theorem joined_entryPlace {top path : Text} (directory : DirectoryName top) :
    Osv.joined (Text.join ['/'] (entryPlace top path directory).parts) =
      (entryPlace top path directory).parts.map .normal := by
  have plain := (entryPlace top path directory).plain
  have kept : ∀ part ∈ (entryPlace top path directory).parts,
      Fetch.component part = some (.normal part) := by
    intro part member
    have keeps : Fetch.keeps part = true := by
      rcases List.mem_cons.1 member with rfl | below
      · exact directory.keeps
      · exact (List.mem_filter.1 below).2
    have named : (part ≠ [] ∧ part ≠ ['.']) ∧ part ≠ ['.', '.'] := by
      simpa [Fetch.keeps] using keeps
    simp [Fetch.component, named.1.1, named.1.2, named.2]
  have relative :
      (Text.join ['/'] (entryPlace top path directory).parts).head? ≠
        some '/' := by
    intro slash
    have stripped := dropWhile_join plain
    obtain ⟨rest, spelled⟩ := List.head?_eq_some_iff.1 slash
    rw [spelled, List.dropWhile_cons_of_pos (by decide)] at stripped
    have counted := congrArg List.length stripped
    have fewer := List.IsSuffix.length_le (List.dropWhile_suffix (· == '/')
      (l := rest))
    rw [List.length_cons] at counted
    omega
  have first : (entryPlace top path directory).parts.head? ≠ some ['.'] := by
    intro current
    exact directory.notCurrent (Option.some.inj current)
  unfold Osv.joined Fetch.components
  dsimp only
  rw [Paths.splitOn_join plain (entryPlace top path directory).nonempty,
    if_neg relative, if_neg first, List.nil_append]
  generalize (entryPlace top path directory).parts = parts at kept
  induction parts with
  | nil => rfl
  | cons part parts ih =>
      have rest := ih fun other member =>
        kept other (List.mem_cons_of_mem _ member)
      rw [List.filterMap_cons_some (kept part List.mem_cons_self),
        List.filter_cons_of_pos (by simp), rest, List.map_cons]

/-- No finding about a file of the repository has the repository's path of it:
the directory that the archive puts around everything stays in front.  It is
the path that leads to the file from the directory that was scanned. -/
theorem recorded_path_not_repository {dest out : Fetch.Path}
    {top path : Text} (directory : DirectoryName top)
    (survives : Fetch.safeJoin dest (top ++ '/' :: path) = .ok out) :
    ∃ place : Place, out = dest ++ place.parts ∧
      place.parts.head? = some top ∧
      Osv.joined (Text.join ['/'] place.parts) = place.parts.map .normal ∧
      ∀ (tree : Osv.SourceTree) (ids : Nat → Text) (report : TreeReport),
        report.Names place →
          ∀ finding ∈ (report.shownIn Place.mount).findings tree ids,
            finding.filePath = some (Text.join ['/'] place.parts) ∧
              finding.filePath ≠ some path := by
  refine ⟨entryPlace top path directory, safeJoin_entry directory survives,
    rfl, joined_entryPlace directory, ?_⟩
  intro tree ids report named finding member
  have recorded := filePath_of_mem_findings named finding member
  rw [normalizeRepoPath_reported, left_mount, List.nil_append] at recorded
  refine ⟨recorded, fun repository => ?_⟩
  rw [recorded] at repository
  exact join_entryPlace_ne directory (Option.some.inj repository)

/-! ## Two directories -/

omit [FloatFormat] [TextDigest] [UnicodeTables] in
theorem mapIdx_map {α β γ : Type} (f : Nat → β → γ) (g : α → β)
    (items : List α) :
    (items.map g).mapIdx f = items.mapIdx fun index item => f index (g item) := by
  rw [List.mapIdx_eq_iff]
  intro index
  simp [List.getElem?_mapIdx, List.getElem?_map, Option.map_map,
    Function.comp_def]

omit [FloatFormat] [TextDigest] [UnicodeTables] in
/-- Findings that carry the stripped paths of their places differ wherever
there is one. -/
theorem mapIdx_eq_iff_nil {α : Type} {first second : Place}
    (different : first.left ≠ second.left) (place : α → Place)
    (build : Place → Nat → α → Finding)
    (recorded : ∀ root index item, (build root index item).filePath =
      some (normalizeRepoPath (root.reportedIn (place item))))
    (items : List α) :
    items.mapIdx (build first) = items.mapIdx (build second) ↔ items = [] := by
  constructor
  · intro same
    cases items with
    | nil => rfl
    | cons item items =>
        rw [List.mapIdx_cons, List.mapIdx_cons] at same
        have paths := congrArg Finding.filePath (List.cons.inj same).1
        rw [recorded, recorded, Option.some.injEq,
          normalizeRepoPath_reported_iff] at paths
        exact absurd paths different
  · rintro rfl
    rfl

/-- The groups of a report, with the place and the package of each. -/
def groupsOf (rows : List OsvRow) :
    List (Place × Osv.OsvPackageResult × List Text) :=
  rows.flatMap fun row => row.packages.flatMap fun package =>
    (Osv.osvGroups package).map fun ids => (row.place, package, ids)

def advisoryIn (root : Place)
    (group : Place × Osv.OsvPackageResult × List Text) : Osv.Advisory where
  ids := group.2.2
  records := group.2.2.filterMap (Osv.vulnById group.2.1)
  package := group.2.1.package
  manifest := normalizeRepoPath (root.reportedIn group.1)

omit [TextDigest] [UnicodeTables] in
theorem docAdvisories_eq (root : Place) (rows : List OsvRow) :
    Osv.docAdvisories (rows.map (·.shownIn root)) =
      (groupsOf rows).map (advisoryIn root) := by
  unfold Osv.docAdvisories groupsOf Osv.osvAdvisories
  rw [List.flatMap_map, List.map_flatMap]
  congr 1
  funext row
  rw [List.map_flatMap]
  congr 1
  funext package
  rw [List.map_map]
  rfl

omit [TextDigest] [UnicodeTables] in
theorem groupsOf_eq_nil_iff (rows : List OsvRow) :
    groupsOf rows = [] ↔
      ∀ row ∈ rows, ∀ package ∈ row.packages,
        package.groups = [] ∧ package.vulnerabilities = [] := by
  have groups : ∀ package : Osv.OsvPackageResult, Osv.osvGroups package = [] ↔
      package.groups = [] ∧ package.vulnerabilities = [] := by
    intro package
    unfold Osv.osvGroups
    split
    · rename_i none_
      simp [none_]
    · rename_i some_
      simp [some_]
  simp only [groupsOf, List.flatMap_eq_nil_iff, List.map_eq_nil_iff, groups]

omit [FloatFormat] [TextDigest] [UnicodeTables] in
/-- The location of a detection does not depend on the directory. -/
theorem located_shownIn (root : Place) (rows : List SemgrepRow) :
    Semgrep.located (rows.map (·.shownIn root)) =
      (rows.filter fun row =>
        (Semgrep.validateSemgrepLocation
          (row.shownIn Place.mount)).isOk).map (·.shownIn root) := by
  have usable : ∀ row : SemgrepRow,
      Semgrep.validateSemgrepLocation (row.shownIn root) =
        Semgrep.validateSemgrepLocation (row.shownIn Place.mount) := by
    intro row
    have spelled : ∀ directory : Place,
        (row.shownIn directory).path.isBlank = false := by
      intro directory
      rw [SemgrepRow.shownIn, Place.reportedIn, Paths.render,
        Text.isBlank_cons]
      rfl
    unfold Semgrep.validateSemgrepLocation
    rw [spelled root, spelled Place.mount]
    rfl
  have same : ((fun result => (Semgrep.validateSemgrepLocation result).isOk) ∘
      fun row : SemgrepRow => row.shownIn root) =
        fun row => (Semgrep.validateSemgrepLocation
          (row.shownIn Place.mount)).isOk :=
    funext fun row => congrArg Except.isOk (usable row)
  unfold Semgrep.located
  rw [List.filter_map, same]

/-- Where the adapters leave something else of two directories, they find the
same in both only when there is nothing to find. -/
theorem findings_eq_iff {first second : Place}
    (different : first.left ≠ second.left) (tree : Osv.SourceTree)
    (ids : Nat → Text) (report : TreeReport) :
    (report.shownIn first).findings tree ids =
        (report.shownIn second).findings tree ids ↔
      report.NothingDetected := by
  cases report with
  | gitleaks rows =>
      have same := mapIdx_eq_iff_nil different GitleaksRow.place
        (fun root index row =>
          findingFromGitleaks (ids index) (row.shownIn root))
        (fun _ _ _ => rfl) rows
      simpa only [TreeReport.shownIn, ScannerReport.findings, mapIdx_map,
        TreeReport.NothingDetected] using same
  | osv rows =>
      have same := mapIdx_eq_iff_nil different Prod.fst
        (fun root index group =>
          Osv.osvGroupFinding tree (ids index) (advisoryIn root group))
        (fun _ _ _ => rfl) (groupsOf rows)
      simpa only [TreeReport.shownIn, ScannerReport.findings,
        Osv.findingsFromDoc, docAdvisories_eq, mapIdx_map,
        TreeReport.NothingDetected, groupsOf_eq_nil_iff] using same
  | semgrep rows =>
      have same := mapIdx_eq_iff_nil different SemgrepRow.place
        (fun root index row =>
          Semgrep.findingFromSemgrep (ids index) (row.shownIn root))
        (fun _ _ _ => rfl)
        (rows.filter fun row =>
          (Semgrep.validateSemgrepLocation (row.shownIn Place.mount)).isOk)
      simpa only [TreeReport.shownIn, ScannerReport.findings,
        Semgrep.findingsFromSemgrep, located_shownIn, mapIdx_map,
        TreeReport.NothingDetected, List.filter_eq_nil_iff,
        Bool.not_eq_true] using same

omit [FloatFormat] [TextDigest] [UnicodeTables] in
/-- The adapters leave of a fetched directory its own name, and of two of them
two names. -/
theorem left_scanDirectory (temp : TempDir) :
    ∃ above, ∀ uuid : Uuid, (temp.scanDirectory uuid).left =
      above ++ [("firecrow-scan-" : Text) ++ uuid.text] := by
  have stripped : ∀ parts : List Text, ∃ above, ∀ uuid : Text,
      stripMount (parts ++ [("firecrow-scan-" : Text) ++ uuid]) =
        above ++ [("firecrow-scan-" : Text) ++ uuid] := by
    intro parts
    unfold stripMount
    cases parts with
    | nil =>
        refine ⟨[], fun uuid => if_neg fun opens => ?_⟩
        rw [List.nil_append, Place.mount, List.cons_prefix_cons] at opens
        exact absurd (List.cons.inj opens.1).1 (by decide)
    | cons first rest =>
        by_cases mounted : Place.mount.parts <+: first :: rest
        · refine ⟨rest, fun uuid => ?_⟩
          rw [if_pos (mounted.trans (List.prefix_append _ _))]
          rfl
        · refine ⟨first :: rest, fun uuid => if_neg fun opens => mounted ?_⟩
          rw [List.cons_append, Place.mount, List.cons_prefix_cons] at opens
          rw [Place.mount, List.cons_prefix_cons]
          exact ⟨opens.1, List.nil_prefix⟩
  obtain ⟨above, named⟩ := stripped temp.parts
  exact ⟨above, fun uuid => named uuid.text⟩

/-- The two modes of a scan, and two native runs of it, agree on a report
exactly when nothing was detected, or the runs were in one directory. -/
theorem modes_agree_iff (temp : TempDir) (uuid again : Uuid)
    (tree : Osv.SourceTree) (ids : Nat → Text) (report : TreeReport) :
    ((report.shownIn Place.mount).findings tree ids =
        (report.shownIn (temp.scanDirectory uuid)).findings tree ids ↔
      report.NothingDetected) ∧
    ((report.shownIn (temp.scanDirectory uuid)).findings tree ids =
        (report.shownIn (temp.scanDirectory again)).findings tree ids ↔
      report.NothingDetected ∨ uuid.text = again.text) := by
  obtain ⟨above, named⟩ := left_scanDirectory temp
  have apart : Place.mount.left ≠ (temp.scanDirectory uuid).left := by
    rw [left_mount, named]
    simp
  refine ⟨findings_eq_iff apart tree ids report, ?_⟩
  by_cases same : uuid.text = again.text
  · have equal : temp.scanDirectory uuid = temp.scanDirectory again := by
      simp only [TempDir.scanDirectory, same]
    rw [equal]
    simp [same]
  · have apart : (temp.scanDirectory uuid).left ≠
        (temp.scanDirectory again).left := by
      rw [named, named]
      intro equal
      have last := List.append_cancel_left equal
      exact same (List.append_cancel_left (List.cons.inj last).1)
    rw [findings_eq_iff apart tree ids report]
    simp [same]

end Reports

/-! ## A leaked key -/

section LeakedKey

attribute [local instance] FloatFormat.integersOnly TextDigest.sha256
  UnicodeTables.ascii

theorem archiveDirectory : DirectoryName "crow-fire-4f2a" where
  plain := ⟨by decide, by decide⟩
  notCurrent := by decide
  notParent := by decide

def keyFile : Place := entryPlace "crow-fire-4f2a" "aws.env" archiveDirectory

def keyRow : GitleaksRow where
  place := keyFile
  found :=
    { ruleId := "aws-access-token"
      description := "AWS"
      file := []
      startLine := 2
      startColumn := 1
      endColumn := 20
      matchText := "key"
      secret := "key"
      commit := []
      fingerprint := [] }
  spelledFingerprint := true

def emptyTree : Osv.SourceTree where
  name := none
  readToString _ := none
  fits := by simp

/-- The row is recorded with the directory of the archive. -/
theorem recorded_path_not_repository_key :
    ∃ place : Place,
      ([("tmp" : Text), "crow-fire-4f2a", "aws.env"] : Fetch.Path) =
        [("tmp" : Text)] ++ place.parts ∧
      place.parts.head? = some ("crow-fire-4f2a" : Text) ∧
      Osv.joined (Text.join ['/'] place.parts) = place.parts.map .normal ∧
      ∀ (tree : Osv.SourceTree) (ids : Nat → Text) (report : TreeReport),
        report.Names place →
          ∀ finding ∈ (report.shownIn Place.mount).findings tree ids,
            finding.filePath = some (Text.join ['/'] place.parts) ∧
              finding.filePath ≠ some "aws.env" :=
  recorded_path_not_repository archiveDirectory (by decide)

/-- The path of the repository is not what is recorded. -/
theorem repository_path_lost :
    ¬ ∀ (dest out : Fetch.Path) (top path : Text) (place : Place),
      DirectoryName top →
        Fetch.safeJoin dest (top ++ '/' :: path) = .ok out →
          out = dest ++ place.parts →
            ∀ (tree : Osv.SourceTree) (ids : Nat → Text)
              (report : TreeReport), report.Names place →
                ∀ finding ∈ (report.shownIn Place.mount).findings tree ids,
                  finding.filePath = some path := by
  intro claim
  have recorded := claim [("tmp" : Text)]
    [("tmp" : Text), "crow-fire-4f2a", "aws.env"] "crow-fire-4f2a" "aws.env"
    keyFile archiveDirectory (by decide) (by decide) emptyTree (fun _ => [])
    (.gitleaks [keyRow]) (by simp [TreeReport.Names, keyRow]) _
    List.mem_cons_self
  exact absurd recorded (by decide)

/-- The key is reported under two paths in the two modes. -/
theorem native_path_differs :
    ¬ ∀ (temp : TempDir) (uuid : Uuid) (tree : Osv.SourceTree)
      (ids : Nat → Text) (report : TreeReport),
      (report.shownIn Place.mount).findings tree ids =
        (report.shownIn (temp.scanDirectory uuid)).findings tree ids := by
  intro claim
  have same := claim ⟨[], by simp⟩ ⟨"1", by decide⟩ emptyTree (fun _ => [])
    (.gitleaks [keyRow])
  have paths := congrArg (List.map Finding.filePath) same
  exact absurd paths (by decide)

end LeakedKey

end FireCrow.Agents
