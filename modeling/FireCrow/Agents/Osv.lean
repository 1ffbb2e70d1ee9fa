import FireCrow.Agents.Adapters
import FireCrow.Agents.Archive
import FireCrow.Library.Sha256
import FireCrow.Library.StableSort

/-!
# The OSV adapter

A package result lists vulnerabilities and groups them by alias; each group
becomes a finding.  The evidence is a sentence about the package, cut to a
bound in bytes, and everything else the advisory says goes into the metadata.
The manifest beside the lockfile says whether a dependency is direct, and the
lockfile has the line that declares it.
-/

namespace FireCrow.Agents.Osv

open FireCrow.Library FireCrow.Schemas

section Advisories

variable [FloatFormat] [TextDigest] [UnicodeTables]

/-! ## The report -/

structure OsvEvent where
  introduced : Text
  fixed : Option Text
  lastAffected : Option Text
  limit : Option Text

structure OsvRange where
  rangeType : Text
  events : List OsvEvent

/-- The package that is affected, by its name. -/
structure OsvAffected where
  package : Text
  ranges : List OsvRange

structure OsvRef where
  refType : Text
  url : Text

structure OsvVuln where
  id : Text
  aliases : List Text
  summary : Text
  affected : List OsvAffected
  references : List OsvRef
  databaseSpecific : Json

structure OsvPackageId where
  name : Text
  version : Text
  ecosystem : Text

/-- A package with its vulnerabilities, and the ids of each group. -/
structure OsvPackageResult where
  package : OsvPackageId
  vulnerabilities : List OsvVuln
  groups : List (List Text)

structure OsvSourceResult where
  sourcePath : Text
  packages : List OsvPackageResult

/-! ## The snapshot -/

/-- The directory that was scanned: its own name and what can be read below it,
by the components of the path from there.  No larger file was extracted. -/
structure SourceTree where
  name : Option Text
  readToString : List Fetch.Component → Option Text
  fits : ∀ path text, readToString path = some text →
    text.byteLen ≤ Fetch.maxFileBytes

/-- A relative path joined to the directory. -/
def joined (manifest : Text) : List Fetch.Component :=
  (Fetch.components manifest).filter fun part => part ≠ .curDir

def lastName : List Fetch.Component → Option Text
  | path =>
      match path.getLast? with
      | some (.normal name) => some name
      | _ => none

/-- The name of the file that a path leads to. -/
def SourceTree.fileName (tree : SourceTree) (path : List Fetch.Component) :
    Option Text :=
  if path = [] then tree.name else lastName path

def withFileName (path : List Fetch.Component) (name : Text) :
    List Fetch.Component :=
  if path = [] then [.parentDir, .normal name]
  else path.dropLast ++ [.normal name]

/-- The lines of a text, each without its ending. -/
def lines (text : Text) : List Text :=
  let parts := text.splitOn '\n'
  let last := parts.getLast?.getD []
  parts.dropLast.map
      (fun line => if line.getLast? = some '\r' then line.dropLast else line) ++
    if last.isEmpty then [] else [last]

/-! ## Direct dependencies -/

def npmSections : List Text :=
  ["dependencies", "devDependencies", "peerDependencies",
    "optionalDependencies"]

/-- The keys of the dependency sections of a `package.json`. -/
def npmDirectDeps (tree : SourceTree) (path : List Fetch.Component) :
    Option (List Text) := do
  let text ← tree.readToString path
  let value ← Json.parse text
  return npmSections.flatMap fun section_ =>
    match value.get? section_ with
    | some (.object members) => members.map Prod.fst
    | _ => []

def trimMatches (strips : Char → Bool) (text : Text) : Text :=
  (text.dropWhile strips).rdropWhile strips

/-- Whether a header of a `Cargo.toml` opens a dependency section. -/
def opensDependencies (line : Text) : Bool :=
  let header := Text.toLowercase
    (trimMatches (fun character => character = '[' || character = ']')
      line).trim
  let leaf : Text := (header.splitOn '.').getLast?.getD []
  leaf = "dependencies" || leaf = "dev-dependencies" ||
    leaf = "build-dependencies"

/-- The key of a line of a dependency section. -/
def dependencyKey (line : Text) : Option Text :=
  let code : Text := line.takeWhile fun character => character ≠ '#'
  match Text.splitOnce '=' code.trim with
  | some (key, _) =>
      let name := trimMatches (fun character => character = '"') key.trim
      if name.isEmpty then none else some name
  | none => none

/-- Collect the keys of the dependency sections. -/
def cargoKeys : Bool → List Text → List Text
  | _, [] => []
  | inDeps, line :: rest =>
      let line := line.trim
      if line.startsWith ['['] then cargoKeys (opensDependencies line) rest
      else if inDeps then
        (dependencyKey line).toList ++ cargoKeys inDeps rest
      else cargoKeys inDeps rest

def cargoDirectDeps (tree : SourceTree) (path : List Fetch.Component) :
    Option (List Text) :=
  (tree.readToString path).map fun text => cargoKeys false (lines text)

/-- Whether a package is a direct dependency, where that can be told. -/
def osvDirectness (tree : SourceTree) (manifest package : Text) :
    Option Bool :=
  let path := joined manifest
  match tree.fileName path with
  | none => none
  | some fileName =>
      let declares : Option (List Text) → Option Bool :=
        Option.map fun deps => decide (package ∈ deps)
      if fileName = "package.json" then declares (npmDirectDeps tree path)
      else if fileName = "package-lock.json" ∨
          fileName = "npm-shrinkwrap.json" then
        declares (npmDirectDeps tree (withFileName path "package.json"))
      else if fileName = "Cargo.toml" then
        declares (cargoDirectDeps tree path)
      else if fileName = "Cargo.lock" then
        declares (cargoDirectDeps tree (withFileName path "Cargo.toml"))
      else none

/-! ## The declaring line -/

def lineAt (index : Nat) : Int32 := Int32.ofNat (index + 1)

/-- The line of a package in a `Cargo.lock`: the version behind its name, or
the name. -/
def cargoLine (lines : List Text) (package version : Text) : Option Int32 :=
  let nameLine : Text := ("name = \"" : Text) ++ package ++ ['"']
  let versionLine : Text := ("version = \"" : Text) ++ version ++ ['"']
  match lines.findIdx? fun line => line.trim = nameLine with
  | none => none
  | some index =>
      match ((lines.drop (index + 1)).take 5).findIdx? fun line =>
          line.trim = versionLine with
      | some offset => some (lineAt (index + 1 + offset))
      | none => some (lineAt index)

/-- The line that declares a package, or the first. -/
def osvManifestLine (tree : SourceTree) (manifest package version : Text) :
    Int32 :=
  match tree.readToString (joined manifest) with
  | none => 1
  | some text =>
      let lines := lines text
      let fileName := (lastName (Fetch.components manifest)).getD []
      let entry : Text := ("\"node_modules/" : Text) ++ package ++ ['"']
      let npm :=
        if fileName = "package-lock.json" ∨ fileName = "npm-shrinkwrap.json"
        then (lines.findIdx? fun line => line.contains entry).map lineAt
        else none
      let cargo :=
        if fileName = "Cargo.lock" then cargoLine lines package version
        else none
      let mention :=
        (lines.findIdx? fun line =>
          line.contains version && line.contains package).map lineAt
      ((npm.or cargo).or mention).getD 1

/-! ## Advisories -/

def osvSummaryMaxChars : Nat := 240
def osvEvidenceMaxChars : Nat := 400

/-- Severity backed by advisory data. -/
def osvAdvisorySeverity (vuln : OsvVuln) : Option Severity := do
  let value ← vuln.databaseSpecific.get? "severity"
  let raw ← value.asStr
  let band : Text := Text.toLowercase raw
  if band = "critical" then some .critical
  else if band = "high" then some .high
  else if band = "medium" ∨ band = "moderate" then some .medium
  else if band = "low" then some .low
  else none

def severityRank : Severity → Nat
  | .critical => 4
  | .high => 3
  | .medium => 2
  | .low => 1
  | .info | .unknown => 0

/-- The last of the most severe. -/
def maxSeverity (severities : List Severity) : Option Severity :=
  severities.foldl
    (fun best next =>
      match best with
      | none => some next
      | some severity =>
          if severityRank severity ≤ severityRank next then some next
          else some severity)
    none

/-- The first weakness that an advisory names. -/
def osvAdvisoryCwe (vuln : OsvVuln) : Option Text := do
  let value ← vuln.databaseSpecific.get? "cwe_ids"
  let ids ← value.asArray
  (ids.filterMap Json.asStr).head?

/-- The entries that are about the package. -/
def affectedEntries (records : List OsvVuln) (package : OsvPackageId) :
    List OsvAffected :=
  (records.flatMap OsvVuln.affected).filter fun entry =>
    entry.package = [] || entry.package = package.name

def eventJson (event : OsvEvent) : Json :=
  let introduced : List (Text × Json) :=
    if event.introduced = [] then []
    else [("introduced", .string event.introduced)]
  let optional : Text → Option Text → List (Text × Json) := fun key value =>
    value.toList.map fun text => (key, .string text)
  .object (SortedMap.ofList (introduced ++ optional "fixed" event.fixed ++
    optional "last_affected" event.lastAffected ++
    optional "limit" event.limit)).entries

def rangeJson (range : OsvRange) : Json :=
  let members : List (Text × Json) :=
    [("type", .string range.rangeType),
      ("events", .array (range.events.map eventJson))]
  .object (SortedMap.ofList members).entries

def affectedJson (entry : OsvAffected) : Json :=
  .object [("ranges", .array (entry.ranges.map rangeJson))]

/-- The affected ranges of the package. -/
def osvAffected (records : List OsvVuln) (package : OsvPackageId) :
    List Json :=
  (affectedEntries records package).map affectedJson

/-- The versions that fix the package, each once. -/
def osvFixed (records : List OsvVuln) (package : OsvPackageId) : List Text :=
  let versions :=
    ((affectedEntries records package).flatMap OsvAffected.ranges).flatMap
      fun range => range.events.filterMap OsvEvent.fixed
  sortBy id
    (versions.foldl
      (fun fixed version =>
        if version ≠ [] ∧ version ∉ fixed then fixed ++ [version] else fixed)
      [])

/-- References with a url, the first of each. -/
def osvReferences (records : List OsvVuln) : List OsvRef :=
  sortBy OsvRef.url
    ((records.flatMap OsvVuln.references).foldl
      (fun kept reference =>
        if reference.url.isBlank = false ∧
            ∀ other ∈ kept, other.url ≠ reference.url then
          kept ++ [reference]
        else kept)
      [])

def referenceJson (reference : OsvRef) : Json :=
  let members : List (Text × Json) :=
    [("type", .string reference.refType), ("url", .string reference.url)]
  .object (SortedMap.ofList members).entries

/-- Advisory identity and what is installed where. -/
def osvFingerprint (advisory ecosystem package version manifest : Text) :
    Text :=
  ("osv:" : Text) ++
    TextDigest.hexDigest (("osv|" : Text) ++ advisory ++ '|' :: ecosystem ++
      '|' :: package ++ '|' :: version ++ '|' :: manifest)

/-! ## Findings -/

/-- A group of advisories that concern one package. -/
structure Advisory where
  ids : List Text
  records : List OsvVuln
  package : OsvPackageId
  manifest : Text

namespace Advisory

variable (advisory : Advisory)

def primary : Text := advisory.ids.head?.getD []

/-- The other names of the advisory, each once. -/
def aliases : List Text :=
  (sortBy id
    ((advisory.ids.drop 1 ++
        advisory.records.flatMap OsvVuln.aliases).filter fun other =>
      other ≠ advisory.primary && !other.isBlank)).destutter (· ≠ ·)

def fixed : List Text := osvFixed advisory.records advisory.package

def fingerprint : Text :=
  osvFingerprint advisory.primary advisory.package.ecosystem
    advisory.package.name advisory.package.version advisory.manifest

def fixedText : Text :=
  if advisory.fixed = [] then "no fixed version is published"
  else ("fixed in " : Text) ++ Text.join ", " advisory.fixed

def aliasText : Text :=
  if advisory.aliases = [] then []
  else (" (" : Text) ++ Text.join ", " advisory.aliases ++ [')']

/-- The sentence that the evidence is cut from. -/
def sentence : Text :=
  advisory.package.ecosystem ++ (" package " : Text) ++
    advisory.package.name ++ '@' :: advisory.package.version ++
    (" declared in " : Text) ++ advisory.manifest ++
    (" is affected by " : Text) ++ advisory.primary ++ advisory.aliasText ++
    ("; " : Text) ++ advisory.fixedText ++ ['.']

def evidence : Text :=
  if osvEvidenceMaxChars < advisory.sentence.byteLen then
    Text.takeBytes osvEvidenceMaxChars advisory.sentence ++
      ("... [truncated]" : Text)
  else advisory.sentence

def title : Text :=
  ("Vulnerable dependency: " : Text) ++ advisory.package.name ++
    ' ' :: advisory.package.version ++ (" (" : Text) ++ advisory.primary ++
    [')']

def summary : Option Text :=
  advisory.records.findSome? fun record =>
    if record.summary.isBlank then none else some record.summary.trim

def description : Text :=
  match advisory.summary with
  | some summary => truncateChars summary osvSummaryMaxChars
  | none =>
      ("Advisory " : Text) ++ advisory.primary ++ (" affects " : Text) ++
        advisory.package.name ++ ' ' :: advisory.package.version ++
        (" (" : Text) ++ advisory.package.ecosystem ++ (")." : Text)

def remediation : Text :=
  match advisory.fixed with
  | [] =>
      ("No fixed version is published for " : Text) ++ advisory.primary ++
        ("; review the advisory references in the finding metadata." : Text)
  | version :: _ =>
      ("Upgrade " : Text) ++ advisory.package.name ++
        (" to version " : Text) ++ version ++
        (" or later (declared in " : Text) ++ advisory.manifest ++
        ("), then re-lock and rescan." : Text)

def severity : Severity :=
  (maxSeverity (advisory.records.filterMap osvAdvisorySeverity)).getD .unknown

def cwe : Option Text := advisory.records.findSome? osvAdvisoryCwe

/-- The entries of the metadata; the weakness is there when it is known. -/
def facts (direct : Option Bool) : List (Text × Json) :=
  let weakness : List (Text × Json) :=
    advisory.cwe.toList.map fun cwe => ("cwe_id", .string cwe)
  let known : List (Text × Json) :=
    [("rule_id", .string advisory.primary),
      ("advisory", .string advisory.primary),
      ("aliases", .array (advisory.aliases.map .string)),
      ("ecosystem", .string advisory.package.ecosystem),
      ("package", .string advisory.package.name),
      ("installed_version", .string advisory.package.version),
      ("fingerprint", .string advisory.fingerprint),
      ("manifest", .string advisory.manifest),
      ("direct", (direct.map Json.bool).getD .null),
      ("affected", .array (osvAffected advisory.records advisory.package)),
      ("fixed_versions", .array (advisory.fixed.map .string)),
      ("references",
        .array ((osvReferences advisory.records).map referenceJson))]
  known ++ weakness

def metadata (direct : Option Bool) : JsonMap :=
  SortedMap.ofList (advisory.facts direct)

end Advisory

/-- One finding for a group, with a fresh storage identifier. -/
def osvGroupFinding (tree : SourceTree) (id : Text) (advisory : Advisory) :
    Finding where
  id := id
  agentSource := "osv"
  title := advisory.title
  description := advisory.description
  severity := advisory.severity
  evidence := some advisory.evidence
  remediation := some advisory.remediation
  cweId := advisory.cwe
  owaspCategory := none
  confidence := none
  scannerName := some "osv"
  scannerMode := some "dependency"
  filePath := some advisory.manifest
  lineNumber := some
    (osvManifestLine tree advisory.manifest advisory.package.name
      advisory.package.version)
  metadataJson := some
    (Json.object
      (advisory.metadata
        (osvDirectness tree advisory.manifest
          advisory.package.name)).entries).render

/-- The groups of a package; without any, each vulnerability on its own. -/
def osvGroups (result : OsvPackageResult) : List (List Text) :=
  if result.groups = [] then
    result.vulnerabilities.map fun vuln => [vuln.id]
  else result.groups

/-- The vulnerability of an id; of two the later. -/
def vulnById (result : OsvPackageResult) (id : Text) : Option OsvVuln :=
  result.vulnerabilities.reverse.find? fun vuln => vuln.id = id

def osvAdvisories (manifest : Text) (result : OsvPackageResult) :
    List Advisory :=
  (osvGroups result).map fun ids =>
    { ids := ids
      records := ids.filterMap (vulnById result)
      package := result.package
      manifest := manifest }

/-- Findings of advisories; the identifiers are drawn by the caller. -/
def osvPackageFindings (tree : SourceTree) (ids : Nat → Text)
    (manifest : Text) (result : OsvPackageResult) : List Finding :=
  (osvAdvisories manifest result).mapIdx fun index advisory =>
    osvGroupFinding tree (ids index) advisory

/-- The advisories of a report. -/
def docAdvisories (doc : List OsvSourceResult) : List Advisory :=
  doc.flatMap fun source =>
    source.packages.flatMap
      (osvAdvisories (normalizeRepoPath source.sourcePath))

/-- The findings of a report. -/
def findingsFromDoc (tree : SourceTree) (ids : Nat → Text)
    (doc : List OsvSourceResult) : List Finding :=
  (docAdvisories doc).mapIdx fun index advisory =>
    osvGroupFinding tree (ids index) advisory

end Advisories

end FireCrow.Agents.Osv
