import FireCrow.Agents.Gitleaks
import FireCrow.Library.JsonColumns
import FireCrow.Orchestrator.NormalizersAgree
import FireCrow.Orchestrator.Attestations

/-!
# What finalization stores of an audit

The columns of `findings` with the values that are bound to them, and the
strings of the canonical document.  `normalizeFinding` bounds the texts of a
finding without looking for U+0000, and bounds neither the weakness and
category identifiers nor the confidence; a quarantined finding shows its
scanner and its path in the document unchecked.
-/

namespace FireCrow.Orchestrator

open FireCrow.Library FireCrow.Library.Table FireCrow.Schemas FireCrow.Agents

/-! ## The rows -/

/-- The columns of `findings` with the texts that are bound to them.  The line
is an `INTEGER` and a word of 32 bits. -/
def findingColumns (finding : Finding) : List (Column × Option Text) :=
  [(.varchar 128, some finding.id),
    (.varchar 128, some finding.agentSource),
    (.text, some finding.title),
    (.text, some finding.description),
    (.varchar 64, some finding.severity.asStr),
    (.text, finding.evidence),
    (.text, finding.remediation),
    (.varchar 64, finding.cweId),
    (.varchar 128, finding.owaspCategory),
    (.varchar 64, finding.confidence),
    (.varchar 128, finding.scannerName),
    (.varchar 128, finding.scannerMode),
    (.text, finding.filePath),
    (.jsonb, finding.metadataJson)]

/-- Every column takes its value. -/
def StorableRow (finding : Finding) : Prop :=
  ∀ column ∈ findingColumns finding, ∀ text ∈ column.2,
    column.1.stores text = true

/-! ## The document

The strings of a serialized value, without the names of its fields and of the
variants of its enumerations. -/

/-- None of the texts contains U+0000. -/
def CleanTexts (texts : List Text) : Prop := ∀ text ∈ texts, '\x00' ∉ text

def statusTexts : CanonicalScannerStatus → List Text
  | .failed reason => [reason]
  | .noFilesAnalyzed reason => [reason]
  | .successClean => []
  | .successFindings _ => []
  | .timeout _ => []
  | .cancelled => []

def runTexts (run : CanonicalScannerRun) : List Text :=
  [run.scanner, run.version, run.parser, run.mode, run.image] ++
    statusTexts run.status ++ run.detail.toList ++ run.limitations

def coverageTexts (coverage : CanonicalCoverage) : List Text :=
  coverage.successfulScanners ++ coverage.unsuccessfulScanners.keys ++
    coverage.unsuccessfulScanners.values ++ coverage.limitations

def provenanceTexts (provenance : CanonicalProvenance) : List Text :=
  [provenance.scanner, provenance.scannerVersion, provenance.parser,
    provenance.scannerImage, provenance.ruleId,
    provenance.nativeFingerprint] ++ provenance.snapshotCommit.toList

def shownReferenceTexts (reference : CanonicalReference) : List Text :=
  [reference.referenceType, reference.url]

def correlationTexts (correlation : FindingCorrelation) : List Text :=
  [correlation.correlationId, correlation.canonicalId] ++
    correlation.provenance.flatMap provenanceTexts

def invalidTexts (item : InvalidFinding) : List Text :=
  [item.id] ++ item.scanner.toList ++ item.file.toList ++ [item.reason]

def summaryTexts (summary : CanonicalSummary) : List Text :=
  summary.findingsByScanner.keys ++ summary.findingsBySeverity.keys

section Document

variable [FloatFormat]

def findingTexts (finding : CanonicalAuditFinding) : List Text :=
  [finding.id, finding.agentSource, finding.title, finding.description] ++
    finding.confidence.toList ++ finding.cweId.toList ++
    finding.owaspCategory.toList ++ finding.remediation.toList ++
    provenanceTexts finding.provenance ++
    [finding.nativeId, finding.location.file, finding.evidence] ++
    finding.references.flatMap shownReferenceTexts ++
    (Json.object finding.scannerMetadata.entries).texts

def documentTexts (audit : CanonicalAudit) : List Text :=
  [audit.scanId, audit.repositoryUrl, audit.repoBranch, audit.repoOwner,
      audit.repoName] ++
    audit.snapshotCommit.toList ++ audit.scannerRuns.flatMap runTexts ++
    coverageTexts audit.coverage ++ audit.findings.flatMap findingTexts ++
    audit.correlations.flatMap correlationTexts ++
    audit.invalidFindings.flatMap invalidTexts ++ audit.limitations ++
    summaryTexts audit.summary

/-- The rows and the document, the quarantined findings within it, are what
their columns take. -/
structure Storable (rows : List Finding) (audit : CanonicalAudit) : Prop where
  rows : ∀ row ∈ rows, StorableRow row
  document : CleanTexts (documentTexts audit)

/-! ## Metadata as it is written -/

/-- Metadata that is an object was written by a serializer, as every adapter
does when it adds the provenance of its run. -/
def Serialized (finding : Finding) : Prop :=
  ∀ raw members, finding.metadataJson = some raw →
    Json.parse raw = some (.object members) →
      ∃ written : JsonMap,
        (∀ member ∈ written.entries, Json.Buildable 126 member.2) ∧
          raw = (Json.object written.entries).render

theorem serialized_withRunProvenance (finding : Finding) (scanner : Scanner)
    (input : ScanInput) : Serialized (withRunProvenance finding scanner input) := by
  intro raw members text parsed
  unfold withRunProvenance at text
  split at text
  · rename_i found read
    rcases Option.bind_eq_some_iff.1 read with ⟨raw', old, oldParsed⟩
    have metadata :
        parseMetadata finding = .ok (SortedMap.ofList found) := by
      rw [parseMetadata, old, Option.getD_some, oldParsed]
    have oldBuilt := (parseMetadata_eq_ok metadata).2
    have scalar : ∀ value : Json, value.Scalar → Json.Buildable 126 value :=
      fun value scalar => scalar.buildable 126
    refine ⟨runProvenance scanner input (SortedMap.ofList found), ?_, ?_⟩
    · apply Json.buildable_insert
      · apply Json.buildable_insert
        · apply Json.buildable_insert
          · apply Json.buildable_insert oldBuilt
            exact scalar _ trivial
          · exact scalar _ trivial
        · exact scalar _ trivial
      · apply scalar
        cases input.commitSha <;> trivial
    · exact (Option.some.inj text).symm
  · rename_i other
    exact absurd (by rw [text]; exact parsed) (other members)

end Document

/-! ## The condition -/

section Condition

variable [FloatFormat]

/-- What a result contributes to the document is clean. -/
structure CleanResult (result : ScannerResult) : Prop where
  scanner : '\x00' ∉ result.scanner
  version : '\x00' ∉ result.version
  parser : '\x00' ∉ recordText result.executionRecord "parser"
  mode : '\x00' ∉ recordText result.executionRecord "mode"
  image : '\x00' ∉ recordText result.executionRecord "image"
  reason : ∀ reason, result.outcome = .failed reason → '\x00' ∉ reason

/-- The texts of a finding that stands for this many are clean and fit the
columns that bound them.  A merge count replaces the member of its key. -/
structure Fitting (occurrences : Nat) (finding : Finding) : Prop where
  id : Fits 128 finding.id
  title : '\x00' ∉ finding.title
  description : '\x00' ∉ finding.description
  evidence : ∀ text ∈ finding.evidence, '\x00' ∉ text
  remediation : ∀ text ∈ finding.remediation, '\x00' ∉ text
  cweId : ∀ text ∈ finding.cweId, Fits 64 text
  owaspCategory : ∀ text ∈ finding.owaspCategory, Fits 128 text
  confidence : ∀ text ∈ finding.confidence, Fits 64 text
  metadata : ∀ metadata, parseMetadata finding = .ok metadata →
    ∀ member ∈ metadata.entries,
      (1 < occurrences → member.1 ≠ duplicateKey) →
        '\x00' ∉ member.1 ∧ member.2.Clean

variable [TextDigest]

/-- The finding with the smallest storage identifier of one identity, with
the number of findings it stands for. -/
def Retained (findings : List Finding) (finding : Finding)
    (occurrences : Nat) : Prop :=
  ∃ group ∈ (groups findings none).values, group.length = occurrences ∧
    ∃ normalized, first? group = some normalized ∧
      normalized.finding = finding

/-- The texts of a request that reach a column are what it takes. -/
structure FittingRequest (request : CanonicalAuditRequest) : Prop where
  scanId : '\x00' ∉ request.scanId
  repositoryUrl : '\x00' ∉ request.repositoryUrl
  repoBranch : '\x00' ∉ request.repoBranch
  repoOwner : '\x00' ∉ request.repoOwner
  repoName : '\x00' ∉ request.repoName
  results : ∀ result ∈ request.results, CleanResult result
  retained : ∀ finding occurrences,
    Retained request.findings finding occurrences →
      Fitting occurrences finding
  quarantined : ∀ finding ∈ request.findings,
    (∀ normalized, normalizeFinding finding none ≠ .ok normalized) →
      (∀ scanner ∈ finding.scannerName, '\x00' ∉ scanner) ∧
        ∀ file ∈ finding.filePath, '\x00' ∉ file

end Condition

end FireCrow.Orchestrator
