import FireCrow.Agents.Gitleaks

/-!
# The adapters

A finished sandbox run becomes a scanner result.  The parsers of the reports
are parameters; what the adapters make of a parsed report, of a missing one and
of a run that did not finish is modelled here, with the execution record that
each result carries.
-/

namespace FireCrow.Agents

open FireCrow.Library FireCrow.Schemas FireCrow.Services.Redaction

section Adapters

variable [FloatFormat]

/-- The parameters of a run that an execution record repeats. -/
structure RunLimits where
  timeoutSecs : Nat
  cpus : Json
  memory : Text
  pidsLimit : Nat

def unsigned (number : Nat) : Json := .int (JsonInt.ofUnsigned number)

def stderrMaxChars : Nat := 1000

/-- How many scanner errors an execution record repeats. -/
def maxReportedErrors : Nat := 5

def truncateChars (text : Text) (maxChars : Nat) : Text :=
  if maxChars < text.length then
    text.take maxChars ++ ("... [truncated]" : Text)
  else text

/-! ## Execution records -/

/-- Base fields shared by every execution record. -/
def recordBase (scanner : Scanner) (limits : RunLimits) (input : ScanInput) :
    List (Text × Json) :=
  [("scanner", .string scanner.name), ("version", .string scanner.version),
    ("mode", .string scanner.mode), ("image", .string scanner.image),
    ("parser", .string scanner.parser),
    ("snapshot_commit", (input.commitSha.map Json.string).getD .null),
    ("timeout_secs", unsigned limits.timeoutSecs), ("cpus", limits.cpus),
    ("memory", .string limits.memory), ("pids_limit", unsigned limits.pidsLimit),
    ("source_file_count", unsigned input.fileCount),
    ("source_total_size", unsigned input.totalSize)]

/-- Store entries in a record, replacing older ones. -/
def mergeInto (record : JsonMap) (extra : List (Text × Json)) : JsonMap :=
  extra.foldl (fun record entry => record.insert entry.1 entry.2) record

/-- The record of a run that has no usable report. -/
def failureRecord (record : JsonMap) (error : Text) : JsonMap :=
  (record.insert "error" (.string error)).insert "coverage" (.string "unknown")

/-! ## Results -/

section Run

variable (scanner : Scanner) (limits : RunLimits) (input : ScanInput)

def baseRecord : JsonMap := SortedMap.ofList (recordBase scanner limits input)

def resultOf (outcome : ScannerOutcome) (findings : List Finding)
    (record : JsonMap) : ScannerResult where
  scanner := scanner.name
  version := scanner.version
  mode := scanner.mode
  outcome := outcome
  findings := findings
  executionRecord := .object record.entries

def successResult (findings : List Finding) (extra : List (Text × Json)) :
    ScannerResult :=
  resultOf scanner (.success findings.length)
    (findings.map fun finding => withRunProvenance finding scanner input)
    (mergeInto (baseRecord scanner limits input) extra)

def failedResult (reason : Text) (extra : List (Text × Json)) :
    ScannerResult :=
  resultOf scanner (.failed reason) []
    (failureRecord (mergeInto (baseRecord scanner limits input) extra) reason)

def timeoutResult : ScannerResult :=
  resultOf scanner (.timeout limits.timeoutSecs) []
    (failureRecord (baseRecord scanner limits input)
      (("scanner exceeded its " : Text) ++ Text.ofNat limits.timeoutSecs ++
        ("s timeout" : Text)))

def cancelledResult : ScannerResult :=
  resultOf scanner .cancelled []
    (failureRecord (baseRecord scanner limits input) "scan was cancelled")

/-! ## Reports -/

/-- What a finished sandbox run left. -/
structure SandboxOutput where
  stdout : Text
  stderr : Text
  success : Bool

/-- An error entry of a Semgrep report. -/
structure SemgrepError where
  kind : Text
  code : Int64
  level : Text
  message : Text

/-- A Semgrep report with its canonical findings and the detections without a
usable location. -/
structure SemgrepReport where
  errors : List SemgrepError
  scanned : Nat
  version : Text
  valid : List Finding
  rejected : List (Text × Text × Text)

/-- The report parsers of the adapters; a broken report has an error text. -/
structure ReportParsers where
  gitleaks : Text → Except Text (List Finding)
  osv : Text → Except Text (List Finding)
  semgrep : Text → Except Text SemgrepReport

def missingReport (output : SandboxOutput) : ScannerResult :=
  failedResult scanner limits input "scanner produced no report"
    [("detail", .string "missing_report"),
      ("stderr", .string (redactText output.stderr stderrMaxChars))]

def unparseable (output : SandboxOutput) (error : Text) : ScannerResult :=
  failedResult scanner limits input
    (("scanner report was not parseable: " : Text) ++ error)
    [("detail", .string "parse_error"),
      ("stderr", .string (redactText output.stderr stderrMaxChars))]

/-- The Gitleaks and the OSV half of `classify`. -/
def classifyFindings (parse : Text → Except Text (List Finding))
    (output : SandboxOutput) : ScannerResult :=
  if output.stdout.isBlank = true ∧ output.success = false then
    missingReport scanner limits input output
  else
    match parse output.stdout with
    | .ok findings =>
        successResult scanner limits input findings
          [("finding_count", unsigned findings.length)]
    | .error error => unparseable scanner limits input output error

def semgrepErrorJson (error : SemgrepError) : Json :=
  .object (SortedMap.ofList [(("type" : Text), Json.string error.kind),
    ("code", .int (JsonInt.ofSigned error.code)),
    ("level", .string error.level),
    ("message", .string (truncateChars error.message stderrMaxChars))]).entries

def rejectedJson (rejected : Text × Text × Text) : Json :=
  .object (SortedMap.ofList [(("check_id" : Text), Json.string rejected.1),
    ("path", .string rejected.2.1), ("reason", .string rejected.2.2)]).entries

/-- The entries of a successful Semgrep run. -/
def semgrepEntries (report : SemgrepReport) : List (Text × Json) :=
  let counts : List (Text × Json) :=
    [("finding_count", unsigned report.valid.length),
      ("scanned_file_count", unsigned report.scanned),
      ("tool_version", .string report.version)]
  if 0 < report.rejected.length then
    counts ++ [(("rejected_count" : Text), unsigned report.rejected.length),
      ("rejected",
        .array ((report.rejected.take maxReportedErrors).map rejectedJson))]
  else counts

/-- The Semgrep half of `classify`. -/
def classifySemgrep (parse : Text → Except Text SemgrepReport)
    (output : SandboxOutput) : ScannerResult :=
  if output.stdout.isBlank = true ∧ output.success = false then
    missingReport scanner limits input output
  else
    match parse output.stdout with
    | .error error => unparseable scanner limits input output error
    | .ok report =>
        if report.errors ≠ [] then
          failedResult scanner limits input
            (("scanner reported " : Text) ++ Text.ofNat report.errors.length ++
              (" error(s)" : Text))
            [("detail", .string "scanner_errors"),
              ("errors", .array
                ((report.errors.take maxReportedErrors).map semgrepErrorJson))]
        else if report.scanned = 0 then
          failedResult scanner limits input "scanner analyzed no files"
            [("detail", .string "no_files_analyzed"),
              ("scanned_file_count", unsigned 0)]
        else
          successResult scanner limits input report.valid (semgrepEntries report)

/-- How a sandbox run ended. -/
inductive SandboxRun where
  | finished (output : SandboxOutput)
  | timeout
  | cancelled
  | outputLimitExceeded (stream : Text) (capBytes : Nat)
  | failed (error : Text)

/-- Map a sandbox run onto an outcome and a result. -/
def classify (parsers : ReportParsers) : SandboxRun → ScannerResult
  | .finished output =>
      if scanner.parser = Scanner.gitleaks.parser then
        classifyFindings scanner limits input parsers.gitleaks output
      else if scanner.parser = Scanner.osv.parser then
        classifyFindings scanner limits input parsers.osv output
      else if scanner.parser = Scanner.semgrep.parser then
        classifySemgrep scanner limits input parsers.semgrep output
      else
        failedResult scanner limits input
          (("unknown scanner parser \"" : Text) ++ scanner.parser ++ ['"'])
          [("detail", .string "unknown_parser")]
  | .timeout => timeoutResult scanner limits input
  | .cancelled => cancelledResult scanner limits input
  | .outputLimitExceeded stream capBytes =>
      failedResult scanner limits input
        (("output_limit_exceeded: " : Text) ++ stream ++
          (" exceeded " : Text) ++ Text.ofNat capBytes ++ (" bytes" : Text))
        [("detail", .string "output_limit_exceeded"),
          ("stream", .string stream), ("cap_bytes", unsigned capBytes)]
  | .failed error =>
      failedResult scanner limits input error
        [("detail", .string "scanner could not be executed")]

/-- Execute a scanner: a cancellation before or during the run wins. -/
def execute (parsers : ReportParsers) (cancelledBefore cancelledAfter : Bool)
    (run : SandboxRun) : ScannerResult :=
  if cancelledBefore || cancelledAfter then
    cancelledResult scanner limits input
  else classify scanner limits input parsers run

end Run

/-- Run the dependency scanner, which does not start without its proxy. -/
def runDependencyScan (limits : RunLimits) (input : ScanInput)
    (parsers : ReportParsers) (cancelledFirst : Bool) (proxy : Except Text Text)
    (cancelledBefore cancelledAfter : Bool) (run : SandboxRun) :
    ScannerResult :=
  if cancelledFirst then cancelledResult .osv limits input
  else
    match proxy with
    | .error reason =>
        failedResult .osv limits input reason
          [("egress_enforced", .bool false),
            ("egress_proxy_configured", .bool false)]
    | .ok _ =>
        execute .osv limits input parsers cancelledBefore cancelledAfter run

/-! ## Successful runs -/

/-- What an adapter may store behind the number of findings. -/
def laterKeys : List Text :=
  ["scanned_file_count", "tool_version", "rejected_count", "rejected"]

/-- What an adapter stores for a successful run: the number of findings first,
nothing that a failure would store, and rejections for Semgrep only. -/
structure SuccessEntries (scanner : Scanner) (findings : List Finding)
    (extra : List (Text × Json)) : Prop where
  first : ∃ rest : List (Text × Json),
    extra = (("finding_count" : Text), unsigned findings.length) :: rest ∧
      ∀ entry ∈ rest, entry.1 ∈ laterKeys
  rejections : scanner.parser ≠ Scanner.semgrep.parser →
    ∀ entry ∈ extra, entry.1 ≠ "rejected_count"

theorem successEntries_single (scanner : Scanner) (findings : List Finding) :
    SuccessEntries scanner findings
      [("finding_count", unsigned findings.length)] :=
  ⟨⟨[], rfl, nofun⟩, fun _ => by simp⟩

theorem successEntries_semgrep {scanner : Scanner}
    (semgrep : scanner.parser = Scanner.semgrep.parser)
    (report : SemgrepReport) :
    SuccessEntries scanner report.valid (semgrepEntries report) := by
  unfold semgrepEntries
  dsimp only
  split
  · exact ⟨⟨_, rfl, by simp [laterKeys]⟩, fun other => absurd semgrep other⟩
  · exact ⟨⟨_, rfl, by simp [laterKeys]⟩, fun other => absurd semgrep other⟩

/-- A successful result of an adapter is a success result. -/
theorem success_of_classify {scanner : Scanner} {limits : RunLimits}
    {input : ScanInput} {parsers : ReportParsers} {run : SandboxRun}
    (success :
      (classify scanner limits input parsers run).outcome.isSuccess = true) :
    ∃ findings extra, SuccessEntries scanner findings extra ∧
      classify scanner limits input parsers run =
        successResult scanner limits input findings extra := by
  have reports : ∀ parse output,
      (classifyFindings scanner limits input parse output).outcome.isSuccess =
        true →
      ∃ findings extra, SuccessEntries scanner findings extra ∧
        classifyFindings scanner limits input parse output =
          successResult scanner limits input findings extra := by
    intro parse output success
    unfold classifyFindings at success ⊢
    split at success
    · cases success
    · rename_i present
      rw [if_neg present]
      split at success
      · exact ⟨_, _, successEntries_single _ _, rfl⟩
      · cases success
  cases run with
  | finished output =>
      unfold classify at success ⊢
      dsimp only at success ⊢
      split at success
      · rename_i known
        rw [if_pos known]
        exact reports _ _ success
      · rename_i notGitleaks
        rw [if_neg notGitleaks]
        split at success
        · rename_i known
          rw [if_pos known]
          exact reports _ _ success
        · rename_i notOsv
          rw [if_neg notOsv]
          split at success
          · rename_i known
            rw [if_pos known]
            unfold classifySemgrep at success ⊢
            split at success
            · cases success
            · rename_i present
              rw [if_neg present]
              split at success
              · cases success
              · split at success
                · cases success
                · rename_i clean
                  rw [if_neg clean]
                  split at success
                  · cases success
                  · rename_i scanned
                    rw [if_neg scanned]
                    exact ⟨_, _, successEntries_semgrep known _, rfl⟩
          · cases success
  | timeout | cancelled | outputLimitExceeded _ _ | failed _ => cases success

end Adapters

end FireCrow.Agents
