import FireCrow.Agents.Adapters
import FireCrow.Orchestrator.ExecutionStore

/-!
# Persisted scanner runs

The row of a scanner run is read back from the execution record, and the
canonical run from the typed outcome.  They agree on a successful run without
rejected detections only: the row has no limitations and one status for every
failure.
-/

namespace FireCrow.Orchestrator

open FireCrow.Library FireCrow.Schemas FireCrow.Agents Execution

section Runs

variable [FloatFormat]

/-- The scanners whose runs are persisted. -/
def persistedScanners : List Text := ["gitleaks", "osv", "semgrep"]

/-- The status that an execution record is read as. -/
def recordStatus (record : Json) : Text :=
  if (record.get? "error").isSome = true then "failed"
  else if (record.get? "coverage").bind Json.asStr = some "unknown" then "failed"
  else
    match (record.get? "finding_count").bind Json.asU64 with
    | some 0 => "success_clean"
    | some _ => "success_findings"
    | none => "success_clean"

/-- The row of one execution record. -/
def scannerRunRecord (name : Text) (record : Json) : ScannerRunRecord where
  scanner := name
  version := recordText record "version"
  parser := recordText record "parser"
  mode := recordText record "mode"
  image := recordText record "image"
  status := recordStatus record
  findingCount :=
    ((record.get? "finding_count").bind Json.asI64).map Int64.toInt32
  coverageKnown := (recordStatus record).startsWith "success"
  detail := (record.get? "error").bind Json.asStr
  limitations := []

/-- The rows of an execution map, whose entries come in any order. -/
def scannerRunRecords (executionMap : List (Text × Json)) :
    List ScannerRunRecord :=
  (executionMap.filter fun entry => entry.1 ∈ persistedScanners).map
    fun entry => scannerRunRecord entry.1 entry.2

/-- A row and a canonical run that say the same. -/
structure SameRun (row : ScannerRunRecord) (run : CanonicalScannerRun) :
    Prop where
  status : row.status = run.status.asStr
  coverageKnown : row.coverageKnown = run.coverageKnown
  findingCount : row.findingCount.map Int32.toInt = run.findingCount.map Int.ofNat
  detail : row.detail = run.detail
  limitations : row.limitations = run.limitations

/-- The results that the pipeline's three scans can have. -/
inductive Produced : ScannerResult → Prop where
  | secret (limits : RunLimits) (input : ScanInput) (parsers : ReportParsers)
      (before after : Bool) (run : SandboxRun) :
      Produced (execute .gitleaks limits input parsers before after run)
  | dependency (limits : RunLimits) (input : ScanInput)
      (parsers : ReportParsers) (first : Bool) (proxy : Except Text Text)
      (before after : Bool) (run : SandboxRun) :
      Produced
        (runDependencyScan limits input parsers first proxy before after run)
  | sast (limits : RunLimits) (input : ScanInput) (parsers : ReportParsers)
      (before after : Bool) (run : SandboxRun) :
      Produced (execute .semgrep limits input parsers before after run)

/-- The rejected detections that a record counts. -/
def rejectedCount (record : Json) : Nat :=
  ((record.get? "rejected_count").bind Json.asU64).getD 0

/-! ## Records of successful runs -/

theorem success_of_execute {scanner : Scanner} {limits : RunLimits}
    {input : ScanInput} {parsers : ReportParsers} {before after : Bool}
    {run : SandboxRun}
    (success : (execute scanner limits input parsers before after
      run).outcome.isSuccess = true) :
    ∃ findings extra, SuccessEntries scanner findings extra ∧
      execute scanner limits input parsers before after run =
        successResult scanner limits input findings extra := by
  unfold execute at success ⊢
  split at success
  · cases success
  · rename_i running
    rw [if_neg running]
    exact success_of_classify success

/-- The scanners of the pipeline. -/
def scanners : List Scanner := [.gitleaks, .osv, .semgrep]

variable {result : ScannerResult}

theorem success_of_produced (produced : Produced result)
    (success : result.outcome.isSuccess = true) :
    ∃ scanner ∈ scanners, ∃ limits input findings extra,
      SuccessEntries scanner findings extra ∧
        result = successResult scanner limits input findings extra := by
  cases produced with
  | secret =>
      exact ⟨.gitleaks, by simp [scanners], _, _, success_of_execute success⟩
  | sast =>
      exact ⟨.semgrep, by simp [scanners], _, _, success_of_execute success⟩
  | dependency limits input parsers first proxy =>
      unfold runDependencyScan at success ⊢
      split at success
      · cases success
      · rename_i running
        rw [if_neg running]
        cases proxy with
        | error reason => cases success
        | ok url =>
            exact ⟨.osv, by simp [scanners], _, _, success_of_execute success⟩

theorem scanner_of_produced
    (produced : Produced result) : result.scanner ∈ persistedScanners := by
  have executed : ∀ (scanner : Scanner) limits input parsers before after run,
      (execute scanner limits input parsers before after run).scanner =
        scanner.name := by
    intro scanner limits input parsers before after run
    have reports : ∀ parse output,
        (classifyFindings scanner limits input parse output).scanner =
          scanner.name := by
      intro parse output
      unfold classifyFindings
      split
      · rfl
      · split <;> rfl
    have semgrep : ∀ parse output,
        (classifySemgrep scanner limits input parse output).scanner =
          scanner.name := by
      intro parse output
      unfold classifySemgrep
      split
      · rfl
      · split
        · rfl
        · split
          · rfl
          · split <;> rfl
    unfold execute
    split
    · rfl
    · cases run with
      | finished output =>
          unfold classify
          dsimp only
          split
          · exact reports _ _
          · split
            · exact reports _ _
            · split
              · exact semgrep _ _
              · rfl
      | timeout | cancelled | outputLimitExceeded _ _ | failed _ => rfl
  cases produced with
  | secret | sast =>
      rw [executed]
      decide
  | dependency limits input parsers first proxy =>
      unfold runDependencyScan
      split
      · exact (by decide : Scanner.osv.name ∈ persistedScanners)
      · cases proxy with
        | error reason =>
            exact (by decide : Scanner.osv.name ∈ persistedScanners)
        | ok url =>
            dsimp only
            rw [executed]
            decide

section Records

variable {scanner : Scanner} {limits : RunLimits} {input : ScanInput}
  {findings : List Finding} {extra : List (Text × Json)}

theorem base_absent {key : Text}
    (absent : key ∉ (recordBase scanner limits input).map Prod.fst) :
    (baseRecord scanner limits input).get? key = none := by
  rw [baseRecord, SortedMap.ofList, SortedMap.get?_foldl_insert_of_forall_ne]
  · rfl
  · exact fun entry member same =>
      absent (List.mem_map.2 ⟨entry, member, same⟩)

/-- The keys that only a failure stores. -/
theorem success_absent (entries : SuccessEntries scanner findings extra) {key : Text}
    (notBase : key ∉ (recordBase scanner limits input).map Prod.fst)
    (notCount : key ≠ "finding_count") (notLater : key ∉ laterKeys) :
    (successResult scanner limits input findings extra).executionRecord.get?
      key = none := by
  obtain ⟨rest, rfl, later⟩ := entries.first
  change (mergeInto (baseRecord scanner limits input) _).get? key = none
  rw [mergeInto, SortedMap.get?_foldl_insert_of_forall_ne, base_absent notBase]
  intro entry member same
  rcases List.mem_cons.1 member with rfl | inside
  · exact notCount same.symm
  · exact notLater (same ▸ later entry inside)

theorem success_count (entries : SuccessEntries scanner findings extra) :
    (successResult scanner limits input findings extra).executionRecord.get?
      "finding_count" = some (unsigned findings.length) := by
  obtain ⟨rest, rfl, later⟩ := entries.first
  change (mergeInto (baseRecord scanner limits input) _).get? _ = _
  rw [mergeInto, List.foldl_cons, SortedMap.get?_foldl_insert_of_forall_ne]
  · exact SortedMap.get?_insert_self _ _ _
  · intro entry member same
    have listed := later entry member
    rw [same] at listed
    exact absurd listed (by decide)

/-! ## Agreement -/

theorem int32_of_unsigned (count : Nat) :
    ((unsigned count).asI64.map Int64.toInt32).map Int32.toInt =
        some (count : Int) ↔ count < 2 ^ 31 := by
  have carried : (JsonInt.ofUnsigned count).value = (count % 2 ^ 64 : Nat) := rfl
  rw [unsigned, Json.asI64, carried]
  split
  · rename_i small
    have size : Int64.size = 18446744073709551616 := rfl
    simp only [Option.map_some, Option.some.injEq, Int64.toInt_toInt32,
      Int64.toInt_ofInt, Int.bmod_def, size]
    constructor
    · intro same
      omega
    · intro fits
      omega
  · rename_i large
    exact ⟨nofun, fun fits => by omega⟩

/-- A successful run is clean when it has no findings. -/
theorem status_of_success (entries : SuccessEntries scanner findings extra)
    (fits : findings.length < 2 ^ 31) :
    recordStatus
        (successResult scanner limits input findings extra).executionRecord =
      if findings.length = 0 then "success_clean" else "success_findings" := by
  have whole : (JsonInt.ofUnsigned findings.length).value = findings.length :=
    JsonInt.ofUnsigned_value (by omega)
  have counted : (unsigned findings.length).asU64 = some findings.length := by
    rw [unsigned, Json.asU64, whole, if_pos (by omega), Int.toNat_natCast]
  rw [recordStatus, success_absent entries (by simp [recordBase]) (by decide)
      (by decide), if_neg nofun,
    success_absent entries (by simp [recordBase]) (by decide) (by decide),
    if_neg nofun, success_count entries, Option.bind_some, counted]
  cases findings.length with
  | zero | succ => rfl

end Records

theorem limitations_of_failure (failed : result.outcome.isSuccess = false) :
    (canonicalScannerRun result).limitations ≠ [] := by
  have unknown : (canonicalStatus result).coverageKnown = false := by
    rw [← failed]
    exact coverageKnown_canonicalScannerRun result
  change coverageLimitation result ++ rejectedLimitation result ≠ []
  rw [coverageLimitation, unknown]
  exact List.append_ne_nil_of_left_ne_nil (List.cons_ne_nil _ _) _


theorem rejectedLimitation_nil_iff
    (semgrep : result.scanner ≠ "semgrep" →
      rejectedCount result.executionRecord = 0) :
    rejectedLimitation result = [] ↔ rejectedCount result.executionRecord = 0 := by
  unfold rejectedLimitation
  split
  · unfold rejectedCount
    cases (result.executionRecord.get? "rejected_count").bind Json.asU64 with
    | none => exact ⟨fun _ => rfl, fun _ => rfl⟩
    | some count =>
        dsimp only
        split
        · rename_i positive
          exact ⟨nofun, fun zero => absurd zero positive.ne'⟩
        · rename_i notPositive
          exact ⟨fun _ => Nat.eq_zero_of_not_pos notPositive, fun _ => rfl⟩
  · rename_i other
    exact ⟨fun _ => semgrep other, fun _ => rfl⟩

theorem sameRun_of_success {scanner : Scanner} {limits : RunLimits}
    {input : ScanInput} {findings : List Finding} {extra : List (Text × Json)}
    (entries : SuccessEntries scanner findings extra) (name : Text) :
    SameRun
        (scannerRunRecord name
          (successResult scanner limits input findings extra).executionRecord)
        (canonicalScannerRun
          (successResult scanner limits input findings extra)) ↔
      findings.length < 2 ^ 31 ∧
        rejectedLimitation
          (successResult scanner limits input findings extra) = [] := by
  have known : canonicalStatus (successResult scanner limits input findings extra) =
      if findings.length = 0 then .successClean
      else .successFindings findings.length := rfl
  have counted : ((successResult scanner limits input findings
      extra).executionRecord.get? "finding_count").bind Json.asI64 =
        (unsigned findings.length).asI64 := by
    rw [success_count entries, Option.bind_some]
  have canonicalCount : (canonicalScannerRun (successResult scanner limits input
      findings extra)).findingCount = some findings.length := by
    change (canonicalStatus _).findingCount = _
    rw [known]
    split
    · rename_i none
      rw [none]
      rfl
    · rfl
  have limitations : (canonicalScannerRun (successResult scanner limits input
      findings extra)).limitations =
        rejectedLimitation (successResult scanner limits input findings extra) := by
    change coverageLimitation _ ++ rejectedLimitation _ = _
    have covered : (canonicalStatus
        (successResult scanner limits input findings extra)).coverageKnown = true := by
      rw [known]
      split <;> rfl
    rw [coverageLimitation, covered]
    rfl
  constructor
  · intro same
    refine ⟨?_, limitations ▸ same.limitations.symm⟩
    have count := same.findingCount
    rw [canonicalCount] at count
    change (Option.map _ _).map _ = _ at count
    rw [counted] at count
    exact (int32_of_unsigned _).1 count
  · rintro ⟨fits, unrejected⟩
    have status : recordStatus
        (successResult scanner limits input findings extra).executionRecord =
          _ := status_of_success entries fits
    refine ⟨?_, ?_, ?_, ?_, ?_⟩
    · change recordStatus
        (successResult scanner limits input findings extra).executionRecord =
          (canonicalStatus
            (successResult scanner limits input findings extra)).asStr
      rw [status, known]
      split <;> rfl
    · change (recordStatus _).startsWith "success" = (canonicalStatus _).coverageKnown
      rw [status, known]
      split
      · decide
      · exact (by decide : Text.startsWith "success_findings" "success" = true)
    · rw [canonicalCount]
      change (Option.map _ _).map _ = _
      rw [counted]
      exact (int32_of_unsigned _).2 fits
    · change ((successResult scanner limits input findings
        extra).executionRecord.get? "error").bind Json.asStr =
          statusDetail (canonicalStatus _)
      rw [success_absent entries (by simp [recordBase]) (by decide) (by decide),
        known]
      split <;> rfl
    · rw [limitations, unrejected]
      rfl

/-- A result whose persisted row can say what its canonical run says. -/
def FullySuccessful (result : ScannerResult) : Prop :=
  ∃ count < 2 ^ 31, result.outcome = .success count ∧
    rejectedCount result.executionRecord = 0

theorem rejectedCount_of_other {scanner : Scanner} {limits : RunLimits}
    {input : ScanInput} {findings : List Finding} {extra : List (Text × Json)}
    (absent : ∀ entry ∈ extra, entry.1 ≠ "rejected_count") :
    rejectedCount
      (successResult scanner limits input findings extra).executionRecord = 0 := by
  have missing : (successResult scanner limits input findings
      extra).executionRecord.get? "rejected_count" = none := by
    change (mergeInto (baseRecord scanner limits input) _).get? _ = none
    rw [mergeInto, SortedMap.get?_foldl_insert_of_forall_ne _ _ absent,
      base_absent (by simp [recordBase])]
  rw [rejectedCount, missing]
  rfl

theorem sameRun_iff (produced : Produced result) (name : Text) :
    SameRun (scannerRunRecord name result.executionRecord)
        (canonicalScannerRun result) ↔ FullySuccessful result := by
  cases success : result.outcome.isSuccess with
  | false =>
      constructor
      · exact fun same =>
          absurd same.limitations.symm (limitations_of_failure success)
      · rintro ⟨count, -, outcome, -⟩
        rw [outcome] at success
        cases success
  | true =>
      obtain ⟨scanner, listed, limits, input, findings, extra, entries, rfl⟩ :=
        success_of_produced produced success
      have other : scanner.name ≠ "semgrep" →
          scanner.parser ≠ Scanner.semgrep.parser := by
        simp only [scanners, List.mem_cons, List.not_mem_nil, or_false] at listed
        rcases listed with rfl | rfl | rfl
        · decide
        · decide
        · exact fun different => absurd rfl different
      rw [sameRun_of_success entries, rejectedLimitation_nil_iff fun different =>
        rejectedCount_of_other (entries.rejections (other different))]
      constructor
      · rintro ⟨fits, unrejected⟩
        exact ⟨findings.length, fits, rfl, unrejected⟩
      · rintro ⟨count, fits, outcome, unrejected⟩
        cases outcome
        exact ⟨fits, unrejected⟩

/-- In the rows of an execution, the one of a scanner agrees with the scanner's
canonical run exactly when the run succeeded and rejected nothing. -/
theorem scanner_run_agrees_iff {result : ScannerResult}
    (produced : Produced result) {executionMap : List (Text × Json)}
    (distinct : (executionMap.map Prod.fst).Nodup)
    (stored : (result.scanner, result.executionRecord) ∈ executionMap) :
    (∃ row ∈ scannerRunRecords executionMap, row.scanner = result.scanner ∧
        SameRun row (canonicalScannerRun result)) ↔ FullySuccessful result := by
  rw [← sameRun_iff produced result.scanner]
  constructor
  · rintro ⟨row, member, name, same⟩
    obtain ⟨⟨key, record⟩, kept, rfl⟩ := List.mem_map.1 member
    have inside := (List.mem_filter.1 kept).1
    change key = result.scanner at name
    subst name
    have unique : record = result.executionRecord :=
      congrArg Prod.snd (List.inj_on_of_nodup_map distinct inside stored rfl)
    exact unique ▸ same
  · intro same
    refine ⟨_, List.mem_map.2 ⟨_, List.mem_filter.2 ⟨stored, ?_⟩, rfl⟩, rfl, same⟩
    exact decide_eq_true (scanner_of_produced produced)

end Runs

section Samples

attribute [local instance] FloatFormat.integersOnly

def sampleLimits : RunLimits where
  timeoutSecs := 300
  cpus := unsigned 1
  memory := "512m"
  pidsLimit := 256

def sampleScan : ScanInput where
  commitSha := none
  fileCount := 3
  totalSize := 120

def sampleParsers : ReportParsers where
  gitleaks := fun _ => .ok []
  osv := fun _ => .ok []
  semgrep := fun _ => .error "not a report"

def cleanScan : ScannerResult :=
  execute .gitleaks sampleLimits sampleScan sampleParsers false false
    (.finished ⟨"[]", [], true⟩)

theorem scanner_run_agrees_iff_cleanScan :
    ∃ row ∈ scannerRunRecords [(cleanScan.scanner, cleanScan.executionRecord)],
      row.scanner = cleanScan.scanner ∧
        SameRun row (canonicalScannerRun cleanScan) := by
  have distinct : ([(cleanScan.scanner, cleanScan.executionRecord)].map
      Prod.fst).Nodup := List.nodup_singleton _
  refine (scanner_run_agrees_iff (.secret sampleLimits sampleScan sampleParsers
    false false (.finished ⟨"[]", [], true⟩)) distinct
    (List.mem_singleton_self _)).2 ⟨0, by decide, ?_, ?_⟩
  · decide
  · decide

/-- A run that exceeded its limit. -/
def lateScan : ScannerResult :=
  execute .gitleaks sampleLimits sampleScan sampleParsers false false .timeout

/-- The row of a timeout says `failed`. -/
theorem lateScan_disagrees :
    Produced lateScan ∧
      ¬ ∃ row ∈ scannerRunRecords [(lateScan.scanner, lateScan.executionRecord)],
        row.scanner = lateScan.scanner ∧
          SameRun row (canonicalScannerRun lateScan) := by
  refine ⟨.secret sampleLimits sampleScan sampleParsers false false .timeout, ?_⟩
  rintro ⟨row, member, -, same⟩
  have rows : scannerRunRecords [(lateScan.scanner, lateScan.executionRecord)] =
      [scannerRunRecord lateScan.scanner lateScan.executionRecord] := rfl
  rw [rows, List.mem_singleton] at member
  subst member
  exact absurd same.status (by decide)

end Samples

end FireCrow.Orchestrator
