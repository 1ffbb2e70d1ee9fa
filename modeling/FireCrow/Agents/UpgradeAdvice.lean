import FireCrow.Agents.Osv

/-!
# The version to upgrade to

An advisory lists the versions that fix a package, sorted as texts, and the
finding names the first of them.  The installed version has no part in the
choice.
-/

namespace FireCrow.Agents.Osv

open FireCrow.Library FireCrow.Schemas

/-! ## Versions -/

/-- The numbers of a version in dotted form. -/
def versionNumbers (version : Text) : Option (List Nat) :=
  (version.splitOn '.').mapM fun part =>
    if part ≠ [] ∧ ∀ character ∈ part, Text.isAsciiDigit character = true then
      some (Text.fromDigits 10 part)
    else none

/-- The first number that differs is greater; a missing one counts as zero. -/
def laterNumbers : List Nat → List Nat → Bool
  | [], _ => false
  | number :: numbers, [] => number ≠ 0 || laterNumbers numbers []
  | number :: numbers, other :: others =>
      other < number || (number = other && laterNumbers numbers others)

/-- Both are in dotted form and the first is greater in version order. -/
def Later (version other : Text) : Prop :=
  ∃ numbers others, versionNumbers version = some numbers ∧
    versionNumbers other = some others ∧ laterNumbers numbers others = true

/-! ## What is recommended -/

theorem mem_foldl_unrepeated {version : Text} (versions : List Text) :
    ∀ fixed : List Text,
      version ∈ versions.foldl
        (fun fixed version =>
          if version ≠ [] ∧ version ∉ fixed then fixed ++ [version] else fixed)
        fixed ↔
        version ∈ fixed ∨ (version ∈ versions ∧ version ≠ []) := by
  induction versions with
  | nil => simp
  | cons next versions inductionHypothesis =>
    intro fixed
    rw [List.foldl_cons, inductionHypothesis]
    split
    case isTrue new =>
      simp only [List.mem_append, List.mem_cons, List.not_mem_nil, or_false]
      constructor
      · rintro ((old | same) | later)
        · exact .inl old
        · exact .inr ⟨.inl same, same ▸ new.1⟩
        · exact .inr ⟨.inr later.1, later.2⟩
      · rintro (old | ⟨same | later, nonempty⟩)
        · exact .inl (.inl old)
        · exact .inl (.inr same)
        · exact .inr ⟨later, nonempty⟩
    case isFalse known =>
      simp only [List.mem_cons]
      constructor
      · rintro (old | later)
        · exact .inl old
        · exact .inr ⟨.inr later.1, later.2⟩
      · rintro (old | ⟨same | later, nonempty⟩)
        · exact .inl old
        · by_contra neither
          exact known ⟨same ▸ nonempty, fun member => neither (.inl (same ▸ member))⟩
        · exact .inr ⟨later, nonempty⟩

theorem middle_injective {opening name marker one other ending path last : Text}
    (same : opening ++ name ++ marker ++ one ++ ending ++ path ++ last =
      opening ++ name ++ marker ++ other ++ ending ++ path ++ last) :
    one = other := by
  simpa using same

theorem openings_differ (first second : Char)
    {opening other one two three four five six seven last : Text}
    (opens : opening.head? = some first)
    (opensOther : other.head? = some second) (different : first ≠ second) :
    opening ++ one ++ two ≠
      other ++ three ++ four ++ five ++ six ++ seven ++ last := by
  intro same
  have heads := congrArg List.head? same
  simp only [List.append_assoc, List.head?_append, opens, opensOther,
    Option.some_or, Option.some.injEq] at heads
  exact different heads

section Advice

variable [FloatFormat]

namespace Advisory

/-- A record gives the version as fixed in an entry about the package. -/
def Fixes (advisory : Advisory) (version : Text) : Prop :=
  version ≠ [] ∧ ∃ record ∈ advisory.records, ∃ entry ∈ record.affected,
    (entry.package = [] ∨ entry.package = advisory.package.name) ∧
      ∃ range ∈ entry.ranges, ∃ event ∈ range.events, event.fixed = some version

/-- The remediation that names a version. -/
def upgradeTo (advisory : Advisory) (version : Text) : Text :=
  ("Upgrade " : Text) ++ advisory.package.name ++
    (" to version " : Text) ++ version ++
    (" or later (declared in " : Text) ++ advisory.manifest ++
    ("), then re-lock and rescan." : Text)

end Advisory

namespace Advisory

variable {advisory : Advisory} {version : Text}

theorem mem_fixed : version ∈ advisory.fixed ↔ advisory.Fixes version := by
  rw [fixed, osvFixed, mem_sortBy, mem_foldl_unrepeated]
  simp only [List.not_mem_nil, false_or, affectedEntries, List.mem_flatMap,
    List.mem_filter, List.mem_filterMap, Bool.or_eq_true, decide_eq_true_eq, Fixes]
  constructor
  · rintro ⟨⟨range, ⟨entry, ⟨⟨record, recorded, member⟩, about⟩, ranged⟩, event,
      evented, same⟩, nonempty⟩
    exact ⟨nonempty, record, recorded, entry, member, about, range, ranged, event,
      evented, same⟩
  · rintro ⟨nonempty, record, recorded, entry, member, about, range, ranged, event,
      evented, same⟩
    exact ⟨⟨range, ⟨entry, ⟨⟨record, recorded, member⟩, about⟩, ranged⟩, event,
      evented, same⟩, nonempty⟩

/-- The first fixed version is the least as a text. -/
theorem head_fixed :
    advisory.fixed.head? = some version ↔
      advisory.Fixes version ∧ ∀ other, advisory.Fixes other → version ≤ other := by
  have sorted : advisory.fixed.Pairwise (· ≤ ·) := pairwise_sortBy id _
  simp only [← mem_fixed]
  cases listed : advisory.fixed with
  | nil => simp
  | cons first rest =>
    rw [listed] at sorted
    have least := (List.pairwise_cons.mp sorted).1
    rw [List.head?_cons, Option.some.injEq]
    constructor
    · intro same
      subst same
      refine ⟨List.mem_cons_self, fun other member => ?_⟩
      rcases List.mem_cons.mp member with same | later
      · exact le_of_eq same.symm
      · exact least other later
    · rintro ⟨member, below⟩
      rcases List.mem_cons.mp member with same | later
      · exact same.symm
      · exact le_antisymm (least version later) (below first List.mem_cons_self)

theorem upgradeTo_injective {other : Text}
    (same : advisory.upgradeTo version = advisory.upgradeTo other) :
    version = other := by
  exact middle_injective same

theorem remediation_eq_upgradeTo :
    advisory.remediation = advisory.upgradeTo version ↔
      advisory.fixed.head? = some version := by
  rw [remediation]
  cases listed : advisory.fixed with
  | nil =>
    simp only [List.head?_nil, reduceCtorEq, iff_false]
    exact openings_differ 'N' 'U' rfl rfl (by decide)
  | cons first rest =>
    simp only [List.head?_cons, Option.some.injEq]
    exact ⟨fun same => upgradeTo_injective same, fun same => same ▸ rfl⟩

end Advisory

variable [TextDigest] [UnicodeTables]

/-- The finding of an advisory tells to upgrade to the version. -/
def Recommends (tree : SourceTree) (id : Text) (advisory : Advisory)
    (version : Text) : Prop :=
  (osvGroupFinding tree id advisory).remediation =
    some (advisory.upgradeTo version)

/-- Whatever version the findings of a package recommend fixes the package and
is later than the installed one; where no such version is later, none is
recommended. -/
def AdviceSound (tree : SourceTree) (id manifest : Text)
    (result : OsvPackageResult) : Prop :=
  ∀ advisory ∈ osvAdvisories manifest result,
    (∀ version, Recommends tree id advisory version →
      advisory.Fixes version ∧ Later version result.package.version) ∧
    ((∀ version, advisory.Fixes version →
        ¬ Later version result.package.version) →
      ∀ version, ¬ Recommends tree id advisory version)

theorem recommends_iff (tree : SourceTree) (id : Text) (advisory : Advisory)
    (version : Text) :
    Recommends tree id advisory version ↔
      advisory.Fixes version ∧ ∀ other, advisory.Fixes other → version ≤ other := by
  rw [← Advisory.head_fixed, ← Advisory.remediation_eq_upgradeTo]
  exact Option.some_inj

theorem adviceSound_rules (tree : SourceTree) (id manifest : Text)
    (result : OsvPackageResult) :
    AdviceSound tree id manifest result ↔
      ∀ advisory ∈ osvAdvisories manifest result, ∀ version,
        advisory.Fixes version →
          (∀ other, advisory.Fixes other → version ≤ other) →
            Later version result.package.version := by
  refine forall₂_congr fun advisory _ => ?_
  simp only [recommends_iff]
  constructor
  · rintro ⟨sound, _⟩ version fixes least
    exact (sound version ⟨fixes, least⟩).2
  · intro later
    refine ⟨fun version first => ⟨first.1, later version first.1 first.2⟩, ?_⟩
    intro none version first
    exact none version first.1 (later version first.1 first.2)

/-- The advice is sound exactly where the fixed version that comes first as a
text is later than the installed one. -/
theorem advice_sound_iff (tree : SourceTree) (id manifest : Text)
    (result : OsvPackageResult) :
    AdviceSound tree id manifest result ↔
      ∀ advisory ∈ osvAdvisories manifest result, ∀ version,
        advisory.Fixes version →
          (∀ other, advisory.Fixes other → version ≤ other) →
            Later version result.package.version :=
  adviceSound_rules tree id manifest result

end Advice

/-! ## A fix of an older branch -/

section Branches

attribute [local instance] FloatFormat.integersOnly TextDigest.sha256
  UnicodeTables.ascii

def fixedIn (version : Text) : OsvRange where
  rangeType := "SEMVER"
  events := [{
    introduced := "0"
    fixed := some version
    lastAffected := none
    limit := none
  }]

/-- A package of the second branch, and an advisory that is fixed in both. -/
def branchesResult : OsvPackageResult where
  package := { name := "lib", version := "2.5.0", ecosystem := "npm" }
  vulnerabilities := [{
    id := "GHSA-1"
    aliases := []
    summary := []
    affected := [{ package := "lib", ranges := [fixedIn "2.6.0", fixedIn "1.9.3"] }]
    references := []
    databaseSpecific := .null
  }]
  groups := []

theorem fits_of_unread (text : Text) (read : none = some text) :
    text.byteLen ≤ Fetch.maxFileBytes := by
  cases read

/-- A snapshot without files. -/
def bareTree : SourceTree where
  name := none
  readToString _ := none
  fits _ := fits_of_unread

def branchesAdvisory : Advisory where
  ids := ["GHSA-1"]
  records := branchesResult.vulnerabilities
  package := branchesResult.package
  manifest := "package-lock.json"

theorem osvAdvisories_branchesResult :
    osvAdvisories "package-lock.json" branchesResult = [branchesAdvisory] := rfl

theorem fixed_branchesAdvisory :
    branchesAdvisory.fixed = [("1.9.3" : Text), ("2.6.0" : Text)] := by
  decide +kernel

/-- To a package at 2.5.0 the upgrade to 1.9.3 is recommended. -/
theorem older_branch_recommended :
    ¬ AdviceSound bareTree "row" "package-lock.json" branchesResult := by
  intro sound
  have member : branchesAdvisory ∈
      osvAdvisories "package-lock.json" branchesResult := by
    rw [osvAdvisories_branchesResult]
    exact List.mem_singleton_self _
  have recommended : Recommends bareTree "row" branchesAdvisory ("1.9.3" : Text) := by
    rw [recommends_iff, ← Advisory.head_fixed, fixed_branchesAdvisory]
    rfl
  rcases ((sound _ member).1 _ recommended).2 with
    ⟨numbers, others, reads, installed, later⟩
  have first : versionNumbers ("1.9.3" : Text) = some [1, 9, 3] := by
    decide +kernel
  have second : versionNumbers branchesResult.package.version = some [2, 5, 0] := by
    decide +kernel
  rw [first] at reads
  rw [second] at installed
  cases reads
  cases installed
  exact absurd later (by decide)

end Branches

end FireCrow.Agents.Osv
