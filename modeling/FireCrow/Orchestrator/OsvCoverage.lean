import FireCrow.Orchestrator.AdvisoryGate

/-!
# The vulnerabilities of a package

The OSV adapter makes one finding of every group of a package.  A vulnerability
is named by a finding as its rule or among its aliases; one that no group names
is lost.
-/

namespace FireCrow.Orchestrator

open FireCrow.Library FireCrow.Schemas FireCrow.Agents FireCrow.Agents.Osv

section OsvCoverage

variable [FloatFormat] [TextDigest] [UnicodeTables]

/-! ## What a finding names -/

/-- The metadata has the id as its rule or among its aliases. -/
def NamesAdvisory (finding : Finding) (id : Text) : Prop :=
  ∃ metadata, parseMetadata finding = .ok metadata ∧
    (metadata.get? "rule_id" = some (.string id) ∨
      ∃ aliases, metadata.get? "aliases" = some (.array aliases) ∧
        .string id ∈ aliases)

variable (advisory : Advisory)

variable (direct : Option Bool)

omit [UnicodeTables] in
theorem facts_keys : ((advisory.facts direct).map Prod.fst).Nodup := by
  have keys := rowFacts_keys advisory direct ⟨none, 0, 0⟩
  rw [rowFacts, List.map_append] at keys
  exact keys.of_append_left

omit [UnicodeTables] in
theorem get?_metadata {key : Text} {value : Json}
    (member : (key, value) ∈ advisory.facts direct) :
    (advisory.metadata direct).get? key = some value :=
  (Json.get?_ofList_iff (facts_keys advisory direct) key value).2 member

omit [UnicodeTables] in
theorem get?_metadata_rule :
    (advisory.metadata direct).get? "rule_id" =
      some (.string advisory.primary) := by
  apply get?_metadata
  exact List.mem_append_left _ List.mem_cons_self

omit [UnicodeTables] in
theorem get?_metadata_aliases :
    (advisory.metadata direct).get? "aliases" =
      some (.array (advisory.aliases.map .string)) := by
  apply get?_metadata
  apply List.mem_append_left
  exact List.mem_cons_of_mem _ (List.mem_cons_of_mem _ List.mem_cons_self)

variable (tree : SourceTree)

theorem parseMetadata_osvGroupFinding (id : Text) (advisory : Advisory) :
    parseMetadata (osvGroupFinding tree id advisory) =
      .ok (advisory.metadata
        (osvDirectness tree advisory.manifest advisory.package.name)) := by
  have read := (Json.stableMap_ofList (facts_stable advisory
    (osvDirectness tree advisory.manifest
      advisory.package.name))).object.parse_render
  rw [osvGroupFinding, parseMetadata, Option.getD_some, Advisory.metadata, read]
  simp only [SortedMap.ofList_entries]

theorem names_iff (id : Text) (advisory : Advisory) (other : Text) :
    NamesAdvisory (osvGroupFinding tree id advisory) other ↔
      other = advisory.primary ∨ other ∈ advisory.aliases := by
  constructor
  · rintro ⟨metadata, parsed, named⟩
    rw [parseMetadata_osvGroupFinding] at parsed
    cases parsed
    rcases named with rule | ⟨aliases, found, member⟩
    · rw [get?_metadata_rule, Option.some.injEq, Json.string.injEq] at rule
      exact .inl rule.symm
    · rw [get?_metadata_aliases, Option.some.injEq, Json.array.injEq] at found
      subst found
      obtain ⟨text, inside, same⟩ := List.mem_map.1 member
      cases same
      exact .inr inside
  · intro named
    refine ⟨_, parseMetadata_osvGroupFinding tree id advisory, ?_⟩
    rcases named with rfl | inside
    · exact .inl (get?_metadata_rule advisory _)
    · exact .inr ⟨_, get?_metadata_aliases advisory _,
        List.mem_map_of_mem inside⟩

omit [TextDigest] [UnicodeTables] in
theorem mem_aliases_iff (other : Text) :
    other ∈ advisory.aliases ↔
      (other ∈ advisory.ids.drop 1 ∨
        ∃ record ∈ advisory.records, other ∈ record.aliases) ∧
      other ≠ advisory.primary ∧ other.isBlank = false := by
  rw [Advisory.aliases, mem_destutter_ne, mem_sortBy, List.mem_filter,
    List.mem_append, List.mem_flatMap]
  simp

/-! ## Coverage -/

/-- A finding names the first id of a group, and all that are not blank. -/
def CoversGroup (finding : Finding) (group : List Text) : Prop :=
  NamesAdvisory finding (group.head?.getD []) ∧
    ∀ id ∈ group, id.isBlank = false → NamesAdvisory finding id

/-- Every vulnerability is named, and every group has a finding of its own. -/
structure CoversPackage (findings : List Finding) (result : OsvPackageResult) :
    Prop where
  named : ∀ vuln ∈ result.vulnerabilities,
    ∃ finding ∈ findings, NamesAdvisory finding vuln.id
  paired : List.Forall₂ CoversGroup findings (osvGroups result)

/-- The report groups the id, or has no groups: the id comes first in a group,
or is not blank and stands later in one or among the aliases of a record that
the group lists. -/
def Grouped (result : OsvPackageResult) (id : Text) : Prop :=
  result.groups = [] ∨ ∃ group ∈ result.groups,
    id = group.head?.getD [] ∨
      id.isBlank = false ∧ (id ∈ group.drop 1 ∨
        ∃ other ∈ group, ∃ record, vulnById result other = some record ∧
          id ∈ record.aliases)

/-- The advisory of a group. -/
def advisoryOf (manifest : Text) (result : OsvPackageResult)
    (group : List Text) : Advisory where
  ids := group
  records := group.filterMap (vulnById result)
  package := result.package
  manifest := manifest

theorem mem_osvPackageFindings (ids : Nat → Text)
    (manifest : Text) (result : OsvPackageResult) (other : Text) :
    (∃ finding ∈ osvPackageFindings tree ids manifest result,
        NamesAdvisory finding other) ↔
      ∃ group ∈ osvGroups result,
        other = (advisoryOf manifest result group).primary ∨
          other ∈ (advisoryOf manifest result group).aliases := by
  constructor
  · rintro ⟨finding, member, named⟩
    rw [osvPackageFindings, List.mem_mapIdx] at member
    obtain ⟨index, bound, rfl⟩ := member
    obtain ⟨group, inside, same⟩ := List.mem_map.1 (List.getElem_mem bound)
    rw [← same] at named
    exact ⟨group, inside, (names_iff _ _ _ _).1 named⟩
  · rintro ⟨group, inside, named⟩
    obtain ⟨index, bound, same⟩ := List.getElem_of_mem inside
    have listed : index < (osvAdvisories manifest result).length := by
      rw [osvAdvisories, List.length_map]
      exact bound
    refine ⟨osvGroupFinding tree (ids index)
      (osvAdvisories manifest result)[index], ?_, ?_⟩
    · rw [osvPackageFindings, List.mem_mapIdx]
      exact ⟨index, listed, rfl⟩
    · rw [names_iff]
      simp only [osvAdvisories, List.getElem_map, same]
      exact named

omit [TextDigest] [UnicodeTables] in
/-- Without groups every vulnerability has its own finding. -/
theorem grouped_iff (manifest : Text) (result : OsvPackageResult)
    {vuln : OsvVuln} (listed : vuln ∈ result.vulnerabilities) :
    Grouped result vuln.id ↔ ∃ group ∈ osvGroups result,
      vuln.id = (advisoryOf manifest result group).primary ∨
        vuln.id ∈ (advisoryOf manifest result group).aliases := by
  rw [osvGroups]
  split
  · rename_i none
    constructor
    · intro _
      exact ⟨[vuln.id], List.mem_map_of_mem listed, .inl rfl⟩
    · exact fun _ => .inl none
  · rename_i present
    rw [Grouped, or_iff_right present]
    apply exists_congr
    intro group
    apply and_congr_right
    intro _
    rw [mem_aliases_iff]
    have records : (∃ record ∈ (advisoryOf manifest result group).records,
        vuln.id ∈ record.aliases) ↔ ∃ other ∈ group, ∃ record,
          vulnById result other = some record ∧ vuln.id ∈ record.aliases := by
      simp only [advisoryOf, List.mem_filterMap]
      constructor
      · rintro ⟨record, ⟨other, inside, found⟩, named⟩
        exact ⟨other, inside, record, found, named⟩
      · rintro ⟨other, inside, record, found, named⟩
        exact ⟨record, ⟨other, inside, found⟩, named⟩
    rw [records]
    change vuln.id = (advisoryOf manifest result group).primary ∨ _ ↔ _
    constructor
    · rintro (first | ⟨shown, later⟩)
      · exact .inl first
      · by_cases first : vuln.id = (advisoryOf manifest result group).primary
        · exact .inl first
        · exact .inr ⟨later, first, shown⟩
    · rintro (first | ⟨later, _, shown⟩)
      · exact .inl first
      · exact .inr ⟨shown, later⟩

theorem coversGroup (id manifest : Text)
    (result : OsvPackageResult) (group : List Text) :
    CoversGroup (osvGroupFinding tree id (advisoryOf manifest result group))
      group := by
  constructor
  · exact (names_iff _ _ _ _).2 (.inl rfl)
  · intro other inside shown
    rw [names_iff]
    by_cases first : other = (advisoryOf manifest result group).primary
    · exact .inl first
    · right
      rw [mem_aliases_iff]
      refine ⟨.inl ?_, first, shown⟩
      cases group with
      | nil => cases inside
      | cons head rest =>
          rcases List.mem_cons.1 inside with rfl | later
          · exact absurd rfl first
          · exact later

/-- No vulnerability of a package is lost exactly when the report groups each
of them, or groups none. -/
theorem vulnerabilities_covered_iff (tree : SourceTree) (ids : Nat → Text)
    (manifest : Text) (result : OsvPackageResult) :
    CoversPackage (osvPackageFindings tree ids manifest result) result ↔
      ∀ vuln ∈ result.vulnerabilities, Grouped result vuln.id := by
  constructor
  · intro covers vuln listed
    rw [grouped_iff manifest result listed,
      ← mem_osvPackageFindings tree ids manifest]
    exact covers.named vuln listed
  · intro grouped
    constructor
    · intro vuln listed
      rw [mem_osvPackageFindings, ← grouped_iff manifest result listed]
      exact grouped vuln listed
    · rw [List.forall₂_iff_get]
      refine ⟨?_, ?_⟩
      · simp [osvPackageFindings, osvAdvisories]
      · intro index bound listed
        have made : (osvPackageFindings tree ids manifest result).get
            ⟨index, bound⟩ = osvGroupFinding tree (ids index)
              (advisoryOf manifest result
                ((osvGroups result).get ⟨index, listed⟩)) := by
          simp only [osvPackageFindings, osvAdvisories, List.get_eq_getElem,
            List.getElem_mapIdx, List.getElem_map]
          rfl
        rw [made]
        exact coversGroup tree (ids index) manifest result _

end OsvCoverage

section Samples

attribute [local instance] FloatFormat.integersOnly TextDigest.sha256
  UnicodeTables.ascii

def ungrouped : OsvVuln where
  id := "GHSA-xxxx-yyyy-zzzz"
  aliases := []
  summary := "Weak key"
  affected := []
  references := []
  databaseSpecific := .null

/-- A report that groups one of two vulnerabilities. -/
def halfGrouped : OsvPackageResult :=
  { jjwtResult with
    vulnerabilities := jjwtResult.vulnerabilities ++ [ungrouped] }

/-- The other vulnerability is lost. -/
theorem halfGrouped_lost :
    ¬ ∀ (tree : SourceTree) (ids : Nat → Text) (manifest : Text)
      (result : OsvPackageResult),
      CoversPackage (osvPackageFindings tree ids manifest result) result := by
  intro claim
  have covers := claim emptyTree (fun _ => "row") "pom.xml" halfGrouped
  have listed : ungrouped ∈ halfGrouped.vulnerabilities :=
    List.mem_append_right _ (List.mem_singleton.2 rfl)
  have named := covers.named ungrouped listed
  rw [mem_osvPackageFindings] at named
  obtain ⟨group, inside, named⟩ := named
  obtain rfl : group = [("GHSA-q9fj-7rqw-4x8h" : Text)] :=
    List.mem_singleton.1 inside
  rcases named with first | other
  · have same : ("GHSA-xxxx-yyyy-zzzz" : Text) =
        ("GHSA-q9fj-7rqw-4x8h" : Text) := first
    exact absurd same (by decide)
  · have none : (advisoryOf "pom.xml" halfGrouped
        [("GHSA-q9fj-7rqw-4x8h" : Text)]).aliases = [] := by
      decide +kernel
    rw [none] at other
    cases other

end Samples

end FireCrow.Orchestrator
