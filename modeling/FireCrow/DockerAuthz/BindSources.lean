import FireCrow.Agents.ScannerSpecs
import FireCrow.DockerAuthz.Decisions
import FireCrow.Library.JsonRoundTrip

/-!
# Bind sources

Both deny checks compare a canonical path with the trees of a list: a path is
denied when it is in a tree.  The opposite, a path that has a denied tree
inside, is denied only for the root.
-/

namespace FireCrow.DockerAuthz

open FireCrow.Library FireCrow.Services Paths

/-- The components of the trees that a list of paths denies. -/
def treesOf (denied : List Text) : List (List Text) :=
  (denied.map normalize).filter (· ≠ [])

/-- The trees that both code bases deny. -/
def sandboxTrees : List (List Text) := treesOf deniedPrefixes

/-- The trees that the plugin alone denies. -/
def pluginTrees : List (List Text) := treesOf deniedHostPrefixes \ sandboxTrees

/-- Every tree of the two deny lists. -/
def deniedTrees : List (List Text) :=
  treesOf (deniedHostExact ++ deniedHostPrefixes ++ deniedExact ++
    deniedPrefixes)

/-- Neither path is the other or inside it. -/
structure Apart (parts tree : List Text) : Prop where
  outside : ¬ tree <+: parts
  notAbove : ¬ parts <+: tree

/-- A path that shows no denied tree. -/
def ApartFromDenied (path : Text) : Prop :=
  ∀ tree ∈ deniedTrees, Apart (normalize path) tree

/-- The directories that are above a denied tree, and not in one. -/
def ancestors : List (List Text) := [["var"], ["var", "lib"]]

/-! ## The deny checks on components -/

/-- A directory of a deny list, as it is spelled there. -/
structure Spelled (opening : Text) (tree : List Text) : Prop where
  plain : ∀ part ∈ tree, Plain part
  nonempty : tree ≠ []
  opening_eq : opening = render tree ++ ['/']
  trimmed : opening.rdropWhile (· = '/') = render tree

theorem Spelled.inside_iff {opening : Text} {tree : List Text}
    (spelled : Spelled opening tree) (path : Text) :
    canonical path = opening.rdropWhile (· = '/') ∨
        (canonical path).startsWith opening = true ↔
      tree <+: normalize path := by
  have plain := normalize_plain path
  rw [spelled.trimmed, spelled.opening_eq, canonical,
    startsWith_render_iff spelled.plain plain spelled.nonempty]
  constructor
  · rintro (same | ⟨inside, -⟩)
    · rw [render_injective plain spelled.plain same]
    · exact inside
  · intro inside
    by_cases same : tree = normalize path
    · exact Or.inl (congrArg render same.symm)
    · exact Or.inr ⟨inside, same⟩

/-- The spelling of a deny list as a computation. -/
def spells (opening : Text) : Bool :=
  let tree := normalize opening
  tree ≠ [] && opening = render tree ++ ['/'] &&
    opening.rdropWhile (· = '/') = render tree

theorem spelled_of_spells {opening : Text} (spelled : spells opening = true) :
    Spelled opening (normalize opening) := by
  simp only [spells, Bool.and_eq_true, decide_eq_true_eq] at spelled
  exact ⟨normalize_plain opening, spelled.1.1, spelled.1.2, spelled.2⟩

/-- A path is denied by a list when it is in one of its trees. -/
theorem denied_iff {openings : List Text}
    (spelled : ∀ opening ∈ openings, spells opening = true) (path : Text) :
    (∃ opening ∈ openings, canonical path = opening.rdropWhile (· = '/') ∨
        (canonical path).startsWith opening = true) ↔
      ∃ tree ∈ treesOf openings, tree <+: normalize path := by
  simp only [treesOf, List.mem_filter, List.mem_map, decide_eq_true_eq]
  constructor
  · rintro ⟨opening, listed, denied⟩
    have form := spelled_of_spells (spelled opening listed)
    exact ⟨normalize opening, ⟨⟨opening, listed, rfl⟩, form.nonempty⟩,
      (form.inside_iff path).1 denied⟩
  · rintro ⟨tree, ⟨⟨opening, listed, rfl⟩, -⟩, inside⟩
    exact ⟨opening, listed,
      ((spelled_of_spells (spelled opening listed)).inside_iff path).2 inside⟩

theorem canonical_eq_root_iff (path : Text) :
    canonical path = ['/'] ↔ normalize path = [] := by
  constructor
  · intro root
    exact render_injective (normalize_plain path) nofun root
  · intro root
    rw [canonical, root]
    rfl

theorem deniedPrefixes_spelled :
    ∀ opening ∈ deniedPrefixes, spells opening = true := by decide

theorem deniedHostPrefixes_spelled :
    ∀ opening ∈ deniedHostPrefixes, spells opening = true := by decide

/-! ## What the two checks accept -/

/-- A path that is outside the trees that both code bases deny. -/
structure Observable (path : Text) : Prop where
  belowRoot : normalize path ≠ []
  outside : ∀ tree ∈ sandboxTrees, ¬ tree <+: normalize path

variable {path : Text}

theorem observable_of_sandbox
    (accepted : rejectSensitiveHostPath path = .ok ()) : Observable path := by
  rw [rejectSensitiveHostPath, Result.then_eq_ok] at accepted
  obtain ⟨-, accepted⟩ := accepted
  rw [Result.refuseIf_eq_ok, not_or] at accepted
  obtain ⟨exact, prefixes⟩ := accepted
  refine ⟨fun root => exact ?_, fun tree listed inside => prefixes ?_⟩
  · rw [FireCrow.Services.canonicalHostPath,
      (canonical_eq_root_iff path).2 root]
    exact List.mem_cons_self
  · obtain ⟨opening, denied, spelled⟩ :=
      (denied_iff deniedPrefixes_spelled path).2
        ⟨tree, listed, inside⟩
    refine List.any_eq_true.2 ⟨opening, denied, ?_⟩
    rw [FireCrow.Services.canonicalHostPath, Bool.or_eq_true,
      decide_eq_true_eq]
    exact spelled.symm

theorem outside_of_plugin (accepted : hostSourceDenied path = false) :
    normalize path ≠ [] ∧
      ∀ tree ∈ treesOf deniedHostPrefixes, ¬ tree <+: normalize path := by
  unfold hostSourceDenied at accepted
  split at accepted
  · cases accepted
  · rw [Bool.or_eq_false_iff, decide_eq_false_iff_not] at accepted
    obtain ⟨exact, prefixes⟩ := accepted
    refine ⟨fun root => exact ?_, fun tree listed inside => ?_⟩
    · rw [canonicalHostPath, (canonical_eq_root_iff path).2 root]
      exact List.mem_cons_self
    · obtain ⟨opening, denied, spelled⟩ :=
        (denied_iff deniedHostPrefixes_spelled path).2
          ⟨tree, listed, inside⟩
      refine absurd prefixes (Bool.not_eq_false _ ▸ ?_)
      refine List.any_eq_true.2 ⟨opening, denied, ?_⟩
      rw [canonicalHostPath, Bool.or_eq_true, decide_eq_true_eq]
      exact spelled

theorem sandboxTrees_subset :
    ∀ tree ∈ sandboxTrees, tree ∈ treesOf deniedHostPrefixes := by decide

theorem pluginTrees_subset :
    ∀ tree ∈ pluginTrees, tree ∈ treesOf deniedHostPrefixes := by decide

theorem observable_of_plugin
    (accepted : hostSourceDenied path = false) : Observable path where
  belowRoot := (outside_of_plugin accepted).1
  outside := fun tree listed =>
    (outside_of_plugin accepted).2 tree (sandboxTrees_subset tree listed)

theorem mem_trees_of_deniedHostPrefixes :
    ∀ tree ∈ treesOf deniedHostPrefixes,
      tree ∈ sandboxTrees ∨ tree ∈ pluginTrees := by decide

/-- The exact paths of the list are the root or in a tree of both lists. -/
theorem deniedHostExact_covered :
    ∀ path ∈ deniedHostExact, render (normalize path) = path ∧
      (normalize path = [] ∨
        ∃ tree ∈ sandboxTrees, tree <+: normalize path) := by decide

/-- On a path that the sandbox layer accepts, the plugin looks for its own
trees only. -/
theorem hostSourceDenied_iff
    (absolute : path.startsWith "/" = true) (observable : Observable path) :
    hostSourceDenied path = false ↔
      ∀ tree ∈ pluginTrees, ¬ tree <+: normalize path := by
  refine ⟨fun accepted tree listed => (outside_of_plugin accepted).2 tree
    (pluginTrees_subset tree listed), fun outside => ?_⟩
  have notExact : canonicalHostPath path ∉ deniedHostExact := by
    intro listed
    obtain ⟨spelled, covered⟩ := deniedHostExact_covered _ listed
    have same : normalize (canonicalHostPath path) = normalize path :=
      render_injective (normalize_plain _) (normalize_plain path) spelled
    rw [same] at covered
    rcases covered with root | ⟨tree, known, inside⟩
    · exact observable.belowRoot root
    · exact observable.outside tree known inside
  have notInside :
      insidePrefix deniedHostPrefixes (canonicalHostPath path) = false := by
    refine Bool.eq_false_of_not_eq_true fun inside => ?_
    obtain ⟨opening, denied, spelled⟩ := List.any_eq_true.1 inside
    rw [canonicalHostPath, Bool.or_eq_true, decide_eq_true_eq] at spelled
    obtain ⟨tree, listed, prefixed⟩ :=
      (denied_iff deniedHostPrefixes_spelled path).1 ⟨opening, denied, spelled⟩
    rcases mem_trees_of_deniedHostPrefixes tree listed with both | plugin
    · exact observable.outside tree both prefixed
    · exact outside tree plugin prefixed
  rw [hostSourceDenied, if_neg (by rw [absolute]; nofun)]
  exact Bool.or_eq_false_iff.2 ⟨decide_eq_false notExact, notInside⟩

/-! ## Containment -/

/-- Each denied tree is in one that a check reads. -/
theorem covered_of_mem_deniedTrees :
    ∀ tree ∈ deniedTrees, ∃ covering ∈ sandboxTrees ++ pluginTrees,
      covering <+: tree := by decide

/-- What is above a denied tree is the root, a known ancestor or itself in a
denied tree. -/
theorem above_of_mem_deniedTrees :
    ∀ tree ∈ deniedTrees, ∀ parts ∈ tree.inits,
      parts = [] ∨ parts ∈ ancestors ∨
        ∃ covering ∈ sandboxTrees ++ pluginTrees, covering <+: parts := by
  decide

theorem above_ancestors :
    ∀ parts ∈ ancestors, ∃ tree ∈ deniedTrees, parts <+: tree := by decide

theorem pluginTrees_denied : ∀ tree ∈ pluginTrees, tree ∈ deniedTrees := by
  decide

/-! ## Sources of the two layers -/

section Sources

variable [FloatFormat] [BinaryFloat]

/-- A host path that a layer accepts as the source of a bind. -/
inductive AcceptedSource (path : Text) : Prop where
  | sandbox (spec : SandboxSpec) (mount : SandboxMount)
      (valid : validateSpec spec = .ok ())
      (approved : enforceExecutionPolicy spec = .ok ())
      (member : mount ∈ spec.mounts) (source : mount.hostPath = path)
  | plugin (request : AuthzRequest) (body bind : Text)
      (members : List (Text × Json)) (binds : List Json)
      (allowed : (createPolicy request).allow = true)
      (body_eq : request.body = some body)
      (parsed : Json.parse body = some (.object members))
      (field : hostField (.object members) "Binds" = some (.array binds))
      (member : .string bind ∈ binds)
      (source : (bind.splitOn ':').head? = some path)

omit [FloatFormat] in
theorem rejectSensitiveHostPath_of_enforced {spec : SandboxSpec}
    (approved : enforceExecutionPolicy spec = .ok ()) :
    ∀ mount ∈ spec.mounts, rejectSensitiveHostPath mount.hostPath = .ok () := by
  simp only [enforceExecutionPolicy, Result.then_eq_ok,
    Result.forM_eq_ok] at approved
  exact approved.2.2.1

omit [BinaryFloat] in
theorem checkBind_of_allowed {request : AuthzRequest} {body : Text}
    {members : List (Text × Json)}
    (allowed : (createPolicy request).allow = true)
    (body_eq : request.body = some body)
    (parsed : Json.parse body = some (.object members)) {binds : List Json}
    (field : hostField (.object members) "Binds" = some (.array binds)) :
    ∀ bind ∈ binds, checkBindEntry bind = .ok () := by
  obtain ⟨text, read, passed⟩ := (createPolicy_allow_iff request).1 allowed
  rw [passed.body_eq, Option.some.injEq] at body_eq
  rw [← body_eq, passed.parsed, Option.some.injEq, Json.object.injEq] at parsed
  have checked := ((checkFields_eq_ok _).1 passed.fields).binds
  rw [parsed, bindsField, field] at checked
  exact (Result.forM_eq_ok _ _).1 checked

omit [FloatFormat] [BinaryFloat] in
theorem head_of_bindParts {bind host container opts : Text}
    (parts : bindParts bind = some (host, container, opts)) :
    (bind.splitOn ':').head? = some host := by
  unfold bindParts at parts
  split at parts
  case h_4 => cases parts
  all_goals
    rename_i same
    rw [same]
    cases parts
    rfl

omit [FloatFormat] [BinaryFloat] in
theorem hostSourceDenied_of_checkBind {bind path : Text}
    (passed : checkBind bind = .ok ())
    (source : (bind.splitOn ':').head? = some path) :
    hostSourceDenied path = false := by
  unfold checkBind at passed
  split at passed
  · cases passed
  · rename_i host container opts parts
    rw [head_of_bindParts parts, Option.some.injEq] at source
    obtain ⟨-, passed⟩ := (Result.then_eq_ok _ _ _).1 passed
    obtain ⟨observable, -⟩ := (Result.then_eq_ok _ _ _).1 passed
    rw [← source]
    exact Bool.eq_false_of_not_eq_true ((Result.refuseIf_eq_ok _ _ _).1 observable)

theorem AcceptedSource.observable {path : Text}
    (accepted : AcceptedSource path) : Observable path := by
  cases accepted with
  | sandbox spec mount valid approved member source =>
      exact source ▸ observable_of_sandbox
        (rejectSensitiveHostPath_of_enforced approved mount member)
  | plugin request body bind members binds allowed body_eq parsed field member
      source =>
      exact observable_of_plugin (hostSourceDenied_of_checkBind
        (checkBind_of_allowed allowed body_eq parsed field _ member) source)

/-- An accepted source shows no denied tree exactly when it is not one of the
two directories above them, and not in a tree that the plugin alone denies. -/
theorem bind_source_apart_iff {path : Text} (accepted : AcceptedSource path) :
    ApartFromDenied path ↔
      normalize path ∉ ancestors ∧
        ∀ tree ∈ pluginTrees, ¬ tree <+: normalize path := by
  have observable := accepted.observable
  constructor
  · intro apart
    refine ⟨fun above => ?_, fun tree listed =>
      (apart tree (pluginTrees_denied tree listed)).outside⟩
    obtain ⟨tree, listed, below⟩ := above_ancestors _ above
    exact (apart tree listed).notAbove below
  · rintro ⟨notAncestor, outsidePlugin⟩
    have outside : ∀ tree ∈ sandboxTrees ++ pluginTrees,
        ¬ tree <+: normalize path := by
      intro tree listed
      rcases List.mem_append.1 listed with both | plugin
      · exact observable.outside tree both
      · exact outsidePlugin tree plugin
    intro tree listed
    constructor
    · intro inside
      obtain ⟨covering, known, below⟩ := covered_of_mem_deniedTrees tree listed
      exact outside covering known (below.trans inside)
    · intro above
      rcases above_of_mem_deniedTrees tree listed _
          ((List.mem_inits _ _).2 above) with
        root | ancestor | ⟨covering, known, inside⟩
      · exact observable.belowRoot root
      · exact notAncestor ancestor
      · exact outside covering known inside

end Sources

section Samples

attribute [local instance] FloatFormat.integersOnly BinaryFloat.naturals

/-- A short run on a source directory. -/
def sampleScan (sourceDir : Text) : SandboxSpec where
  image := "ghcr.io/gitleaks/gitleaks:v8.18.4"
  entrypoint := none
  network := .none
  command := ["detect"]
  mounts := [⟨sourceDir, scanMount, true⟩]
  extraTmpfs := []
  env := []
  timeoutSecs := 300
  limits := Agents.defaultLimits

theorem bind_source_apart_iff_staging : ApartFromDenied "/srv//scan/." :=
  (bind_source_apart_iff (.sandbox (sampleScan "/srv//scan/.") _
    (by decide) (by decide) List.mem_cons_self rfl)).2
      (by decide)

/-- The parent of the directory of the Docker socket is accepted. -/
theorem parent_of_socket_accepted :
    AcceptedSource "/var" ∧ hostSourceDenied "/var" = false ∧
      ¬ ApartFromDenied "/var" := by
  refine ⟨.sandbox (sampleScan "/var") _ (by decide)
    (by decide) List.mem_cons_self rfl, by decide, fun apart => ?_⟩
  exact (apart ["var", "run"] (by decide)).notAbove (by decide)

end Samples

end FireCrow.DockerAuthz
