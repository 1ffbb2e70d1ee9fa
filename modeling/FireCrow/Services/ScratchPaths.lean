import FireCrow.Agents.ScannerSpecs

/-!
# Scratch paths and what is mounted

A scratch path is compared with the source mount as it is spelled.  The
runtime reads both as lexical paths, and a scratch path above, at or below a
mount hides it or a part of it.
-/

namespace FireCrow.Services

open FireCrow.Library

/-! ## Overlapping paths -/

/-- One path is the other one or one of its ancestors. -/
def Overlap (target point : Text) : Prop :=
  Paths.normalize target <+: Paths.normalize point ∨
    Paths.normalize point <+: Paths.normalize target

/-- A path that stands for the root, or opens with the component. -/
def OpensWith (component path : Text) : Prop :=
  ∀ first rest, Paths.normalize path = first :: rest → first = component

theorem overlap_iff {target point component : Text}
    (single : Paths.normalize point = [component]) :
    Overlap target point ↔ OpensWith component target := by
  rw [Overlap, single, OpensWith]
  cases Paths.normalize target with
  | nil => simp
  | cons first rest =>
    simp only [List.cons.injEq, List.cons_prefix_cons, List.nil_prefix, and_true,
      List.prefix_nil]
    constructor
    · rintro (⟨same, _⟩ | same) other back ⟨head, _⟩
      · exact head ▸ same
      · exact head ▸ same.symm
    · intro opens
      exact .inr (opens first rest ⟨rfl, rfl⟩).symm

theorem normalize_scanMount : Paths.normalize scanMount = [("scan" : Text)] := by
  decide

theorem normalize_configMount :
    Paths.normalize configMount = [("config" : Text)] := by
  decide

theorem normalize_workDir : Paths.normalize workDir = [("work" : Text)] := by
  decide

/-! ## Specifications -/

section Scratch

variable [BinaryFloat]

/-- The writable paths in memory of a run. -/
def tmpfsTargets (spec : SandboxSpec) : List Text := workDir :: spec.extraTmpfs

/-- Where the source and the files of a run are mounted read-only. -/
def mountPoints (spec : SandboxSpec) : List Text :=
  scanMount :: spec.mounts.map SandboxMount.containerPath

/-- No writable path hides anything that is mounted. -/
def NeverHides (spec : SandboxSpec) : Prop :=
  ∀ target ∈ tmpfsTargets spec, ∀ point ∈ mountPoints spec,
    ¬ Overlap target point

/-- What is mounted is mounted at one of two places. -/
theorem containerPath_of_valid {spec : SandboxSpec}
    (valid : validateSpec spec = .ok ()) {mount : SandboxMount}
    (member : mount ∈ spec.mounts) :
    mount.containerPath = scanMount ∨ mount.containerPath = configMount := by
  simp only [validateSpec, Result.then_eq_ok, Result.forM_eq_ok] at valid
  have checked := valid.2.2.2.2.2.1 mount member
  simp only [validateMount, Result.then_eq_ok, Result.refuseIf_eq_ok] at checked
  have target : mount.containerPath ∈ allowedContainerPaths :=
    not_not.mp checked.2.2.1
  rcases List.mem_cons.mp target with scan | other
  · exact .inl scan
  · exact .inr (List.mem_singleton.mp other)

theorem neverHides_rules {spec : SandboxSpec}
    (valid : validateSpec spec = .ok ()) :
    NeverHides spec ↔
      ∀ path ∈ spec.extraTmpfs, ¬ OpensWith "scan" path ∧
        ((∃ mount ∈ spec.mounts, mount.containerPath = configMount) →
          ¬ OpensWith "config" path) := by
  constructor
  · intro never path member
    have target : path ∈ tmpfsTargets spec := .tail _ member
    refine ⟨?_, ?_⟩
    · rw [← overlap_iff normalize_scanMount]
      exact never path target scanMount List.mem_cons_self
    · rintro ⟨mount, mounted, same⟩
      rw [← overlap_iff normalize_configMount]
      exact never path target configMount
        (.tail _ (List.mem_map.mpr ⟨mount, mounted, same⟩))
  · intro apart target member point mounted
    have places : point = scanMount ∨ (point = configMount ∧
        ∃ mount ∈ spec.mounts, mount.containerPath = configMount) := by
      rcases List.mem_cons.mp mounted with source | other
      · exact .inl source
      · rcases List.mem_map.mp other with ⟨mount, listed, same⟩
        rcases containerPath_of_valid valid listed with scan | config
        · exact .inl (same ▸ scan)
        · exact .inr ⟨same ▸ config, mount, listed, config⟩
    rcases List.mem_cons.mp member with work | scratch
    · have elsewhere : ∀ component : Text, component ≠ ("work" : Text) →
          ¬ OpensWith component workDir := fun component different opens =>
        different (opens _ _ normalize_workDir).symm
      rw [work]
      rcases places with source | ⟨config, _⟩
      · rw [source, overlap_iff normalize_scanMount]
        exact elsewhere _ (by decide)
      · rw [config, overlap_iff normalize_configMount]
        exact elsewhere _ (by decide)
    · rcases places with source | ⟨config, listed⟩
      · rw [source, overlap_iff normalize_scanMount]
        exact (apart target scratch).1
      · rw [config, overlap_iff normalize_configMount]
        exact (apart target scratch).2 listed

/-- No writable path of an accepted specification hides a mount exactly where
no scratch path stands for the root, opens with the component of the source
mount, or opens with that of the mounted configuration. -/
theorem never_hides_iff {spec : SandboxSpec}
    (valid : validateSpec spec = .ok ()) :
    NeverHides spec ↔
      ∀ path ∈ spec.extraTmpfs, ¬ OpensWith "scan" path ∧
        ((∃ mount ∈ spec.mounts, mount.containerPath = configMount) →
          ¬ OpensWith "config" path) :=
  neverHides_rules valid

end Scratch

section Samples

attribute [local instance] BinaryFloat.naturals

/-- The specification of a scanner with another scratch path. -/
def withScratch (path : Text) : SandboxSpec :=
  { Agents.sandboxSpec "/srv/scan" .gitleaks with extraTmpfs := [path] }

theorem never_hides_iff_tmp :
    NeverHides (withScratch "/tmp") ↔
      ∀ path ∈ (withScratch "/tmp").extraTmpfs, ¬ OpensWith "scan" path ∧
        ((∃ mount ∈ (withScratch "/tmp").mounts,
            mount.containerPath = configMount) →
          ¬ OpensWith "config" path) :=
  never_hides_iff (by decide)

/-- Scratch over the source mount is accepted when it is spelled with a slash
more. -/
theorem scratch_hides_source :
    validateSpec (withScratch "/scan/") = .ok () ∧
      ¬ NeverHides (withScratch "/scan/") := by
  refine ⟨by decide, fun never => ?_⟩
  have target : ("/scan/" : Text) ∈ tmpfsTargets (withScratch "/scan/") :=
    .tail _ List.mem_cons_self
  have same : Paths.normalize ("/scan/" : Text) = Paths.normalize scanMount := by
    decide
  refine never _ target scanMount List.mem_cons_self (.inl ?_)
  rw [same]

end Samples

end FireCrow.Services
