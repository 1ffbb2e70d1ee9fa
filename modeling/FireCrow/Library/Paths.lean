import FireCrow.Library.Text

/-!
# Lexical paths

An absolute path is read by its components: empty ones and `.` stand for
nothing, and `..` takes the component before it away, at the root none.  On
normal paths, being spelled inside a directory is having its components as a
prefix.
-/

namespace FireCrow.Library.Paths

/-- Take one component of a path into account. -/
def push (parts : List Text) (component : Text) : List Text :=
  if component = [] ∨ component = ['.'] then parts
  else if component = ['.', '.'] then parts.dropLast
  else parts ++ [component]

/-- The components that are left of a path. -/
def normalize (path : Text) : List Text := (path.splitOn '/').foldl push []

/-- The spelling of an absolute path. -/
def render (parts : List Text) : Text := '/' :: Text.join ['/'] parts

/-- The absolute path that a path stands for. -/
def canonical (path : Text) : Text := render (normalize path)

/-- A component that a normal path can have. -/
structure Plain (part : Text) : Prop where
  nonempty : part ≠ []
  single : '/' ∉ part

theorem slash_not_mem_of_mem_splitOn {path part : Text}
    (member : part ∈ path.splitOn '/') : '/' ∉ part := by
  induction path generalizing part with
  | nil =>
      rw [List.splitOn_nil, List.mem_singleton] at member
      rw [member]
      exact List.not_mem_nil
  | cons character path ih =>
      rw [List.splitOn_cons_eq_if_modifyHead] at member
      split at member
      · rcases List.mem_cons.1 member with rfl | later
        · exact List.not_mem_nil
        · exact ih later
      · rename_i other
        obtain ⟨head, tail, split⟩ :=
          List.exists_cons_of_ne_nil (List.splitOn_ne_nil '/' path)
        rw [split] at ih member
        rcases List.mem_cons.1 member with rfl | later
        · intro slash
          rcases List.mem_cons.1 slash with same | inside
          · exact other (beq_iff_eq.2 same.symm)
          · exact ih List.mem_cons_self inside
        · exact ih (List.mem_cons_of_mem _ later)

variable {parts : List Text}

theorem push_plain {component : Text}
    (plain : ∀ part ∈ parts, Plain part) (single : '/' ∉ component) :
    ∀ part ∈ push parts component, Plain part := by
  unfold push
  split
  · exact plain
  · rename_i present
    split
    · exact fun part member => plain part (List.mem_of_mem_dropLast member)
    · intro part member
      rcases List.mem_append.1 member with old | new
      · exact plain part old
      · rw [List.mem_singleton.1 new]
        exact ⟨fun empty => present (Or.inl empty), single⟩

/-- The components of a normal path are plain. -/
theorem normalize_plain (path : Text) :
    ∀ part ∈ normalize path, Plain part := by
  have kept : ∀ components : List Text,
      (∀ component ∈ components, '/' ∉ component) → ∀ parts : List Text,
        (∀ part ∈ parts, Plain part) →
          ∀ part ∈ components.foldl push parts, Plain part := by
    intro components
    induction components with
    | nil => exact fun _ _ plain => plain
    | cons component components ih =>
        intro single parts plain
        exact ih (fun other member => single other (List.mem_cons_of_mem _ member))
          _ (push_plain plain (single component List.mem_cons_self))
  exact kept _ (fun _ member => slash_not_mem_of_mem_splitOn member) [] nofun

theorem splitOn_join (plain : ∀ part ∈ parts, Plain part)
    (nonempty : parts ≠ []) : (Text.join ['/'] parts).splitOn '/' = parts :=
  List.splitOn_intercalate '/' (fun part member => (plain part member).single)
    nonempty

theorem join_ne_nil (plain : ∀ part ∈ parts, Plain part)
    (nonempty : parts ≠ []) : Text.join ['/'] parts ≠ [] := by
  intro empty
  have split := splitOn_join plain nonempty
  rw [empty, List.splitOn_nil] at split
  exact (plain [] (split ▸ List.mem_singleton.2 rfl)).nonempty rfl

/-- Normal paths with the same spelling are the same. -/
theorem render_injective {left right : List Text}
    (plainLeft : ∀ part ∈ left, Plain part)
    (plainRight : ∀ part ∈ right, Plain part)
    (same : render left = render right) : left = right := by
  have joined : Text.join ['/'] left = Text.join ['/'] right :=
    List.tail_eq_of_cons_eq same
  by_cases leftEmpty : left = []
  · by_cases rightEmpty : right = []
    · rw [leftEmpty, rightEmpty]
    · rw [leftEmpty] at joined
      exact absurd joined.symm (join_ne_nil plainRight rightEmpty)
  · by_cases rightEmpty : right = []
    · rw [rightEmpty] at joined
      exact absurd joined (join_ne_nil plainLeft leftEmpty)
    · rw [← splitOn_join plainLeft leftEmpty, joined,
        splitOn_join plainRight rightEmpty]

theorem join_append {front back : List Text} (frontNonempty : front ≠ [])
    (backNonempty : back ≠ []) :
    Text.join ['/'] (front ++ back) =
      Text.join ['/'] front ++ '/' :: Text.join ['/'] back := by
  induction front with
  | nil => exact absurd rfl frontNonempty
  | cons first front ih =>
      cases front with
      | nil =>
          simp only [Text.join, List.cons_append, List.nil_append,
            List.intercalate_cons_of_ne_nil backNonempty,
            List.intercalate_singleton, List.append_assoc]
      | cons second front =>
          have rest := ih (List.cons_ne_nil _ _)
          simp only [Text.join, List.cons_append, List.intercalate_cons_cons,
            List.append_assoc] at rest ⊢
          rw [rest]

/-- A path is spelled inside a directory when it has the directory's components
and more. -/
theorem startsWith_render_iff {directory : List Text}
    (plainDirectory : ∀ part ∈ directory, Plain part)
    (plainParts : ∀ part ∈ parts, Plain part) (nonempty : directory ≠ []) :
    Text.startsWith (render parts) (render directory ++ ['/']) = true ↔
      directory <+: parts ∧ directory ≠ parts := by
  rw [Text.startsWith, List.isPrefixOf_iff_prefix, render, render,
    List.cons_append, List.prefix_cons_inj]
  constructor
  · rintro ⟨rest, inside⟩
    rw [List.append_assoc, List.singleton_append] at inside
    have partsNonempty : parts ≠ [] := by
      rintro rfl
      cases (List.append_eq_nil_iff.1 inside).2
    have split := splitOn_join plainParts partsNonempty
    rw [← inside, List.splitOn_append_cons_self,
      splitOn_join plainDirectory nonempty] at split
    refine ⟨⟨_, split⟩, fun same => ?_⟩
    rw [← same] at split
    exact List.splitOn_ne_nil '/' rest (List.append_right_eq_self.1 split)
  · rintro ⟨⟨back, rfl⟩, different⟩
    have backNonempty : back ≠ [] := by
      rintro rfl
      exact different (List.append_nil _).symm
    rw [join_append nonempty backNonempty]
    exact ⟨Text.join ['/'] back, by
      rw [List.append_assoc, List.singleton_append]⟩

end FireCrow.Library.Paths
