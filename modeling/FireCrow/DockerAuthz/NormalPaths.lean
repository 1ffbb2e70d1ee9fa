import FireCrow.DockerAuthz.Rules

/-!
# Normalised paths

A normalised path is spelled by the parts of the path behind its version.  The
shape of the path that a rule allows is read off these parts.
-/

namespace FireCrow.DockerAuthz

open FireCrow.Library

/-- The path of an address, up to its query or its fragment. -/
def rawPath (uri : Text) : Text :=
  uri.takeWhile fun character => character ≠ '?' && character ≠ '#'

/-- `v` and digits with dots. -/
def isVersion : Text → Bool
  | 'v' :: digits =>
      !digits.isEmpty && digits.all fun character =>
        Text.isAsciiDigit character || character = '.'
  | _ => false

/-- The parts of a path behind its version. -/
def behindVersion : List Text → List Text
  | version :: part :: parts =>
      if isVersion version = true then part :: parts
      else version :: part :: parts
  | parts => parts

theorem behindVersion_suffix (parts : List Text) :
    behindVersion parts <:+ parts := by
  unfold behindVersion
  split
  · split
    · exact List.suffix_cons _ _
    · exact List.suffix_refl _
  · exact List.suffix_refl _

variable {parts : List Text}

theorem mem_behindVersion {part : Text} (member : part ∈ parts) :
    isVersion part = true ∨ part ∈ behindVersion parts := by
  unfold behindVersion
  split
  · split
    · rename_i version
      rcases List.mem_cons.1 member with rfl | later
      · exact Or.inl version
      · exact Or.inr later
    · exact Or.inr member
  · exact Or.inr member

theorem behindVersion_ne_nil (nonempty : parts ≠ []) :
    behindVersion parts ≠ [] := by
  unfold behindVersion
  split
  · split
    · exact List.cons_ne_nil _ _
    · exact List.cons_ne_nil _ _
  · exact nonempty

theorem join_splitOn (path : Text) :
    Text.join ['/'] (path.splitOn '/') = path :=
  List.intercalate_splitOn '/'

theorem plain_of_mem_parts {path part : Text}
    (member : part ∈ Url.parts path) : Paths.Plain part := by
  obtain ⟨inside, present⟩ := List.mem_filter.1 member
  exact ⟨of_decide_eq_true present, Paths.slash_not_mem_of_mem_splitOn inside⟩

/-- One part is the path that has no slash behind its first character. -/
theorem parts_of_join_cons {front back : Text}
    (plain : ∀ part ∈ parts, Paths.Plain part) (nonempty : parts ≠ [])
    (single : '/' ∉ front)
    (same : Text.join ['/'] parts = front ++ '/' :: back) :
    parts = front :: back.splitOn '/' := by
  rw [← Paths.splitOn_join plain nonempty, same,
    List.splitOn_append_cons_self_of_not_mem single]

/-- The parts that spell the normalised path of an address. -/
def normalParts (uri : Text) : List Text :=
  behindVersion (Url.parts (rawPath uri))

theorem normalParts_plain (uri : Text) :
    ∀ part ∈ normalParts uri, Paths.Plain part :=
  fun _ member => plain_of_mem_parts ((behindVersion_suffix _).subset member)

theorem version_checked_iff {version digits tail : Text}
    (sliced : Text.fromByte 1 version = some digits) :
    (tail ≠ [] ∧ version.startsWith "v" = true ∧ digits ≠ [] ∧
        digits.all (fun character =>
          Text.isAsciiDigit character || character = '.') = true) ↔
      tail ≠ [] ∧ isVersion version = true := by
  refine and_congr_right fun _ => ?_
  constructor
  · rintro ⟨opening, some, digit⟩
    obtain ⟨rest, rfl⟩ := List.isPrefixOf_iff_prefix.1 opening
    have whole : rest = digits :=
      Option.some.inj ((Text.fromByte_append "v" rest).symm.trans sliced)
    subst whole
    refine Bool.and_eq_true_iff.2 ⟨?_, digit⟩
    rwa [Bool.not_eq_true', List.isEmpty_eq_false_iff]
  · unfold isVersion
    split
    · rename_i rest
      have whole : rest = digits :=
        Option.some.inj ((Text.fromByte_append "v" rest).symm.trans sliced)
      subst whole
      intro form
      obtain ⟨some, digit⟩ := Bool.and_eq_true_iff.1 form
      rw [Bool.not_eq_true', List.isEmpty_eq_false_iff] at some
      exact ⟨List.isPrefixOf_iff_prefix.2 ⟨rest, rfl⟩, some, digit⟩
    · exact nofun

/-- A normalised path with the parts that spell it. -/
structure Normal (uri path : Text) : Prop where
  noEscape : Url.NoSlashEscape (rawPath uri)
  nonempty : normalParts uri ≠ []
  path_eq : path = Paths.render (normalParts uri)

theorem normal_of_normalizePath {uri path : Text}
    (normal : normalizePath uri = some path) (present : path ≠ []) :
    Normal uri path := by
  unfold normalizePath at normal
  dsimp only at normal
  split at normal
  · exact absurd (Option.some.inj normal).symm present
  split at normal
  · exact absurd (Option.some.inj normal).symm present
  rename_i unescaped
  split at normal
  · exact absurd (Option.some.inj normal).symm present
  split at normal
  · exact absurd (Option.some.inj normal).symm present
  rename_i nonempty
  have noEscape : Url.NoSlashEscape (rawPath uri) := by
    refine ⟨fun found => unescaped ?_, fun found => unescaped ?_⟩
    · have lower := (Text.contains_iff _ _).2 found
      rw [rawPath] at lower
      rw [lower]
      rfl
    · have upper := (Text.contains_iff _ _).2 found
      rw [rawPath] at upper
      rw [upper, Bool.or_true]
      rfl
  change Url.parts (rawPath uri) ≠ [] at nonempty
  refine ⟨noEscape, behindVersion_ne_nil nonempty, ?_⟩
  have plain : ∀ part ∈ Url.parts (rawPath uri), Paths.Plain part :=
    fun part => plain_of_mem_parts
  split at normal
  · rename_i unsplit
    change Text.splitOnce '/' (Text.join ['/'] (Url.parts (rawPath uri))) = none
      at unsplit
    have single : ∀ first second others,
        Url.parts (rawPath uri) ≠ first :: second :: others := by
      intro first second others several
      refine Text.splitOnce_eq_none.1 unsplit ?_
      rw [several]
      simp [Text.join]
    rw [normalParts, behindVersion]
    · exact (Option.some.inj normal).symm
    · exact single
  · rename_i version tail split
    change Text.splitOnce '/' (Text.join ['/'] (Url.parts (rawPath uri))) = _
      at split
    obtain ⟨same, unsplit⟩ := Text.splitOnce_eq_some.1 split
    obtain ⟨digits, sliced, chosen⟩ := Option.map_eq_some_iff.1 normal
    have front := parts_of_join_cons plain nonempty unsplit same
    obtain ⟨second, others, several⟩ :=
      List.exists_cons_of_ne_nil (List.splitOn_ne_nil '/' tail)
    have kept : tail ≠ [] := by
      rintro rfl
      have blank := plain [] (front ▸ List.mem_cons_of_mem _ (by simp))
      exact blank.nonempty rfl
    rw [← chosen, normalParts, front, several, behindVersion]
    by_cases isVersion : isVersion version = true
    · rw [if_pos ((version_checked_iff sliced).2 ⟨kept, isVersion⟩),
        if_pos isVersion, ← several, Paths.render, join_splitOn]
    · rw [if_neg fun checked =>
          isVersion ((version_checked_iff sliced).1 checked).2,
        if_neg isVersion, ← several, ← front]
      rfl

/-! ## Characters of a path -/

theorem mem_path_of_mem_part {path part : Text} {character : Char}
    (member : part ∈ Url.parts path) (inside : character ∈ part) :
    character ∈ path :=
  Text.mem_of_mem_splitOn (List.mem_filter.1 member).1 inside

theorem mem_part_of_mem_path {path : Text} {character : Char}
    (inside : character ∈ path) (notSlash : character ≠ '/') :
    ∃ part ∈ Url.parts path, character ∈ part := by
  obtain ⟨part, member, there⟩ := Text.exists_mem_splitOn inside notSlash
  exact ⟨part, List.mem_filter.2
    ⟨member, decide_eq_true (List.ne_nil_of_mem there)⟩, there⟩

theorem fragment_not_mem_rawPath (uri : Text) : '#' ∉ rawPath uri := by
  intro member
  have kept := List.mem_takeWhile_imp member
  simp at kept

/-- Without a fragment, the path is what stands before the query. -/
theorem rawPath_of_noFragment {uri : Text} (noFragment : '#' ∉ Url.path uri) :
    rawPath uri = Url.path uri := by
  have kept : ∀ front : Text, '#' ∉ front → '?' ∉ front →
      ∀ character ∈ front, (character ≠ '?' && character ≠ '#') = true := by
    intro front noHash noQuery character member
    refine Bool.and_eq_true_iff.2 ⟨decide_eq_true ?_, decide_eq_true ?_⟩
    · exact fun same => noQuery (same ▸ member)
    · exact fun same => noHash (same ▸ member)
  unfold Url.path at noFragment ⊢
  cases split : Text.splitOnce '?' uri with
  | none =>
      rw [split] at noFragment
      exact List.takeWhile_eq_self_iff.2
        (kept uri noFragment (Text.splitOnce_eq_none.1 split))
  | some entry =>
      obtain ⟨front, back⟩ := entry
      rw [split] at noFragment
      obtain ⟨rfl, noQuery⟩ := Text.splitOnce_eq_some.1 split
      rw [rawPath, List.takeWhile_append_of_pos (kept front noFragment noQuery)]
      simp

/-! ## Container paths -/

/-- The operations on a container that a rule allows. -/
def lifecycleOps : List Text := ["start", "attach", "wait", "stop", "kill"]

theorem splitOn_render
    (plain : ∀ part ∈ parts, Paths.Plain part) (nonempty : parts ≠ []) :
    (Paths.render parts).splitOn '/' = [] :: parts := by
  rw [Paths.render, ← List.nil_append ('/' :: _),
    List.splitOn_append_cons_self_of_not_mem List.not_mem_nil,
    Paths.splitOn_join plain nonempty]

/-- The last part of a path with an operation. -/
theorem getLast_of_isLifecycleOp
    (plain : ∀ part ∈ parts, Paths.Plain part) (nonempty : parts ≠ [])
    (operation : isLifecycleOp (Paths.render parts) = true) :
    ∃ op ∈ lifecycleOps, parts.getLast? = some op := by
  have last : ∀ op ∈ lifecycleOps,
      (Paths.render parts).endsWith ('/' :: op) = true →
        parts.getLast? = some op := by
    intro op listed ending
    obtain ⟨front, same⟩ := List.isSuffixOf_iff_suffix.1 ending
    have single : '/' ∉ op := (by decide :
      ∀ op ∈ lifecycleOps, '/' ∉ op) op listed
    have split := splitOn_render plain nonempty
    rw [← same, List.splitOn_append_cons_self,
      List.splitOn_eq_singleton single] at split
    rw [← List.getLast?_cons_of_ne_nil nonempty, ← split]
    simp
  simp only [isLifecycleOp, Bool.or_eq_true] at operation
  rcases operation with (((start | attach) | wait) | stop) | kill
  · exact ⟨_, by decide, last "start" (by decide) start⟩
  · exact ⟨_, by decide, last "attach" (by decide) attach⟩
  · exact ⟨_, by decide, last "wait" (by decide) wait⟩
  · exact ⟨_, by decide, last "stop" (by decide) stop⟩
  · exact ⟨_, by decide, last "kill" (by decide) kill⟩

/-- The parts of a path with a container. -/
structure ContainerParts (path : Text) (parts : List Text) (target : Text)
    (more : List Text) : Prop where
  parts_eq : parts = ("containers" : Text) :: target :: more
  whole : isContainerDelete path = true → more = []
  operation : isLifecycleOp path = true →
    ∃ op ∈ lifecycleOps, (target :: more).getLast? = some op

theorem containerParts_of_target {target : Text}
    (plain : ∀ part ∈ parts, Paths.Plain part) (nonempty : parts ≠ [])
    (addressed : containerTarget (Paths.render parts) = some target) :
    ∃ more, ContainerParts (Paths.render parts) parts target more := by
  unfold containerTarget at addressed
  obtain ⟨rest, stripped, kept⟩ := Option.bind_eq_some_iff.1 addressed
  obtain ⟨same, -⟩ := Option.filter_eq_some_iff.1 kept
  have joined : Text.join ['/'] parts = ("containers" : Text) ++ '/' :: rest :=
    List.tail_eq_of_cons_eq (Text.stripPrefix_eq_some.1 stripped)
  have behind := parts_of_join_cons plain nonempty (by decide) joined
  have first : ∃ more, rest.splitOn '/' = target :: more ∧
      ('/' ∉ rest → more = []) := by
    have within : ∀ front : Text, '/' ∉ front →
        ∀ character ∈ front, decide (character ≠ '/') = true :=
      fun front single character member =>
        decide_eq_true fun equal => single (equal ▸ member)
    rw [Option.some.injEq] at same
    by_cases slash : '/' ∈ rest
    · obtain ⟨front, back, rfl, single⟩ := List.eq_append_cons_of_mem slash
      refine ⟨back.splitOn '/', ?_, fun none => absurd slash none⟩
      rw [List.splitOn_append_cons_self_of_not_mem single, ← same,
        List.takeWhile_append_of_pos (within front single)]
      simp
    · refine ⟨[], ?_, fun _ => rfl⟩
      rw [List.splitOn_eq_singleton slash, ← same,
        List.takeWhile_eq_self_iff.2 (within rest slash)]
  obtain ⟨more, split, single⟩ := first
  rw [split] at behind
  refine ⟨more, behind, fun whole => ?_, fun operation => ?_⟩
  · unfold isContainerDelete at whole
    rw [stripped] at whole
    exact single (of_decide_eq_true (Bool.and_eq_true_iff.1 whole).2)
  · obtain ⟨op, listed, last⟩ := getLast_of_isLifecycleOp plain nonempty operation
    rw [behind, List.getLast?_cons_cons] at last
    exact ⟨op, listed, last⟩

end FireCrow.DockerAuthz
