import FireCrow.DockerAuthz.NormalPaths
import FireCrow.Library.JoinedText

/-!
# Reading a normalised path again

A path that is not refused is spelled by its segments, or by those behind the
first.  Whether it is read again as it is depends on its first segment: the
slice behind the first byte, and what passes for a version.
-/

namespace FireCrow.DockerAuthz

open FireCrow.Library

/-! ## Texts inside a joined path -/

variable {needle : Text}

theorem starts_of_append_cons {front back : Text} (single : '/' ∉ needle)
    (starts : needle <+: front ++ '/' :: back) : needle <+: front := by
  have marked : front ++ ['/'] <+: front ++ '/' :: back :=
    ⟨back, by rw [List.append_assoc, List.singleton_append]⟩
  rcases List.prefix_or_prefix_of_prefix starts marked with inside | beyond
  · rcases List.prefix_concat_iff.1 inside with rfl | inside
    · exact absurd (List.mem_append_right _ List.mem_cons_self) single
    · exact inside
  · exact absurd
      (beyond.subset (List.mem_append_right _ List.mem_cons_self)) single

theorem part_of_append_cons {front back : Text} (single : '/' ∉ needle)
    (inside : needle <:+: front ++ '/' :: back) :
    needle <:+: front ∨ needle <:+: back := by
  induction front with
  | nil =>
      rw [List.nil_append, List.infix_cons_iff] at inside
      rcases inside with starts | later
      · have empty : needle <+: [] := starts_of_append_cons single starts
        exact Or.inl empty.isInfix
      · exact Or.inr later
  | cons first front ih =>
      rw [List.cons_append, List.infix_cons_iff] at inside
      rcases inside with starts | later
      · have early : needle <+: first :: front := starts_of_append_cons single starts
        exact Or.inl early.isInfix
      · exact (ih later).imp_left fun found => found.trans (List.suffix_cons _ _).isInfix

theorem part_of_join (single : '/' ∉ needle) (first : Text) (others : List Text)
    (inside : needle <:+: Text.join ['/'] (first :: others)) :
    ∃ part ∈ first :: others, needle <:+: part := by
  induction others generalizing first with
  | nil =>
      rw [Text.join, List.intercalate_singleton] at inside
      exact ⟨first, List.mem_cons_self, inside⟩
  | cons second others ih =>
      rw [Text.join_cons_cons] at inside
      rcases part_of_append_cons single inside with here | later
      · exact ⟨first, List.mem_cons_self, here⟩
      · rcases ih second later with ⟨part, member, found⟩
        exact ⟨part, List.mem_cons_of_mem _ member, found⟩

variable {parts : List Text}

variable {part : Text}

theorem join_of_mem (member : part ∈ parts) :
    part <:+: Text.join ['/'] parts := by
  induction parts with
  | nil => cases member
  | cons first others ih =>
      cases others with
      | nil =>
          rw [List.mem_singleton.1 member, Text.join, List.intercalate_singleton]
      | cons second others =>
          rw [Text.join_cons_cons]
          rcases List.mem_cons.1 member with rfl | later
          · exact (List.prefix_append _ _).isInfix
          · exact (ih later).trans
              ((List.suffix_cons _ _).trans (List.suffix_append _ _)).isInfix

theorem part_of_mem_parts {path : Text} (member : part ∈ Url.parts path) :
    part <:+: path := by
  have inside := join_of_mem (List.mem_filter.1 member).1
  rwa [join_splitOn] at inside

/-! ## What the reader returns -/

/-- The segments of an address. -/
def segments (uri : Text) : List Text := Url.parts (rawPath uri)

/-- What a path must not hold to be read. -/
structure Unescaped (path : Text) : Prop where
  lower : ¬ ("%2f" : Text) <:+: path
  upper : ¬ ("%2F" : Text) <:+: path
  zero : ¬ ("%00" : Text) <:+: path

/-- An address that the reader does not refuse. -/
structure Accepted (uri : Text) : Prop where
  rooted : (rawPath uri).startsWith "/" = true
  unescaped : Unescaped (rawPath uri)
  current : (['.'] : Text) ∉ segments uri
  parent : (['.', '.'] : Text) ∉ segments uri
  nonempty : segments uri ≠ []

theorem dots_mem_iff {path dots : Text} (nonempty : dots ≠ []) :
    dots ∈ Url.parts path ↔ dots ∈ path.splitOn '/' := by
  rw [Url.parts, List.mem_filter, decide_eq_true_eq]
  exact and_iff_left nonempty

theorem unescaped_iff (path : Text) :
    Unescaped path ↔
      ¬ (path.contains "%2f" || path.contains "%2F" || path.contains "%00") =
        true := by
  simp only [Bool.or_eq_true, Text.contains_iff, not_or]
  constructor
  · exact fun none => ⟨⟨none.lower, none.upper⟩, none.zero⟩
  · exact fun none => ⟨none.1.1, none.1.2, none.2⟩

/-- What the reader makes of segments. -/
def readSegments : List Text → Option Text
  | first :: second :: others =>
      (Text.fromByte 1 first).map fun _ =>
        Paths.render (behindVersion (first :: second :: others))
  | parts => some (Paths.render parts)

theorem segments_plain (uri : Text) : ∀ part ∈ segments uri, Paths.Plain part :=
  fun _ member => plain_of_mem_parts member

theorem readSegments_eq
    (plain : ∀ part ∈ parts, Paths.Plain part) (nonempty : parts ≠ []) :
    (match Text.splitOnce '/' (Text.join ['/'] parts) with
      | none => some ('/' :: Text.join ['/'] parts)
      | some (ver, tail) =>
          (Text.fromByte 1 ver).map fun digits =>
            if tail ≠ [] ∧ ver.startsWith "v" = true ∧ digits ≠ [] ∧
                digits.all (fun character =>
                  Text.isAsciiDigit character || character = '.') = true
            then '/' :: tail
            else '/' :: Text.join ['/'] parts) = readSegments parts := by
  cases parts with
  | nil => exact absurd rfl nonempty
  | cons first others =>
      have single := (plain first List.mem_cons_self).single
      cases others with
      | nil =>
          have unsplit : Text.splitOnce '/' (Text.join ['/'] [first]) = none := by
            rw [Text.join, List.intercalate_singleton]
            exact Text.splitOnce_eq_none.2 single
          rw [unsplit]
          rfl
      | cons second others =>
          have kept : Text.join ['/'] (second :: others) ≠ [] :=
            Paths.join_ne_nil
              (fun part member => plain part (List.mem_cons_of_mem _ member))
              (List.cons_ne_nil _ _)
          rw [Text.join_cons_cons, Text.splitOnce_append _ single, readSegments]
          refine Option.map_congr fun digits sliced => ?_
          rw [behindVersion]
          by_cases version : isVersion first = true
          · rw [if_pos ((version_checked_iff sliced).2 ⟨kept, version⟩),
              if_pos version]
            rfl
          · rw [if_neg fun checked =>
                version ((version_checked_iff sliced).1 checked).2,
              if_neg version, Paths.render, Text.join_cons_cons]

theorem normalizePath_cases (uri : Text) :
    (Accepted uri ∧ normalizePath uri = readSegments (segments uri)) ∨
      (¬ Accepted uri ∧ normalizePath uri = some []) := by
  unfold normalizePath
  dsimp only
  split
  · rename_i unrooted
    refine Or.inr ⟨fun accepted => ?_, rfl⟩
    have rooted := accepted.rooted
    rcases unrooted with empty | unrooted
    · rw [rawPath, empty] at rooted
      cases rooted
    · rw [rawPath, unrooted] at rooted
      cases rooted
  rename_i rooted
  split
  · rename_i escaped
    exact Or.inr ⟨fun accepted =>
      (unescaped_iff _).1 accepted.unescaped escaped, rfl⟩
  rename_i unescaped
  split
  · rename_i dots
    refine Or.inr ⟨fun accepted => ?_, rfl⟩
    rcases dots with current | parent
    · exact accepted.current ((dots_mem_iff (List.cons_ne_nil _ _)).2 current)
    · exact accepted.parent ((dots_mem_iff (List.cons_ne_nil _ _)).2 parent)
  rename_i dotless
  split
  · rename_i empty
    exact Or.inr ⟨fun accepted => accepted.nonempty empty, rfl⟩
  rename_i nonempty
  refine Or.inl ⟨?_, readSegments_eq (segments_plain uri) nonempty⟩
  rw [not_or] at rooted dotless
  exact {
    rooted := Bool.eq_true_of_not_eq_false rooted.2
    unescaped := (unescaped_iff _).2 unescaped
    current := fun member =>
      dotless.1 ((dots_mem_iff (List.cons_ne_nil _ _)).1 member)
    parent := fun member =>
      dotless.2 ((dots_mem_iff (List.cons_ne_nil _ _)).1 member)
    nonempty := nonempty }

variable {uri : Text}

theorem normalizePath_accepted (accepted : Accepted uri) :
    normalizePath uri = readSegments (segments uri) := by
  rcases normalizePath_cases uri with ⟨_, read⟩ | ⟨refused, _⟩
  · exact read
  · exact absurd accepted refused

theorem normalizePath_refused (refused : ¬ Accepted uri) :
    normalizePath uri = some [] := by
  rcases normalizePath_cases uri with ⟨accepted, _⟩ | ⟨_, read⟩
  · exact absurd accepted refused
  · exact read

/-! ## A normalised path as an address -/

theorem rawPath_render (inside : parts ⊆ segments uri) :
    rawPath (Paths.render parts) = Paths.render parts := by
  refine List.takeWhile_eq_self_iff.2 ?_
  intro character member
  by_cases slash : character = '/'
  · rw [slash]
    rfl
  have behind : character ∈ Text.join ['/'] parts :=
    (List.mem_cons.1 member).resolve_left slash
  cases parts with
  | nil => cases behind
  | cons first others =>
      have single : '/' ∉ [character] := fun same =>
        slash (List.mem_singleton.1 same).symm
      rcases part_of_join single first others ((List.singleton_infix_iff _ _).2 behind)
        with ⟨part, listed, there⟩
      have within : character ∈ rawPath uri := mem_path_of_mem_part
        (inside listed) ((List.singleton_infix_iff _ _).1 there)
      exact List.mem_takeWhile_imp (p := fun character =>
        character ≠ '?' && character ≠ '#') within

theorem segments_render
    (inside : parts ⊆ segments uri) (nonempty : parts ≠ []) :
    segments (Paths.render parts) = parts := by
  have plain : ∀ part ∈ parts, Paths.Plain part :=
    fun part member => segments_plain uri part (inside member)
  rw [segments, rawPath_render inside, Url.parts, splitOn_render plain nonempty,
    List.filter_cons_of_neg (by simp), List.filter_eq_self]
  exact fun part member => decide_eq_true (plain part member).nonempty

theorem accepted_render
    (accepted : Accepted uri) (inside : parts ⊆ segments uri)
    (nonempty : parts ≠ []) : Accepted (Paths.render parts) := by
  rcases List.exists_cons_of_ne_nil nonempty with ⟨first, others, rfl⟩
  have absent : ∀ needle : Text, '/' ∉ needle → ¬ needle <:+: rawPath uri →
      ¬ needle <:+: rawPath (Paths.render (first :: others)) := by
    intro needle single none found
    rw [rawPath_render inside] at found
    have whole : needle <:+: [] ++ Paths.render (first :: others) := found
    rcases part_of_append_cons single whole with empty | later
    · exact none (by rw [List.infix_nil.1 empty]; exact List.nil_infix)
    · rcases part_of_join single first others later with ⟨part, member, here⟩
      exact none (here.trans (part_of_mem_parts (inside member)))
  exact {
    rooted := by rw [rawPath_render inside]; rfl
    unescaped := ⟨absent _ (by decide) accepted.unescaped.lower,
      absent _ (by decide) accepted.unescaped.upper,
      absent _ (by decide) accepted.unescaped.zero⟩
    current := by
      rw [segments_render inside nonempty]
      exact fun member => accepted.current (inside member)
    parent := by
      rw [segments_render inside nonempty]
      exact fun member => accepted.parent (inside member)
    nonempty := by
      rw [segments_render inside nonempty]
      exact nonempty }

theorem normalizePath_render
    (accepted : Accepted uri) (inside : parts ⊆ segments uri)
    (nonempty : parts ≠ []) :
    normalizePath (Paths.render parts) = readSegments parts := by
  rw [normalizePath_accepted (accepted_render accepted inside nonempty),
    segments_render inside nonempty]

/-! ## Canonical paths -/

/-- `v`, digits, a dot and digits. -/
structure MajorMinor (part : Text) : Prop where
  spelled : ∃ major minor : Text, part = 'v' :: (major ++ '.' :: minor) ∧
    major ≠ [] ∧ minor ≠ [] ∧
      ∀ character ∈ major ++ minor, Text.isAsciiDigit character = true

/-- A path without the version in front of its other segments. -/
inductive Unversioned : List Text → List Text → Prop where
  | single (part : Text) : Unversioned [part] [part]
  | removed {version second : Text} {others : List Text} :
      MajorMinor version →
        Unversioned (version :: second :: others) (second :: others)
  | kept {first second : Text} {others : List Text} :
      ¬ MajorMinor first →
        Unversioned (first :: second :: others) (first :: second :: others)

/-- The reader returns, what it returns it reads as it is, and from an address
that it does not refuse it takes exactly a version. -/
structure Normalizes (uri : Text) : Prop where
  total : ∃ path, normalizePath uri = some path
  canonical : ∀ path, normalizePath uri = some path →
    normalizePath path = some path
  version : Accepted uri → ∀ path, normalizePath uri = some path →
    ∃ parts, Unversioned (segments uri) parts ∧ path = Paths.render parts

/-- A text whose first character has one byte. -/
def startsOneByte (part : Text) : Bool :=
  part.head?.any fun first => first.utf8Size = 1

/-- The first of several segments starts with one byte and does not pass for a
version. -/
def Settled : List Text → Prop
  | first :: _ :: _ => startsOneByte first = true ∧ isVersion first = false
  | _ => True

/-- The first of several segments is settled, or is a version before settled
segments. -/
def PlainSegments : List Text → Prop
  | first :: second :: others =>
      Settled (first :: second :: others) ∨
        MajorMinor first ∧ Settled (second :: others)
  | _ => True

theorem MajorMinor.isVersion (version : MajorMinor part) :
    isVersion part = true := by
  rcases version.spelled with ⟨major, minor, rfl, some, _, digits⟩
  refine Bool.and_eq_true_iff.2 ⟨?_, ?_⟩
  · rw [Bool.not_eq_true', List.isEmpty_eq_false_iff]
    exact fun empty => some (List.append_eq_nil_iff.1 empty).1
  · rw [List.all_eq_true]
    intro character member
    rw [List.mem_append, List.mem_cons] at member
    rcases member with here | dot | there
    · rw [digits _ (List.mem_append_left _ here)]
      rfl
    · rw [dot]
      rfl
    · rw [digits _ (List.mem_append_right _ there)]
      rfl

theorem startsOneByte_of_isVersion (version : isVersion part = true) :
    startsOneByte part = true := by
  unfold isVersion at version
  split at version
  · rfl
  · cases version

theorem fromByte_one_isSome (nonempty : part ≠ []) :
    (Text.fromByte 1 part).isSome = startsOneByte part := by
  rcases List.exists_cons_of_ne_nil nonempty with ⟨first, rest, rfl⟩
  have positive := first.utf8Size_pos
  rw [startsOneByte, List.head?_cons, Option.any_some, Text.fromByte]
  by_cases one : first.utf8Size = 1
  · rw [if_pos (Nat.le_of_eq one), one, Nat.sub_self, Text.fromByte]
    rfl
  · rw [if_neg (by omega), decide_eq_false one]
    rfl
  · exact fun impossible => absurd impossible Nat.one_ne_zero

theorem readSegments_settled {first second : Text} {others : List Text}
    (nonempty : first ≠ []) :
    readSegments (first :: second :: others) =
      if startsOneByte first = true then
        some (Paths.render (behindVersion (first :: second :: others)))
      else none := by
  rw [readSegments, ← fromByte_one_isSome nonempty]
  cases Text.fromByte 1 first <;> rfl

/-- Segments are read as they are where they are settled. -/
theorem readSegments_self_iff (plain : ∀ part ∈ parts, Paths.Plain part) :
    readSegments parts = some (Paths.render parts) ↔ Settled parts := by
  cases parts with
  | nil => exact iff_of_true rfl trivial
  | cons first others =>
      cases others with
      | nil => exact iff_of_true rfl trivial
      | cons second others =>
          rw [readSegments_settled (plain first List.mem_cons_self).nonempty,
            Settled, behindVersion]
          have longer : Paths.render (second :: others) ≠
              Paths.render (first :: second :: others) := by
            intro same
            have lengths := congrArg List.length (Paths.render_injective
              (fun part member => plain part (List.mem_cons_of_mem _ member))
              plain same)
            simp at lengths
          cases startsOneByte first <;> cases isVersion first <;> simp [longer]

theorem behindVersion_cases (first second : Text) (others : List Text) :
    (isVersion first = true ∧
        behindVersion (first :: second :: others) = second :: others) ∨
      (isVersion first = false ∧
        behindVersion (first :: second :: others) = first :: second :: others) := by
  rw [behindVersion]
  cases isVersion first with
  | false => exact Or.inr ⟨rfl, rfl⟩
  | true => exact Or.inl ⟨rfl, rfl⟩

/-- Several segments that the reader slices. -/
theorem normalizes_sliced_iff {first second : Text} {others : List Text}
    (accepted : Accepted uri)
    (listed : segments uri = first :: second :: others)
    (sliced : startsOneByte first = true) :
    Normalizes uri ↔ PlainSegments (first :: second :: others) := by
  have plain := segments_plain uri
  have read := normalizePath_accepted accepted
  rw [listed] at plain
  have inside : behindVersion (first :: second :: others) ⊆ segments uri := by
    rw [listed]
    exact (behindVersion_suffix _).subset
  have nonempty := behindVersion_ne_nil (List.cons_ne_nil first (second :: others))
  have kept : ∀ part ∈ behindVersion (first :: second :: others),
      Paths.Plain part := fun part member =>
    plain part ((behindVersion_suffix _).subset member)
  rw [listed, readSegments_settled (plain first List.mem_cons_self).nonempty,
    if_pos sliced] at read
  have again := readSegments_self_iff kept
  rw [← normalizePath_render accepted inside nonempty] at again
  rcases behindVersion_cases first second others with
    ⟨version, behind⟩ | ⟨other, behind⟩
  · rw [behind] at read again kept
    constructor
    · intro normal
      rcases normal.version accepted _ read with ⟨parts, taken, same⟩
      rw [listed] at taken
      cases taken with
      | removed version =>
          exact Or.inr ⟨version, again.1 (normal.canonical _ read)⟩
      | kept _ =>
          have lengths := congrArg List.length
            (Paths.render_injective kept plain same)
          simp at lengths
    · rintro (settled | ⟨version, settled⟩)
      · exact absurd settled.2 (by simp [version])
      · refine ⟨⟨_, read⟩, ?_, ?_⟩
        · rintro path found
          rw [read, Option.some.injEq] at found
          rw [← found]
          exact again.2 settled
        · rintro _ path found
          rw [read, Option.some.injEq] at found
          rw [listed]
          exact ⟨_, .removed version, found.symm⟩
  · rw [behind] at read again
    have unlike : ¬ MajorMinor first := by
      intro version
      rw [version.isVersion] at other
      cases other
    constructor
    · intro normal
      exact Or.inl (again.1 (normal.canonical _ read))
    · rintro (settled | ⟨version, _⟩)
      · refine ⟨⟨_, read⟩, ?_, ?_⟩
        · rintro path found
          rw [read, Option.some.injEq] at found
          rw [← found]
          exact again.2 settled
        · rintro _ path found
          rw [read, Option.some.injEq] at found
          rw [listed]
          exact ⟨_, .kept unlike, found.symm⟩
      · exact absurd version unlike

/-- The reader normalises the addresses that it refuses and those with plain
segments. -/
theorem normalizes_iff (uri : Text) :
    Normalizes uri ↔ (Accepted uri → PlainSegments (segments uri)) := by
  by_cases accepted : Accepted uri
  · rw [forall_prop_of_true accepted]
    have read := normalizePath_accepted accepted
    have plain := segments_plain uri
    cases listed : segments uri with
    | nil => exact absurd listed accepted.nonempty
    | cons first others =>
        cases others with
        | nil =>
            rw [listed] at read plain
            refine iff_of_true ⟨⟨_, read⟩, ?_, ?_⟩ trivial
            · rintro path found
              rw [read, readSegments, Option.some.injEq] at found
              rw [← found, normalizePath_render accepted
                (by rw [listed]; exact List.Subset.refl _)
                (List.cons_ne_nil _ _)]
              · rfl
              · exact fun _ _ _ same => by simp at same
            · rintro _ path found
              rw [read, readSegments, Option.some.injEq] at found
              · rw [listed]
                exact ⟨_, .single first, found.symm⟩
              · exact fun _ _ _ same => by simp at same
        | cons second others =>
            cases sliced : startsOneByte first with
            | true => exact normalizes_sliced_iff accepted listed sliced
            | false =>
                rw [listed] at read plain
                rw [readSegments_settled (plain first List.mem_cons_self).nonempty,
                  sliced] at read
                refine iff_of_false (fun normal => ?_) ?_
                · rcases normal.total with ⟨path, found⟩
                  rw [read] at found
                  cases found
                · rintro (settled | ⟨version, _⟩)
                  · exact absurd settled.1 (by rw [sliced]; exact Bool.false_ne_true)
                  · rw [startsOneByte_of_isVersion version.isVersion] at sliced
                    cases sliced
  · refine iff_of_true ?_ (fun absurd => (accepted absurd).elim)
    have read := normalizePath_refused accepted
    refine ⟨⟨[], read⟩, fun path again => ?_, fun absurd => (accepted absurd).elim⟩
    rw [read, Option.some.injEq] at again
    rw [← again]
    rfl

/-- The slice behind the first byte panics inside a first segment's first
character. -/
theorem accented_path_panics : ¬ ∀ uri, Normalizes uri := by
  intro claim
  rcases (claim "/é/x").total with ⟨path, read⟩
  have panics : normalizePath "/é/x" = none := by decide +kernel
  rw [panics] at read
  cases read

end FireCrow.DockerAuthz
