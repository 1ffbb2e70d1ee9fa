import FireCrow.Agents.Osv
import FireCrow.Library.JoinedText

/-!
# Manifests as TOML documents

A manifest is a sequence of expressions: blank lines, table headers, headers
of arrays of tables, and entries whose value may go on over further lines.  A
dependency is declared where some expression defines a path through its name
in a dependency table.

Its answer about a package is right when the package is declared exactly if
some line of a dependency section has it as its key.  That is so in a document
that is plain for the package: the package is declared by an entry of its own
below the header of a dependency table, and no other line gives it.
-/

namespace FireCrow.Agents.Osv

open FireCrow.Library

/-! ## Documents -/

/-- A key as it is written, with the name that it stands for. -/
inductive Key where
  | bare (name : Text)
  | basic (raw name : Text)
  | literal (name : Text)

namespace Key

def name : Key → Text
  | .bare name => name
  | .basic _ name => name
  | .literal name => name

def text : Key → Text
  | .bare name => name
  | .basic raw _ => '"' :: raw ++ ['"']
  | .literal name => '\'' :: name ++ ['\'']

def isBareChar (character : Char) : Bool :=
  Text.isAsciiAlphanumeric character || character == '_' || character == '-'

/-- What a document may write as a key. -/
def Valid : Key → Prop
  | .bare name => name ≠ [] ∧ ∀ character ∈ name, isBareChar character = true
  | .basic raw name => '\\' ∈ raw ∨ (raw = name ∧ '"' ∉ raw)
  | .literal name => '\'' ∉ name

end Key

/-- A part of a dotted key with the blanks around it. -/
structure Segment where
  before : Text
  key : Key
  after : Text

def Segment.text (segment : Segment) : Text :=
  segment.before ++ segment.key.text ++ segment.after

def pathText (path : List Segment) : Text :=
  Text.join ['.'] (path.map Segment.text)

def pathNames (path : List Segment) : List Text :=
  path.map fun segment => segment.key.name

inductive Expression where
  | blank (line : Text)
  | header (indent : Text) (path : List Segment) (rest : Text)
  | arrayHeader (indent : Text) (path : List Segment) (rest : Text)
  /-- An entry with the first line of its value, the lines after it, and the
  key paths of an inline table. -/
  | entry (indent : Text) (path : List Segment) (value : Text)
      (more : List Text) (inner : List (List Text))

namespace Expression

def firstLine : Expression → Text
  | .blank line => line
  | .header indent path rest => indent ++ '[' :: pathText path ++ ']' :: rest
  | .arrayHeader indent path rest =>
      indent ++ '[' :: '[' :: pathText path ++ ']' :: ']' :: rest
  | .entry indent path value _ _ => indent ++ pathText path ++ '=' :: value

def moreLines : Expression → List Text
  | .blank _ => []
  | .header _ _ _ => []
  | .arrayHeader _ _ _ => []
  | .entry _ _ _ more _ => more

def lines (expression : Expression) : List Text :=
  expression.firstLine :: expression.moreLines

/-- The table that the entries after an expression belong to. -/
def table (current : List Text) : Expression → List Text
  | .blank _ => current
  | .header _ path _ => pathNames path
  | .arrayHeader _ path _ => pathNames path
  | .entry _ _ _ _ _ => current

/-- The paths that an expression defines. -/
def defines (current : List Text) : Expression → List (List Text)
  | .blank _ => []
  | .header _ path _ => [pathNames path]
  | .arrayHeader _ path _ => [pathNames path]
  | .entry _ path _ _ inner =>
      ([] :: inner).map fun deeper => current ++ pathNames path ++ deeper

/-- What a document may write, as far as its reading depends on it. -/
def Valid : Expression → Prop
  | .blank line => line.trim = [] ∨ line.trim.head? = some '#'
  | .header indent path rest =>
      indent.all Text.isWhitespace = true ∧ path ≠ [] ∧
        (∀ segment ∈ path, segment.key.Valid) ∧
        (rest.trim = [] ∨ rest.trim.head? = some '#')
  | .arrayHeader indent path rest =>
      indent.all Text.isWhitespace = true ∧ path ≠ [] ∧
        (∀ segment ∈ path, segment.key.Valid) ∧
        (rest.trim = [] ∨ rest.trim.head? = some '#')
  | .entry indent path _ _ _ =>
      indent.all Text.isWhitespace = true ∧ path ≠ [] ∧
        ∀ segment ∈ path, segment.key.Valid ∧
          segment.before.all Text.isWhitespace = true ∧
          segment.after.all Text.isWhitespace = true

end Expression

/-- The paths that the expressions define from a table on. -/
def definitions : List Text → List Expression → List (List Text)
  | _, [] => []
  | current, expression :: rest =>
      expression.defines current ++ definitions (expression.table current) rest

/-- The paths of the arrays of tables. -/
def arrayPaths (document : List Expression) : List (List Text) :=
  document.filterMap fun expression =>
    match expression with
    | .arrayHeader _ path _ => some (pathNames path)
    | _ => none

def dependencySections : List Text :=
  ["dependencies", "dev-dependencies", "build-dependencies"]

/-- The path of a table of dependencies, for every target or for one, that is
in no array. -/
def DependencyTable (document : List Expression) (path : List Text) : Prop :=
  (∃ section_ ∈ dependencySections, path = [section_] ∨
    ∃ target, path = [("target" : Text), target, section_]) ∧
  ∀ array ∈ arrayPaths document, ¬ array <+: path

/-- A path lies in the dependency of a name. -/
def Within (document : List Expression) (name : Text) (path : List Text) : Prop :=
  ∃ table, DependencyTable document table ∧ table ++ [name] <+: path

/-- The document has the name as a key of a dependency table. -/
def Declares (document : List Expression) (name : Text) : Prop :=
  ∃ path ∈ definitions [] document, Within document name path

/-- A text is written as a document. -/
structure Spells (text : Text) (document : List Expression) : Prop where
  lines : lines text = document.flatMap Expression.lines
  valid : ∀ expression ∈ document, expression.Valid

/-! ## Plain documents -/

section Reading

variable [UnicodeTables]

/-- A key that the reader takes for its name. -/
def Key.Plain : Key → Prop
  | .bare _ => True
  | .basic raw name => raw = name ∧ raw ≠ [] ∧
      ∀ character ∈ raw, character ∉ ['"', '#', '=']
  | .literal _ => False

/-- Whether a line below others is read as one of a dependency section. -/
def opensAfter : Bool → List Text → Bool
  | inDeps, [] => inDeps
  | inDeps, line :: rest =>
      opensAfter
        (if line.trim.startsWith ['['] then opensDependencies line.trim
          else inDeps) rest

/-- Some line of a dependency section has the name as its key. -/
def Told (lines : List Text) (name : Text) : Prop :=
  ∃ front line back, lines = front ++ line :: back ∧
    opensAfter false front = true ∧ line.trim.startsWith ['['] = false ∧
    dependencyKey line.trim = some name

/-- A line that neither gives the name nor ends or opens a section. -/
def Silent (name : Text) (inDeps : Bool) (line : Text) : Prop :=
  if line.trim.startsWith ['['] then opensDependencies line.trim = inDeps
  else inDeps = true → dependencyKey line.trim ≠ some name

/-- An expression whose lines tell of the name what it declares: a header that
does not declare it, an entry with one plain key in a dependency table, or any
other entry that neither declares it nor gives it. -/
def PlainIn (document : List Expression) (name : Text) (current : List Text)
    (inDeps : Bool) : Expression → Prop
  | .blank _ => True
  | .header _ path _ => ¬ Within document name (pathNames path)
  | .arrayHeader _ path _ => ¬ Within document name (pathNames path)
  | .entry indent path value more inner =>
      ((DependencyTable document current ∧ inDeps = true ∧
          ∃ segment, path = [segment] ∧ segment.key.Plain) ∨
        (∀ deeper ∈ [] :: inner,
            ¬ Within document name (current ++ pathNames path ++ deeper)) ∧
          Silent name inDeps (indent ++ pathText path ++ '=' :: value)) ∧
      ∀ line ∈ more, Silent name inDeps line

/-- Every expression is plain where it stands. -/
def PlainFrom (document : List Expression) (name : Text) :
    List Text → Bool → List Expression → Prop
  | _, _, [] => True
  | current, inDeps, expression :: rest =>
      PlainIn document name current inDeps expression ∧
        PlainFrom document name (expression.table current)
          (opensAfter inDeps [expression.firstLine]) rest

end Reading

/-! ## Lines -/

theorem startsWith_bracket (first : Char) (rest : Text) :
    Text.startsWith (first :: rest) ['['] = decide (first = '[') := by
  rw [Text.startsWith, List.isPrefixOf, List.isPrefixOf, Bool.and_true]
  exact decide_eq_decide.2 eq_comm

theorem dependencyKey_comment {line : Text}
    (comment : line = [] ∨ line.head? = some '#') : dependencyKey line = none := by
  have code : line.takeWhile (fun character => character ≠ '#') = [] := by
    rcases comment with rfl | head
    · rfl
    · cases line with
      | nil => rfl
      | cons first rest =>
          rw [Option.some.inj head]
          rfl
  simp only [dependencyKey, code]
  rfl

section Lines

variable [UnicodeTables] {name : Text}

variable {line : Text}

/-- A silent line leaves the reading of the name as it is. -/
theorem mem_cargoKeys_silent {inDeps : Bool}
    (silent : Silent name inDeps line) (rest : List Text) :
    name ∈ cargoKeys inDeps (line :: rest) ↔ name ∈ cargoKeys inDeps rest := by
  rw [Silent] at silent
  rw [cargoKeys]
  split at silent
  · rename_i header
    rw [if_pos header, silent]
  · rename_i header
    rw [if_neg header]
    split
    · rename_i opened
      rw [List.mem_append, Option.mem_toList]
      exact or_iff_right (silent opened)
    · rfl

theorem mem_cargoKeys_silent_lines {inDeps : Bool} {more : List Text}
    (silent : ∀ line ∈ more, Silent name inDeps line) (rest : List Text) :
    name ∈ cargoKeys inDeps (more ++ rest) ↔ name ∈ cargoKeys inDeps rest := by
  induction more with
  | nil => rfl
  | cons line more ih =>
      rw [List.cons_append, mem_cargoKeys_silent (silent line List.mem_cons_self),
        ih fun other member => silent other (List.mem_cons_of_mem _ member)]

theorem cargoKeys_header (header : line.trim.startsWith ['['] = true)
    (inDeps : Bool) (rest : List Text) :
    cargoKeys inDeps (line :: rest) =
      cargoKeys (opensAfter inDeps [line]) rest := by
  simp only [cargoKeys, opensAfter, header, if_true]

/-- The reader collects the keys of the lines in dependency sections. -/
theorem mem_cargoKeys_iff (inDeps : Bool) (lines : List Text) :
    name ∈ cargoKeys inDeps lines ↔
      ∃ front line back, lines = front ++ line :: back ∧
        opensAfter inDeps front = true ∧ line.trim.startsWith ['['] = false ∧
        dependencyKey line.trim = some name := by
  induction lines generalizing inDeps with
  | nil => simp [cargoKeys]
  | cons line rest ih =>
      have later : (∃ front other back, line :: rest = front ++ other :: back ∧
          opensAfter inDeps front = true ∧ other.trim.startsWith ['['] = false ∧
          dependencyKey other.trim = some name) ↔
        (inDeps = true ∧ line.trim.startsWith ['['] = false ∧
          dependencyKey line.trim = some name) ∨
        name ∈ cargoKeys (opensAfter inDeps [line]) rest := by
        rw [ih]
        constructor
        · rintro ⟨front, other, back, same, opened, plain, key⟩
          cases front with
          | nil =>
              cases same
              exact Or.inl ⟨opened, plain, key⟩
          | cons first front =>
              cases same
              exact Or.inr ⟨front, other, back, rfl, opened, plain, key⟩
        · rintro (⟨opened, plain, key⟩ | ⟨front, other, back, rfl, opened, plain, key⟩)
          · exact ⟨[], line, rest, rfl, opened, plain, key⟩
          · exact ⟨line :: front, other, back, rfl, opened, plain, key⟩
      rw [later]
      by_cases header : line.trim.startsWith ['['] = true
      · rw [cargoKeys_header header]
        simp [header]
      · rw [cargoKeys, opensAfter, opensAfter]
        cases inDeps with
        | true => simp [header, Option.mem_toList]
        | false => simp [header]

omit [UnicodeTables] in
theorem blank_not_header (blank : line.trim = [] ∨ line.trim.head? = some '#') :
    line.trim.startsWith ['['] = false := by
  rcases blank with empty | comment
  · rw [empty]
    rfl
  · cases same : line.trim with
    | nil => rfl
    | cons first rest =>
        rw [same] at comment
        rw [Option.some.inj comment, startsWith_bracket]
        rfl

theorem silent_blank
    (blank : line.trim = [] ∨ line.trim.head? = some '#') (inDeps : Bool) :
    Silent name inDeps line := by
  rw [Silent, blank_not_header blank, if_neg Bool.false_ne_true,
    dependencyKey_comment blank]
  exact fun _ => (Option.some_ne_none name).symm

theorem opensAfter_other
    (other : line.trim.startsWith ['['] = false) (inDeps : Bool) :
    opensAfter inDeps [line] = inDeps := by
  simp only [opensAfter, other, Bool.false_eq_true, if_false]

end Lines

/-! ## Keys -/

variable {character : Char}

theorem bare_bounds (bare : Key.isBareChar character = true) :
    45 ≤ character.val.toNat ∧ character.val.toNat ≤ 122 ∧
      character ≠ '[' := by
  have range : ∀ low high : Char, 45 ≤ low.val.toNat → high.val.toNat ≤ 122 →
      (decide (low ≤ character) && decide (character ≤ high)) = true →
      45 ≤ character.val.toNat ∧ character.val.toNat ≤ 122 := by
    intro low high least most within
    rw [Bool.and_eq_true, decide_eq_true_eq, decide_eq_true_eq, Char.le_def,
      Char.le_def, UInt32.le_iff_toNat_le, UInt32.le_iff_toNat_le] at within
    exact ⟨least.trans within.1, within.2.trans most⟩
  have bounds : 45 ≤ character.val.toNat ∧ character.val.toNat ≤ 122 := by
    simp only [Key.isBareChar, Text.isAsciiAlphanumeric, Text.isAsciiDigit,
      Text.isAsciiUppercase, Text.isAsciiLowercase, Bool.or_eq_true,
      beq_iff_eq] at bare
    rcases bare with (((digit | upper) | lower) | rfl) | rfl
    · exact range '0' '9' (by decide) (by decide) digit
    · exact range 'A' 'Z' (by decide) (by decide) upper
    · exact range 'a' 'z' (by decide) (by decide) lower
    · decide
    · decide
  refine ⟨bounds.1, bounds.2, ?_⟩
  rintro rfl
  exact absurd bare (by decide)

theorem not_whitespace_of_bare (bare : Key.isBareChar character = true) :
    Text.isWhitespace character = false := by
  have bounds := bare_bounds bare
  simp only [Text.isWhitespace, Bool.or_eq_false_iff, Bool.and_eq_false_iff,
    beq_eq_false_iff_ne, decide_eq_false_iff_not]
  omega

/-- What the reader relies on in the text of a key. -/
structure Key.Readable (key : Key) : Prop where
  starts : ∃ first front, key.text = first :: front ∧
    Text.isWhitespace first = false ∧ first ≠ '['
  ends : ∃ front last, key.text = front ++ [last] ∧
    Text.isWhitespace last = false
  comment : '#' ∉ key.text
  equals : '=' ∉ key.text
  name : trimMatches (fun character => character = '"') key.text = key.name
  nonempty : key.name ≠ []

theorem trimMatches_eq_self {strips : Char → Bool} {text : Text}
    (kept : ∀ character ∈ text, strips character = false) :
    trimMatches strips text = text := by
  have front : text.dropWhile strips = text := by
    cases text with
    | nil => rfl
    | cons first rest =>
        rw [List.dropWhile_cons_of_neg]
        rw [kept first List.mem_cons_self]
        exact Bool.false_ne_true
  rw [trimMatches, front, List.rdropWhile_eq_self_iff]
  intro nonempty
  rw [kept _ (List.getLast_mem nonempty)]
  exact Bool.false_ne_true

theorem trimMatches_quoted {text : Text} (unquoted : '"' ∉ text)
    (nonempty : text ≠ []) :
    trimMatches (fun character => character = '"') ('"' :: text ++ ['"']) = text := by
  cases text with
  | nil => exact absurd rfl nonempty
  | cons first rest =>
      have inner : first ≠ '"' := fun same =>
        unquoted (by rw [same]; exact List.mem_cons_self)
      rw [trimMatches, List.cons_append, List.dropWhile_cons_of_pos (by decide),
        List.cons_append, List.dropWhile_cons_of_neg (by simpa using inner),
        ← List.cons_append, List.rdropWhile_concat_pos _ _ _ (by decide),
        List.rdropWhile_eq_self_iff]
      intro nonempty quote
      apply unquoted
      rw [← of_decide_eq_true quote]
      exact List.getLast_mem nonempty

variable {key : Key}

theorem Key.Plain.readable (plain : key.Plain) (valid : key.Valid) :
    key.Readable := by
  cases key with
  | bare name =>
      rcases valid with ⟨nonempty, bare⟩
      have absent : ∀ mark, Key.isBareChar mark = false → mark ∉ name := by
        intro mark refused member
        rw [bare mark member] at refused
        cases refused
      refine ⟨?_, ?_, absent '#' (by decide), absent '=' (by decide), ?_, nonempty⟩
      · cases name with
        | nil => exact absurd rfl nonempty
        | cons first front =>
            have here := bare first List.mem_cons_self
            exact ⟨first, front, rfl, not_whitespace_of_bare here,
              (bare_bounds here).2.2⟩
      · refine ⟨name.dropLast, name.getLast nonempty,
          (List.dropLast_append_getLast nonempty).symm, ?_⟩
        exact not_whitespace_of_bare (bare _ (List.getLast_mem nonempty))
      · apply trimMatches_eq_self
        intro character member
        rw [decide_eq_false_iff_not]
        rintro rfl
        exact absent '"' (by decide) member
  | basic raw name =>
      rcases plain with ⟨rfl, nonempty, safe⟩
      have absent : ∀ mark ∈ ['"', '#', '='], mark ∉ raw :=
        fun mark inMarks member => safe mark member inMarks
      refine ⟨⟨'"', raw ++ ['"'], rfl, by decide, by decide⟩,
        ⟨'"' :: raw, '"', rfl, by decide⟩, ?_, ?_, ?_, nonempty⟩
      · simp [Key.text, absent '#' (by decide)]
      · simp [Key.text, absent '=' (by decide)]
      · exact trimMatches_quoted (absent '"' (by decide)) nonempty
  | literal name => cases plain

theorem Key.Valid.starts (valid : key.Valid) :
    ∃ first front, key.text = first :: front ∧
      Text.isWhitespace first = false ∧ first ≠ '[' := by
  cases key with
  | bare name =>
      exact (Key.Plain.readable (show (Key.bare name).Plain from trivial) valid).starts
  | basic raw name => exact ⟨'"', raw ++ ['"'], rfl, by decide, by decide⟩
  | literal name => exact ⟨'\'', name ++ ['\''], rfl, by decide, by decide⟩

/-! ## Entries -/

theorem not_mem_of_blank {blanks : Text}
    (blank : blanks.all Text.isWhitespace = true)
    (visible : Text.isWhitespace character = false) : character ∉ blanks := by
  intro member
  rw [List.all_eq_true.1 blank character member] at visible
  cases visible

theorem Key.Readable.trim_text (readable : key.Readable)
    {after : Text} (blank : after.all Text.isWhitespace = true) :
    (key.text ++ after).trim = key.text := by
  rcases readable.starts with ⟨first, rest, starts, visible, _⟩
  rcases readable.ends with ⟨front, last, ends, lastVisible⟩
  have opening : (key.text ++ after).dropWhile Text.isWhitespace =
      key.text ++ after := by
    rw [starts, List.cons_append, List.dropWhile_cons_of_neg]
    rw [visible]
    exact Bool.false_ne_true
  have closing : after.rdropWhile Text.isWhitespace = [] := by
    rw [List.rdropWhile_eq_nil_iff]
    exact List.all_eq_true.1 blank
  rw [Text.trim, opening, ends, List.append_assoc, List.singleton_append,
    Text.rdropWhile_around lastVisible, closing]

theorem dependencyKey_entry (readable : key.Readable)
    {after : Text} (blank : after.all Text.isWhitespace = true) (value : Text) :
    dependencyKey (key.text ++ after ++ '=' :: value) = some key.name := by
  rcases readable.starts with ⟨first, rest, starts, visible, _⟩
  have uncommented : ∀ character ∈ key.text ++ after,
      decide (character ≠ '#') = true := by
    intro character member
    rw [decide_eq_true_eq]
    rintro rfl
    rcases List.mem_append.1 member with inKey | inAfter
    · exact readable.comment inKey
    · exact not_mem_of_blank blank (by decide) inAfter
  have unequal : '=' ∉ key.text ++ after := by
    rw [List.mem_append, not_or]
    exact ⟨readable.equals, not_mem_of_blank blank (by decide)⟩
  have code : (key.text ++ after ++ '=' :: value).takeWhile
      (fun character => decide (character ≠ '#')) =
        key.text ++ after ++
          '=' :: value.takeWhile (fun character => decide (character ≠ '#')) := by
    rw [List.takeWhile_append_of_pos uncommented,
      List.takeWhile_cons_of_pos (by decide)]
  have trimmed : ∀ back : Text, (key.text ++ after ++ '=' :: back).trim =
      key.text ++ after ++ '=' :: back.rdropWhile Text.isWhitespace := by
    intro back
    rw [starts]
    exact Text.trim_around [] (rest ++ after) rfl visible (by decide) back
  simp only [dependencyKey, code, trimmed, Text.splitOnce_append _ unequal,
    readable.trim_text blank, readable.name]
  rw [if_neg]
  simpa using readable.nonempty

theorem entry_trim {segment : Segment} (readable : segment.key.Readable)
    {indent : Text} (blank : indent.all Text.isWhitespace = true)
    (before : segment.before.all Text.isWhitespace = true) (value : Text) :
    (indent ++ pathText [segment] ++ '=' :: value).trim =
      segment.key.text ++ segment.after ++
        '=' :: value.rdropWhile Text.isWhitespace := by
  rcases readable.starts with ⟨first, front, starts, visible, _⟩
  have blanks : (indent ++ segment.before).all Text.isWhitespace = true := by
    rw [List.all_append, blank, before, Bool.and_true]
  have spelled : indent ++ pathText [segment] ++ '=' :: value =
      (indent ++ segment.before) ++
        (first :: (front ++ segment.after) ++ '=' :: value) := by
    rw [pathText, List.map_singleton, Text.join_singleton]
    simp [Segment.text, starts]
  rw [spelled, Text.trim_around _ _ blanks visible (by decide), starts]
  simp

/-- The first line of an entry is no header. -/
theorem entry_not_header {segment : Segment} (others : List Segment)
    (valid : segment.key.Valid) {indent : Text}
    (blank : indent.all Text.isWhitespace = true)
    (before : segment.before.all Text.isWhitespace = true) (value : Text) :
    Text.startsWith
      (indent ++ pathText (segment :: others) ++ '=' :: value).trim ['['] =
        false := by
  rcases valid.starts with ⟨first, front, starts, visible, noBracket⟩
  rcases Text.join_cons '.' segment.text (others.map Segment.text) with
    ⟨tail, spelled⟩
  have blanks : (indent ++ segment.before).all Text.isWhitespace = true := by
    rw [List.all_append, blank, before, Bool.and_true]
  have line : indent ++ pathText (segment :: others) ++ '=' :: value =
      (indent ++ segment.before) ++
        first :: (front ++ segment.after ++ tail ++ '=' :: value) := by
    rw [pathText, List.map_cons, spelled]
    simp [Segment.text, starts]
  rw [line, Text.trim_head _ blanks visible, startsWith_bracket,
    decide_eq_false_iff_not]
  exact noBracket

/-! ## Expressions -/

/-- Two dependency tables above one path are the same. -/
theorem DependencyTable.unique {document : List Expression}
    {one other path : List Text} (first : DependencyTable document one)
    (second : DependencyTable document other) (below : one <+: path)
    (otherBelow : other <+: path) : one = other := by
  have sections : ∀ section_ ∈ dependencySections, section_ ≠ ("target" : Text) := by
    decide
  rcases below with ⟨tail, rfl⟩
  rcases first.1 with ⟨oneSection, oneMember, rfl | ⟨oneTarget, rfl⟩⟩ <;>
    rcases second.1 with ⟨section_, member, rfl | ⟨target, rfl⟩⟩
  · rw [(List.cons_prefix_cons.1 otherBelow).1]
  · exact absurd (List.cons_prefix_cons.1 otherBelow).1.symm
      (sections oneSection oneMember)
  · exact absurd (List.cons_prefix_cons.1 otherBelow).1 (sections section_ member)
  · have second := List.cons_prefix_cons.1 (List.cons_prefix_cons.1 otherBelow).2
    rw [second.1, (List.cons_prefix_cons.1 second.2).1]

theorem within_entry {document : List Expression} {current : List Text}
    (dependencies : DependencyTable document current) (key : Text)
    (deeper : List Text) (name : Text) :
    Within document name (current ++ key :: deeper) ↔ name = key := by
  constructor
  · rintro ⟨table, isTable, below⟩
    have same : table = current := isTable.unique dependencies
      ((List.prefix_append _ _).trans below) (List.prefix_append _ _)
    rw [same, List.prefix_append_right_inj, List.cons_prefix_cons] at below
    exact below.1
  · rintro rfl
    refine ⟨current, dependencies, ?_⟩
    rw [List.prefix_append_right_inj, List.cons_prefix_cons]
    exact ⟨rfl, List.nil_prefix⟩

section Expressions

variable [UnicodeTables] {document : List Expression} {name : Text}

/-- A header that is plain for a name only opens or ends a section. -/
theorem mem_cargoKeys_header {line : Text} {path : List Text}
    (header : line.trim.startsWith ['['] = true)
    (plain : ¬ Within document name path) (inDeps : Bool) (rest : List Text) :
    name ∈ cargoKeys inDeps (line :: rest) ↔
      (∃ defined ∈ [path], Within document name defined) ∨
        name ∈ cargoKeys (opensAfter inDeps [line]) rest := by
  rw [cargoKeys_header header]
  simp [plain]

/-- The line of a plain entry in a dependency section. -/
theorem mem_cargoKeys_entry {segment : Segment}
    (readable : segment.key.Readable) {indent : Text}
    (blank : indent.all Text.isWhitespace = true)
    (before : segment.before.all Text.isWhitespace = true)
    (after : segment.after.all Text.isWhitespace = true) {value : Text}
    {rest : List Text} :
    name ∈ cargoKeys true ((indent ++ pathText [segment] ++ '=' :: value) :: rest) ↔
      name = segment.key.name ∨ name ∈ cargoKeys true rest := by
  rcases readable.starts with ⟨first, front, starts, _, noBracket⟩
  have bracket : ¬ Text.startsWith (segment.key.text ++ segment.after ++
      '=' :: value.rdropWhile Text.isWhitespace) ['['] = true := by
    rw [starts, List.cons_append, List.cons_append, startsWith_bracket,
      decide_eq_true_eq]
    exact noBracket
  rw [cargoKeys]
  simp only [entry_trim readable blank before, bracket, Bool.false_eq_true,
    if_false, if_true, dependencyKey_entry readable after, Option.toList_some,
    List.singleton_append, List.mem_cons]

variable {current : List Text}

omit [UnicodeTables] in
theorem declares_entry
    (dependencies : DependencyTable document current) (segment : Segment)
    (inner : List (List Text)) {indent value : Text} {more : List Text} :
    (∃ path ∈ (Expression.entry indent [segment] value more inner).defines current,
        Within document name path) ↔ name = segment.key.name := by
  have inTable : ∀ deeper, Within document name
      (current ++ pathNames [segment] ++ deeper) ↔ name = segment.key.name := by
    intro deeper
    rw [List.append_assoc]
    exact within_entry dependencies segment.key.name deeper name
  simp only [Expression.defines, List.mem_map, exists_exists_and_eq_and, inTable]
  exact ⟨fun ⟨_, _, same⟩ => same, fun same => ⟨[], List.mem_cons_self, same⟩⟩

/-- A plain expression is read as what it declares. -/
theorem mem_cargoKeys_expression {inDeps : Bool}
    {expression : Expression} (valid : expression.Valid)
    (plain : PlainIn document name current inDeps expression)
    (rest : List Text) :
    name ∈ cargoKeys inDeps (expression.lines ++ rest) ↔
      (∃ path ∈ expression.defines current, Within document name path) ∨
        name ∈ cargoKeys (opensAfter inDeps [expression.firstLine]) rest := by
  cases expression with
  | blank line =>
      have silent : Silent name inDeps line := silent_blank valid inDeps
      rw [Expression.firstLine, opensAfter_other (blank_not_header valid)]
      have line_ : name ∈ cargoKeys inDeps ((Expression.blank line).lines ++ rest) ↔
          name ∈ cargoKeys inDeps rest := mem_cargoKeys_silent silent rest
      simpa [Expression.defines] using line_
  | header | arrayHeader =>
      apply mem_cargoKeys_header _ plain
      rw [Expression.firstLine, List.append_assoc, List.cons_append,
        Text.trim_head _ valid.1 (by decide), startsWith_bracket]
      decide
  | entry indent path value more inner =>
      rcases valid with ⟨blank, nonempty, segments⟩
      rcases plain with ⟨plain, silent⟩
      cases path with
      | nil => exact absurd rfl nonempty
      | cons segment others =>
          rcases segments segment List.mem_cons_self with ⟨keyValid, before, after⟩
          have entry := entry_not_header others keyValid blank before value
          have lines : (Expression.entry indent (segment :: others) value more
              inner).lines ++ rest =
                (indent ++ pathText (segment :: others) ++ '=' :: value) ::
                  (more ++ rest) := rfl
          rw [lines, Expression.firstLine, opensAfter_other entry]
          rcases plain with ⟨dependencies, rfl, single, same, keyPlain⟩ |
            ⟨undeclared, ungiven⟩
          · cases same
            rw [mem_cargoKeys_entry (keyPlain.readable keyValid) blank before after,
              mem_cargoKeys_silent_lines silent,
              declares_entry dependencies segment inner]
          · rw [mem_cargoKeys_silent ungiven, mem_cargoKeys_silent_lines silent]
            refine (or_iff_right ?_).symm
            rintro ⟨path, member, within⟩
            rcases List.mem_map.1 member with ⟨deeper, inner, rfl⟩
            exact undeclared deeper inner within

/-- The reader finds a name in the lines of a document that is plain for it
where the document declares it. -/
theorem mem_cargoKeys_document {inDeps : Bool}
    {rest : List Expression} (valid : ∀ expression ∈ rest, expression.Valid)
    (plain : PlainFrom document name current inDeps rest) :
    name ∈ cargoKeys inDeps (rest.flatMap Expression.lines) ↔
      ∃ path ∈ definitions current rest, Within document name path := by
  induction rest generalizing current inDeps with
  | nil => simp [cargoKeys, definitions]
  | cons expression rest ih =>
      rw [List.flatMap_cons,
        mem_cargoKeys_expression (valid expression List.mem_cons_self) plain.1,
        ih (fun other member => valid other (List.mem_cons_of_mem _ member))
          plain.2, definitions]
      simp only [List.mem_append, or_and_right, exists_or]

end Expressions

/-! ## Directness -/

section Directness

variable [FloatFormat] [UnicodeTables]

/-- The file that the adapter reads for a manifest of Cargo. -/
def cargoManifest (tree : SourceTree) (manifest : Text) : Option (List Fetch.Component) :=
  let path := joined manifest
  if tree.fileName path = some ("Cargo.toml" : Text) then some path
  else if tree.fileName path = some ("Cargo.lock" : Text) then
    some (withFileName path "Cargo.toml")
  else none

/-- Whenever the adapter decides whether a package is direct, it says what the
document declares. -/
def DirectnessRight (tree : SourceTree) (manifest package : Text)
    (document : List Expression) : Prop :=
  ∀ direct, osvDirectness tree manifest package = some direct →
    (direct = true ↔ Declares document package)

theorem osvDirectness_cargo {tree : SourceTree} {manifest : Text}
    {path : List Fetch.Component} (cargo : cargoManifest tree manifest = some path)
    (package : Text) :
    osvDirectness tree manifest package =
      (tree.readToString path).map fun text =>
        decide (package ∈ cargoKeys false (lines text)) := by
  have others : ∀ name ∈ [("Cargo.toml" : Text), "Cargo.lock"],
      name ≠ ("package.json" : Text) ∧ name ≠ ("package-lock.json" : Text) ∧
        name ≠ ("npm-shrinkwrap.json" : Text) := by decide
  rw [cargoManifest] at cargo
  split at cargo
  · rename_i named
    cases cargo
    rcases others _ List.mem_cons_self with ⟨first, second, third⟩
    simp only [osvDirectness, named, first, second, third, or_self, if_false,
      if_true, cargoDirectDeps, Option.map_map]
    rfl
  · split at cargo
    · rename_i other named
      cases cargo
      rcases others _ (List.mem_cons_of_mem _ List.mem_cons_self) with
        ⟨first, second, third⟩
      have differs : ("Cargo.lock" : Text) ≠ "Cargo.toml" := by decide
      simp only [osvDirectness, named, first, second, third, differs, or_self,
        if_false, if_true, cargoDirectDeps, Option.map_map]
      rfl
    · cases cargo

variable {tree : SourceTree} {manifest text : Text}
  {path : List Fetch.Component} {document : List Expression}

theorem directnessRight_iff (cargo : cargoManifest tree manifest = some path)
    (read : tree.readToString path = some text) (package : Text) :
    DirectnessRight tree manifest package document ↔
      (package ∈ cargoKeys false (lines text) ↔ Declares document package) := by
  have decided : osvDirectness tree manifest package =
      some (decide (package ∈ cargoKeys false (lines text))) := by
    rw [osvDirectness_cargo cargo, read, Option.map_some]
  constructor
  · intro right
    rw [← right _ decided, decide_eq_true_eq]
  · intro same direct answered
    rw [decided] at answered
    rw [← same, ← Option.some.inj answered, decide_eq_true_eq]

/-- The answer about a package is right when the package is declared exactly if
some line tells it, as it is in every document that is plain for the package;
there is no answer without the manifest. -/
theorem directness_right_iff (cargo : cargoManifest tree manifest = some path)
    (spells : Spells text document) (package : Text) :
    (tree.readToString path = some text →
      (DirectnessRight tree manifest package document ↔
        (Declares document package ↔ Told (lines text) package)) ∧
      (PlainFrom document package [] false document →
        DirectnessRight tree manifest package document)) ∧
    (tree.readToString path = none →
      osvDirectness tree manifest package = none) := by
  refine ⟨fun read => ⟨?_, fun plain => ?_⟩, fun unread => ?_⟩
  · rw [directnessRight_iff cargo read, mem_cargoKeys_iff]
    exact iff_comm
  · rw [directnessRight_iff cargo read, spells.lines]
    exact mem_cargoKeys_document spells.valid plain
  · rw [osvDirectness_cargo cargo, unread, Option.map_none]

end Directness

/-! ## Two spellings of one dependency -/

section Spellings

attribute [local instance] FloatFormat.integersOnly UnicodeTables.ascii

/-- A snapshot in which every file has one text. -/
def manifestTree (text : Text) (fits : text.byteLen ≤ Fetch.maxFileBytes) :
    SourceTree where
  name := none
  readToString _ := some text
  fits _ _ read := Option.some.inj read ▸ fits

def bareSegment (name after : Text) : Segment := ⟨[], .bare name, after⟩

def entryText : Text := "[dependencies]\nserde = \"1\"\n"

def entryDocument : List Expression :=
  [.header [] [bareSegment "dependencies" []] [],
    .entry [] [bareSegment "serde" [' ']] " \"1\"" [] []]

def subTableText : Text := "[dependencies.serde]\nversion = \"1\"\n"

def subTableDocument : List Expression :=
  [.header [] [bareSegment "dependencies" [], bareSegment "serde" []] [],
    .entry [] [bareSegment "version" [' ']] " \"1\"" [] []]

theorem entryText_fits : entryText.byteLen ≤ Fetch.maxFileBytes := by
  decide

theorem subTableText_fits : subTableText.byteLen ≤ Fetch.maxFileBytes := by
  decide

theorem bareSegment_valid {name after : Text} (nonempty : name ≠ [])
    (bare : ∀ character ∈ name, Key.isBareChar character = true) :
    (bareSegment name after).key.Valid :=
  ⟨nonempty, bare⟩

theorem entry_valid {name value : Text} (nonempty : name ≠ [])
    (bare : ∀ character ∈ name, Key.isBareChar character = true) :
    (Expression.entry [] [bareSegment name [' ']] value [] []).Valid :=
  ⟨rfl, List.cons_ne_nil _ _,
    List.forall_mem_singleton.2 ⟨bareSegment_valid nonempty bare, rfl, rfl⟩⟩

theorem entryText_spells : Spells entryText entryDocument where
  lines := by decide
  valid := List.forall_mem_cons.2
    ⟨⟨rfl, List.cons_ne_nil _ _,
        List.forall_mem_singleton.2 (bareSegment_valid (by decide) (by decide)),
        Or.inl rfl⟩,
      List.forall_mem_singleton.2 (entry_valid (by decide) (by decide))⟩

theorem subTableText_spells : Spells subTableText subTableDocument where
  lines := by decide
  valid := List.forall_mem_cons.2
    ⟨⟨rfl, List.cons_ne_nil _ _, List.forall_mem_cons.2
        ⟨bareSegment_valid (by decide) (by decide),
          List.forall_mem_singleton.2 (bareSegment_valid (by decide) (by decide))⟩,
        Or.inl rfl⟩,
      List.forall_mem_singleton.2 (entry_valid (by decide) (by decide))⟩

theorem dependencies_table {document : List Expression}
    (free : arrayPaths document = []) :
    DependencyTable document [("dependencies" : Text)] := by
  refine ⟨⟨"dependencies", by decide, Or.inl rfl⟩, ?_⟩
  rw [free]
  exact List.forall_mem_nil _

theorem not_within_table {document : List Expression} (name table : Text) :
    ¬ Within document name [table] := by
  rintro ⟨other, ⟨⟨section_, _, rfl | ⟨target, rfl⟩⟩, _⟩, below⟩
  · exact absurd below.length_le (by simp)
  · exact absurd below.length_le (by simp)

theorem directness_right_iff_entry :
    DirectnessRight (manifestTree entryText entryText_fits) "Cargo.toml" "serde"
      entryDocument := by
  have cargo : cargoManifest (manifestTree entryText entryText_fits) "Cargo.toml" =
      some (joined "Cargo.toml") := by decide
  have opened : opensAfter false
      [(Expression.header [] [bareSegment "dependencies" []] []).firstLine] = true := by
    decide
  apply ((directness_right_iff cargo entryText_spells "serde").1 rfl).2
  refine ⟨not_within_table _ _, ⟨Or.inl ⟨dependencies_table rfl, opened, _, rfl, trivial⟩,
    List.forall_mem_nil _⟩, trivial⟩

/-- A dependency with a table of its own is taken for an indirect one. -/
theorem sub_table_indirect :
    Spells subTableText subTableDocument ∧
      ¬ DirectnessRight (manifestTree subTableText subTableText_fits) "Cargo.toml"
        "serde" subTableDocument := by
  refine ⟨subTableText_spells, fun right => ?_⟩
  have answered : osvDirectness (manifestTree subTableText subTableText_fits)
      "Cargo.toml" "serde" = some false := by decide
  have declared : Declares subTableDocument "serde" :=
    ⟨_, List.mem_cons_self, _, dependencies_table rfl, List.prefix_rfl⟩
  exact Bool.false_ne_true ((right false answered).2 declared)

end Spellings

end FireCrow.Agents.Osv
