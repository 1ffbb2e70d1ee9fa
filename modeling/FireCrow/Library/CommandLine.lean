import FireCrow.Library.Text

/-!
# Flags of a command line

An argument list is read up to its first positional argument.  A long flag has
its value behind an equals sign or, where it needs one, in the next argument;
one-letter flags can stand together.  Two dashes end the flags.
-/

namespace FireCrow.Library.CommandLine

/-- Whether a flag needs a value. -/
inductive Arity where
  | switch
  | valued
deriving DecidableEq

inductive Flag where
  | long (name : Text)
  | short (letter : Char)
deriving DecidableEq

/-- A flag with its value. -/
abbrev Setting := Flag × Text

/-- The flags that a command knows. -/
structure Table where
  long : Text → Option Arity
  short : Char → Option Arity

/-- What one argument is. -/
inductive Token where
  | positional
  | terminator
  | malformed
  | complete (settings : List Setting)
  /-- The last flag has its value in the next argument. -/
  | waiting (settings : List Setting) (last : Flag)

/-- What a flag without value is set to. -/
def set : Text := "true"

namespace Table

variable (table : Table)

/-- An argument that starts with two dashes, without them. -/
def longToken (body : Text) : Token :=
  if body.head? = some '-' ∨ body.head? = some '=' then .malformed
  else
    match Text.splitOnce '=' body with
    | some (name, value) =>
        match table.long name with
        | none => .malformed
        | some _ => .complete [(.long name, value)]
    | none =>
        match table.long body with
        | none => .malformed
        | some .switch => .complete [(.long body, set)]
        | some .valued => .waiting [] (.long body)

/-- The letters of an argument that starts with one dash. -/
def shortToken (before : List Setting) : Text → Token
  | [] => .complete before
  | letter :: letters =>
      match table.short letter with
      | none => .malformed
      | some arity =>
          if 2 ≤ letters.length ∧ letters.head? = some '=' then
            .complete (before ++ [(.short letter, letters.tail)])
          else
            match arity with
            | .switch => shortToken (before ++ [(.short letter, set)]) letters
            | .valued =>
                if letters = [] then .waiting before (.short letter)
                else .complete (before ++ [(.short letter, letters)])

def token : Text → Token
  | '-' :: '-' :: [] => .terminator
  | '-' :: '-' :: body => table.longToken body
  | ['-'] => .positional
  | '-' :: letters => table.shortToken [] letters
  | _ => .positional

/-- The settings of a command line and its positional arguments; `none` where
the command refuses it. -/
def parse : List Text → Option (List Setting × List Text)
  | [] => some ([], [])
  | word :: rest =>
      match table.token word with
      | .positional => some ([], word :: rest)
      | .terminator => some ([], rest)
      | .malformed => none
      | .complete settings =>
          (parse rest).map fun (others, words) => (settings ++ others, words)
      | .waiting settings last =>
          match rest with
          | [] => none
          | value :: rest =>
              (parse rest).map fun (others, words) =>
                (settings ++ (last, value) :: others, words)

/-! ## Reading part of a command line -/

/-- Some arguments are read as settings, whatever follows. -/
def Reads (words : List Text) (settings : List Setting) : Prop :=
  ∀ rest, table.parse (words ++ rest) =
    (table.parse rest).map fun (others, positional) =>
      (settings ++ others, positional)

variable {table}

namespace Reads

theorem nil : table.Reads [] [] := by
  intro rest
  rw [List.nil_append]
  cases table.parse rest <;> rfl

theorem append {front back : List Text} {before after : List Setting}
    (first : table.Reads front before) (second : table.Reads back after) :
    table.Reads (front ++ back) (before ++ after) := by
  intro rest
  rw [List.append_assoc, first, second, Option.map_map]
  refine congrArg (Option.map · _) ?_
  funext entry
  exact Prod.ext (List.append_assoc _ _ _).symm rfl

theorem of_complete {word : Text} {settings : List Setting}
    (whole : table.token word = .complete settings) :
    table.Reads [word] settings := by
  intro rest
  rw [List.singleton_append, parse, whole]

theorem of_waiting {word : Text} {last : Flag}
    (waits : table.token word = .waiting [] last) (value : Text) :
    table.Reads [word, value] [(last, value)] := by
  intro rest
  rw [List.cons_append, List.singleton_append, parse, waits]
  rfl

end Reads

/-- A name of a long flag. -/
structure LongName (name : Text) : Prop where
  nonempty : name ≠ []
  undashed : name.head? ≠ some '-'
  single : '=' ∉ name

instance (name : Text) : Decidable (LongName name) :=
  decidable_of_iff (name ≠ [] ∧ name.head? ≠ some '-' ∧ '=' ∉ name)
    ⟨fun ⟨nonempty, undashed, single⟩ => ⟨nonempty, undashed, single⟩,
      fun form => ⟨form.nonempty, form.undashed, form.single⟩⟩

variable {name : Text}

section

variable (form : LongName name)
include form

theorem LongName.token_eq (rest : Text) :
    table.token ('-' :: '-' :: (name ++ rest)) = table.longToken (name ++ rest) := by
  cases name with
  | nil => exact absurd rfl form.nonempty
  | cons first name => rfl

theorem LongName.plain (rest : Text) :
    ¬ ((name ++ rest).head? = some '-' ∨ (name ++ rest).head? = some '=') := by
  cases name with
  | nil => exact absurd rfl form.nonempty
  | cons first name =>
      rw [List.cons_append, List.head?_cons, Option.some.injEq, Option.some.injEq]
      rintro (rfl | rfl)
      · exact form.undashed rfl
      · exact form.single List.mem_cons_self

/-- A long flag with its value behind an equals sign. -/
theorem Reads.joined {arity : Arity}
    (known : table.long name = some arity) (value : Text) :
    table.Reads ['-' :: '-' :: (name ++ '=' :: value)] [(.long name, value)] := by
  apply of_complete
  rw [form.token_eq, longToken, if_neg (form.plain _),
    Text.splitOnce_append value form.single]
  simp only [known]

/-- A long flag without a value. -/
theorem Reads.switched (known : table.long name = some .switch) :
    table.Reads ['-' :: '-' :: name] [(.long name, set)] := by
  apply of_complete
  have whole : table.token ('-' :: '-' :: (name ++ [])) = table.longToken (name ++ []) :=
    form.token_eq []
  have plain := form.plain []
  rw [List.append_nil] at whole plain
  rw [whole, longToken, if_neg plain, Text.splitOnce_eq_none.2 form.single]
  simp only [known]

/-- A long flag with its value in the next argument. -/
theorem Reads.separate (known : table.long name = some .valued) (value : Text) :
    table.Reads ['-' :: '-' :: name, value] [(.long name, value)] := by
  apply of_waiting
  have whole : table.token ('-' :: '-' :: (name ++ [])) = table.longToken (name ++ []) :=
    form.token_eq []
  have plain := form.plain []
  rw [List.append_nil] at whole plain
  rw [whole, longToken, if_neg plain, Text.splitOnce_eq_none.2 form.single]
  simp only [known]

end

theorem token_short {letter : Char} (undashed : letter ≠ '-') (letters : Text) :
    table.token ('-' :: letter :: letters) =
      table.shortToken [] (letter :: letters) := by
  rw [token]
  · exact fun same => undashed (List.cons.inj same).1
  · exact fun _ same => undashed (List.cons.inj same).1
  · exact List.cons_ne_nil _ _

/-- A one-letter flag with its value in the next argument. -/
theorem Reads.shortSeparate {letter : Char} (undashed : letter ≠ '-')
    (known : table.short letter = some .valued) (value : Text) :
    table.Reads [['-', letter], value] [(.short letter, value)] := by
  apply of_waiting
  rw [token_short undashed, shortToken, known]
  rfl

/-- A one-letter flag with its value behind an equals sign. -/
theorem Reads.shortJoined {letter : Char} (undashed : letter ≠ '-') {arity : Arity}
    (known : table.short letter = some arity) {value : Text}
    (nonempty : value ≠ []) :
    table.Reads ['-' :: letter :: '=' :: value] [(.short letter, value)] := by
  apply of_complete
  have two : 2 ≤ ('=' :: value).length := by
    have positive := List.length_pos_iff.2 nonempty
    rw [List.length_cons]
    omega
  rw [token_short undashed, shortToken, known]
  exact if_pos ⟨two, rfl⟩

variable (table) in
/-- Some arguments spell settings: each is a flag, with or without its value, or
the value of the flag before it. -/
inductive Spells : List Text → List Setting → Prop where
  | nil : Spells [] []
  | switched {name : Text} {words : List Text} {settings : List Setting} :
      LongName name → table.long name = some .switch → Spells words settings →
        Spells (('-' :: '-' :: name) :: words) ((.long name, set) :: settings)
  | joined {name value : Text} {words : List Text} {settings : List Setting} :
      LongName name → table.long name = some .valued → Spells words settings →
        Spells (('-' :: '-' :: (name ++ '=' :: value)) :: words)
          ((.long name, value) :: settings)
  | separate {name value : Text} {words : List Text} {settings : List Setting} :
      LongName name → table.long name = some .valued → Spells words settings →
        Spells (('-' :: '-' :: name) :: value :: words)
          ((.long name, value) :: settings)
  | shortJoined {letter : Char} {value : Text} {words : List Text}
      {settings : List Setting} :
      letter ≠ '-' → table.short letter = some .valued → value ≠ [] →
        Spells words settings →
          Spells (('-' :: letter :: '=' :: value) :: words)
            ((.short letter, value) :: settings)
  | shortSeparate {letter : Char} {value : Text} {words : List Text}
      {settings : List Setting} :
      letter ≠ '-' → table.short letter = some .valued → Spells words settings →
        Spells (['-', letter] :: value :: words)
          ((.short letter, value) :: settings)

namespace Spells

theorem append {front back : List Text} {before after : List Setting}
    (first : table.Spells front before) (second : table.Spells back after) :
    table.Spells (front ++ back) (before ++ after) := by
  induction first with
  | nil => exact second
  | switched form known _ ih => exact .switched form known ih
  | joined form known _ ih => exact .joined form known ih
  | separate form known _ ih => exact .separate form known ih
  | shortJoined undashed known nonempty _ ih =>
      exact .shortJoined undashed known nonempty ih
  | shortSeparate undashed known _ ih => exact .shortSeparate undashed known ih

theorem flatMap {Item : Type} {items : List Item} {words : Item → List Text}
    {setting : Item → Setting}
    (each : ∀ item ∈ items, table.Spells (words item) [setting item]) :
    table.Spells (items.flatMap words) (items.map setting) := by
  induction items with
  | nil => exact .nil
  | cons item items ih =>
      rw [List.flatMap_cons, List.map_cons, ← List.singleton_append]
      exact (each item List.mem_cons_self).append
        (ih fun other member => each other (List.mem_cons_of_mem _ member))

/-- What arguments spell is what they are read as. -/
theorem reads {words : List Text} {settings : List Setting}
    (spells : table.Spells words settings) : table.Reads words settings := by
  induction spells with
  | nil => exact .nil
  | switched form known _ ih => exact (Reads.switched form known).append ih
  | joined form known _ ih => exact (Reads.joined form known _).append ih
  | separate form known _ ih => exact (Reads.separate form known _).append ih
  | shortJoined undashed known nonempty _ ih =>
      exact (Reads.shortJoined undashed known nonempty).append ih
  | shortSeparate undashed known _ ih =>
      exact (Reads.shortSeparate undashed known _).append ih

end Spells

/-- The first argument without a dash ends the flags. -/
theorem parse_positional {words : List Text} {settings : List Setting}
    (spells : table.Spells words settings) {first : Text}
    (undashed : first.head? ≠ some '-') (rest : List Text) :
    table.parse (words ++ first :: rest) = some (settings, first :: rest) := by
  have ended : table.token first = .positional := by
    cases first with
    | nil => rfl
    | cons letter letters =>
        rw [List.head?_cons, ne_eq, Option.some.injEq] at undashed
        rw [token]
        · exact fun same => undashed (List.cons.inj same).1
        · exact fun _ same => undashed (List.cons.inj same).1
        · exact fun same => undashed (List.cons.inj same).1
        · exact fun _ same => undashed (List.cons.inj same).1
  rw [spells.reads, parse, ended]
  exact congrArg (fun front => some (front, first :: rest))
    (List.append_nil settings)

end Table

end FireCrow.Library.CommandLine
