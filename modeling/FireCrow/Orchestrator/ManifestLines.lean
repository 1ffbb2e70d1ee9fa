import FireCrow.Orchestrator.AdvisoryGate

/-!
# The line that declares a package

A lockfile is a list of blocks of lines: an entry of a package at a version, or
lines outside any entry.  The adapter looks for the first line of a form, so
what it returns depends on the first entry that has the form.
-/

namespace FireCrow.Orchestrator.ManifestLines

open FireCrow.Library FireCrow.Agents FireCrow.Agents.Osv

/-! ## Lockfiles -/

/-- Lines of one entry, by its name and version, or lines outside any. -/
structure Block where
  entry : Option (Text × Text)
  lines : List Text

/-- The lines of the blocks in order. -/
def allLines (blocks : List Block) : List Text := blocks.flatMap Block.lines

/-- The entry that a line lies in. -/
def entryOfLine : List Block → Nat → Option (Text × Text)
  | [], _ => none
  | block :: blocks, index =>
      if index < block.lines.length then block.entry
      else entryOfLine blocks (index - block.lines.length)

def nameLine (package : Text) : Text := ("name = \"" : Text) ++ package ++ ['"']

def versionLine (version : Text) : Text :=
  ("version = \"" : Text) ++ version ++ ['"']

/-- A line that gives neither a name nor a version. -/
structure PlainLine (line : Text) : Prop where
  noName : ∀ package, line.trim ≠ nameLine package
  noVersion : ∀ version, line.trim ≠ versionLine version

/-- An entry is a header, its name, its version and further lines. -/
structure CargoEntry (lines : List Text) (name version : Text) : Prop where
  spelled : ∃ header first second extra,
    lines = header :: first :: second :: extra ∧ PlainLine header ∧
      first.trim = nameLine name ∧ second.trim = versionLine version ∧
        ∀ line ∈ extra, PlainLine line

/-- A block as Cargo writes it. -/
structure CargoSpelled (block : Block) : Prop where
  outside : block.entry = none → ∀ line ∈ block.lines, PlainLine line
  inside : ∀ name version, block.entry = some (name, version) →
    CargoEntry block.lines name version

structure CargoLockfile where
  blocks : List Block
  spelled : ∀ block ∈ blocks, CargoSpelled block

/-- An entry opens with its key, which is the name or a path to it, and has
its version behind. -/
structure NpmEntry (lines : List Text) (name version : Text) : Prop where
  spelled : ∃ first rest path, lines = first :: rest ∧
    first.trim = '"' :: path ++ ("\": \x7b" : Text) ∧
      (path = name ∨ ("node_modules/" : Text) ++ name <:+ path) ∧
        ∃ line ∈ rest, ("\"version\": \"" : Text) ++ version ++ ['"'] <+: line.trim

/-- The blocks of a `package-lock.json`, which opens outside any entry. -/
structure NpmLockfile where
  opening : Text
  blocks : List Block
  spelled : ∀ block ∈ blocks, ∀ name version,
    block.entry = some (name, version) → NpmEntry block.lines name version

def NpmLockfile.allBlocks (lockfile : NpmLockfile) : List Block :=
  { entry := none, lines := [lockfile.opening] } :: lockfile.blocks

inductive Lockfile where
  | npm (lockfile : NpmLockfile)
  | cargo (lockfile : CargoLockfile)

def Lockfile.blocks : Lockfile → List Block
  | .npm lockfile => lockfile.allBlocks
  | .cargo lockfile => lockfile.blocks

def Lockfile.fileNames : Lockfile → List Text
  | .npm _ => ["package-lock.json", "npm-shrinkwrap.json"]
  | .cargo _ => ["Cargo.lock"]

/-- The line, counted from one, lies in an entry of the package at the
version. -/
def DeclaresAt (lockfile : Lockfile) (package version : Text) (line : Int32) :
    Prop :=
  ∃ index : Nat, line.toInt = index + 1 ∧
    entryOfLine lockfile.blocks index = some (package, version)

/-! ## Which entry comes first -/

def hasLine (accepts : Text → Bool) (block : Block) : Bool :=
  block.lines.any accepts

/-- The first block with such a line is an entry of the package at the
version. -/
def FirstWith (accepts : Text → Bool) (blocks : List Block)
    (entry : Text × Text) : Prop :=
  ∃ block, blocks.find? (hasLine accepts) = some block ∧
    block.entry = some entry

/-- The key of a package below the root, in quotes. -/
def keyInQuotes (package : Text) : Text :=
  ("\"node_modules/" : Text) ++ package ++ ['"']

def mentions (package version : Text) (line : Text) : Bool :=
  line.contains version && line.contains package

def NpmRight (blocks : List Block) (package version : Text) : Prop :=
  if ∃ line ∈ allLines blocks, line.contains (keyInQuotes package) = true then
    FirstWith (fun line => line.contains (keyInQuotes package)) blocks
      (package, version)
  else FirstWith (mentions package version) blocks (package, version)

/-- The first entry of a name, and what stands behind it. -/
def behindFirst (package : Text) : List Block → Option (Block × List Block)
  | [] => none
  | block :: blocks =>
      if block.entry.map Prod.fst = some package then some (block, blocks)
      else behindFirst package blocks

/-- The next entry, and how many lines stand before it. -/
def nextEntry : List Block → Option (Nat × Block)
  | [] => none
  | block :: blocks =>
      if block.entry.isSome then some (0, block)
      else (nextEntry blocks).map fun next =>
        (next.1 + block.lines.length, next.2)

/-- The first entry of the name has the version, or it has so few lines that
the version line of the next entry, of the same name, is looked at. -/
def CargoRight (blocks : List Block) (package version : Text) : Prop :=
  ∃ block behind, behindFirst package blocks = some (block, behind) ∧
    (block.entry = some (package, version) ∨
      ∃ gap next, nextEntry behind = some (gap, next) ∧
        next.entry = some (package, version) ∧ block.lines.length + gap ≤ 4)

def Lockfile.FirstRight : Lockfile → Text → Text → Prop
  | .npm lockfile, package, version =>
      NpmRight lockfile.allBlocks package version
  | .cargo lockfile, package, version =>
      CargoRight lockfile.blocks package version

/-! ## Lines and their entries -/

theorem allLines_cons (block : Block) (blocks : List Block) :
    allLines (block :: blocks) = block.lines ++ allLines blocks :=
  List.flatMap_cons

theorem allLines_append (front back : List Block) :
    allLines (front ++ back) = allLines front ++ allLines back :=
  List.flatMap_append

theorem entryOfLine_append (front back : List Block) (index : Nat) :
    entryOfLine (front ++ back) ((allLines front).length + index) =
      entryOfLine back index := by
  induction front with
  | nil => exact congrArg _ (Nat.zero_add index)
  | cons block front inductionHypothesis =>
    rw [List.cons_append, entryOfLine, allLines_cons, List.length_append,
      if_neg (by omega), ← inductionHypothesis]
    exact congrArg _ (by omega)

variable {blocks : List Block} {index : Nat}

variable {block : Block}

theorem entryOfLine_head (inside : index < block.lines.length) :
    entryOfLine (block :: blocks) index = block.entry := by
  rw [entryOfLine, if_pos inside]

variable {accepts : Text → Bool}

/-- The line that is found lies in the first block with such a line. -/
theorem entryOfLine_findIdx :
    ∀ {index : Nat}, (allLines blocks).findIdx? accepts = some index →
      entryOfLine blocks index =
        (blocks.find? (hasLine accepts)).bind Block.entry := by
  induction blocks with
  | nil =>
    intro index found
    cases found
  | cons block blocks inductionHypothesis =>
    intro index found
    rw [allLines_cons, List.findIdx?_append] at found
    cases here : block.lines.findIdx? accepts with
    | some first =>
      rw [here, Option.some_or, Option.some.injEq] at found
      have inside := (List.findIdx?_eq_some_iff_findIdx_eq.1 here).1
      have some_line : hasLine accepts block = true := by
        rw [hasLine, List.any_eq_true]
        rcases List.findIdx?_eq_some_iff_getElem.mp here with ⟨bound, accepted, _⟩
        exact ⟨_, List.getElem_mem bound, accepted⟩
      rw [List.find?_cons_of_pos some_line, ← found, entryOfLine_head inside]
      rfl
    | none =>
      rw [here, Option.none_or] at found
      rcases Option.map_eq_some_iff.mp found with ⟨later, behind, same⟩
      have no_line : ¬ hasLine accepts block = true := by
        rw [hasLine, List.any_eq_true]
        rintro ⟨line, member, accepted⟩
        rw [List.findIdx?_eq_none_iff.mp here line member] at accepted
        cases accepted
      rw [List.find?_cons_of_neg no_line, ← inductionHypothesis behind, ← same,
        entryOfLine, if_neg (by omega)]
      exact congrArg _ (by omega)

theorem firstWith_iff (found : (allLines blocks).findIdx? accepts = some index)
    (entry : Text × Text) :
    entryOfLine blocks index = some entry ↔ FirstWith accepts blocks entry := by
  rw [entryOfLine_findIdx found, Option.bind_eq_some_iff]
  rfl

theorem not_firstWith
    (none : (allLines blocks).findIdx? accepts = none) (entry : Text × Text) :
    ¬ FirstWith accepts blocks entry := by
  rintro ⟨block, found, _⟩
  have some_line := List.find?_some found
  rw [hasLine, List.any_eq_true] at some_line
  rcases some_line with ⟨line, member, accepted⟩
  have inside : line ∈ allLines blocks :=
    List.mem_flatMap.mpr ⟨block, List.mem_of_find?_eq_some found, member⟩
  rw [List.findIdx?_eq_none_iff.mp none line inside] at accepted
  cases accepted

/-! ## The version behind a name -/

variable {other one : Text}

theorem middle_injective {opening ending : Text}
    (same : opening ++ one ++ ending = opening ++ other ++ ending) : one = other := by
  simpa using same

theorem nameLine_injective (same : nameLine one = nameLine other) :
    one = other :=
  middle_injective same

theorem versionLine_injective
    (same : versionLine one = versionLine other) : one = other :=
  middle_injective same

theorem heads_differ (first second : Char)
    {opening two three four : Text} (opens : opening.head? = some first)
    (opensOther : other.head? = some second) (different : first ≠ second) :
    opening ++ one ++ two ≠ other ++ three ++ four := by
  intro same
  have heads := congrArg List.head? same
  simp only [List.append_assoc, List.head?_append, opens, opensOther,
    Option.some_or, Option.some.injEq] at heads
  exact different heads

theorem nameLine_ne_versionLine (package version : Text) :
    nameLine package ≠ versionLine version :=
  heads_differ 'n' 'v' rfl rfl (by decide)

/-- Whether a line gives the version. -/
def givesVersion (version line : Text) : Bool :=
  decide (line.trim = versionLine version)

theorem PlainLine.givesVersion {line : Text} (plain : PlainLine line)
    (version : Text) : givesVersion version line = false :=
  decide_eq_false (plain.noVersion version)

theorem findIdx_plain {lines : List Text} (plain : ∀ line ∈ lines, PlainLine line)
    (version : Text) : lines.findIdx? (givesVersion version) = none :=
  List.findIdx?_eq_none_iff.mpr fun line member =>
    (plain line member).givesVersion version

/-- Among at most four lines a version is found in the next entry only, on its
third line. -/
theorem findIdx_cargo (version : Text) :
    ∀ {count : Nat}, (∀ block ∈ blocks, CargoSpelled block) → count ≤ 4 →
      ∀ offset,
        ((allLines blocks).take count).findIdx? (givesVersion version) =
            some offset ↔
          ∃ gap next name, nextEntry blocks = some (gap, next) ∧
            next.entry = some (name, version) ∧ gap + 3 ≤ count ∧
              offset = gap + 2 := by
  induction blocks with
  | nil =>
    intro count _ _ offset
    rw [allLines, List.flatMap_nil, List.take_nil, nextEntry]
    simp
  | cons block blocks inductionHypothesis =>
    intro count spelled few offset
    have here := spelled block List.mem_cons_self
    have later : ∀ other ∈ blocks, CargoSpelled other :=
      fun other member => spelled other (.tail _ member)
    cases labelled : block.entry with
    | none =>
      have plain := here.outside labelled
      have taken : ((block.lines).take count).findIdx? (givesVersion version) = none :=
        findIdx_plain (fun line member => plain line (List.mem_of_mem_take member)) _
      have unlabelled : ¬ (block.entry.isSome = true) := by
        rw [labelled]
        exact Bool.false_ne_true
      rw [allLines_cons, List.take_append, List.findIdx?_append, taken,
        Option.none_or, Option.map_eq_some_iff, nextEntry, if_neg unlabelled]
      constructor
      · rintro ⟨behind, found, same⟩
        rcases (inductionHypothesis later (by omega) behind).mp found with
          ⟨gap, next, name, listed, entry, room, exactly⟩
        rw [List.length_take] at same
        refine ⟨gap + block.lines.length, next, name, ?_, entry, ?_, ?_⟩
        · rw [listed]
          rfl
        · omega
        · omega
      · rintro ⟨gap, next, name, listed, entry, room, exactly⟩
        rcases Option.map_eq_some_iff.mp listed with ⟨⟨shorter, other⟩, found, same⟩
        rcases Prod.mk.inj same with ⟨total, nexts⟩
        simp only at total nexts
        rw [← nexts] at entry
        refine ⟨shorter + 2, (inductionHypothesis later (by omega) _).mpr
          ⟨shorter, other, name, found, entry, by omega, rfl⟩, ?_⟩
        rw [List.length_take]
        omega
    | some pair =>
      rcases pair with ⟨name, other⟩
      rcases (here.inside name other labelled).spelled with
        ⟨header, first, second, extra, lines, plainHeader, named, versioned, plain⟩
      have isLabelled : block.entry.isSome = true := by
        rw [labelled]
        rfl
      have noHeader := plainHeader.givesVersion version
      have noFirst : givesVersion version first = false :=
        decide_eq_false fun same =>
          nameLine_ne_versionLine name version (named.symm.trans same)
      have atSecond : givesVersion version second = true ↔ other = version := by
        rw [givesVersion, decide_eq_true_eq, versioned]
        exact ⟨versionLine_injective, fun same => congrArg _ same⟩
      have fourth : ((extra ++ allLines blocks).take 1).findIdx?
          (givesVersion version) = none := by
        cases extra with
        | nil =>
          rw [List.nil_append]
          refine Option.eq_none_iff_forall_ne_some.mpr fun offset found => ?_
          rcases (inductionHypothesis later (by omega) offset).mp found with
            ⟨gap, _, _, _, _, room, _⟩
          omega
        | cons line extra =>
          refine findIdx_plain (fun other member => ?_) version
          rw [List.cons_append, List.take_succ_cons, List.take_zero,
            List.mem_singleton] at member
          exact member ▸ plain line List.mem_cons_self
      rw [allLines_cons, lines, List.cons_append, List.cons_append,
        List.cons_append, nextEntry, if_pos isLabelled]
      simp only [Option.some.injEq, Prod.mk.injEq]
      have counted : count = 0 ∨ count = 1 ∨ count = 2 ∨ count = 3 ∨ count = 4 := by
        omega
      rcases counted with same | same | same | same | same
      · subst same
        simp
      · subst same
        simp [noHeader, List.findIdx?_cons]
      · subst same
        simp [noHeader, noFirst, List.findIdx?_cons]
      · subst same
        by_cases agree : other = version
        · have yes := atSecond.mpr agree
          simp [noHeader, noFirst, yes, List.findIdx?_cons, labelled, agree, eq_comm]
        · have no : givesVersion version second = false :=
            Bool.eq_false_of_not_eq_true fun yes => agree (atSecond.mp yes)
          simp [noHeader, noFirst, no, List.findIdx?_cons, labelled, agree]
      · subst same
        by_cases agree : other = version
        · have yes := atSecond.mpr agree
          simp [noHeader, noFirst, yes, List.findIdx?_cons, labelled, agree, eq_comm]
        · have no : givesVersion version second = false :=
            Bool.eq_false_of_not_eq_true fun yes => agree (atSecond.mp yes)
          simp [noHeader, noFirst, no, List.findIdx?_cons, labelled, agree, fourth]

/-! ## Cargo -/

variable {package : Text}

theorem behindFirst_eq_some {behind : List Block}
    (first : behindFirst package blocks = some (block, behind)) :
    ∃ before, blocks = before ++ block :: behind ∧
      block.entry.map Prod.fst = some package ∧
        ∀ other ∈ before, other.entry.map Prod.fst ≠ some package := by
  induction blocks with
  | nil => cases first
  | cons head blocks inductionHypothesis =>
    rw [behindFirst] at first
    split at first
    case isTrue named =>
      cases first
      exact ⟨[], rfl, named, by simp⟩
    case isFalse different =>
      rcases inductionHypothesis first with ⟨before, split, named, others⟩
      refine ⟨head :: before, congrArg _ split, named, fun other member => ?_⟩
      rcases List.mem_cons.mp member with same | later
      · exact same ▸ different
      · exact others other later

variable {version : Text}

theorem behindFirst_of_present
    (present : ∃ block ∈ blocks, block.entry = some (package, version)) :
    ∃ block behind, behindFirst package blocks = some (block, behind) := by
  induction blocks with
  | nil =>
    rcases present with ⟨block, member, _⟩
    cases member
  | cons head blocks inductionHypothesis =>
    rw [behindFirst]
    split
    case isTrue => exact ⟨_, _, rfl⟩
    case isFalse different =>
      rcases present with ⟨block, member, entry⟩
      rcases List.mem_cons.mp member with same | later
      · rw [← same, entry] at different
        exact absurd rfl different
      · exact inductionHypothesis ⟨block, later, entry⟩

theorem entryOfLine_nextEntry :
    ∀ {gap : Nat} {next : Block}, nextEntry blocks = some (gap, next) →
      ∀ {index : Nat}, index < next.lines.length →
        entryOfLine blocks (gap + index) = next.entry := by
  induction blocks with
  | nil =>
    intro gap next none
    cases none
  | cons head blocks inductionHypothesis =>
    intro gap next listed index inside
    rw [nextEntry] at listed
    split at listed
    case isTrue =>
      cases listed
      rw [Nat.zero_add]
      exact entryOfLine_head inside
    case isFalse =>
      rcases Option.map_eq_some_iff.mp listed with ⟨⟨shorter, other⟩, found, same⟩
      rcases Prod.mk.inj same with ⟨total, nexts⟩
      simp only at total nexts
      subst nexts
      rw [← total, entryOfLine, if_neg (by omega), ← inductionHypothesis found inside]
      exact congrArg _ (by omega)

theorem mem_of_nextEntry :
    ∀ {gap : Nat} {next : Block}, nextEntry blocks = some (gap, next) →
      next ∈ blocks := by
  induction blocks with
  | nil =>
    intro gap next none
    cases none
  | cons head blocks inductionHypothesis =>
    intro gap next listed
    rw [nextEntry] at listed
    split at listed
    case isTrue =>
      cases listed
      exact List.mem_cons_self
    case isFalse =>
      rcases Option.map_eq_some_iff.mp listed with ⟨⟨shorter, other⟩, found, same⟩
      exact .tail _ ((Prod.mk.inj same).2 ▸ inductionHypothesis found)

theorem no_name_before {before : List Block}
    (spelled : ∀ block ∈ before, CargoSpelled block)
    (others : ∀ block ∈ before, block.entry.map Prod.fst ≠ some package) :
    ∀ line ∈ allLines before, line.trim ≠ nameLine package := by
  intro line member
  rcases List.mem_flatMap.mp member with ⟨block, listed, inside⟩
  cases labelled : block.entry with
  | none => exact ((spelled block listed).outside labelled line inside).noName package
  | some pair =>
    rcases pair with ⟨name, version⟩
    have different := others block listed
    rw [labelled] at different
    rcases ((spelled block listed).inside name version labelled).spelled with
      ⟨header, first, second, extra, lines, plainHeader, named, versioned, plain⟩
    rw [lines, List.mem_cons, List.mem_cons, List.mem_cons] at inside
    rcases inside with same | same | same | further
    · exact same ▸ plainHeader.noName package
    · rw [same, named]
      exact fun equal => different (congrArg some (nameLine_injective equal))
    · rw [same, versioned]
      exact fun equal => nameLine_ne_versionLine package version equal.symm
    · exact (plain line further).noName package

theorem cargoLine_of_name {lines : List Text} (version : Text)
    (named : lines.findIdx? (fun line => decide (line.trim = nameLine package)) =
      some index) :
    cargoLine lines package version =
      some ((((lines.drop (index + 1)).take 5).findIdx? (givesVersion version)).elim
        (lineAt index) fun offset => lineAt (index + 1 + offset)) := by
  rw [cargoLine]
  split
  case h_1 none =>
    exact absurd (named.symm.trans none) (Option.some_ne_none index)
  case h_2 other found =>
    have same := Option.some.inj (named.symm.trans found)
    subst same
    split
    case h_1 offset versioned =>
      have given : ((lines.drop (index + 1)).take 5).findIdx?
          (givesVersion version) = some offset := versioned
      rw [given]
      rfl
    case h_2 absent =>
      have given : ((lines.drop (index + 1)).take 5).findIdx?
          (givesVersion version) = none := absent
      rw [given]
      rfl

/-- Behind the name of an entry stands its version, then its plain lines, and
then what follows the entry. -/
theorem findIdx_behind_name {found versionAt : Text} {extra : List Text}
    {further : List Text} (versioned : versionAt.trim = versionLine found)
    (plain : ∀ line ∈ extra, PlainLine line) :
    ((versionAt :: (extra ++ further)).take 5).findIdx? (givesVersion version) =
      if found = version then some 0
      else ((further.take (4 - extra.length)).findIdx?
        (givesVersion version)).map fun offset => extra.length + offset + 1 := by
  have plainTaken : (extra.take 4).findIdx? (givesVersion version) = none :=
    findIdx_plain (fun line member => plain line (List.mem_of_mem_take member)) _
  rw [List.take_succ_cons, List.findIdx?_cons]
  by_cases agree : found = version
  · rw [if_pos agree, givesVersion, versioned, agree]
    simp
  · have no : givesVersion version versionAt = false := by
      rw [givesVersion, versioned]
      exact decide_eq_false fun equal => agree (versionLine_injective equal)
    rw [if_neg agree, no, List.take_append, List.findIdx?_append, plainTaken,
      Option.none_or]
    by_cases few : extra.length ≤ 4
    · simp only [Bool.false_eq_true, if_false, List.length_take,
        Nat.min_eq_right few, Option.map_map]
      refine Option.map_congr fun offset _ => ?_
      simp only [Function.comp_apply]
      omega
    · have nothing : 4 - extra.length = 0 := by omega
      rw [nothing, List.take_zero]
      simp

variable {name : Text}

/-- Whether the first entry of a name leads to the right one, by its version
and its number of plain lines. -/
theorem cargoRight_of_first {behind : List Block}
    {found : Text} (version : Text) {extra : Nat}
    (first : behindFirst name blocks = some (block, behind))
    (labelled : block.entry = some (name, found))
    (size : block.lines.length = extra + 3) :
    CargoRight blocks name version ↔
      found = version ∨ ∃ gap next, nextEntry behind = some (gap, next) ∧
        next.entry = some (name, version) ∧ extra + gap + 3 ≤ 4 := by
  constructor
  · rintro ⟨other, rest, again, cases⟩
    rcases Prod.mk.inj (Option.some.inj (first.symm.trans again)) with ⟨one, two⟩
    subst one two
    rcases cases with own | ⟨gap, next, listed, entry, few⟩
    · exact .inl (Prod.mk.inj (Option.some.inj (labelled.symm.trans own))).2
    · exact .inr ⟨gap, next, listed, entry, by omega⟩
  · rintro (agree | ⟨gap, next, listed, entry, few⟩)
    · exact ⟨block, behind, first, .inl (agree ▸ labelled)⟩
    · exact ⟨block, behind, first, .inr ⟨gap, next, listed, entry, by omega⟩⟩

/-- The name of an entry is found on its second line, behind blocks of other
names. -/
theorem findIdx_name {before : List Block} {header nameAt : Text}
    {further : List Text} (spelled : ∀ block ∈ before, CargoSpelled block)
    (others : ∀ block ∈ before, block.entry.map Prod.fst ≠ some name)
    (plainHeader : PlainLine header) (named : nameAt.trim = nameLine name) :
    (allLines before ++ header :: nameAt :: further).findIdx? (fun line =>
      decide (line.trim = nameLine name)) = some ((allLines before).length + 1) := by
  have notBefore : (allLines before).findIdx? (fun line =>
      decide (line.trim = nameLine name)) = none :=
    List.findIdx?_eq_none_iff.mpr fun line member =>
      decide_eq_false (no_name_before spelled others line member)
  have notHeader : decide (header.trim = nameLine name) = false :=
    decide_eq_false (plainHeader.noName name)
  have atName : decide (nameAt.trim = nameLine name) = true :=
    decide_eq_true named
  rw [List.findIdx?_append, notBefore, Option.none_or, List.findIdx?_cons,
    notHeader, List.findIdx?_cons, atName]
  simp [Nat.add_comm]

/-- The line that is returned for a `Cargo.lock` lies in the right entry exactly
where the first entry of the name leads to it. -/
theorem cargoLine_spec (spelled : ∀ block ∈ blocks, CargoSpelled block)
    (present : ∃ block ∈ blocks, block.entry = some (package, version)) :
    ∃ index, cargoLine (allLines blocks) package version = some (lineAt index) ∧
      index < (allLines blocks).length ∧
        (entryOfLine blocks index = some (package, version) ↔
          CargoRight blocks package version) := by
  rcases behindFirst_of_present present with ⟨block, behind, first⟩
  rcases behindFirst_eq_some first with ⟨before, split, label, others⟩
  rcases Option.map_eq_some_iff.mp label with ⟨⟨name, found⟩, labelled, same⟩
  simp only at same
  subst same
  have own := spelled block (split ▸ List.mem_append_right _ List.mem_cons_self)
  have laterSpelled : ∀ other ∈ behind, CargoSpelled other := fun other member =>
    spelled other (split ▸ List.mem_append_right _ (.tail _ member))
  rcases (own.inside name found labelled).spelled with
    ⟨header, nameAt, versionAt, extra, lines, plainHeader, named, versioned, plain⟩
  have whole : allLines blocks = allLines before ++
      (header :: nameAt :: versionAt :: (extra ++ allLines behind)) := by
    rw [split, allLines_append, allLines_cons, lines]
    rfl
  have nameIndex : (allLines blocks).findIdx? (fun line =>
      decide (line.trim = nameLine name)) = some ((allLines before).length + 1) := by
    rw [whole]
    exact findIdx_name
      (fun other among => spelled other (split ▸ List.mem_append_left _ among))
      others plainHeader named
  have dropped : (allLines blocks).drop ((allLines before).length + 1 + 1) =
      versionAt :: (extra ++ allLines behind) := by
    rw [whole, Nat.add_assoc, List.drop_append, List.drop_eq_nil_of_le (by omega),
      Nat.add_sub_cancel_left]
    rfl
  have atLine : ∀ index, index < block.lines.length →
      entryOfLine blocks ((allLines before).length + index) = some (name, found) := by
    intro index inside
    rw [split, entryOfLine_append, entryOfLine_head inside, labelled]
  have size : block.lines.length = extra.length + 3 := by
    rw [lines]
    rfl
  have total : (allLines blocks).length =
      (allLines before).length + (extra.length + 3) + (allLines behind).length := by
    rw [whole]
    simp only [List.length_append, List.length_cons]
    omega
  have found_line := cargoLine_of_name version nameIndex
  rw [dropped, findIdx_behind_name versioned plain] at found_line
  have right := cargoRight_of_first version first labelled size
  have searches : ∀ offset,
      ((allLines behind).take (4 - extra.length)).findIdx? (givesVersion version) =
          some offset ↔
        ∃ gap next name, nextEntry behind = some (gap, next) ∧
          next.entry = some (name, version) ∧ gap + 3 ≤ 4 - extra.length ∧
            offset = gap + 2 :=
    findIdx_cargo version laterSpelled (Nat.sub_le 4 _)
  by_cases agree : found = version
  · rw [if_pos agree] at found_line
    refine ⟨_, found_line, by omega, ?_⟩
    have second := atLine 2 (by omega)
    rw [show (allLines before).length + 1 + 1 + 0 = (allLines before).length + 2 by
      omega, second, right, agree]
    simp
  · rw [if_neg agree] at found_line
    cases looked : ((allLines behind).take (4 - extra.length)).findIdx?
        (givesVersion version) with
    | none =>
      rw [looked] at found_line
      refine ⟨_, found_line, by omega, ?_⟩
      rw [atLine 1 (by omega), right]
      constructor
      · intro same
        exact absurd (Prod.mk.inj (Option.some.inj same)).2 agree
      · rintro (same | ⟨gap, next, listed, entry, few⟩)
        · exact absurd same agree
        · have there := (searches (gap + 2)).mpr
            ⟨gap, next, name, listed, entry, by omega, rfl⟩
          rw [looked] at there
          cases there
    | some offset =>
      rw [looked] at found_line
      rcases (searches offset).mp looked with
        ⟨gap, next, other, listed, entry, few, exactly⟩
      rcases ((laterSpelled next (mem_of_nextEntry listed)).inside other version
        entry).spelled with ⟨_, _, _, _, long, _⟩
      have three : 2 < next.lines.length := by
        rw [long]
        simp only [List.length_cons]
        omega
      have bound := (List.findIdx?_eq_some_iff_findIdx_eq.1 looked).1
      rw [List.length_take] at bound
      have place : entryOfLine blocks ((allLines before).length + 1 + 1 +
          (extra.length + offset + 1)) = some (other, version) := by
        rw [show (allLines before).length + 1 + 1 + (extra.length + offset + 1) =
            (allLines before).length + (block.lines.length + offset) by omega,
          split, entryOfLine_append, entryOfLine, if_neg (by omega),
          Nat.add_sub_cancel_left, exactly, entryOfLine_nextEntry listed three, entry]
      simp only [Option.map_some, Option.elim_some] at found_line
      refine ⟨_, found_line, by omega, ?_⟩
      rw [place, right]
      constructor
      · intro same
        exact .inr ⟨gap, next, listed, entry.trans same, by omega⟩
      · rintro (same | ⟨gap', next', listed', entry', _⟩)
        · exact absurd same agree
        · rcases Prod.mk.inj (Option.some.inj (listed.symm.trans listed')) with ⟨_, same⟩
          rw [← entry, same, entry']

/-! ## The line that is returned -/

theorem toInt_lineAt (fits : index ≤ Fetch.maxFileBytes) :
    (lineAt index).toInt = index + 1 := by
  have bound : Fetch.maxFileBytes = 20971520 := rfl
  rw [lineAt, Int32.toInt_ofNat_of_lt (by omega)]
  rfl

theorem declaresAt_lineAt {lockfile : Lockfile}
    (fits : index ≤ Fetch.maxFileBytes) :
    DeclaresAt lockfile package version (lineAt index) ↔
      entryOfLine lockfile.blocks index = some (package, version) := by
  rw [DeclaresAt, toInt_lineAt fits]
  constructor
  · rintro ⟨other, same, entry⟩
    have equal : index = other := by omega
    rwa [equal]
  · intro entry
    exact ⟨index, rfl, entry⟩

section Returned

variable {tree : SourceTree} {manifest text : Text}

theorem lines_fit (read : tree.readToString (joined manifest) = some text) :
    (lines text).length ≤ Fetch.maxFileBytes + 1 :=
  (length_lines_le text).trans (Nat.add_le_add_right (tree.fits _ _ read) 1)

theorem npmLine_spec (lockfile : NpmLockfile) {package version : Text}
    (read : tree.readToString (joined manifest) = some text)
    (named : (lastName (Fetch.components manifest)).getD [] ∈
      (Lockfile.npm lockfile).fileNames)
    (spelled : lines text = allLines lockfile.allBlocks) :
    DeclaresAt (.npm lockfile) package version
        (osvManifestLine tree manifest package version) ↔
      NpmRight lockfile.allBlocks package version := by
  have fits := lines_fit read
  have npmName : (lastName (Fetch.components manifest)).getD [] =
        ("package-lock.json" : Text) ∨
      (lastName (Fetch.components manifest)).getD [] =
        ("npm-shrinkwrap.json" : Text) := by
    simpa [Lockfile.fileNames] using named
  have notCargo : (lastName (Fetch.components manifest)).getD [] ≠
      ("Cargo.lock" : Text) := by
    rcases npmName with same | same <;> rw [same] <;> decide
  have inside : ∀ {accepts : Text → Bool} {index : Nat},
      (allLines lockfile.allBlocks).findIdx? accepts = some index →
        index ≤ Fetch.maxFileBytes := by
    intro accepts index found
    have bound := (List.findIdx?_eq_some_iff_findIdx_eq.1 found).1
    rw [spelled] at fits
    omega
  have returned : osvManifestLine tree manifest package version =
      ((((lines text).findIdx? fun line => line.contains (keyInQuotes package)).map
        lineAt).or (((lines text).findIdx? (mentions package version)).map
          lineAt)).getD 1 := by
    rw [osvManifestLine, read]
    simp only [if_pos npmName, if_neg notCargo, Option.or_none]
    rfl
  rw [returned, spelled, NpmRight]
  cases keyed : (allLines lockfile.allBlocks).findIdx? (fun line =>
      line.contains (keyInQuotes package)) with
  | some index =>
    have some_line : ∃ line ∈ allLines lockfile.allBlocks,
        line.contains (keyInQuotes package) = true := by
      rcases List.findIdx?_eq_some_iff_getElem.mp keyed with ⟨bound, accepted, _⟩
      exact ⟨_, List.getElem_mem bound, accepted⟩
    rw [if_pos some_line, ← firstWith_iff keyed]
    exact declaresAt_lineAt (inside keyed)
  | none =>
    have no_line : ¬ ∃ line ∈ allLines lockfile.allBlocks,
        line.contains (keyInQuotes package) = true := by
      rintro ⟨line, member, accepted⟩
      have refused := List.findIdx?_eq_none_iff.mp keyed line member
      rw [refused] at accepted
      cases accepted
    rw [if_neg no_line]
    cases mentioned : (allLines lockfile.allBlocks).findIdx?
        (mentions package version) with
    | some index =>
      rw [← firstWith_iff mentioned]
      exact declaresAt_lineAt (inside mentioned)
    | none =>
      refine iff_of_false ?_ (not_firstWith mentioned _)
      rintro ⟨index, same, entry⟩
      have first : index = 0 := by
        have one : ((1 : Int32).toInt) = 1 := rfl
        simp only [Option.map_none, Option.or_none, Option.getD_none] at same
        omega
      rw [first] at entry
      cases entry

theorem cargo_spec (lockfile : CargoLockfile) {package version : Text}
    (read : tree.readToString (joined manifest) = some text)
    (named : (lastName (Fetch.components manifest)).getD [] ∈
      (Lockfile.cargo lockfile).fileNames)
    (spelled : lines text = allLines lockfile.blocks)
    (present : ∃ block ∈ lockfile.blocks, block.entry = some (package, version)) :
    DeclaresAt (.cargo lockfile) package version
        (osvManifestLine tree manifest package version) ↔
      CargoRight lockfile.blocks package version := by
  have fits := lines_fit read
  have cargoName : (lastName (Fetch.components manifest)).getD [] =
      ("Cargo.lock" : Text) := by
    simpa [Lockfile.fileNames] using named
  have notNpm : ¬ ((lastName (Fetch.components manifest)).getD [] =
        ("package-lock.json" : Text) ∨
      (lastName (Fetch.components manifest)).getD [] =
        ("npm-shrinkwrap.json" : Text)) := by
    rw [cargoName]
    decide
  rcases cargoLine_spec lockfile.spelled present with ⟨index, line, inside, right⟩
  have returned : osvManifestLine tree manifest package version = lineAt index := by
    rw [osvManifestLine, read]
    simp only [if_neg notNpm, if_pos cargoName, spelled, line, Option.none_or,
      Option.some_or, Option.getD_some]
  rw [returned, ← right]
  rw [spelled] at fits
  exact declaresAt_lineAt (by omega)

/-- Where a lockfile has an entry of the package at the version, the returned
line lies in one exactly where the first match does. -/
theorem manifest_line_iff (lockfile : Lockfile) {package version : Text}
    (read : tree.readToString (joined manifest) = some text)
    (named : (lastName (Fetch.components manifest)).getD [] ∈ lockfile.fileNames)
    (spelled : lines text = allLines lockfile.blocks)
    (present : ∃ block ∈ lockfile.blocks, block.entry = some (package, version)) :
    DeclaresAt lockfile package version
        (osvManifestLine tree manifest package version) ↔
      lockfile.FirstRight package version := by
  cases lockfile with
  | npm lockfile => exact npmLine_spec lockfile read named spelled
  | cargo lockfile => exact cargo_spec lockfile read named spelled present

end Returned

/-! ## Two versions of one package -/

theorem plainLine_of_head {line : Text} (noName : line.trim.head? ≠ some 'n')
    (noVersion : line.trim.head? ≠ some 'v') : PlainLine line where
  noName package same := noName (by rw [same]; rfl)
  noVersion version same := noVersion (by rw [same]; rfl)

/-- An entry as Cargo writes it for a package of a registry. -/
def registryBlock (name version : Text) : Block where
  entry := some (name, version)
  lines := [("[[package]]" : Text), nameLine name, versionLine version,
    ("source = \"registry\"" : Text), ("checksum = \"0\"" : Text), []]

theorem registryBlock_spelled
    (named : (nameLine name).trim = nameLine name)
    (versioned : (versionLine version).trim = versionLine version) :
    CargoSpelled (registryBlock name version) where
  outside none := by cases none
  inside other found same := by
    cases same
    refine ⟨_, _, _, _, rfl, plainLine_of_head (by decide) (by decide), named,
      versioned, ?_⟩
    simp only [List.forall_mem_cons, List.not_mem_nil, false_imp_iff,
      implies_true, and_true]
    exact ⟨plainLine_of_head (by decide) (by decide),
      plainLine_of_head (by decide) (by decide),
      plainLine_of_head (by decide) (by decide)⟩

def synLockfile : CargoLockfile where
  blocks := [registryBlock "syn" "1.0.0", registryBlock "syn" "2.0.0"]
  spelled := by
    simp only [List.forall_mem_cons, List.not_mem_nil, false_imp_iff,
      implies_true, and_true]
    exact ⟨registryBlock_spelled (by decide) (by decide),
      registryBlock_spelled (by decide) (by decide)⟩

def synText : Text :=
  (allLines synLockfile.blocks).flatMap fun line => line ++ ['\n']

def synTree : SourceTree where
  name := none
  readToString _ := some synText
  fits := by
    intro path text read
    cases read
    decide +kernel

theorem lines_synText : lines synText = allLines synLockfile.blocks := by
  decide

theorem read_synTree :
    synTree.readToString (joined "Cargo.lock") = some synText := rfl

theorem lockfile_name : (lastName (Fetch.components "Cargo.lock")).getD [] ∈
    (Lockfile.cargo synLockfile).fileNames := by
  decide

theorem manifest_line_iff_syn :
    DeclaresAt (.cargo synLockfile) "syn" "1.0.0"
        (osvManifestLine synTree "Cargo.lock" "syn" "1.0.0") ↔
      (Lockfile.cargo synLockfile).FirstRight "syn" "1.0.0" :=
  manifest_line_iff (.cargo synLockfile) read_synTree lockfile_name lines_synText
    ⟨_, List.mem_cons_self, rfl⟩

/-- For the second version the name line of the first one is returned. -/
theorem other_version_line :
    (∃ block ∈ synLockfile.blocks,
      block.entry = some (("syn" : Text), ("2.0.0" : Text))) ∧
      ¬ DeclaresAt (.cargo synLockfile) "syn" "2.0.0"
        (osvManifestLine synTree "Cargo.lock" "syn" "2.0.0") := by
  have present : ∃ block ∈ synLockfile.blocks,
      block.entry = some (("syn" : Text), ("2.0.0" : Text)) :=
    ⟨_, .tail _ List.mem_cons_self, rfl⟩
  refine ⟨present, fun declares => ?_⟩
  rcases (cargo_spec synLockfile read_synTree lockfile_name lines_synText
    present).mp declares with ⟨block, behind, first, cases⟩
  have leading : behindFirst "syn" synLockfile.blocks =
      some (registryBlock "syn" "1.0.0", [registryBlock "syn" "2.0.0"]) := by
    rfl
  rcases Prod.mk.inj (Option.some.inj (leading.symm.trans first)) with ⟨one, two⟩
  subst one two
  rcases cases with own | ⟨gap, next, _, _, few⟩
  · have versions := (Prod.mk.inj (Option.some.inj own)).2
    exact absurd versions (by decide)
  · have six : (registryBlock "syn" "1.0.0").lines.length = 6 := rfl
    omega

end FireCrow.Orchestrator.ManifestLines
