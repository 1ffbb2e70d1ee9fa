import FireCrow.Library.Text

/-!
# Structural lines of Markdown

A document is read line by line.  A fence hides the lines up to the line that
closes it; outside of fences the lines with a marker structure the document.  A
document of rows has the structure of its template exactly where no line that a
text adds is structural.
-/

namespace FireCrow.Library.Markdown

open FireCrow.Library

/-! ## Lines -/

def firstLine : Text → Text
  | [] => []
  | character :: rest => if character = '\n' then [] else character :: firstLine rest

/-- The lines behind the first. -/
def furtherLines : Text → List Text
  | [] => []
  | character :: rest =>
      if character = '\n' then firstLine rest :: furtherLines rest
      else furtherLines rest

def lines (text : Text) : List Text := firstLine text :: furtherLines text

theorem lines_newline (rest : Text) : lines ('\n' :: rest) = [] :: lines rest := rfl

theorem lines_cons {character : Char} (other : character ≠ '\n') (rest : Text) :
    lines (character :: rest) =
      (character :: firstLine rest) :: furtherLines rest := by
  rw [lines, firstLine, furtherLines, if_neg other, if_neg other]

/-- A newline ends the lines of a text. -/
theorem lines_append (text rest : Text) :
    lines (text ++ '\n' :: rest) = lines text ++ lines rest := by
  induction text with
  | nil => rfl
  | cons character text ih =>
      by_cases newline : character = '\n'
      · rw [newline, List.cons_append, lines_newline, lines_newline, ih]
        rfl
      · rw [List.cons_append, lines_cons newline, lines_cons newline]
        rcases List.cons.inj ih with ⟨first, further⟩
        rw [first, further]
        rfl

/-- A first line begins with the text in front. -/
theorem lines_front {front : Text} (single : '\n' ∉ front) (rest : Text) :
    lines (front ++ rest) = (front ++ firstLine rest) :: furtherLines rest := by
  induction front with
  | nil => rfl
  | cons character front ih =>
      rw [List.mem_cons, not_or] at single
      rw [List.cons_append, lines_cons fun same => single.1 same.symm]
      rcases List.cons.inj (ih single.2) with ⟨first, further⟩
      rw [first, further]
      rfl

/-! ## Structural lines -/

inductive Item where
  | fence (mark : Char) (run : Nat)
  | heading (level : Nat)
  | bullet
  | ordered
  | table
  | underline
deriving DecidableEq

/-- The text behind at most so many spaces. -/
def unindent : Nat → Text → Text
  | count + 1, ' ' :: rest => unindent count rest
  | _, line => line

/-- How often a line begins with a mark. -/
def run (mark : Char) (line : Text) : Nat := (line.takeWhile (· = mark)).length

/-- A marker ends the line or stands before a blank. -/
def gap : Text → Bool
  | [] => true
  | character :: _ => character = ' ' || character = '\t'

/-- The fence that a line opens. -/
def opener (line : Text) : Option (Char × Nat) :=
  let text := unindent 3 line
  if 3 ≤ run '`' text then
    if '`' ∈ text.drop (run '`' text) then none else some ('`', run '`' text)
  else if 3 ≤ run '~' text then some ('~', run '~' text)
  else none

def closes (mark : Char) (opened : Nat) (line : Text) : Bool :=
  let text := unindent 3 line
  decide (opened ≤ run mark text) && (text.drop (run mark text)).all fun character =>
    character = ' ' || character = '\t'

def heading (text : Text) : Option Item :=
  let level := run '#' text
  if 1 ≤ level ∧ level ≤ 6 ∧ gap (text.drop level) = true then some (.heading level)
  else none

def bullet : Text → Option Item
  | character :: rest =>
      if (character = '-' ∨ character = '*' ∨ character = '+') ∧ gap rest = true then
        some .bullet
      else none
  | [] => none

def ordered (text : Text) : Option Item :=
  let digits := (text.takeWhile Text.isAsciiDigit).length
  match text.drop digits with
  | character :: rest =>
      if 1 ≤ digits ∧ digits ≤ 9 ∧ (character = '.' ∨ character = ')') ∧
          gap rest = true then some .ordered
      else none
  | [] => none

def table : Text → Option Item
  | character :: _ => if character = '|' then some .table else none
  | [] => none

/-- A line that makes the line above it a heading. -/
def underline (text : Text) : Option Item :=
  match text with
  | character :: _ =>
      if (character = '=' ∨ character = '-') ∧
          (text.dropWhile (· = character)).all (fun other =>
            other = ' ' || other = '\t') = true then some .underline
      else none
  | [] => none

def marker (line : Text) : Option Item :=
  let text := unindent 3 line
  heading text <|> bullet text <|> ordered text <|> table text <|> underline text

/-- A line that structures a document. -/
def Structural (line : Text) : Prop := opener line ≠ none ∨ marker line ≠ none

instance (line : Text) : Decidable (Structural line) :=
  inferInstanceAs (Decidable (_ ∨ _))

/-! ## The structure of a document -/

/-- The open fence behind a line. -/
def next : Option (Char × Nat) → Text → Option (Char × Nat)
  | none, line => opener line
  | some (mark, opened), line =>
      if closes mark opened line then none else some (mark, opened)

def item : Option (Char × Nat) → Text → Option Item
  | none, line =>
      match opener line with
      | some (mark, opened) => some (.fence mark opened)
      | none => marker line
  | some (mark, opened), line =>
      if closes mark opened line then some (.fence mark opened) else none

def scan : Option (Char × Nat) → List Text → List Item
  | _, [] => []
  | fence, line :: rest => (item fence line).toList ++ scan (next fence line) rest

/-- The open fence behind some lines. -/
def reached (fence : Option (Char × Nat)) (read : List Text) : Option (Char × Nat) :=
  read.foldl next fence

theorem scan_append (fence : Option (Char × Nat)) (front back : List Text) :
    scan fence (front ++ back) = scan fence front ++ scan (reached fence front) back := by
  induction front generalizing fence with
  | nil => rfl
  | cons line front ih =>
      rw [List.cons_append, scan, scan, ih, List.append_assoc]
      rfl

def structureOf (document : Text) : List Item := scan none (lines document)

/-! ## Rows -/

/-- A row of a template: nothing, a line that begins with text of the template, a
text of its own, or a text in a fence. -/
inductive Row where
  | blank
  | line (opening rest : Text)
  | prose (text : Text)
  | fenced (text : Text)

def fenceLine : Text := ['`', '`', '`']

namespace Row

def text : Row → Text
  | blank => []
  | line opening rest => opening ++ rest
  | prose text => text
  | fenced text => fenceLine ++ '\n' :: (text ++ '\n' :: fenceLine)

/-- What a row of the template adds to the structure. -/
def items : Row → List Item
  | blank => []
  | line opening _ => (marker opening).toList
  | prose _ => []
  | fenced _ => [.fence '`' 3, .fence '`' 3]

theorem blank_items : blank.items = [] := rfl

theorem prose_items (text : Text) : (prose text).items = [] := rfl

theorem fenced_items (text : Text) :
    (fenced text).items = [.fence '`' 3, .fence '`' 3] := rfl

/-- The lines that a text adds. -/
def added : Row → List Text
  | blank => []
  | line _ rest => furtherLines rest
  | prose text => lines text
  | fenced _ => []

end Row

def document (rows : List Row) : Text :=
  rows.flatMap fun row => row.text ++ ['\n']

/-- A text begins with fewer than three backticks. -/
def Sealed (line : Text) : Prop := run '`' (unindent 3 line) < 3

/-- What follows the opening of a line leaves its role; a text in a fence does
not close it. -/
def SoundRow : Row → Prop
  | .line opening _ => '\n' ∉ opening ∧
      ∀ more, opener (opening ++ more) = none ∧
        marker (opening ++ more) = marker opening
  | .fenced text => ∀ line ∈ lines text, Sealed line
  | _ => True

def SoundRows (rows : List Row) : Prop := ∀ row ∈ rows, SoundRow row

/-- No line that a text adds is structural. -/
def Quiet (rows : List Row) : Prop :=
  ∀ row ∈ rows, ∀ line ∈ row.added, ¬ Structural line

/-! ## Fences -/

theorem some_of_orElse {Value : Type} {first second : Option Value} {value : Value}
    (found : (first <|> second) = some value) :
    first = some value ∨ second = some value := by
  cases first with
  | none => exact .inr found
  | some other => exact .inl found

/-- A marker is no fence. -/
theorem marker_ne_fence (line : Text) (mark : Char) (opened : Nat) :
    marker line ≠ some (.fence mark opened) := by
  intro same
  rw [marker] at same
  rcases some_of_orElse same with found | same
  · rw [heading] at found
    split at found <;> cases found
  rcases some_of_orElse same with found | same
  · rw [bullet.eq_def] at found
    split at found
    · split at found <;> cases found
    · cases found
  rcases some_of_orElse same with found | same
  · rw [ordered] at found
    split at found
    · split at found <;> cases found
    · cases found
  rcases some_of_orElse same with found | found
  · rw [table.eq_def] at found
    split at found
    · split at found <;> cases found
    · cases found
  · rw [underline.eq_def] at found
    split at found
    · split at found <;> cases found
    · cases found

/-- The fences of a template. -/
def fences (items : List Item) : Nat := items.count (.fence '`' 3)

/-- Every fence is one of the template's kind. -/
def Domestic (items : List Item) : Prop :=
  ∀ mark opened, .fence mark opened ∈ items → mark = '`' ∧ opened = 3

theorem domestic_append {front back : List Item} (all : Domestic (front ++ back)) :
    Domestic front ∧ Domestic back :=
  ⟨fun mark opened member => all mark opened (List.mem_append_left _ member),
    fun mark opened member => all mark opened (List.mem_append_right _ member)⟩

/-- No fence is open, or one of the template's kind. -/
def Usual (fence : Option (Char × Nat)) : Prop :=
  fence = none ∨ fence = some ('`', 3)

variable {fence : Option (Char × Nat)}

variable {line : Text}

theorem next_usual (usual : Usual fence)
    (domestic : Domestic (item fence line).toList) : Usual (next fence line) := by
  rcases usual with rfl | rfl
  · rw [next]
    cases opened : opener line with
    | none => exact .inl rfl
    | some entry =>
        rcases entry with ⟨mark, count⟩
        rw [item, opened] at domestic
        rcases domestic mark count List.mem_cons_self with ⟨rfl, rfl⟩
        exact .inr rfl
  · rw [next]
    split
    · exact .inl rfl
    · exact .inr rfl

variable {read : List Text}

theorem reached_usual
    (usual : Usual fence) (domestic : Domestic (scan fence read)) :
    Usual (reached fence read) := by
  induction read generalizing fence with
  | nil => exact usual
  | cons line read ih =>
      rcases domestic_append domestic with ⟨here, later⟩
      exact ih (next_usual usual here) later

/-! ## Sealed text -/

theorem closes_of_sealed (guarded : Sealed line) :
    closes '`' 3 line = false := by
  rw [closes, decide_eq_false (Nat.not_le.2 guarded), Bool.false_and]

theorem opener_of_sealed (guarded : Sealed line) {mark : Char}
    {opened : Nat} (opens : opener line = some (mark, opened)) : mark = '~' := by
  rw [opener] at opens
  simp only [if_neg (Nat.not_le.2 guarded)] at opens
  split at opens
  · cases opens
    rfl
  · cases opens

/-- Sealed text stays in its fence. -/
theorem scan_sealed (guarded : ∀ line ∈ read, Sealed line) :
    scan (some ('`', 3)) read = [] ∧
      reached (some ('`', 3)) read = some ('`', 3) := by
  induction read with
  | nil => exact ⟨rfl, rfl⟩
  | cons line read ih =>
      rw [List.forall_mem_cons] at guarded
      rcases ih guarded.2 with ⟨none, open_⟩
      have kept : next (some ('`', 3)) line = some ('`', 3) := by
        rw [next, closes_of_sealed guarded.1]
        rfl
      rw [scan, item, closes_of_sealed guarded.1, kept, none, reached,
        List.foldl_cons, kept]
      exact ⟨rfl, open_⟩

/-- Outside of a fence sealed text opens none of the template's kind. -/
theorem reached_sealed (guarded : ∀ line ∈ read, Sealed line)
    (domestic : Domestic (scan none read)) : reached none read = none := by
  induction read with
  | nil => rfl
  | cons line read ih =>
      rw [List.forall_mem_cons] at guarded
      rcases domestic_append domestic with ⟨here, later⟩
      have unopened : opener line = none := by
        cases opened : opener line with
        | none => rfl
        | some entry =>
            rcases entry with ⟨mark, count⟩
            rw [item, opened] at here
            have tilde := opener_of_sealed guarded.1 opened
            rw [(here mark count List.mem_cons_self).1] at tilde
            exact absurd tilde (by decide)
      have kept : next none line = none := unopened
      rw [kept] at later
      rw [reached, List.foldl_cons, kept]
      exact ih guarded.2 later

/-! ## Free text -/

/-- Text without a fence adds its markers. -/
theorem scan_free (domestic : Domestic (scan none read))
    (unfenced : fences (scan none read) = 0) :
    scan none read = read.filterMap marker ∧ reached none read = none ∧
      ∀ line ∈ read, opener line = none := by
  induction read with
  | nil => exact ⟨rfl, rfl, fun _ member => absurd member List.not_mem_nil⟩
  | cons line read ih =>
      rw [fences, scan, List.count_append, Nat.add_eq_zero_iff] at unfenced
      rcases domestic_append domestic with ⟨here, later⟩
      have unopened : opener line = none := by
        cases opened : opener line with
        | none => rfl
        | some entry =>
            rcases entry with ⟨mark, count⟩
            rw [item, opened] at here unfenced
            rcases here mark count List.mem_cons_self with ⟨rfl, rfl⟩
            have one : List.count (Item.fence '`' 3) [Item.fence '`' 3] = 0 :=
              unfenced.1
            rw [List.count_singleton_self] at one
            cases one
      have kept : next none line = none := unopened
      rw [kept] at later unfenced
      rcases ih later unfenced.2 with ⟨markers, closed, others⟩
      have own : item none line = marker line := by
        rw [item, unopened]
      rw [scan, kept, markers, own, reached, List.foldl_cons, kept,
        List.forall_mem_cons]
      refine ⟨?_, closed, unopened, others⟩
      cases found : marker line with
      | none =>
          rw [List.filterMap_cons_none found]
          rfl
      | some value =>
          rw [List.filterMap_cons_some found]
          rfl

/-- Text without a structural line adds nothing. -/
theorem scan_plain (plain : ∀ line ∈ read, ¬ Structural line) :
    scan none read = [] ∧ reached none read = none := by
  induction read with
  | nil => exact ⟨rfl, rfl⟩
  | cons line read ih =>
      rw [List.forall_mem_cons, Structural, not_or, not_not, not_not] at plain
      rcases plain with ⟨⟨unopened, unmarked⟩, others⟩
      have kept : next none line = none := unopened
      rcases ih others with ⟨empty, closed⟩
      rw [scan, item, unopened, unmarked, kept, empty, reached, List.foldl_cons, kept]
      exact ⟨rfl, closed⟩

/-! ## The lines of a row -/

theorem lines_document (rows : List Row) :
    lines (document rows) = rows.flatMap (fun row => lines row.text) ++ [[]] := by
  induction rows with
  | nil => rfl
  | cons row rows ih =>
      rw [document, List.flatMap_cons, List.append_assoc, List.singleton_append,
        lines_append, List.flatMap_cons, List.append_assoc, ← ih]
      rfl

theorem lines_fenced (text : Text) :
    lines (Row.fenced text).text = fenceLine :: (lines text ++ [fenceLine]) := by
  rw [Row.text, lines_append, lines_append]
  rfl

theorem lines_line {opening : Text} (single : '\n' ∉ opening) (rest : Text) :
    lines (Row.line opening rest).text =
      (opening ++ firstLine rest) :: furtherLines rest :=
  lines_front single rest

/-- An empty line adds nothing. -/
theorem item_empty (usual : Usual fence) : item fence [] = none := by
  rcases usual with rfl | rfl <;> rfl

variable {row : Row}

theorem items_unfenced (open_ : ∀ text, row ≠ .fenced text) :
    fences row.items = 0 := by
  cases row with
  | blank => rfl
  | line opening rest =>
      rw [Row.items, fences, List.count_eq_zero, Option.mem_toList]
      exact marker_ne_fence opening '`' 3
  | prose text => rfl
  | fenced text => exact absurd rfl (open_ text)

/-- A text in a fence is read up to the end of its fence. -/
theorem scan_fenced {text : Text} (guarded : ∀ line ∈ lines text, Sealed line) :
    scan none (lines (Row.fenced text).text) = (Row.fenced text).items ∧
      reached none (lines (Row.fenced text).text) = none := by
  rcases scan_sealed guarded with ⟨quiet, kept⟩
  rw [lines_fenced]
  constructor
  · change Item.fence '`' 3 :: scan (some ('`', 3)) (lines text ++ [fenceLine]) = _
    rw [scan_append, quiet, kept]
    rfl
  · change reached (some ('`', 3)) (lines text ++ [fenceLine]) = none
    rw [reached, List.foldl_append]
    change next (reached (some ('`', 3)) (lines text)) fenceLine = none
    rw [kept]
    rfl

/-- From any usual state the fences of a row are read. -/
theorem fences_row (usual : Usual fence)
    (sound : SoundRow row) (domestic : Domestic (scan fence (lines row.text))) :
    fences row.items ≤ fences (scan fence (lines row.text)) := by
  by_cases open_ : ∀ text, row ≠ .fenced text
  · rw [items_unfenced open_]
    exact Nat.zero_le _
  · push Not at open_
    rcases open_ with ⟨text, rfl⟩
    rw [lines_fenced] at domestic ⊢
    rcases usual with rfl | rfl
    · -- the row opens and closes its fence
      rw [← lines_fenced, (scan_fenced sound).1]
    · -- an open fence is closed by the row, and another is left open
      change Domestic (Item.fence '`' 3 :: scan none (lines text ++ [fenceLine]))
        at domestic
      change _ ≤ fences (Item.fence '`' 3 :: scan none (lines text ++ [fenceLine]))
      rw [scan_append] at domestic ⊢
      have inside : Domestic (scan none (lines text)) := fun mark opened member =>
        domestic mark opened (List.mem_cons_of_mem _ (List.mem_append_left _ member))
      rw [reached_sealed sound inside]
      change 2 ≤ List.count _ (Item.fence '`' 3 ::
        (scan none (lines text) ++ [Item.fence '`' 3]))
      rw [List.count_cons_self, List.count_append, List.count_singleton_self]
      omega

/-- Where the fences are those of the row, its text adds its markers. -/
theorem scan_row (sound : SoundRow row)
    (domestic : Domestic (scan none (lines row.text)))
    (same : fences (scan none (lines row.text)) = fences row.items) :
    scan none (lines row.text) = row.items ++ row.added.filterMap marker ∧
      reached none (lines row.text) = none ∧
      ∀ line ∈ row.added, opener line = none := by
  cases row with
  | blank => exact ⟨rfl, rfl, fun _ member => absurd member List.not_mem_nil⟩
  | line opening rest =>
      rcases sound with ⟨single, role⟩
      rcases role (firstLine rest) with ⟨unopened, marked⟩
      rw [items_unfenced (fun text different => Row.noConfusion different)] at same
      rw [lines_line single] at domestic same ⊢
      have kept : next none (opening ++ firstLine rest) = none := unopened
      have own : item none (opening ++ firstLine rest) = marker opening := by
        rw [item, unopened]
        exact marked
      rw [scan, kept] at domestic same ⊢
      rw [fences, List.count_append, Nat.add_eq_zero_iff] at same
      rcases scan_free (domestic_append domestic).2 same.2 with ⟨markers, closed, free⟩
      rw [own, markers, reached, List.foldl_cons, kept]
      exact ⟨rfl, closed, free⟩
  | prose text => exact scan_free domestic same
  | fenced text =>
      rcases scan_fenced sound with ⟨whole, closed⟩
      rw [whole]
      exact ⟨rfl, closed, fun _ member => absurd member List.not_mem_nil⟩

/-- A row without structural lines adds what the template says. -/
theorem scan_plain_row (sound : SoundRow row)
    (plain : ∀ line ∈ row.added, ¬ Structural line) :
    scan none (lines row.text) = row.items ∧ reached none (lines row.text) = none := by
  cases row with
  | blank => exact ⟨rfl, rfl⟩
  | line opening rest =>
      rcases sound with ⟨single, role⟩
      rcases role (firstLine rest) with ⟨unopened, marked⟩
      have added : scan none (furtherLines rest) = [] ∧
          reached none (furtherLines rest) = none := scan_plain plain
      rcases added with ⟨quiet, closed⟩
      have kept : next none (opening ++ firstLine rest) = none := unopened
      have own : item none (opening ++ firstLine rest) = marker opening := by
        rw [item, unopened]
        exact marked
      rw [lines_line single, scan, kept, quiet, own, List.append_nil, reached,
        List.foldl_cons, kept]
      exact ⟨rfl, closed⟩
  | prose text => exact scan_plain plain
  | fenced text => exact scan_fenced sound

/-! ## A document of rows -/

theorem scan_last (usual : Usual fence) : scan fence [[]] = [] := by
  rw [scan, item_empty usual]
  rfl

theorem reached_append (fence : Option (Char × Nat)) (front back : List Text) :
    reached fence (front ++ back) = reached (reached fence front) back :=
  List.foldl_append

variable {rows : List Row}

/-- Every fence of the template is read, whatever fence is open. -/
theorem fences_rows (sound : SoundRows rows) (usual : Usual fence)
    (domestic : Domestic (scan fence (rows.flatMap fun row => lines row.text))) :
    fences (rows.flatMap Row.items) ≤
      fences (scan fence (rows.flatMap fun row => lines row.text)) := by
  induction rows generalizing fence with
  | nil => exact Nat.le_refl _
  | cons row rows ih =>
      rw [SoundRows, List.forall_mem_cons] at sound
      rw [List.flatMap_cons, scan_append] at domestic
      rcases domestic_append domestic with ⟨here, later⟩
      have first := fences_row usual sound.1 here
      have rest := ih sound.2 (reached_usual usual here) later
      rw [List.flatMap_cons, List.flatMap_cons, scan_append]
      simp only [fences, List.count_append] at first rest ⊢
      exact Nat.add_le_add first rest

/-- Where the fences are those of the template, the texts add their markers. -/
theorem scan_rows (sound : SoundRows rows)
    (domestic : Domestic (scan none (rows.flatMap fun row => lines row.text)))
    (same : fences (scan none (rows.flatMap fun row => lines row.text)) =
      fences (rows.flatMap Row.items)) :
    (scan none (rows.flatMap fun row => lines row.text)).length =
        (rows.flatMap Row.items).length +
          (rows.flatMap fun row => row.added.filterMap marker).length ∧
      ∀ row ∈ rows, ∀ line ∈ row.added, opener line = none := by
  induction rows with
  | nil => exact ⟨rfl, fun _ member => absurd member List.not_mem_nil⟩
  | cons row rows ih =>
      rw [SoundRows, List.forall_mem_cons] at sound
      rw [List.flatMap_cons, scan_append] at domestic
      rcases domestic_append domestic with ⟨here, later⟩
      have first := fences_row (.inl rfl) sound.1 here
      have rest := fences_rows sound.2 (reached_usual (.inl rfl) here) later
      rw [List.flatMap_cons, List.flatMap_cons, scan_append] at same
      simp only [fences, List.count_append] at first rest same
      have own : fences (scan none (lines row.text)) = fences row.items := by
        rw [fences, fences]
        omega
      rcases scan_row sound.1 here own with ⟨read, closed, free⟩
      rw [closed] at later same
      have others : fences (scan none (rows.flatMap fun row => lines row.text)) =
          fences (rows.flatMap Row.items) := by
        rw [fences] at own
        rw [fences, fences]
        rw [fences] at own
        omega
      rcases ih sound.2 later others with ⟨counted, unopened⟩
      rw [List.flatMap_cons, List.flatMap_cons, List.flatMap_cons, scan_append,
        closed, read, List.forall_mem_cons]
      simp only [List.length_append] at counted ⊢
      exact ⟨by omega, free, unopened⟩

/-- Rows without structural lines have the structure of their template. -/
theorem scan_plain_rows (sound : SoundRows rows) (plain : Quiet rows) :
    scan none (rows.flatMap fun row => lines row.text) = rows.flatMap Row.items ∧
      reached none (rows.flatMap fun row => lines row.text) = none := by
  induction rows with
  | nil => exact ⟨rfl, rfl⟩
  | cons row rows ih =>
      rw [SoundRows, List.forall_mem_cons] at sound
      rw [Quiet, List.forall_mem_cons] at plain
      rcases scan_plain_row sound.1 plain.1 with ⟨here, closed⟩
      rcases ih sound.2 plain.2 with ⟨later, ended⟩
      rw [List.flatMap_cons, List.flatMap_cons, scan_append, reached_append, closed,
        here, later]
      exact ⟨rfl, ended⟩

theorem domestic_items (rows : List Row) : Domestic (rows.flatMap Row.items) := by
  intro mark opened member
  rw [List.mem_flatMap] at member
  rcases member with ⟨row, _, inside⟩
  cases row with
  | blank => cases inside
  | line opening rest =>
      rw [Row.items, Option.mem_toList] at inside
      exact absurd inside (marker_ne_fence opening mark opened)
  | prose text => cases inside
  | fenced text =>
      simp only [Row.items, List.mem_cons, List.not_mem_nil, or_false, or_self,
        Item.fence.injEq] at inside
      exact inside

/-- The structure of the template of some rows. -/
def expected (rows : List Row) : List Item := rows.flatMap Row.items

/-- A document has the structure of its template exactly where no line that a text
adds is structural. -/
theorem structureOf_document (sound : SoundRows rows) :
    structureOf (document rows) = expected rows ↔ Quiet rows := by
  rw [structureOf, lines_document, scan_append, expected]
  constructor
  · intro same
    have domestic : Domestic (scan none (rows.flatMap fun row => lines row.text)) := by
      have whole := domestic_items rows
      rw [← same] at whole
      exact (domestic_append whole).1
    rw [scan_last (reached_usual (.inl rfl) domestic), List.append_nil] at same
    have counted := scan_rows sound domestic (congrArg fences same)
    rcases counted with ⟨lengths, unopened⟩
    rw [same] at lengths
    have none : rows.flatMap (fun row => row.added.filterMap marker) = [] :=
      List.eq_nil_of_length_eq_zero (by omega)
    intro row member line added structural
    rw [List.flatMap_eq_nil_iff] at none
    have unmarked := List.filterMap_eq_nil_iff.1 (none row member) line added
    exact structural.elim (fun opens => opens (unopened row member line added))
      fun marked => marked unmarked
  · intro plain
    rcases scan_plain_rows sound plain with ⟨read, closed⟩
    rw [read, closed, scan_last (.inl rfl), List.append_nil]

/-! ## Templates -/

namespace SoundRows

theorem nil : SoundRows [] :=
  fun _ member => absurd member List.not_mem_nil

theorem cons {row : Row} (first : SoundRow row)
    (rest : SoundRows rows) : SoundRows (row :: rows) :=
  List.forall_mem_cons.2 ⟨first, rest⟩

theorem blank (rest : SoundRows rows) : SoundRows (.blank :: rows) :=
  cons trivial rest

theorem prose {text : Text} (rest : SoundRows rows) :
    SoundRows (.prose text :: rows) :=
  cons trivial rest

theorem append {front back : List Row} (first : SoundRows front)
    (second : SoundRows back) : SoundRows (front ++ back) :=
  List.forall_mem_append.2 ⟨first, second⟩

theorem map {Value : Type} {row : Value → Row} (each : ∀ value, SoundRow (row value))
    (values : List Value) : SoundRows (values.map row) := by
  intro added member
  rw [List.mem_map] at member
  rcases member with ⟨value, _, rfl⟩
  exact each value

theorem flatMap {Value : Type} {rows : Value → List Row}
    (each : ∀ value, SoundRows (rows value)) (values : List Value) :
    SoundRows (values.flatMap rows) := by
  intro row member
  rw [List.mem_flatMap] at member
  rcases member with ⟨value, _, inside⟩
  exact each value row inside

end SoundRows

theorem expected_append (front back : List Row) :
    expected (front ++ back) = expected front ++ expected back :=
  List.flatMap_append

theorem expected_cons (row : Row) (rows : List Row) :
    expected (row :: rows) = row.items ++ expected rows :=
  List.flatMap_cons

/-- Rows of one role give lists of one length the same structure. -/
theorem expected_map {Value : Type} {row : Value → Row} {role : List Item}
    (each : ∀ value, (row value).items = role) {first second : List Value}
    (same : first.length = second.length) :
    expected (first.map row) = expected (second.map row) := by
  induction first generalizing second with
  | nil =>
      rw [List.eq_nil_of_length_eq_zero same.symm]
  | cons value first ih =>
      cases second with
      | nil => cases same
      | cons other second =>
          have rest := ih (Nat.succ.inj same)
          rw [expected, expected] at rest
          rw [expected, expected, List.map_cons, List.map_cons, List.flatMap_cons,
            List.flatMap_cons, rest, each, each]

theorem expected_flatMap {Value : Type} {rows : Value → List Row}
    {first second : List Value}
    (each : List.Forall₂
      (fun left right => expected (rows left) = expected (rows right)) first second) :
    expected (first.flatMap rows) = expected (second.flatMap rows) := by
  induction each with
  | nil => rfl
  | cons here _ ih =>
      rw [List.flatMap_cons, List.flatMap_cons, expected_append, expected_append, here,
        ih]

theorem expected_toList {Value : Type} {rows more : Value → List Row}
    (each : ∀ left right, expected (rows left) = expected (more right))
    {first second : Option Value} (same : first.isSome = second.isSome) :
    expected (first.toList.flatMap rows) = expected (second.toList.flatMap more) := by
  cases first with
  | none =>
      cases second with
      | none => rfl
      | some value => cases same
  | some value =>
      cases second with
      | none => cases same
      | some other =>
          rw [Option.toList_some, Option.toList_some, List.flatMap_singleton,
            List.flatMap_singleton, each value other]

end FireCrow.Library.Markdown
