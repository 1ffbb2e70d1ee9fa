import FireCrow.Library.Markup

/-!
# Labels of lines

A document is assembled of fixed fragments and of data, and is read line by
line.  The label of a line is its fixed text before the first data; a line
that data opens has none.
-/

namespace FireCrow.Library

/-! ## Marks -/

/-- A character with its origin.  A hole is where data begin. -/
inductive Mark where
  | fixed (character : Char)
  | hole
  | data (character : Char)

namespace Mark

def character : Mark → Option Char
  | .fixed character => some character
  | .hole => none
  | .data character => some character

end Mark

def Fragment.marks : Fragment → List Mark
  | .fixed text => text.map .fixed
  | .data text => .hole :: text.map .data

def marks (fragments : List Fragment) : List Mark :=
  fragments.flatMap Fragment.marks

theorem character_fixed (text : Text) :
    (text.map Mark.fixed).filterMap Mark.character = text := by
  rw [List.filterMap_map]
  exact List.filterMap_some

theorem character_data (text : Text) :
    (text.map Mark.data).filterMap Mark.character = text := by
  rw [List.filterMap_map]
  exact List.filterMap_some

theorem Fragment.character_marks (fragment : Fragment) :
    fragment.marks.filterMap Mark.character = fragment.text := by
  cases fragment with
  | fixed text => exact character_fixed text
  | data text => exact character_data text

variable (fragments : List Fragment)

theorem character_marks :
    (marks fragments).filterMap Mark.character = assemble fragments := by
  induction fragments with
  | nil => rfl
  | cons fragment rest ih =>
      rw [marks, List.flatMap_cons, List.filterMap_append,
        Fragment.character_marks, assemble_cons]
      exact congrArg _ ih

/-! ## Labels -/

/-- The labels of the lines, with the label of the current line so far; it is
complete once data have come. -/
def labelsFrom : Option Text → Bool → List Mark → List (Option Text)
  | label, _, [] => [label]
  | label, _, .hole :: rest => labelsFrom label true rest
  | label, complete, .fixed character :: rest =>
      if character = '\n' then label :: labelsFrom (some []) false rest
      else
        labelsFrom
          (if complete then label else label.map fun text => text ++ [character])
          complete rest
  | label, _, .data character :: rest =>
      if character = '\n' then label :: labelsFrom none true rest
      else labelsFrom label true rest

/-- The labels of the lines of a document. -/
def labels (fragments : List Fragment) : List (Option Text) :=
  labelsFrom (some []) false (marks fragments)

/-- The label of a line is where the line begins. -/
def Labels (label : Option Text) (line : Text) : Prop := label.getD [] <+: line

theorem splitOn_newline (rest : Text) :
    List.splitOn '\n' ('\n' :: rest) = [] :: List.splitOn '\n' rest := by
  rw [List.splitOn_cons_eq_if_modifyHead, if_pos (beq_self_eq_true _)]

theorem splitOn_other {character : Char} (other : character ≠ '\n')
    (rest : Text) :
    List.splitOn '\n' (character :: rest) =
      (List.splitOn '\n' rest).modifyHead (List.cons character) := by
  rw [List.splitOn_cons_eq_if_modifyHead, if_neg (by simpa using other)]

/-- A character before the line break belongs to the current line. -/
theorem modifyHead_splitOn_other {character : Char} (other : character ≠ '\n')
    (start rest : Text) :
    (List.splitOn '\n' (character :: rest)).modifyHead (start ++ ·) =
      (List.splitOn '\n' rest).modifyHead (start ++ [character] ++ ·) := by
  rw [splitOn_other other, List.modifyHead_modifyHead]
  congr 1
  funext line
  exact (List.append_assoc start [character] line).symm

/-- A line break ends the current line. -/
theorem labelled_break {label : Option Text} {start rest : Text}
    {others : List (Option Text)} (opens : label.getD [] <+: start)
    (labelled : List.Forall₂ Labels others
      ((List.splitOn '\n' rest).modifyHead ([] ++ ·))) :
    List.Forall₂ Labels (label :: others)
      ((List.splitOn '\n' ('\n' :: rest)).modifyHead (start ++ ·)) := by
  have same : (fun line : Text => [] ++ line) = id := rfl
  rw [same, List.modifyHead_id, id] at labelled
  rw [splitOn_newline, List.modifyHead_cons, List.append_nil]
  exact .cons opens labelled

/-- The current line starts with its label, however it goes on. -/
theorem labelsFrom_prefix (rest : List Mark) (label : Option Text)
    (complete : Bool) (start : Text) (opens : label.getD [] <+: start)
    (whole : complete = false → label = some start) :
    List.Forall₂ Labels (labelsFrom label complete rest)
      ((List.splitOn '\n' (rest.filterMap Mark.character)).modifyHead
        (start ++ ·)) := by
  induction rest generalizing label complete start with
  | nil =>
      refine .cons ?_ .nil
      exact opens.trans (List.prefix_append start [])
  | cons mark rest ih =>
      have longer (character : Char) : label.getD [] <+: start ++ [character] :=
        opens.trans (List.prefix_append start [character])
      cases mark with
      | hole => exact ih label true start opens nofun
      | fixed character =>
          rw [labelsFrom]
          split
          · rename_i newline
            subst newline
            exact labelled_break opens
              (ih (some []) false [] List.prefix_rfl fun _ => rfl)
          · rename_i other
            refine (modifyHead_splitOn_other other start _).symm ▸ ?_
            cases complete with
            | true => exact ih label true _ (longer character) nofun
            | false =>
                rw [whole rfl]
                exact ih _ false _ List.prefix_rfl fun _ => rfl
      | data character =>
          rw [labelsFrom]
          split
          · rename_i newline
            subst newline
            exact labelled_break opens (ih none true [] List.prefix_rfl nofun)
          · rename_i other
            refine (modifyHead_splitOn_other other start _).symm ▸ ?_
            exact ih label true _ (longer character) nofun

/-- Each line of a document starts with its label. -/
theorem labels_prefix :
    List.Forall₂ Labels (labels fragments)
      (List.splitOn '\n' (assemble fragments)) := by
  have labelled := labelsFrom_prefix (marks fragments) (some []) false []
    List.prefix_rfl fun _ => rfl
  have same : (fun line : Text => [] ++ line) = id := rfl
  rwa [same, List.modifyHead_id, id, character_marks] at labelled

/-! ## Line breaks in data -/

/-- The lines of a template: their labels, and how many line breaks the data of
each hold. -/
def rowsFrom : Text → Bool → Nat → List Mark → List (Text × Nat)
  | label, _, count, [] => [(label, count)]
  | label, _, count, .hole :: rest => rowsFrom label true count rest
  | label, complete, count, .fixed character :: rest =>
      if character = '\n' then (label, count) :: rowsFrom [] false 0 rest
      else
        rowsFrom (if complete then label else label ++ [character]) complete count
          rest
  | label, _, count, .data character :: rest =>
      rowsFrom label true (if character = '\n' then count + 1 else count) rest

def rows (fragments : List Fragment) : List (Text × Nat) :=
  rowsFrom [] false 0 (marks fragments)

/-- The number of line breaks in the data of each line of the template. -/
def breaks (fragments : List Fragment) : List Nat :=
  (rows fragments).map Prod.snd

/-- A line with its label, then the lines that its data open. -/
def spread (rows : List (Text × Nat)) : List (Option Text) :=
  rows.flatMap fun row => some row.1 :: List.replicate row.2 none

theorem spread_cons (label : Text) (count : Nat) (rest : List (Text × Nat)) :
    spread ((label, count) :: rest) =
      some label :: (List.replicate count none ++ spread rest) := by
  rw [spread, List.flatMap_cons, List.cons_append]
  rfl

/-- The labels are those of the template, each followed by the lines that the
data open. -/
theorem spread_rowsFrom (rest : List Mark) :
    (∀ label complete, spread (rowsFrom label complete 0 rest) =
      labelsFrom (some label) complete rest) ∧
    ∀ label count, spread (rowsFrom label true (count + 1) rest) =
      some label :: (List.replicate count none ++ labelsFrom none true rest) := by
  induction rest with
  | nil =>
      refine ⟨fun label complete => rfl, fun label count => ?_⟩
      rw [rowsFrom, spread_cons, List.replicate_succ', List.append_assoc]
      rfl
  | cons mark rest ih =>
      rcases ih with ⟨whole, opened⟩
      cases mark with
      | hole => exact ⟨fun label _ => whole label true, opened⟩
      | fixed character =>
          refine ⟨fun label complete => ?_, fun label count => ?_⟩
          · rw [rowsFrom, labelsFrom]
            split
            · rw [spread_cons, whole]
              rfl
            · rw [whole]
              cases complete <;> rfl
          · rw [rowsFrom, labelsFrom]
            split
            · rw [spread_cons, whole, List.replicate_succ', List.append_assoc]
              rfl
            · exact opened label count
      | data character =>
          refine ⟨fun label complete => ?_, fun label count => ?_⟩
          · rw [rowsFrom, labelsFrom]
            split
            · exact opened label 0
            · exact whole label true
          · rw [rowsFrom, labelsFrom]
            split
            · rw [opened, List.replicate_succ', List.append_assoc]
              rfl
            · exact opened label count

theorem labels_eq_spread : labels fragments = spread (rows fragments) :=
  ((spread_rowsFrom (marks fragments)).1 [] false).symm

/-- Lines without a label are counted up to the next label. -/
theorem replicate_none_inj {left right : Nat} {before after : List (Option Text)}
    (labelled : before.head? ≠ some none) (labelled' : after.head? ≠ some none)
    (same : List.replicate left none ++ before =
      List.replicate right none ++ after) : left = right ∧ before = after := by
  induction left generalizing right with
  | zero =>
      cases right with
      | zero => exact ⟨rfl, same⟩
      | succ right =>
          rw [List.replicate_zero, List.nil_append] at same
          rw [same] at labelled
          exact absurd rfl labelled
  | succ left ih =>
      cases right with
      | zero =>
          rw [List.replicate_zero, List.nil_append] at same
          rw [← same] at labelled'
          exact absurd rfl labelled'
      | succ right =>
          rcases ih (List.cons.inj same).2 with ⟨rfl, rest⟩
          exact ⟨rfl, rest⟩

theorem spread_head (rows : List (Text × Nat)) :
    (spread rows).head? ≠ some none := by
  cases rows with
  | nil | cons => exact nofun

/-- The labels determine the lines of the template and the line breaks. -/
theorem spread_injective : Function.Injective spread := by
  intro first second same
  induction first generalizing second with
  | nil =>
      cases second with
      | nil => rfl
      | cons row rest => cases same
  | cons row rest ih =>
      rcases row with ⟨label, count⟩
      cases second with
      | nil => cases same
      | cons other others =>
          rcases other with ⟨label', count'⟩
          rw [spread_cons, spread_cons] at same
          rcases List.cons.inj same with ⟨equal, after⟩
          rcases replicate_none_inj (spread_head rest) (spread_head others) after
            with ⟨rfl, tail⟩
          rw [Option.some.inj equal, ih tail]

/-! ## One template -/

theorem rowsFrom_data (label : Text) (complete : Bool) (count : Nat) (text : Text)
    (rest : List Mark) :
    rowsFrom label complete count ((Fragment.data text).marks ++ rest) =
      rowsFrom label true (count + text.count '\n') rest := by
  rw [Fragment.marks, List.cons_append, rowsFrom]
  induction text generalizing count with
  | nil => rfl
  | cons character text ih =>
      rw [List.map_cons, List.cons_append, rowsFrom, ih, List.count_cons]
      congr 1
      split
      · rename_i newline
        rw [if_pos (beq_iff_eq.2 newline), Nat.add_assoc, Nat.add_comm 1]
      · rename_i other
        rw [if_neg (by simpa using other), Nat.add_zero]

variable {second first : List Fragment}

/-- The labels of the rows come from the template. -/
theorem rowsFrom_template
    (same : template first = template second) (label : Text) (complete : Bool)
    (count count' : Nat) :
    (rowsFrom label complete count (marks first)).map Prod.fst =
      (rowsFrom label complete count' (marks second)).map Prod.fst := by
  induction first generalizing second label complete count count' with
  | nil =>
      cases second with
      | nil => rfl
      | cons fragment rest => cases same
  | cons fragment rest ih =>
      cases second with
      | nil => cases same
      | cons other others =>
          rcases List.cons.inj same with ⟨hole, after⟩
          cases fragment with
          | data text =>
              cases other with
              | fixed text' => cases hole
              | data text' =>
                  rw [marks, List.flatMap_cons, marks, List.flatMap_cons,
                    rowsFrom_data, rowsFrom_data]
                  exact ih after label true _ _
          | fixed text =>
              cases other with
              | data text' => cases hole
              | fixed text' =>
                  rw [← Option.some.inj hole, marks, List.flatMap_cons, marks,
                    List.flatMap_cons, Fragment.marks]
                  clear same hole
                  induction text generalizing label complete count count' with
                  | nil => exact ih after label complete count count'
                  | cons character text read =>
                      rw [List.map_cons, List.cons_append, List.cons_append,
                        rowsFrom, rowsFrom]
                      split
                      · rw [List.map_cons, List.map_cons, read]
                      · exact read _ _ _ _

/-- Documents of one template have the same labels exactly where the data of
each line hold equally many line breaks. -/
theorem labels_eq_iff (same : template first = template second) :
    labels first = labels second ↔ breaks first = breaks second := by
  rw [labels_eq_spread, labels_eq_spread, spread_injective.eq_iff]
  constructor
  · exact congrArg _
  · intro equal
    have fixed := rowsFrom_template same [] false 0 0
    exact (List.zip_of_prod fixed equal).trans (List.zip_of_prod rfl rfl).symm

/-! ## Data without line breaks -/

def Fragment.datum : Fragment → Option Text
  | .fixed _ => none
  | .data text => some text

/-- The data of a document, in their order. -/
def printed (fragments : List Fragment) : List Text :=
  fragments.filterMap Fragment.datum

/-- No data hold a line break. -/
def Unbroken (fragments : List Fragment) : Prop :=
  ∀ text ∈ printed fragments, '\n' ∉ text

@[simp]
theorem unbroken_nil : Unbroken [] := List.forall_mem_nil _

@[simp]
theorem unbroken_fixed (text : Text) (rest : List Fragment) :
    Unbroken (.fixed text :: rest) ↔ Unbroken rest := Iff.rfl

@[simp]
theorem unbroken_data (text : Text) (rest : List Fragment) :
    Unbroken (.data text :: rest) ↔ '\n' ∉ text ∧ Unbroken rest :=
  List.forall_mem_cons

@[simp]
theorem unbroken_append (front back : List Fragment) :
    Unbroken (front ++ back) ↔ Unbroken front ∧ Unbroken back := by
  rw [Unbroken, printed, List.filterMap_append, List.forall_mem_append]
  rfl

theorem unbroken_flatMap {Item : Type} {fragments : Item → List Fragment}
    {items : List Item} :
    Unbroken (items.flatMap fragments) ↔
      ∀ item ∈ items, Unbroken (fragments item) := by
  induction items with
  | nil => exact iff_of_true unbroken_nil (List.forall_mem_nil _)
  | cons item rest ih =>
      rw [List.flatMap_cons, unbroken_append, ih, List.forall_mem_cons]

theorem rowsFrom_sum (label : Text) (complete : Bool) (count : Nat) :
    ((rowsFrom label complete count (marks fragments)).map Prod.snd).sum =
      count + ((printed fragments).map fun text => text.count '\n').sum := by
  induction fragments generalizing label complete count with
  | nil => rfl
  | cons fragment rest ih =>
      rw [marks, List.flatMap_cons]
      cases fragment with
      | data text =>
          have opened : printed (.data text :: rest) = text :: printed rest := rfl
          rw [rowsFrom_data, opened, List.map_cons, List.sum_cons, ← Nat.add_assoc]
          exact ih label true _
      | fixed text =>
          rw [Fragment.marks]
          induction text generalizing label complete count with
          | nil => exact ih label complete count
          | cons character text read =>
              rw [List.map_cons, List.cons_append, rowsFrom]
              split
              · rw [List.map_cons, List.sum_cons, read, Nat.zero_add]
                rfl
              · exact read _ _ _

theorem unbroken_iff :
    Unbroken fragments ↔ ∀ count ∈ breaks fragments, count = 0 := by
  rw [← List.sum_eq_zero_iff_forall_eq_nat, breaks, rows, rowsFrom_sum,
    Nat.zero_add, List.sum_eq_zero_iff_forall_eq_nat, List.forall_mem_map]
  exact forall₂_congr fun text _ => List.count_eq_zero.symm

/-- Against data without line breaks, the labels are the same exactly where the
other data have none either. -/
theorem labels_eq_iff_unbroken
    (same : template first = template second) (unbroken : Unbroken first) :
    labels first = labels second ↔ Unbroken second := by
  rw [labels_eq_iff same, unbroken_iff]
  have zeros := (unbroken_iff first).1 unbroken
  have length : (breaks first).length = (breaks second).length := by
    have fixed := congrArg List.length (rowsFrom_template same [] false 0 0)
    rwa [List.length_map, List.length_map, ← List.length_map Prod.snd,
      ← List.length_map Prod.snd] at fixed
  constructor
  · intro equal
    rwa [← equal]
  · intro others
    rw [List.eq_replicate_of_mem zeros, List.eq_replicate_of_mem others, length]

end FireCrow.Library
