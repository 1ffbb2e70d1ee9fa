import FireCrow.Library.RegexReplace

/-!
# Replacing what follows a group

A pattern in two parts keeps what its first part, the group, has matched and
replaces the rest.  Whether a match may begin at a position can depend on the
character before it.

A character that no part accepts divides a text: what is replaced on one side
of it does not depend on the other side.
-/

namespace FireCrow.Library

/-- A pattern whose first part a replacement keeps. -/
structure GroupPattern where
  begins : Option Char → Bool
  group : Pattern
  value : Pattern

namespace Pattern

/-- The lengths of the group and of the whole preferred match. -/
def matchGroup : Pattern → Pattern → Text → Option (Nat × Nat)
  | [], value, text => (matchHere value text).map fun length => (0, length)
  | piece :: rest, value, text =>
      (attempts piece text).findSome? fun count =>
        (matchGroup rest value (text.drop count)).map fun lengths =>
          (count + lengths.1, count + lengths.2)

end Pattern

namespace GroupPattern

open Pattern

/-- The whole pattern. -/
def whole (pattern : GroupPattern) : Pattern := pattern.group ++ pattern.value

/-- The preferred match at a position, given the character before it. -/
def matchAt (pattern : GroupPattern) (before : Option Char) (text : Text) :
    Option (Nat × Nat) :=
  if pattern.begins before then matchGroup pattern.group pattern.value text
  else none

/-- Replace the leftmost matches up to their groups; `skip` characters belong
to the match replaced last. -/
def replaceFrom (pattern : GroupPattern) (marker : Text) :
    Option Char → Nat → Text → Text
  | _, _, [] => []
  | _, skip + 1, character :: rest =>
      pattern.replaceFrom marker (some character) skip rest
  | before, 0, character :: rest =>
      match pattern.matchAt before (character :: rest) with
      | some (kept, length + 1) =>
          (character :: rest).take kept ++ marker ++
            pattern.replaceFrom marker (some character) length rest
      | _ =>
          character :: pattern.replaceFrom marker (some character) 0 rest

/-- Replace every match up to its group. -/
def replaceAll (pattern : GroupPattern) (marker text : Text) : Text :=
  pattern.replaceFrom marker none 0 text

end GroupPattern

namespace Pattern

/-! ## Words of a match -/

variable {value group : Pattern}

theorem denotes_of_matchGroup {text : Text}
    {lengths : Nat × Nat} (found : matchGroup group value text = some lengths) :
    lengths.2 ≤ text.length ∧
      Denotes (group ++ value) (text.take lengths.2) := by
  induction group generalizing text lengths with
  | nil =>
      rcases Option.map_eq_some_iff.1 found with ⟨length, matched, rfl⟩
      exact denotes_of_matchHere matched
  | cons piece rest ih =>
      rw [matchGroup] at found
      rcases List.exists_of_findSome?_eq_some found with
        ⟨count, member, found⟩
      rcases Option.map_eq_some_iff.1 found with ⟨others, inner, rfl⟩
      rcases ih inner with ⟨bound, denotes⟩
      rcases allows_of_mem_attempts member with ⟨allowed, fits, accepted⟩
      rw [List.length_drop] at bound
      refine ⟨by omega, text.take count, (text.drop count).take others.2, ?_,
        accepted, ?_, denotes⟩
      · rw [← List.take_add]
      · rwa [List.length_take, min_eq_left fits]

/-- The group is a part of the match. -/
theorem group_le_of_matchGroup {text : Text}
    {lengths : Nat × Nat} (found : matchGroup group value text = some lengths) :
    lengths.1 ≤ lengths.2 := by
  induction group generalizing text lengths with
  | nil =>
      rcases Option.map_eq_some_iff.1 found with ⟨length, _, rfl⟩
      exact Nat.zero_le length
  | cons piece rest ih =>
      rw [matchGroup] at found
      rcases List.exists_of_findSome?_eq_some found with ⟨count, _, found⟩
      rcases Option.map_eq_some_iff.1 found with ⟨others, inner, rfl⟩
      exact Nat.add_le_add_left (ih inner) count

/-! ## Dividing characters -/

variable {divider : Char}

theorem attempts_divided {piece : Piece}
    (refuses : piece.accepts divider = false) (front back : Text) :
    attempts piece (front ++ divider :: back) = attempts piece front := by
  have run :
      (front ++ divider :: back).takeWhile piece.accepts =
        front.takeWhile piece.accepts := by
    rw [List.takeWhile_append]
    split
    · rename_i all
      rw [List.takeWhile_cons, refuses, if_neg Bool.false_ne_true,
        List.append_nil]
      exact (List.IsPrefix.eq_of_length (List.takeWhile_prefix _) all).symm
    · rfl
  simp only [attempts, Piece.reach, run]

theorem findSome?_congr {Found : Type} {first second : Nat → Option Found}
    {counts : List Nat} (same : ∀ count ∈ counts, first count = second count) :
    counts.findSome? first = counts.findSome? second := by
  induction counts with
  | nil => rfl
  | cons count counts ih =>
      rw [List.findSome?_cons, List.findSome?_cons,
        same count List.mem_cons_self,
        ih fun other member => same other (List.mem_cons_of_mem _ member)]

theorem findSome?_attempts {piece : Piece} {front : Text} {Found : Type}
    {first second : Nat → Option Found}
    (same : ∀ count, count ≤ front.length → first count = second count) :
    (attempts piece front).findSome? first =
      (attempts piece front).findSome? second :=
  findSome?_congr fun count member =>
    same count (allows_of_mem_attempts member).2.1

theorem matchHere_divided {pattern : Pattern}
    (avoids : pattern.Avoids divider) (front back : Text) :
    matchHere pattern (front ++ divider :: back) =
      matchHere pattern front := by
  induction pattern generalizing front with
  | nil => rfl
  | cons piece rest ih =>
      rw [matchHere, matchHere,
        attempts_divided (avoids piece List.mem_cons_self)]
      apply findSome?_attempts
      intro count fits
      rw [List.drop_append_of_le_length fits,
        ih fun other member => avoids other (List.mem_cons_of_mem _ member)]

theorem matchGroup_divided
    (avoids : (group ++ value).Avoids divider) (front back : Text) :
    matchGroup group value (front ++ divider :: back) =
      matchGroup group value front := by
  induction group generalizing front with
  | nil =>
      rw [List.nil_append] at avoids
      rw [matchGroup, matchGroup, matchHere_divided avoids]
  | cons piece rest ih =>
      rw [matchGroup, matchGroup,
        attempts_divided (avoids piece List.mem_cons_self)]
      apply findSome?_attempts
      intro count fits
      rw [List.drop_append_of_le_length fits,
        ih fun other member => avoids other (List.mem_cons_of_mem _ member)]

end Pattern

namespace GroupPattern

open Pattern

variable {pattern : GroupPattern} {marker : Text} {divider : Char}

theorem matchAt_divided (avoids : pattern.whole.Avoids divider)
    (before : Option Char) (front back : Text) :
    pattern.matchAt before (front ++ divider :: back) =
      pattern.matchAt before front := by
  rw [matchAt, matchAt, matchGroup_divided avoids]

variable {text : Text}

theorem lengths_of_matchAt {before : Option Char} {kept length : Nat}
    (found : pattern.matchAt before text = some (kept, length)) :
    kept ≤ length ∧ length ≤ text.length ∧
      pattern.whole.Denotes (text.take length) := by
  rw [matchAt] at found
  split at found
  · exact ⟨group_le_of_matchGroup found, denotes_of_matchGroup found⟩
  · cases found

/-- What a replacement leaves on one side of a divider is what it leaves of
that side alone. -/
theorem replaceFrom_divided (avoids : pattern.whole.Avoids divider)
    (back : Text) :
    ∀ (front : Text) (before : Option Char) (skip : Nat),
      skip ≤ front.length →
        pattern.replaceFrom marker before skip (front ++ divider :: back) =
          pattern.replaceFrom marker before skip front ++
            divider :: pattern.replaceFrom marker (some divider) 0 back := by
  intro front
  induction front with
  | nil =>
      intro before skip fits
      have same : pattern.matchAt before (divider :: back) =
          pattern.matchAt before [] := matchAt_divided avoids before [] back
      have blank : pattern.replaceFrom marker before 0 [] = [] := by
        rw [replaceFrom]
      rw [Nat.le_zero.1 fits, List.nil_append, blank, List.nil_append,
        replaceFrom, same]
      split
      · rename_i found
        have bound := (lengths_of_matchAt found).2.1
        rw [List.length_nil] at bound
        omega
      · rfl
  | cons character front ih =>
      intro before skip fits
      rw [List.length_cons] at fits
      cases skip with
      | succ skip =>
          rw [List.cons_append, replaceFrom, replaceFrom,
            ih _ _ (Nat.le_of_succ_le_succ fits)]
      | zero =>
          rw [List.cons_append, replaceFrom, replaceFrom, ← List.cons_append,
            matchAt_divided avoids]
          split
          · rename_i kept length found
            have lengths := lengths_of_matchAt found
            rw [List.length_cons] at lengths
            rw [ih _ _ (by omega), List.take_append_of_le_length
              (by rw [List.length_cons]; omega), ← List.append_assoc]
          · rw [ih _ _ (Nat.zero_le _), List.cons_append]

/-- A text without a word of the pattern stays as it is. -/
theorem replaceFrom_eq_self
    (absent : ∀ word, word <:+: text → ¬ pattern.whole.Denotes word)
    (before : Option Char) :
    pattern.replaceFrom marker before 0 text = text := by
  induction text generalizing before with
  | nil => rw [replaceFrom]
  | cons character rest ih =>
      rw [replaceFrom]
      split
      · rename_i found
        exact absurd (lengths_of_matchAt found).2.2
          (absent _ (List.take_prefix _ _).isInfix)
      · rw [ih fun word inside =>
          absent word (inside.trans (List.suffix_cons _ _).isInfix)]

theorem replaceFrom_skip (text : Text) (before : Option Char) :
    pattern.replaceFrom marker before text.length text = [] := by
  induction text generalizing before with
  | nil => rw [replaceFrom]
  | cons character rest ih => rw [List.length_cons, replaceFrom, ih]

/-- A text ends with a character of a kind. -/
def Ends (kind : Char → Prop) (text : Text) : Prop :=
  ∃ last, text.getLast? = some last ∧ kind last

variable {kind : Char → Prop}

theorem Ends.append {back : Text}
    (ends : Ends kind back) (front : Text) : Ends kind (front ++ back) := by
  rcases ends with ⟨last, equal, holds⟩
  exact ⟨last, by rw [List.getLast?_append, equal, Option.some_or], holds⟩

theorem Ends.tail {character : Char} {rest : Text}
    (ends : Ends kind (character :: rest)) (nonempty : rest ≠ []) :
    Ends kind rest := by
  rcases ends with ⟨last, equal, holds⟩
  rw [List.getLast?_cons_of_ne_nil nonempty] at equal
  exact ⟨last, equal, holds⟩

theorem Ends.filter {keeps : Char → Bool}
    (ends : Ends kind text) (kept : ∀ character, kind character →
      keeps character = true) : Ends kind (text.filter keeps) := by
  rcases ends with ⟨last, equal, holds⟩
  rcases List.getLast?_eq_some_iff.1 equal with ⟨front, rfl⟩
  refine ⟨last, ?_, holds⟩
  rw [List.filter_append, List.filter_cons_of_pos (kept last holds),
    List.filter_nil, List.getLast?_concat]

/-- A replacement ends as the text ended, or as its marker does. -/
theorem replaceFrom_ends (ending : Ends kind marker) :
    ∀ (text : Text) (before : Option Char) (skip : Nat), skip < text.length →
      Ends kind text →
        Ends kind (pattern.replaceFrom marker before skip text) := by
  intro text
  induction text with
  | nil =>
      intro before skip short
      exact absurd short (Nat.not_lt_zero skip)
  | cons character rest ih =>
      intro before skip short ends
      rw [List.length_cons] at short
      cases skip with
      | succ skip =>
          have later : skip < rest.length := Nat.lt_of_succ_lt_succ short
          rw [replaceFrom]
          exact ih _ _ later (ends.tail (List.ne_nil_of_length_pos (by omega)))
      | zero =>
          rw [replaceFrom]
          split
          · rename_i kept length found
            have bound := (lengths_of_matchAt found).2.1
            rw [List.length_cons] at bound
            rcases Nat.lt_or_ge length rest.length with later | all
            · have tail :=
                ends.tail (List.ne_nil_of_length_pos (by omega))
              exact (ih _ _ later tail).append _
            · rw [show length = rest.length by omega, replaceFrom_skip,
                List.append_nil]
              exact ending.append _
          · cases rest with
            | nil =>
                rw [replaceFrom]
                exact ends
            | cons next rest =>
                have tail := ends.tail (List.cons_ne_nil next rest)
                exact (ih _ _ (Nat.succ_pos _) tail).append [character]

/-! ## Several patterns in turn -/

/-- Replace by every pattern in turn what follows a character. -/
def replaceInTurn (patterns : List GroupPattern) (marker : Text)
    (before : Option Char) (text : Text) : Text :=
  patterns.foldl
    (fun result pattern => pattern.replaceFrom marker before 0 result) text

theorem replaceInTurn_cons (pattern : GroupPattern)
    (patterns : List GroupPattern) (before : Option Char) (text : Text) :
    replaceInTurn (pattern :: patterns) marker before text =
      replaceInTurn patterns marker before
        (pattern.replaceFrom marker before 0 text) :=
  rfl

variable {patterns : List GroupPattern}

theorem replaceInTurn_divided
    (avoids : ∀ pattern ∈ patterns, pattern.whole.Avoids divider)
    (before : Option Char) (front back : Text) :
    replaceInTurn patterns marker before (front ++ divider :: back) =
      replaceInTurn patterns marker before front ++
        divider :: replaceInTurn patterns marker (some divider) back := by
  induction patterns generalizing front back with
  | nil => rfl
  | cons pattern patterns ih =>
      rw [replaceInTurn_cons, replaceInTurn_cons, replaceInTurn_cons,
        replaceFrom_divided (avoids pattern List.mem_cons_self) _ _ _ _
          (Nat.zero_le _),
        ih fun other member => avoids other (List.mem_cons_of_mem _ member)]

theorem replaceInTurn_eq_self
    (absent : ∀ pattern ∈ patterns, ∀ word, word <:+: text →
      ¬ pattern.whole.Denotes word) (before : Option Char) :
    replaceInTurn patterns marker before text = text := by
  induction patterns with
  | nil => rfl
  | cons pattern patterns ih =>
      rw [replaceInTurn_cons,
        replaceFrom_eq_self (absent pattern List.mem_cons_self),
        ih fun other member => absent other (List.mem_cons_of_mem _ member)]

theorem replaceInTurn_ends (ending : Ends kind marker) (before : Option Char)
    (ends : Ends kind text) :
    Ends kind (replaceInTurn patterns marker before text) := by
  induction patterns generalizing text with
  | nil => exact ends
  | cons pattern patterns ih =>
      rw [replaceInTurn_cons]
      apply ih
      apply replaceFrom_ends ending _ _ _ _ ends
      apply List.length_pos_of_ne_nil
      rintro rfl
      rcases ends with ⟨last, none, _⟩
      cases none

end GroupPattern

end FireCrow.Library
