import FireCrow.Library.Regex

/-!
# What a replacement leaves

A replacement keeps some characters of a text and puts its own text in the
place of others.  `Rewrites` says which: a kept character begins no match, and
what is replaced is a word of the pattern.
-/

namespace FireCrow.Library.Pattern

/-! ## Words -/

variable {pattern : Pattern} {word : Text}

/-- Every character of a word is accepted by a piece. -/
theorem Denotes.accepted (denotes : pattern.Denotes word) :
    ∀ character ∈ word, ∃ piece ∈ pattern, piece.accepts character = true := by
  induction pattern generalizing word with
  | nil =>
      intro character member
      rw [show word = [] from denotes] at member
      cases member
  | cons piece rest ih =>
      rcases denotes with ⟨taken, left, rfl, accepted, _, denotes⟩
      intro character member
      rcases List.mem_append.1 member with inside | later
      · exact ⟨piece, List.mem_cons_self,
          List.all_eq_true.1 accepted character inside⟩
      · rcases ih denotes character later with ⟨other, member, accepts⟩
        exact ⟨other, List.mem_cons_of_mem _ member, accepts⟩

/-- A word has a character for every piece that must take one. -/
theorem Denotes.required {piece : Piece}
    (denotes : pattern.Denotes word) (member : piece ∈ pattern)
    (positive : 1 ≤ piece.least) :
    ∃ character ∈ word, piece.accepts character = true := by
  induction pattern generalizing word with
  | nil => cases member
  | cons first rest ih =>
      rcases denotes with ⟨taken, left, rfl, accepted, allowed, denotes⟩
      rcases List.mem_cons.1 member with rfl | later
      · cases taken with
        | nil =>
            have none := positive.trans allowed.1
            cases none
        | cons character taken =>
            exact ⟨character, List.mem_cons_self,
              List.all_eq_true.1 accepted character List.mem_cons_self⟩
      · rcases ih denotes later with ⟨character, inside, accepts⟩
        exact ⟨character, List.mem_append_right _ inside, accepts⟩

/-- A word starts with a character of the first piece, when that must take
one. -/
theorem Denotes.head {piece : Piece} {rest : Pattern}
    (denotes : Pattern.Denotes (piece :: rest) word)
    (positive : 1 ≤ piece.least) :
    ∃ character tail, word = character :: tail ∧
      piece.accepts character = true := by
  rcases denotes with ⟨taken, left, rfl, accepted, allowed, _⟩
  cases taken with
  | nil =>
      have none := positive.trans allowed.1
      cases none
  | cons character taken =>
      exact ⟨character, taken ++ left, rfl,
        List.all_eq_true.1 accepted character List.mem_cons_self⟩

theorem denotes_append_iff {left right : Pattern} :
    Pattern.Denotes (left ++ right) word ↔
      ∃ first second, word = first ++ second ∧ left.Denotes first ∧
        right.Denotes second := by
  constructor
  · induction left generalizing word with
    | nil => exact fun denotes => ⟨[], word, rfl, rfl, denotes⟩
    | cons piece rest ih =>
        rintro ⟨taken, others, rfl, accepted, allowed, denotes⟩
        rcases ih denotes with ⟨first, second, rfl, left, right⟩
        exact ⟨taken ++ first, second, by rw [List.append_assoc],
          ⟨taken, first, rfl, accepted, allowed, left⟩, right⟩
  · rintro ⟨first, second, rfl, left, right⟩
    exact denotes_append left right

/-- A piece of the pattern takes none of the characters of a text. -/
def Bars (pattern : Pattern) (text : Text) : Prop :=
  ∃ piece ∈ pattern, 1 ≤ piece.least ∧
    ∀ character ∈ text, piece.accepts character = false

/-- No word of the pattern stands in a text that it bars. -/
theorem Bars.not_within {text : Text}
    (bars : pattern.Bars text) (denotes : pattern.Denotes word) :
    ¬ word <:+: text := by
  rintro inside
  rcases bars with ⟨piece, member, positive, refuses⟩
  rcases denotes.required member positive with ⟨character, inWord, accepts⟩
  rw [refuses character (inside.subset inWord)] at accepts
  cases accepts

/-- No piece of the pattern takes the character. -/
def Avoids (pattern : Pattern) (character : Char) : Prop :=
  ∀ piece ∈ pattern, piece.accepts character = false

theorem Avoids.not_mem {character : Char}
    (avoids : pattern.Avoids character) (denotes : pattern.Denotes word) :
    character ∉ word := by
  intro member
  rcases denotes.accepted character member with ⟨piece, inside, accepts⟩
  rw [avoids piece inside] at accepts
  cases accepts

/-! ## Rewriting -/

/-- A text with some parts replaced by a marker: every kept character has the
property `kept` with what follows it, and every part that is replaced has the
property `swapped`. -/
inductive Rewrites (kept swapped : Text → Prop) (marker : Text) :
    Text → Text → Prop where
  | nil : Rewrites kept swapped marker [] []
  | keep {character : Char} {text result : Text}
      (stays : kept (character :: text))
      (rest : Rewrites kept swapped marker text result) :
      Rewrites kept swapped marker (character :: text) (character :: result)
  | swap {part text result : Text} (goes : swapped part)
      (rest : Rewrites kept swapped marker text result) :
      Rewrites kept swapped marker (part ++ text) (marker ++ result)

section Rewriting

variable {kept swapped : Text → Prop} {marker text result : Text}

variable {inner : Text} {mark : Char}

/-- What the result starts with, as far as it avoids the head of the marker, the
text starts with. -/
theorem Rewrites.of_start {post : Text}
    (rewrites : Rewrites kept swapped (mark :: inner) text (word ++ post))
    (avoids : mark ∉ word) :
    ∃ rest, text = word ++ rest ∧
      Rewrites kept swapped (mark :: inner) rest post ∧
      (word ≠ [] → kept text) := by
  induction word generalizing text with
  | nil => exact ⟨text, rfl, rewrites, fun none => absurd rfl none⟩
  | cons first word ih =>
      rw [List.mem_cons, not_or] at avoids
      rw [List.cons_append] at rewrites
      generalize same : first :: (word ++ post) = whole at rewrites
      cases rewrites with
      | nil => cases same
      | keep stays rest =>
          cases same
          rcases ih rest avoids.2 with ⟨tail, rfl, further, _⟩
          exact ⟨tail, rfl, further, fun _ => stays⟩
      | swap goes rest =>
          rw [List.cons_append, List.cons.injEq] at same
          exact absurd same.1.symm avoids.1

/-- A word of the result that avoids both ends of the marker stands inside the
marker or in the text. -/
theorem Rewrites.of_word {pre post : Text} {stop : Char}
    (rewrites : Rewrites kept swapped (mark :: (inner ++ [stop])) text
      (pre ++ (word ++ post)))
    (nonempty : word ≠ []) (avoids : mark ∉ word) (stops : stop ∉ word) :
    word <:+: mark :: (inner ++ [stop]) ∨
      ∃ before rest, text = before ++ (word ++ rest) ∧ kept (word ++ rest) ∧
        Rewrites kept swapped (mark :: (inner ++ [stop])) rest post := by
  have here : ∀ {text : Text},
      Rewrites kept swapped (mark :: (inner ++ [stop])) text (word ++ post) →
      ∃ before rest, text = before ++ (word ++ rest) ∧ kept (word ++ rest) ∧
        Rewrites kept swapped (mark :: (inner ++ [stop])) rest post := by
    intro text rewrites
    rcases rewrites.of_start avoids with ⟨rest, rfl, further, stays⟩
    exact ⟨[], rest, rfl, stays nonempty, further⟩
  generalize same : pre ++ (word ++ post) = whole at rewrites
  induction rewrites generalizing pre with
  | nil =>
      have empty := (List.append_eq_nil_iff.1 same).2
      exact absurd (List.append_eq_nil_iff.1 empty).1 nonempty
  | @keep character text result stays rest ih =>
      cases pre with
      | nil =>
          right
          apply here
          rw [List.nil_append] at same
          rw [same]
          exact .keep stays rest
      | cons first pre =>
          cases same
          rcases ih rfl with inside | ⟨before, tail, rfl, stays, further⟩
          · exact Or.inl inside
          · exact Or.inr ⟨character :: before, tail, rfl, stays, further⟩
  | @swap part text result goes rest ih =>
      rcases List.append_eq_append_iff.1 same with
        ⟨middle, split, later⟩ | ⟨middle, split, later⟩
      · rcases List.append_eq_append_iff.1 later with
          ⟨extra, rfl, _⟩ | ⟨extra, ends, behind⟩
        · exact Or.inl ⟨pre, extra, by rw [List.append_assoc, ← split]⟩
        · -- a word that goes on behind the marker has its last character
          rcases List.eq_nil_or_concat middle with rfl | ⟨init, last, rfl⟩
          · rw [List.nil_append] at ends
            rw [← ends] at behind
            rcases ih (List.nil_append _ |>.trans behind.symm) with
              inside | ⟨before, tail, rfl, stays, further⟩
            · exact Or.inl inside
            · exact Or.inr ⟨part ++ before, tail, by rw [List.append_assoc],
                stays, further⟩
          · have lasts := congrArg List.getLast? split
            rw [List.concat_eq_append, ← List.append_assoc, ← List.cons_append,
              List.getLast?_concat, List.getLast?_concat,
              Option.some.injEq] at lasts
            have member : stop ∈ word := by
              rw [ends, lasts, List.concat_eq_append]
              exact List.mem_append_left _
                (List.mem_append_right _ List.mem_cons_self)
            exact absurd member stops
      · rcases ih later.symm with inside | ⟨before, tail, rfl, stays, further⟩
        · exact Or.inl inside
        · exact Or.inr ⟨part ++ before, tail, by rw [List.append_assoc],
            stays, further⟩

/-- Nothing is left of a text only where there was none. -/
theorem Rewrites.of_nil
    (rewrites : Rewrites kept swapped (mark :: inner) text []) : text = [] := by
  generalize none : ([] : Text) = result at rewrites
  cases rewrites with
  | nil => rfl
  | keep | swap => cases none

/-- A text none of whose parts is replaced stays as it is. -/
theorem Rewrites.eq_self (rewrites : Rewrites kept swapped marker text result)
    (stays : ∀ part, part <:+: text → ¬ swapped part) : result = text := by
  induction rewrites with
  | nil => rfl
  | @keep character text result _ rest ih =>
      rw [ih fun part inside =>
        stays part (inside.trans (List.suffix_cons _ _).isInfix)]
  | @swap part text result goes rest ih =>
      exact absurd goes (stays part (List.prefix_append _ _).isInfix)

end Rewriting

/-! ## Replacements -/

/-- No match of the pattern starts here. -/
def NoMatch (pattern : Pattern) (text : Text) : Prop :=
  ∀ length, matchHere pattern text ≠ some (length + 1)

theorem replaceFrom_skip (pattern : Pattern) (replacement : Text) :
    ∀ (skip : Nat) (text : Text),
      replaceFrom pattern replacement skip text =
        replaceFrom pattern replacement 0 (text.drop skip) := by
  intro skip
  induction skip with
  | zero => exact fun _ => rfl
  | succ skip ih =>
      intro text
      cases text with
      | nil =>
          rw [List.drop_nil]
          rfl
      | cons character rest =>
          rw [replaceFrom, ih, List.drop_succ_cons]

/-- A replacement rewrites its matches and nothing else. -/
theorem replaceAll_rewrites (pattern : Pattern) (replacement text : Text) :
    Rewrites (NoMatch pattern)
      (fun part => part ≠ [] ∧ pattern.Denotes part) replacement text
      (replaceAll pattern replacement text) := by
  have bounded : ∀ (size : Nat) (text : Text), text.length ≤ size →
      Rewrites (NoMatch pattern)
        (fun part => part ≠ [] ∧ pattern.Denotes part) replacement text
        (replaceFrom pattern replacement 0 text) := by
    intro size
    induction size with
    | zero =>
        intro text small
        rw [List.length_eq_zero_iff.1 (Nat.le_zero.1 small)]
        exact .nil
    | succ size ih =>
        intro text small
        cases text with
        | nil => exact .nil
        | cons character rest =>
            rw [List.length_cons] at small
            rw [replaceFrom]
            split
            · rename_i length found
              have word := (denotes_of_matchHere found).2
              rw [List.take_succ_cons] at word
              rw [replaceFrom_skip]
              have later := ih (rest.drop length) (by
                rw [List.length_drop]
                omega)
              have whole : character :: rest =
                  (character :: rest.take length) ++ rest.drop length := by
                rw [List.cons_append, List.take_append_drop]
              rw [whole]
              exact .swap ⟨List.cons_ne_nil _ _, word⟩ later
            · rename_i missing
              exact .keep (fun length found => missing length found)
                (ih rest (by omega))
  exact bounded text.length text le_rfl

/-- A text without a match is kept. -/
theorem replaceAll_eq_self {text : Text}
    (unmatched : pattern.isMatch text = false) (replacement : Text) :
    replaceAll pattern replacement text = text := by
  apply (replaceAll_rewrites pattern replacement text).eq_self
  rintro part inside ⟨_, denotes⟩
  rw [← Bool.not_eq_true, isMatch_iff] at unmatched
  exact unmatched ⟨part, inside, denotes⟩

end FireCrow.Library.Pattern
