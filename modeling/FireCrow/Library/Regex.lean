import FireCrow.Library.Text

/-!
# Patterns of repeated character classes

A pattern is a sequence of pieces, each a character class repeated greedily
between two bounds.  `matchHere` is the match a backtracking engine prefers:
every piece takes as many characters as the rest of the pattern allows.

`Denotes` is the meaning of a pattern as a set of words.
-/

namespace FireCrow.Library

/-- A character class with its repetition bounds. -/
structure Piece where
  accepts : Char → Bool
  least : Nat
  most : Option Nat

/-- A sequence of pieces. -/
abbrev Pattern := List Piece

namespace Piece

/-- One character of a class. -/
def one (accepts : Char → Bool) : Piece := ⟨accepts, 1, some 1⟩

/-- Zero or one character of a class. -/
def optional (accepts : Char → Bool) : Piece := ⟨accepts, 0, some 1⟩

/-- Exactly `count` characters of a class. -/
def exactly (accepts : Char → Bool) (count : Nat) : Piece :=
  ⟨accepts, count, some count⟩

/-- At least `count` characters of a class. -/
def atLeast (accepts : Char → Bool) (count : Nat) : Piece :=
  ⟨accepts, count, none⟩

/-- The largest number of characters the piece can take from a text. -/
def reach (piece : Piece) (text : Text) : Nat :=
  let run := (text.takeWhile piece.accepts).length
  match piece.most with
  | none => run
  | some most => min run most

/-- The piece may take `count` characters as far as its bounds go. -/
def Allows (piece : Piece) (count : Nat) : Prop :=
  piece.least ≤ count ∧ ∀ most, piece.most = some most → count ≤ most

end Piece

/-- The literal pieces of a text. -/
def literal (text : Text) : Pattern :=
  text.map fun character => .one (· == character)

namespace Pattern

/-- The counts a greedy piece tries, longest first. -/
def attempts (piece : Piece) (text : Text) : List Nat :=
  (List.range (piece.reach text + 1 - piece.least)).map fun given =>
    piece.reach text - given

/-- The length of the preferred match at the head of a text. -/
def matchHere : Pattern → Text → Option Nat
  | [], _ => some 0
  | piece :: rest, text =>
      (attempts piece text).findSome? fun count =>
        (matchHere rest (text.drop count)).map (count + ·)

/-- Whether the pattern matches somewhere in the text. -/
def isMatch (pattern : Pattern) (text : Text) : Bool :=
  text.tails.any fun suffix => (matchHere pattern suffix).isSome

/-- Replace the leftmost matches; `skip` characters belong to the match
replaced last. -/
def replaceFrom (pattern : Pattern) (replacement : Text) :
    Nat → Text → Text
  | _, [] => []
  | skip + 1, _ :: rest => replaceFrom pattern replacement skip rest
  | 0, character :: rest =>
      match matchHere pattern (character :: rest) with
      | some (length + 1) =>
          replacement ++ replaceFrom pattern replacement length rest
      | _ => character :: replaceFrom pattern replacement 0 rest

/-- Replace every match. -/
def replaceAll (pattern : Pattern) (replacement text : Text) : Text :=
  replaceFrom pattern replacement 0 text

/-! ## Words of a pattern -/

/-- The words a pattern stands for. -/
def Denotes : Pattern → Text → Prop
  | [], word => word = []
  | piece :: rest, word =>
      ∃ taken left, word = taken ++ left ∧
        taken.all piece.accepts = true ∧ piece.Allows taken.length ∧
        Denotes rest left

variable {piece : Piece}

theorem length_le_reach {taken rest : Text}
    (accepted : taken.all piece.accepts = true)
    (allowed : piece.Allows taken.length) :
    taken.length ≤ piece.reach (taken ++ rest) := by
  have run :
      taken.length ≤
        ((taken ++ rest).takeWhile piece.accepts).length := by
    rw [List.takeWhile_append_of_pos]
    · simp
    · simpa using accepted
  rw [Piece.reach]
  cases bound : piece.most with
  | none => exact run
  | some most => exact le_min run (allowed.2 most bound)

theorem allows_of_mem_attempts {text : Text} {count : Nat}
    (member : count ∈ attempts piece text) :
    piece.Allows count ∧ count ≤ text.length ∧
      (text.take count).all piece.accepts = true := by
  simp only [attempts, List.mem_map, List.mem_range] at member
  rcases member with ⟨given, bound, rfl⟩
  have reachRun :
      piece.reach text ≤ (text.takeWhile piece.accepts).length := by
    rw [Piece.reach]
    cases piece.most with
    | none => exact le_rfl
    | some most => exact min_le_left _ _
  have runPrefix : text.takeWhile piece.accepts <+: text :=
    List.takeWhile_prefix _
  refine ⟨⟨by omega, ?_⟩, ?_, ?_⟩
  · intro most equal
    have reachMost : piece.reach text ≤ most := by
      rw [Piece.reach, equal]
      exact min_le_right _ _
    omega
  · have runLength := runPrefix.length_le
    omega
  · have inRun :
        text.take (piece.reach text - given) <+:
          text.takeWhile piece.accepts := by
      apply List.prefix_of_prefix_length_le (List.take_prefix _ _) runPrefix
      rw [List.length_take]
      omega
    rw [List.all_eq_true]
    intro character inside
    exact List.mem_takeWhile_imp (inRun.subset inside)

theorem mem_attempts {taken rest : Text}
    (accepted : taken.all piece.accepts = true)
    (allowed : piece.Allows taken.length) :
    taken.length ∈ attempts piece (taken ++ rest) := by
  have reach :
      taken.length ≤ piece.reach (taken ++ rest) :=
    length_le_reach accepted allowed
  simp only [attempts, List.mem_map, List.mem_range]
  refine ⟨piece.reach (taken ++ rest) - taken.length, ?_, ?_⟩
  · have least := allowed.1
    omega
  · omega

variable {pattern : Pattern}

/-- A match at the head of a text is a word of the pattern. -/
theorem denotes_of_matchHere {text : Text}
    {length : Nat} (found : matchHere pattern text = some length) :
    length ≤ text.length ∧ Denotes pattern (text.take length) := by
  induction pattern generalizing text length with
  | nil =>
      cases found
      exact ⟨Nat.zero_le _, List.take_zero⟩
  | cons piece rest ih =>
      rw [matchHere] at found
      rcases List.exists_of_findSome?_eq_some found with
        ⟨count, member, found⟩
      rcases Option.map_eq_some_iff.1 found with ⟨others, inner, rfl⟩
      rcases ih inner with ⟨bound, denotes⟩
      rcases allows_of_mem_attempts member with ⟨allowed, fits, accepted⟩
      rw [List.length_drop] at bound
      refine ⟨by omega, text.take count, (text.drop count).take others, ?_,
        accepted, ?_, denotes⟩
      · rw [← List.take_add]
      · rwa [List.length_take, min_eq_left fits]

/-- Every word of the pattern at the head of a text is found. -/
theorem matchHere_isSome {word : Text}
    (denotes : Denotes pattern word) (rest : Text) :
    (matchHere pattern (word ++ rest)).isSome = true := by
  induction pattern generalizing word with
  | nil => rfl
  | cons piece others ih =>
      rcases denotes with ⟨taken, left, rfl, accepted, allowed, denotes⟩
      rw [matchHere, List.findSome?_isSome_iff]
      refine ⟨taken.length, ?_, ?_⟩
      · rw [List.append_assoc]
        exact mem_attempts accepted allowed
      · rw [List.append_assoc, List.drop_left, Option.isSome_map]
        exact ih denotes

/-- The pattern matches when a part of the text is one of its words. -/
theorem isMatch_iff (pattern : Pattern) (text : Text) :
    isMatch pattern text = true ↔
      ∃ word, word <:+: text ∧ Denotes pattern word := by
  simp only [isMatch, List.any_eq_true, List.mem_tails]
  constructor
  · rintro ⟨suffix, isSuffix, found⟩
    rcases Option.isSome_iff_exists.1 found with ⟨length, found⟩
    exact ⟨suffix.take length,
      (List.take_prefix _ _).isInfix.trans isSuffix.isInfix,
      (denotes_of_matchHere found).2⟩
  · rintro ⟨word, ⟨before, after, rfl⟩, denotes⟩
    refine ⟨word ++ after, ?_, matchHere_isSome denotes after⟩
    exact ⟨before, by rw [List.append_assoc]⟩

/-- A match inside a part is a match inside the whole. -/
theorem isMatch_of_infix {part whole : Text}
    (inside : part <:+: whole) (found : isMatch pattern part = true) :
    isMatch pattern whole = true := by
  rw [isMatch_iff] at found ⊢
  rcases found with ⟨word, inPart, denotes⟩
  exact ⟨word, inPart.trans inside, denotes⟩

theorem denotes_append {left right : Pattern} {first second : Text}
    (leftDenotes : Denotes left first) (rightDenotes : Denotes right second) :
    Denotes (left ++ right) (first ++ second) := by
  induction left generalizing first with
  | nil =>
      rw [leftDenotes]
      exact rightDenotes
  | cons piece rest ih =>
      rcases leftDenotes with
        ⟨taken, others, rfl, accepted, allowed, denotes⟩
      exact ⟨taken, others ++ second, by rw [List.append_assoc], accepted,
        allowed, ih denotes⟩

/-! ## Replacement -/

/-- A text without a match is kept, and any match leaves the replacement. -/
theorem replaceAll_eq_self_or_contains (pattern : Pattern)
    (replacement text : Text) :
    replaceAll pattern replacement text = text ∨
      replacement <:+: replaceAll pattern replacement text := by
  unfold replaceAll
  induction text with
  | nil => exact Or.inl rfl
  | cons character rest ih =>
      rw [replaceFrom]
      split
      · exact Or.inr (List.prefix_append replacement _).isInfix
      · rcases ih with same | inside
        · exact Or.inl (by rw [same])
        · exact Or.inr (inside.trans (List.suffix_cons character _).isInfix)

end Pattern

/-! ## Literals -/

/-- Replace every occurrence of a nonempty text. -/
def Text.replace (text needle replacement : Text) : Text :=
  (literal needle).replaceAll replacement text

end FireCrow.Library
