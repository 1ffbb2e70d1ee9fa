import FireCrow.Library.Text

/-!
# Joined and trimmed texts

What stands around one of several joined parts, and what trimming leaves of a
text with a character that it keeps.
-/

namespace FireCrow.Library.Text

/-! ## Trimming -/

theorem rdropWhile_around {accepts : Char → Bool} {kept : Char}
    (refused : accepts kept = false) (front back : Text) :
    (front ++ kept :: back).rdropWhile accepts =
      front ++ kept :: back.rdropWhile accepts := by
  induction back using List.reverseRecOn with
  | nil =>
      rw [List.rdropWhile_concat_neg _ _ _ (by rw [refused]; exact Bool.false_ne_true),
        List.rdropWhile_nil]
  | append_singleton back last ih =>
      rw [← List.cons_append, ← List.append_assoc]
      by_cases dropped : accepts last = true
      · rw [List.rdropWhile_concat_pos _ _ _ dropped, ih,
          List.rdropWhile_concat_pos _ _ _ dropped]
      · rw [List.rdropWhile_concat_neg _ _ _ dropped,
          List.rdropWhile_concat_neg _ _ _ dropped, List.append_assoc,
          List.cons_append]

/-- Trimming keeps what lies between two characters that are no blanks. -/
theorem trim_around (blanks front : Text) {first kept : Char}
    (blank : blanks.all isWhitespace = true)
    (starts : isWhitespace first = false)
    (refused : isWhitespace kept = false) (back : Text) :
    trim (blanks ++ (first :: front ++ kept :: back)) =
      first :: front ++ kept :: back.rdropWhile isWhitespace := by
  rw [trim, List.dropWhile_append_of_pos (by simpa using blank),
    List.cons_append, List.dropWhile_cons_of_neg (by rw [starts]; exact Bool.false_ne_true),
    ← List.cons_append, rdropWhile_around refused]

theorem trim_head {blanks : Text} {first : Char} (rest : Text)
    (blank : blanks.all isWhitespace = true)
    (starts : isWhitespace first = false) :
    trim (blanks ++ first :: rest) = first :: rest.rdropWhile isWhitespace := by
  rw [trim, List.dropWhile_append_of_pos (by simpa using blank),
    List.dropWhile_cons_of_neg (by rw [starts]; exact Bool.false_ne_true),
    ← List.nil_append (first :: rest), rdropWhile_around starts, List.nil_append]

/-! ## Joining -/

variable (divider : Char)

theorem join_singleton (part : Text) : join [divider] [part] = part := by
  rw [join, List.intercalate_singleton]

theorem join_cons_cons (first second : Text) (others : List Text) :
    join [divider] (first :: second :: others) =
      first ++ divider :: join [divider] (second :: others) := by
  simp [join, List.intercalate_cons_cons]

/-- A joined text starts with its first part. -/
theorem join_cons (first : Text) (others : List Text) :
    ∃ tail, join [divider] (first :: others) = first ++ tail := by
  cases others with
  | nil => exact ⟨[], by rw [join_singleton, List.append_nil]⟩
  | cons second others => exact ⟨_, join_cons_cons divider first second others⟩

/-- What stands around one of the joined parts. -/
theorem join_around (front back : List Text) :
    ∃ opening closing,
      (opening = [] ∨ ∃ before, opening = before ++ [divider]) ∧
      (closing = [] ∨ ∃ after, closing = divider :: after) ∧
      ∀ part, join [divider] (front ++ part :: back) =
        opening ++ part ++ closing := by
  induction front with
  | nil =>
      cases back with
      | nil =>
          refine ⟨[], [], Or.inl rfl, Or.inl rfl, fun part => ?_⟩
          rw [List.nil_append, join_singleton, List.nil_append, List.append_nil]
      | cons next back =>
          refine ⟨[], divider :: join [divider] (next :: back), Or.inl rfl,
            Or.inr ⟨_, rfl⟩, fun part => ?_⟩
          rw [List.nil_append, join_cons_cons, List.nil_append]
  | cons first front ih =>
      rcases ih with ⟨opening, closing, opened, closed, same⟩
      refine ⟨first ++ divider :: opening, closing, Or.inr ?_, closed,
        fun part => ?_⟩
      · rcases opened with rfl | ⟨before, rfl⟩
        · exact ⟨first, rfl⟩
        · exact ⟨first ++ divider :: before, by simp⟩
      · have next : ∃ second others, front ++ part :: back = second :: others := by
          cases front with
          | nil => exact ⟨part, back, rfl⟩
          | cons second front => exact ⟨second, front ++ part :: back, rfl⟩
        rcases next with ⟨second, others, spelled⟩
        rw [List.cons_append, spelled, join_cons_cons, ← spelled, same]
        simp

theorem mem_join {character : Char} {parts : List Text}
    (member : character ∈ join [divider] parts) :
    character = divider ∨ ∃ part ∈ parts, character ∈ part := by
  induction parts with
  | nil => cases member
  | cons first others ih =>
      cases others with
      | nil =>
          rw [join_singleton] at member
          exact Or.inr ⟨first, List.mem_cons_self, member⟩
      | cons second others =>
          rw [join_cons_cons, List.mem_append, List.mem_cons] at member
          rcases member with here | separator | later
          · exact Or.inr ⟨first, List.mem_cons_self, here⟩
          · exact Or.inl separator
          · exact (ih later).imp_right fun ⟨part, inside, inPart⟩ =>
              ⟨part, List.mem_cons_of_mem _ inside, inPart⟩

end FireCrow.Library.Text
