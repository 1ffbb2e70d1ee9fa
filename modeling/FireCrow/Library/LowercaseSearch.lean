import FireCrow.Library.Unicode

/-!
# Searching the lower case of a text

A needle of ASCII occurs in the lower case of a text exactly where it stands
in the text in some case, so the place of its first occurrence is the length
of the lower case of what stands before it.  That length may differ from the
length of the text itself.
-/

namespace FireCrow.Library

namespace Text

/-! ## Offsets -/

theorem fromByte_eq_some {offset : Nat} {text tail : Text} :
    fromByte offset text = some tail ↔
      ∃ init, text = init ++ tail ∧ init.byteLen = offset := by
  constructor
  · induction text generalizing offset with
    | nil =>
        intro found
        cases offset with
        | zero =>
            rw [fromByte, Option.some.injEq] at found
            exact ⟨[], found, rfl⟩
        | succ offset => cases found
    | cons character rest ih =>
        intro found
        cases offset with
        | zero =>
            rw [fromByte, Option.some.injEq] at found
            exact ⟨[], found, rfl⟩
        | succ offset =>
            rw [fromByte] at found
            · split at found
              · rename_i fits
                rcases ih found with ⟨init, rfl, same⟩
                refine ⟨character :: init, rfl, ?_⟩
                rw [byteLen_cons, same, Nat.add_sub_cancel' fits]
              · cases found
            · rintro ⟨⟩
  · rintro ⟨init, rfl, rfl⟩
    exact fromByte_append init tail

theorem toByte_append (before after : Text) :
    toByte before.byteLen (before ++ after) = some before := by
  induction before with
  | nil => cases after <;> rfl
  | cons character before ih =>
      have positive := character.utf8Size_pos
      obtain ⟨offset, same⟩ : ∃ offset,
          byteLen (character :: before) = offset + 1 :=
        ⟨byteLen (character :: before) - 1, by rw [byteLen_cons]; omega⟩
      rw [same]
      rw [byteLen_cons] at same
      have rest : offset + 1 - character.utf8Size = byteLen before := by omega
      rw [List.cons_append, toByte, if_pos (by omega), rest, ih, Option.map_some]
      rintro ⟨⟩

/-- A slice that ends at the end of a part exists when it starts at the start
of a character. -/
theorem slice_append_eq_none {start : Nat} {before : Text} (after : Text)
    (inside : start ≤ before.byteLen) :
    slice start before.byteLen (before ++ after) = none ↔
      ∀ init tail, before = init ++ tail → init.byteLen ≠ start := by
  rw [slice, if_pos inside]
  constructor
  · rintro missing init tail rfl rfl
    rw [List.append_assoc, fromByte_append, Option.bind_some, byteLen_append,
      Nat.add_sub_cancel_left, toByte_append] at missing
    cases missing
  · intro apart
    rw [Option.bind_eq_none_iff]
    intro tail found
    rcases fromByte_eq_some.1 found with ⟨init, same, rfl⟩
    rcases List.append_eq_append_iff.1 same with
      ⟨middle, rfl, rfl⟩ | ⟨middle, rfl, rfl⟩
    · rw [byteLen_append] at inside
      have none : byteLen middle = 0 := by omega
      have empty : middle = [] := by
        rw [← List.length_eq_zero_iff, ← Nat.le_zero]
        exact none ▸ Text.length_le_byteLen middle
      subst empty
      rw [List.append_nil] at apart
      exact absurd rfl (apart before [] (List.append_nil before).symm)
    · exact absurd rfl (apart init middle rfl)

/-! ## Searches -/

theorem infix_of_find {needle text : Text} {position : Nat}
    (found : find needle text = some position) : needle <:+: text := by
  induction text generalizing position with
  | nil =>
      rw [find] at found
      split at found
      · rename_i empty
        exact empty ▸ List.infix_rfl
      · cases found
  | cons character rest ih =>
      rw [find] at found
      split at found
      · rename_i starts
        exact (List.isPrefixOf_iff_prefix.1 starts).isInfix
      · rw [Option.map_eq_some_iff] at found
        rcases found with ⟨position, found, _⟩
        exact (ih found).trans (List.suffix_cons _ _).isInfix

end Text

/-! ## Lower case -/

section LowerCase

variable [tables : UnicodeTables]

namespace Text

/-- The bytes of the lower case of a character; both forms of a small sigma
have two. -/
def lowerSize (character : Char) : Nat :=
  if character = '\u03A3' then 2
  else byteLen (tables.lowercase character)

/-- What stands for a character in the lower case of a text. -/
structure LowersTo (character : Char) (lower : Text) : Prop where
  present : lower ≠ []
  byteLen : lower.byteLen = lowerSize character
  ascii : isAscii character = true → lower = [character.toLower]
  beyond : isAscii character = false → ∀ part ∈ lower, isAscii part = true →
    lower = ['i', '\u0307'] ∨ lower = ['k']

variable {text : Text}

/-- The lower case of a text, character by character. -/
theorem toLowercaseAfter_lowersTo
    (present : ∀ character ∈ text, tables.lowercase character ≠ [])
    (before : Text) :
    ∃ parts : List Text, List.Forall₂ LowersTo text parts ∧
      toLowercaseAfter before text = parts.flatten := by
  induction text generalizing before with
  | nil => exact ⟨[], .nil, rfl⟩
  | cons character rest ih =>
      rw [List.forall_mem_cons] at present
      rcases ih present.2 (before ++ [character]) with ⟨parts, lowers, same⟩
      rw [toLowercaseAfter, same]
      split
      · rename_i sigma
        subst sigma
        refine ⟨[lowerSigma before rest] :: parts, .cons ?_ lowers, rfl⟩
        unfold lowerSigma
        split
        · exact ⟨List.cons_ne_nil _ _, rfl, fun ascii => absurd ascii (by decide),
            by decide⟩
        · exact ⟨List.cons_ne_nil _ _, rfl, fun ascii => absurd ascii (by decide),
            by decide⟩
      · rename_i other
        refine ⟨tables.lowercase character :: parts,
          .cons ⟨present.1, ?_, tables.lowercase_ascii character, ?_⟩
            lowers, rfl⟩
        · rw [lowerSize, if_neg other]
        · intro beyond part member ascii
          rcases tables.ascii_of_mem_lowercase character part member ascii with
            inside | ⟨_, lower⟩ | ⟨_, lower⟩
          · rw [inside] at beyond
            cases beyond
          · exact Or.inl lower
          · exact Or.inr lower

variable {parts : List Text}

theorem byteLen_flatten_lowersTo (lowers : List.Forall₂ LowersTo text parts) :
    byteLen parts.flatten = (text.map lowerSize).sum := by
  induction lowers with
  | nil => rfl
  | cons head _ ih =>
      rw [List.flatten_cons, byteLen_append, List.map_cons, List.sum_cons, ih,
        head.byteLen]

/-- The length of the lower case of a text does not depend on what stands
around it. -/
theorem byteLen_toLowercase
    (present : ∀ character ∈ text, tables.lowercase character ≠ []) :
    text.toLowercase.byteLen = (text.map lowerSize).sum := by
  rcases toLowercaseAfter_lowersTo present [] with ⟨parts, lowers, same⟩
  rw [toLowercase, same, byteLen_flatten_lowersTo lowers]

/-! ## Needles -/

/-- A needle that is found in lower case only where it stands in some case: no
part of it is the lower case of a character beyond ASCII. -/
structure Findable (needle : Text) : Prop where
  ascii : ∀ character ∈ needle, isAscii character = true
  kelvin : 'k' ∉ needle
  dotted : needle.getLast? ≠ some 'i'

variable {needle : Text}

omit tables in
theorem Findable.tail {letter : Char}
    (findable : Findable (letter :: needle)) : Findable needle := by
  constructor
  · exact fun character member =>
      findable.ascii character (List.mem_cons_of_mem _ member)
  · exact fun member => findable.kelvin (List.mem_cons_of_mem _ member)
  · intro last
    apply findable.dotted
    rw [List.getLast?_cons, last]
    rfl

/-- The lower case of one character starts with a letter of the needle only
for the letter itself. -/
theorem LowersTo.single {character letter : Char} {rest following : Text}
    (lowers : LowersTo character (letter :: rest))
    (findable : Findable (letter :: needle))
    (starts : needle <+: rest ++ following) :
    letter = character.toLower ∧ rest = [] := by
  have plain := findable.ascii letter List.mem_cons_self
  cases known : isAscii character
  · rcases lowers.beyond known letter List.mem_cons_self plain with
      dotted | kelvin
    · rw [List.cons.injEq] at dotted
      rcases dotted with ⟨rfl, rfl⟩
      cases needle with
      | nil => exact absurd rfl findable.dotted
      | cons mark needle =>
          rw [List.singleton_append, List.cons_prefix_cons] at starts
          have ascii := findable.tail.ascii mark List.mem_cons_self
          rw [starts.1] at ascii
          exact absurd ascii (by decide)
    · rw [List.cons.injEq] at kelvin
      rw [kelvin.1] at findable
      exact absurd List.mem_cons_self findable.kelvin
  · have single := lowers.ascii known
    rw [List.cons.injEq] at single
    exact single

section

variable (lowers : List.Forall₂ LowersTo text parts)
include lowers

/-- What starts the lower case starts the text in some case. -/
theorem marked_of_prefix (findable : Findable needle)
    (starts : needle <+: parts.flatten) :
    toAsciiLowercase (text.take needle.length) = needle := by
  induction lowers generalizing needle with
  | nil => rw [List.prefix_nil.1 starts]; rfl
  | @cons character lower text parts head _ ih =>
      cases needle with
      | nil => rfl
      | cons letter needle =>
          obtain ⟨first, rest, rfl⟩ := List.exists_cons_of_ne_nil head.present
          rw [List.flatten_cons, List.cons_append,
            List.cons_prefix_cons] at starts
          rcases starts with ⟨rfl, further⟩
          rcases head.single findable further with ⟨rfl, rfl⟩
          rw [List.length_cons, List.take_succ_cons, toAsciiLowercase,
            List.map_cons]
          exact congrArg (character.toLower :: ·) (ih findable.tail further)

/-- What starts the text in some case starts its lower case. -/
theorem prefix_of_marked (findable : Findable needle)
    (marked : toAsciiLowercase (text.take needle.length) = needle) :
    needle <+: parts.flatten := by
  induction lowers generalizing needle with
  | nil =>
      rw [List.take_nil] at marked
      rw [← marked]
      exact List.nil_prefix
  | @cons character lower text parts head _ ih =>
      cases needle with
      | nil => exact List.nil_prefix
      | cons letter needle =>
          rw [List.length_cons, List.take_succ_cons, toAsciiLowercase,
            List.map_cons, List.cons.injEq] at marked
          have plain := findable.ascii letter List.mem_cons_self
          rw [← marked.1] at plain
          rw [List.flatten_cons, head.ascii (isAscii_of_toLower plain),
            List.singleton_append, marked.1, List.prefix_cons_inj]
          exact ih findable.tail marked.2

/-- What occurs in the lower case stands in the text in some case, where the
lower case of what stands before it ends. -/
theorem marked_of_infix {before after : Text} (nonempty : needle ≠ [])
    (findable : Findable needle)
    (occurs : parts.flatten = before ++ (needle ++ after)) :
    ∃ init rest, text = init ++ rest ∧
      before.byteLen = (init.map lowerSize).sum ∧
      toAsciiLowercase (rest.take needle.length) = needle := by
  induction lowers generalizing before with
  | nil =>
      have empty := (List.append_eq_nil_iff.1 occurs.symm).2
      exact absurd (List.append_eq_nil_iff.1 empty).1 nonempty
  | @cons character lower text parts head tail ih =>
      have here : parts.flatten = needle ++ after →
          ∃ init rest, character :: text = init ++ rest ∧
            byteLen lower = (init.map lowerSize).sum ∧
            toAsciiLowercase (rest.take needle.length) = needle := by
        intro later
        refine ⟨[character], text, rfl, ?_,
          marked_of_prefix tail findable ⟨after, later.symm⟩⟩
        rw [head.byteLen, List.map_singleton, List.sum_singleton]
      rw [List.flatten_cons] at occurs
      rcases List.append_eq_append_iff.1 occurs with
        ⟨middle, rfl, later⟩ | ⟨middle, rfl, later⟩
      · rcases ih later with ⟨init, rest, rfl, same, marked⟩
        refine ⟨character :: init, rest, rfl, ?_, marked⟩
        rw [byteLen_append, head.byteLen, List.map_cons, List.sum_cons, same]
      · cases middle with
        | nil =>
            rw [List.append_nil] at here
            exact here later.symm
        | cons letter middle =>
            cases before with
            | nil =>
                refine ⟨[], character :: text, rfl, rfl,
                  marked_of_prefix (.cons head tail) findable ⟨after, ?_⟩⟩
                rw [List.flatten_cons, List.nil_append, later]
            | cons first before =>
                obtain ⟨initial, needle, rfl⟩ :=
                  List.exists_cons_of_ne_nil nonempty
                rw [List.cons_append, List.cons_append, List.cons.injEq] at later
                rcases later with ⟨rfl, _⟩
                have plain := findable.ascii _ List.mem_cons_self
                have inside : initial ∈ first :: before ++ initial :: middle :=
                  List.mem_append_right _ List.mem_cons_self
                exfalso
                cases known : isAscii character
                · rcases head.beyond known initial inside plain with
                    dotted | kelvin
                  · rw [List.cons_append, List.cons.injEq] at dotted
                    have mark : initial ∈ (['\u0307'] : Text) :=
                      dotted.2 ▸ List.mem_append_right _ List.mem_cons_self
                    rw [List.mem_singleton.1 mark] at plain
                    exact absurd plain (by decide)
                  · have short := congrArg List.length kelvin
                    simp at short
                · have short := congrArg List.length (head.ascii known)
                  simp at short

end

/-- The first place where a needle stands in some case is the first place in
the lower case. -/
theorem find_toLowercase {before rest : Text}
    (present : ∀ character ∈ before ++ rest, tables.lowercase character ≠ [])
    (findable : Findable needle) (nonempty : needle ≠ [])
    (marked : toAsciiLowercase (rest.take needle.length) = needle)
    (first : ∀ suffix, suffix <:+ before → suffix ≠ [] →
      toAsciiLowercase ((suffix ++ rest).take needle.length) ≠ needle) :
    find needle (before ++ rest).toLowercase =
      some before.toLowercase.byteLen := by
  rcases toLowercaseAfter_lowersTo present [] with ⟨parts, lowers, lowered⟩
  have front := List.forall₂_take before.length lowers
  have back := List.forall₂_drop before.length lowers
  rw [List.take_left] at front
  rw [List.drop_left] at back
  rw [toLowercase, lowered, byteLen_toLowercase fun character member =>
      present character (List.mem_append_left _ member),
    ← byteLen_flatten_lowersTo front, ← List.take_append_drop before.length parts,
    List.flatten_append, List.take_append_drop]
  apply find_append (prefix_of_marked back findable marked)
  rintro suffix ⟨initial, inside⟩ nonblank ⟨tail, starts⟩
  have occurs : parts.flatten = initial ++ (needle ++ tail) := by
    rw [starts, ← List.append_assoc, inside, ← List.flatten_append,
      List.take_append_drop]
  rcases marked_of_infix lowers nonempty findable occurs with
    ⟨init, last, same, short, found⟩
  have shorter : (init.map lowerSize).sum < (before.map lowerSize).sum := by
    rw [← short, ← byteLen_flatten_lowersTo front, ← inside, byteLen_append]
    have positive : 0 < byteLen suffix :=
      lt_of_lt_of_le (List.length_pos_iff.2 nonblank) (length_le_byteLen suffix)
    omega
  rcases List.append_eq_append_iff.1 same.symm with
    ⟨suffix, rfl, rfl⟩ | ⟨suffix, rfl, rfl⟩
  · refine first suffix (List.suffix_append _ _) ?_ found
    rintro rfl
    rw [List.append_nil] at shorter
    exact absurd shorter (lt_irrefl _)
  · rw [List.map_append, List.sum_append] at shorter
    omega

/-- A needle that stands nowhere in any case is not found. -/
theorem find_toLowercase_eq_none
    (present : ∀ character ∈ text, tables.lowercase character ≠ [])
    (findable : Findable needle) (nonempty : needle ≠ [])
    (unmarked : ∀ suffix, suffix <:+ text →
      toAsciiLowercase (suffix.take needle.length) ≠ needle) :
    find needle text.toLowercase = none := by
  rcases toLowercaseAfter_lowersTo present [] with ⟨parts, lowers, lowered⟩
  rw [toLowercase, lowered, Option.eq_none_iff_forall_ne_some]
  intro position found
  rcases infix_of_find found with ⟨before, after, occurs⟩
  rw [List.append_assoc] at occurs
  rcases marked_of_infix lowers nonempty findable occurs.symm with
    ⟨init, rest, rfl, _, marked⟩
  exact unmarked rest (List.suffix_append _ _) marked

end Text

end LowerCase

end FireCrow.Library
