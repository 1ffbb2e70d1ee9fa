import FireCrow.Library.JsonStable

/-!
# Strings, order and size of a value that is read again

Reading a value back from its text keeps its strings, and sorting a value that
the parser built changes nothing.  The text of an object is as long as its
members are together.
-/

namespace FireCrow.Library

namespace Json

variable [FloatFormat]

mutual

theorem strings_reread : ∀ value : Json, value.reread.strings = value.strings
  | .null => rfl
  | .bool _ => rfl
  | .int _ => rfl
  | .float _ => rfl
  | .string _ => rfl
  | .array items => by rw [reread, strings, itemStrings_reread items, strings]
  | .object members => by
      rw [reread, strings, memberStrings_reread members, strings]

theorem itemStrings_reread :
    ∀ items : List Json, itemStrings (rereadItems items) = itemStrings items
  | [] => rfl
  | item :: items => by
      rw [rereadItems, itemStrings, strings_reread item,
        itemStrings_reread items, itemStrings]

theorem memberStrings_reread :
    ∀ members : List (Text × Json),
      memberStrings (rereadMembers members) = memberStrings members
  | [] => rfl
  | (_, value) :: members => by
      rw [rereadMembers, memberStrings, strings_reread value,
        memberStrings_reread members, memberStrings]

end

mutual

/-- A value with sorted objects is its own sorted form. -/
theorem sort_of_sorted : ∀ value : Json, value.Sorted → value.sort = value
  | .null, _ => rfl
  | .bool _, _ => rfl
  | .int _, _ => rfl
  | .float _, _ => rfl
  | .string _, _ => rfl
  | .array items, sorted => by rw [sort, sortItems_of_sorted items sorted]
  | .object members, sorted => by
      have entries : SortedMap.ofList members = ⟨members, sorted.1⟩ :=
        SortedMap.ofList_entries ⟨members, sorted.1⟩
      rw [sort, sortMembers_of_sorted members sorted.2, entries]

theorem sortItems_of_sorted :
    ∀ items : List Json, SortedItems items → sortItems items = items
  | [], _ => rfl
  | item :: items, sorted => by
      rw [sortItems, sort_of_sorted item sorted.1,
        sortItems_of_sorted items sorted.2]

theorem sortMembers_of_sorted :
    ∀ members : List (Text × Json), SortedMembers members →
      sortMembers members = members
  | [], _ => rfl
  | (_, value) :: members, sorted => by
      rw [sortMembers, sort_of_sorted value sorted.1,
        sortMembers_of_sorted members sorted.2]

end

/-! ## Sizes -/

/-- The bytes of a member with its colon and the mark behind it. -/
def memberSize (member : Text × Json) : Nat :=
  (renderString member.1).byteLen + member.2.render.byteLen + 2

theorem byteLen_renderMembers (members : List (Text × Json)) :
    (renderMembers members).byteLen = (members.map memberSize).sum := by
  have colon : (':' : Char).utf8Size = 1 := rfl
  have comma : (',' : Char).utf8Size = 1 := rfl
  induction members with
  | nil => rfl
  | cons member members ih =>
      rcases member with ⟨key, value⟩
      rw [renderMembers, List.map_cons, List.sum_cons, ← ih, memberSize]
      simp only [Text.byteLen_append, Text.byteLen_cons, List.cons_append,
        colon, comma]
      omega

theorem byteLen_render_object {members : List (Text × Json)}
    (nonempty : members ≠ []) :
    (Json.object members).render.byteLen = (members.map memberSize).sum + 1 := by
  have colon : (':' : Char).utf8Size = 1 := rfl
  have opening : ('\x7b' : Char).utf8Size = 1 := rfl
  have closing : ('\x7d' : Char).utf8Size = 1 := rfl
  cases members with
  | nil => exact absurd rfl nonempty
  | cons member members =>
      rcases member with ⟨key, value⟩
      rw [render, List.map_cons, List.sum_cons, memberSize]
      simp only [Text.byteLen_append, Text.byteLen_cons, List.cons_append,
        byteLen_renderMembers, colon, opening, closing, Text.byteLen_nil]
      omega

/-- The text of an array of nulls. -/
theorem byteLen_render_nulls (number : Nat) :
    (Json.array (.null :: List.replicate number .null)).render.byteLen =
      5 * number + 6 := by
  have items : (renderItems (List.replicate number Json.null)).byteLen =
      5 * number := by
    induction number with
    | zero => rfl
    | succ number ih =>
        have null : Text.byteLen (',' :: Json.null.render) = 5 := rfl
        rw [List.replicate_succ, renderItems, Text.byteLen_append, null, ih]
        omega
  have opening : Text.byteLen ('[' :: Json.null.render) = 5 := rfl
  have closing : Text.byteLen [']'] = 1 := rfl
  rw [render, Text.byteLen_append, Text.byteLen_append, opening, items, closing]
  omega

theorem itemStrings_nulls (number : Nat) :
    itemStrings (List.replicate number Json.null) = [] := by
  induction number with
  | zero => rfl
  | succ number ih => rw [List.replicate_succ, itemStrings, ih]; rfl

end Json

end FireCrow.Library
