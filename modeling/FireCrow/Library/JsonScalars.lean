import FireCrow.Library.JsonRoundTrip

/-!
# Maps of scalars

A flat JSON object without floats is exactly what its text parses to, and its
texts are its string members.
-/

namespace FireCrow.Library.Json

variable [FloatFormat]

/-- A value without members that is no float. -/
def Scalar : Json → Prop
  | .float _ => False
  | .array _ => False
  | .object _ => False
  | _ => True

variable {value : Json}

theorem Scalar.buildable (scalar : value.Scalar)
    (limit : Nat) : Buildable limit value := by
  cases value <;> first | exact scalar.elim | exact ⟨trivial, Nat.zero_le _⟩

theorem Scalar.reread_eq (scalar : value.Scalar) : value.reread = value := by
  cases value <;> first | exact scalar.elim | rfl

theorem Scalar.sort_eq (scalar : value.Scalar) : value.sort = value := by
  cases value <;> first | exact scalar.elim | rfl

/-- All values of a map are scalars. -/
def Scalars (members : JsonMap) : Prop :=
  ∀ member ∈ members.entries, member.2.Scalar

theorem Scalars.insert {members : JsonMap} (scalars : Scalars members)
    (key : Text) (scalar : value.Scalar) :
    Scalars (members.insert key value) := by
  rintro ⟨name, found⟩ inside
  rw [SortedMap.mem_entries_iff, SortedMap.get?_insert] at inside
  split at inside
  · cases inside
    exact scalar
  · exact scalars (name, found) ((SortedMap.mem_entries_iff _ _ _).2 inside)

variable {members : List (Text × Json)}

section

variable (scalar : ∀ member ∈ members, member.2.Scalar)
include scalar

theorem Scalars.ofList : Scalars (SortedMap.ofList members) := by
  have onFold : ∀ start : JsonMap, Scalars start →
      Scalars (members.foldl
        (fun map entry => map.insert entry.1 entry.2) start) := by
    induction members with
    | nil => exact fun start scalars => scalars
    | cons member members ih =>
        intro start scalars
        apply ih fun other inside => scalar other (List.mem_cons_of_mem _ inside)
        exact scalars.insert member.1 (scalar member List.mem_cons_self)
  exact onFold ∅ fun member inside => absurd inside List.not_mem_nil

theorem rereadMembers_of_scalar : rereadMembers members = members := by
  induction members with
  | nil => rfl
  | cons member members ih =>
      rw [rereadMembers, (scalar member List.mem_cons_self).reread_eq,
        ih fun other inside => scalar other (List.mem_cons_of_mem _ inside)]

theorem sortMembers_of_scalar : sortMembers members = members := by
  induction members with
  | nil => rfl
  | cons member members ih =>
      rw [sortMembers, (scalar member List.mem_cons_self).sort_eq,
        ih fun other inside => scalar other (List.mem_cons_of_mem _ inside)]

end

/-- A map of scalars is what its text parses to. -/
theorem Scalars.parse_render {members : JsonMap} (scalars : Scalars members) :
    parse (Json.object members.entries).render =
      some (.object members.entries) := by
  have built : Buildable 127 (.object members.entries) :=
    buildable_object fun member inside => (scalars member inside).buildable 126
  rw [built.parse_render, reread, rereadMembers_of_scalar scalars]

/-- The text of scalar members in any order reads as the map of them. -/
theorem parse_render_of_scalar {key : Text}
    (scalar : ∀ member ∈ (key, value) :: members, member.2.Scalar) :
    parse (Json.object ((key, value) :: members)).render =
      some (.object (SortedMap.ofList ((key, value) :: members)).entries) := by
  have shallow : membersDepth ((key, value) :: members) ≤ 1 := by
    rw [membersDepth_le_iff]
    exact fun member inside => ((scalar member inside).buildable 1).2
  have sorted : SortedMembers ((key, value) :: members) := by
    rw [sortedMembers_iff]
    exact fun member inside => ((scalar member inside).buildable 1).1
  have enough := fuel_le_length (.object ((key, value) :: members))
  simp only [fuel] at enough
  have read : ∀ limit, membersFuel ((key, value) :: members) ≤ limit →
      parseValue (limit + 1) 128 (Json.object ((key, value) :: members)).render =
        some (.object (SortedMap.ofList ((key, value) :: members)).entries,
          []) := by
    intro limit fits
    have body := parseMembers_render key value members limit 127 ∅ [] fits
      (by omega) sorted
    have starts := (render_startsValue (.object ((key, value) :: members)))
    have opening := starts.skipSpace []
    rw [List.append_nil] at opening
    rw [rereadMembers_of_scalar scalar] at body
    rw [parseValue, opening]
    simp only [render, renderString, List.append_assoc, List.cons_append,
      List.nil_append] at body ⊢
    simp [skipSpace, isSpace, body, SortedMap.ofList]
  rw [parse, read _ (by omega)]
  rfl

theorem Scalars.sort_eq {members : JsonMap} (scalars : Scalars members) :
    (Json.object members.entries).sort = .object members.entries := by
  rw [sort, sortMembers_of_scalar scalars, SortedMap.ofList_entries]

theorem mem_memberStrings_of_scalar
    (scalar : ∀ member ∈ members, member.2.Scalar) {text : Text} :
    text ∈ memberStrings members ↔
      ∃ key, (key, Json.string text) ∈ members := by
  induction members with
  | nil => simp [memberStrings]
  | cons member members ih =>
      have head : text ∈ strings member.2 ↔ member.2 = .string text := by
        have plain := scalar member List.mem_cons_self
        cases value : member.2 <;> rw [value] at plain <;>
          simp_all [strings, Scalar, eq_comm]
      rw [memberStrings, List.mem_append, head,
        ih fun other inside => scalar other (List.mem_cons_of_mem _ inside)]
      constructor
      · rintro (equal | ⟨key, inside⟩)
        · exact ⟨member.1, by rw [← equal]; exact List.mem_cons_self⟩
        · exact ⟨key, List.mem_cons_of_mem _ inside⟩
      · rintro ⟨key, inside⟩
        rcases List.mem_cons.1 inside with rfl | inside
        · exact Or.inl rfl
        · exact Or.inr ⟨key, inside⟩

/-- The texts of a map of scalars. -/
theorem Scalars.mem_strings {members : JsonMap} (scalars : Scalars members)
    {text : Text} :
    text ∈ (Json.object members.entries).strings ↔
      ∃ key, members.get? key = some (.string text) := by
  rw [strings, mem_memberStrings_of_scalar scalars]
  exact exists_congr fun key => SortedMap.mem_entries_iff _ _ _

end FireCrow.Library.Json
