import FireCrow.Library.JsonScalars

/-!
# Values that a round trip leaves as they are

A value without floats whose objects are sorted is what its text parses to.
The values are built from scalars by arrays and sorted maps, and the texts of a
container are those of its parts.
-/

namespace FireCrow.Library.Json

variable [FloatFormat]

/-- Reading the text of the value again changes nothing, nor does sorting. -/
structure Stable (limit : Nat) (value : Json) : Prop where
  built : Buildable limit value
  reread : value.reread = value
  sort : value.sort = value

variable {value : Json}

theorem Scalar.stable (scalar : value.Scalar) (limit : Nat) :
    Stable limit value where
  built := scalar.buildable limit
  reread := scalar.reread_eq
  sort := scalar.sort_eq

theorem Stable.parse_render (stable : Stable 127 value) :
    parse value.render = some value := by
  rw [stable.built.parse_render, stable.reread]

/-! ## Arrays -/

variable {limit : Nat} {items : List Json}

section

variable (stable : ∀ item ∈ items, Stable limit item)
include stable

theorem rereadItems_of_stable : rereadItems items = items := by
  induction items with
  | nil => rfl
  | cons item items ih =>
      rw [rereadItems, (stable item List.mem_cons_self).reread,
        ih fun other inside => stable other (List.mem_cons_of_mem _ inside)]

theorem sortItems_of_stable : sortItems items = items := by
  induction items with
  | nil => rfl
  | cons item items ih =>
      rw [sortItems, (stable item List.mem_cons_self).sort,
        ih fun other inside => stable other (List.mem_cons_of_mem _ inside)]

theorem stable_array :
    Stable (limit + 1) (.array items) where
  built := buildable_array fun item member => (stable item member).built
  reread := by rw [Json.reread, rereadItems_of_stable stable]
  sort := by rw [Json.sort, sortItems_of_stable stable]

end

variable {text : Text}

theorem mem_itemStrings :
    text ∈ itemStrings items ↔ ∃ item ∈ items, text ∈ item.strings := by
  induction items with
  | nil => simp [itemStrings]
  | cons item items ih => simp [itemStrings, ih]

/-! ## Sorted maps -/

/-- Every value of the map is stable. -/
def StableMap (limit : Nat) (members : JsonMap) : Prop :=
  ∀ member ∈ members.entries, Stable limit member.2

theorem StableMap.insert {members : JsonMap}
    (stable : StableMap limit members) (key : Text)
    (valueStable : Stable limit value) :
    StableMap limit (members.insert key value) := by
  rintro ⟨name, found⟩ inside
  rw [SortedMap.mem_entries_iff, SortedMap.get?_insert] at inside
  split at inside
  · cases inside
    exact valueStable
  · exact stable (name, found) ((SortedMap.mem_entries_iff _ _ _).2 inside)

variable {members : List (Text × Json)}

section

variable (stable : ∀ member ∈ members, Stable limit member.2)
include stable

theorem stableMap_ofList : StableMap limit (SortedMap.ofList members) := by
  have onFold : ∀ start : JsonMap, StableMap limit start →
      StableMap limit (members.foldl
        (fun map entry => map.insert entry.1 entry.2) start) := by
    induction members with
    | nil => exact fun start kept => kept
    | cons member members ih =>
        intro start kept
        apply ih fun other inside => stable other (List.mem_cons_of_mem _ inside)
        exact kept.insert member.1 (stable member List.mem_cons_self)
  exact onFold ∅ fun member inside => absurd inside List.not_mem_nil

theorem rereadMembers_of_stable : rereadMembers members = members := by
  induction members with
  | nil => rfl
  | cons member members ih =>
      rw [rereadMembers, (stable member List.mem_cons_self).reread,
        ih fun other inside => stable other (List.mem_cons_of_mem _ inside)]

theorem sortMembers_of_stable : sortMembers members = members := by
  induction members with
  | nil => rfl
  | cons member members ih =>
      rw [sortMembers, (stable member List.mem_cons_self).sort,
        ih fun other inside => stable other (List.mem_cons_of_mem _ inside)]

end

theorem StableMap.object {members : JsonMap}
    (stable : StableMap limit members) :
    Stable (limit + 1) (.object members.entries) where
  built := buildable_object fun member inside => (stable member inside).built
  reread := by rw [Json.reread, rereadMembers_of_stable stable]
  sort := by
    rw [Json.sort, sortMembers_of_stable stable, SortedMap.ofList_entries]

theorem mem_memberStrings :
    text ∈ memberStrings members ↔
      ∃ member ∈ members, text ∈ member.2.strings := by
  induction members with
  | nil => simp [memberStrings]
  | cons member members ih => simp [memberStrings, ih]

/-- The texts of a map are those of its values. -/
theorem mem_mapStrings {members : JsonMap} :
    text ∈ (Json.object members.entries).strings ↔
      ∃ key value, members.get? key = some value ∧ text ∈ value.strings := by
  rw [strings, mem_memberStrings]
  constructor
  · rintro ⟨⟨key, value⟩, member, inside⟩
    exact ⟨key, value, (SortedMap.mem_entries_iff _ _ _).1 member, inside⟩
  · rintro ⟨key, value, found, inside⟩
    exact ⟨(key, value), (SortedMap.mem_entries_iff _ _ _).2 found, inside⟩

section

variable (distinct : (members.map Prod.fst).Nodup)
include distinct

/-- Inserting members with new keys adds exactly them. -/
theorem get?_foldl_iff {start : JsonMap}
    (new : ∀ member ∈ members, start.get? member.1 = none)
    (key : Text) (value : Json) :
    (members.foldl (fun map entry => map.insert entry.1 entry.2) start).get?
        key = some value ↔
      (key, value) ∈ members ∨ start.get? key = some value := by
  induction members generalizing start with
  | nil => simp
  | cons member members ih =>
      rw [List.map_cons, List.nodup_cons] at distinct
      have here := new member List.mem_cons_self
      have newRest : ∀ other ∈ members,
          (start.insert member.1 member.2).get? other.1 = none := by
        intro other inside
        have different : other.1 ≠ member.1 := by
          intro same
          exact distinct.1 (same ▸ List.mem_map_of_mem inside)
        rw [SortedMap.get?_insert_ne _ different]
        exact new other (List.mem_cons_of_mem _ inside)
      rw [List.foldl_cons, ih distinct.2 newRest, SortedMap.get?_insert,
        List.mem_cons]
      by_cases same : key = member.1
      · have apart : (key, value) ∉ members := fun inside =>
          distinct.1 (same ▸ List.mem_map_of_mem inside)
        rw [if_pos same, same, here, Option.some.injEq, Prod.ext_iff]
        rw [same] at apart
        simp [apart, eq_comm]
      · rw [if_neg same]
        have apart : (key, value) ≠ member := fun equal =>
          same (congrArg Prod.fst equal)
        simp [apart]

theorem get?_ofList_iff (key : Text) (value : Json) :
    (SortedMap.ofList members).get? key = some value ↔
      (key, value) ∈ members := by
  rw [SortedMap.ofList, get?_foldl_iff distinct fun _ _ => rfl]
  simp

/-- The texts of members with different keys are the texts of their map. -/
theorem mem_ofListStrings :
    text ∈ (Json.object (SortedMap.ofList members).entries).strings ↔
      ∃ member ∈ members, text ∈ member.2.strings := by
  rw [mem_mapStrings]
  simp only [get?_ofList_iff distinct]
  constructor
  · rintro ⟨key, value, member, inside⟩
    exact ⟨(key, value), member, inside⟩
  · rintro ⟨⟨key, value⟩, member, inside⟩
    exact ⟨key, value, member, inside⟩

end

end FireCrow.Library.Json
