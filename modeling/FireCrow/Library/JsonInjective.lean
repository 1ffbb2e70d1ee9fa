import FireCrow.Library.JsonStable

/-!
# The text of a value determines it

A value whose floats are replaced by their literals has the same text, and
reading that text gives the same literals back.  So two values that the parser
can build have one text only when they are equal, provided that two floats
never share a literal.
-/

namespace FireCrow.Library

/-! ## Maps from lists -/

/-- Entries under the same distinct keys make the same map only when they are
the same. -/
theorem ofList_injective [FloatFormat] {left right : List (Text × Json)}
    (distinct : (left.map Prod.fst).Nodup)
    (keys : left.map Prod.fst = right.map Prod.fst)
    (same : SortedMap.ofList left = SortedMap.ofList right) : left = right := by
  have values : ∀ key value other, (key, value) ∈ left → (key, other) ∈ right →
      value = other := by
    intro key value other inside outside
    have found := (Json.get?_ofList_iff distinct key value).2 inside
    rw [same, (Json.get?_ofList_iff (keys ▸ distinct) key other).2 outside]
      at found
    exact (Option.some.inj found).symm
  clear same distinct
  induction left generalizing right with
  | nil => exact (List.map_eq_nil_iff.1 keys.symm).symm
  | cons entry left ih =>
      cases right with
      | nil => cases keys
      | cons other right =>
          rw [List.map_cons, List.map_cons, List.cons.injEq] at keys
          rcases entry with ⟨key, value⟩
          rcases other with ⟨name, found⟩
          rcases keys with ⟨rfl, keys⟩
          rw [values key value found List.mem_cons_self List.mem_cons_self]
          rw [ih keys fun key value other inside outside =>
            values key value other (List.mem_cons_of_mem _ inside)
              (List.mem_cons_of_mem _ outside)]

/-- The members of a map made from a list are entries of the list. -/
theorem Json.buildable_ofList [FloatFormat] {limit : Nat}
    {members : List (Text × Json)}
    (all : ∀ member ∈ members, Json.Buildable limit member.2) :
    ∀ member ∈ (SortedMap.ofList members).entries,
      Json.Buildable limit member.2 := by
  have stored : ∀ (members : List (Text × Json)) (start : JsonMap),
      (∀ member ∈ members, Json.Buildable limit member.2) →
      (∀ member ∈ start.entries, Json.Buildable limit member.2) →
      ∀ member ∈ (members.foldl
          (fun map entry => map.insert entry.1 entry.2) start).entries,
        Json.Buildable limit member.2 := by
    intro members
    induction members with
    | nil => exact fun _ _ before => before
    | cons entry members ih =>
        intro start all before
        rw [List.forall_mem_cons] at all
        exact ih _ all.2 (Json.buildable_insert before all.1)
  exact stored members ∅ all fun member inside => absurd inside List.not_mem_nil

/-! ## Literals -/

/-- The format whose floats are the literals themselves. -/
@[reducible]
noncomputable def FloatFormat.literals : FloatFormat where
  Value := { number : NumberText //
    number.WellFormed ∧ number.isInteger = false }
  read number := open Classical in
    if float : number.WellFormed ∧ number.isInteger = false then
      some ⟨number, float⟩
    else none
  write := Subtype.val
  write_wellFormed value := value.2.1
  write_isFloat value := value.2.2
  read_write value := by rw [dif_pos value.2]; rfl

namespace Json

attribute [local instance] FloatFormat.literals in
theorem rereadFloat_literals (value : FloatFormat.literals.Value) :
    rereadFloat value = value := by
  have back : FloatFormat.read (FloatFormat.write value) = some value :=
    dif_pos value.2
  rw [← Option.some_inj, rereadFloat, Option.some_get, back]

section Literals

attribute [local instance] FloatFormat.literals

mutual

/-- Reading a value of literals gives the value itself. -/
theorem reread_literals : ∀ value : Json, value.reread = value
  | .null => rfl
  | .bool _ => rfl
  | .int _ => rfl
  | .float value => by rw [reread, rereadFloat_literals]
  | .string _ => rfl
  | .array items => by rw [reread, rereadItems_literals items]
  | .object members => by rw [reread, rereadMembers_literals members]

theorem rereadItems_literals : ∀ items : List Json, rereadItems items = items
  | [] => rfl
  | item :: items => by
      rw [rereadItems, reread_literals item, rereadItems_literals items]

theorem rereadMembers_literals :
    ∀ members : List (Text × Json), rereadMembers members = members
  | [] => rfl
  | (key, value) :: members => by
      rw [rereadMembers, reread_literals value, rereadMembers_literals members]

end

end Literals

variable [format : FloatFormat]

mutual

/-- The value with its floats as literals. -/
def literal : Json → @Json FloatFormat.literals
  | .null => @Json.null FloatFormat.literals
  | .bool value => @Json.bool FloatFormat.literals value
  | .int value => @Json.int FloatFormat.literals value
  | .float value =>
      @Json.float FloatFormat.literals ⟨FloatFormat.write value, FloatFormat.write_wellFormed value,
        FloatFormat.write_isFloat value⟩
  | .string text => @Json.string FloatFormat.literals text
  | .array items => @Json.array FloatFormat.literals (literalItems items)
  | .object members => @Json.object FloatFormat.literals (literalMembers members)

def literalItems : List Json → List (@Json FloatFormat.literals)
  | [] => []
  | item :: items => literal item :: literalItems items

def literalMembers :
    List (Text × Json) → List (Text × @Json FloatFormat.literals)
  | [] => []
  | (key, value) :: members => (key, literal value) :: literalMembers members

end

mutual

theorem render_literal : ∀ value : Json,
    @render FloatFormat.literals value.literal = value.render
  | .null => rfl
  | .bool true => rfl
  | .bool false => rfl
  | .int _ => rfl
  | .float _ => rfl
  | .string _ => rfl
  | .array [] => rfl
  | .array (item :: items) => by
      simp only [literal, literalItems, render, render_literal item,
        renderItems_literal items]
  | .object [] => rfl
  | .object ((key, value) :: members) => by
      simp only [literal, literalMembers, render, render_literal value,
        renderMembers_literal members]

theorem renderItems_literal :
    ∀ items : List Json,
      @renderItems FloatFormat.literals (literalItems items) =
        renderItems items
  | [] => rfl
  | item :: items => by
      simp only [literalItems, renderItems, render_literal item,
        renderItems_literal items]

theorem renderMembers_literal :
    ∀ members : List (Text × Json),
      @renderMembers FloatFormat.literals (literalMembers members) =
        renderMembers members
  | [] => rfl
  | (key, value) :: members => by
      simp only [literalMembers, renderMembers, render_literal value,
        renderMembers_literal members]

end

mutual

theorem depth_literal : ∀ value : Json,
    @depth FloatFormat.literals value.literal = value.depth
  | .null => rfl
  | .bool _ => rfl
  | .int _ => rfl
  | .float _ => rfl
  | .string _ => rfl
  | .array items => by simp only [literal, depth, itemsDepth_literal items]
  | .object members => by
      simp only [literal, depth, membersDepth_literal members]

theorem itemsDepth_literal :
    ∀ items : List Json,
      @itemsDepth FloatFormat.literals (literalItems items) =
        itemsDepth items
  | [] => rfl
  | item :: items => by
      simp only [literalItems, itemsDepth, depth_literal item,
        itemsDepth_literal items]

theorem membersDepth_literal :
    ∀ members : List (Text × Json),
      @membersDepth FloatFormat.literals (literalMembers members) =
        membersDepth members
  | [] => rfl
  | (_, value) :: members => by
      simp only [literalMembers, membersDepth, depth_literal value,
        membersDepth_literal members]

end

theorem map_fst_literalMembers (members : List (Text × Json)) :
    (literalMembers members).map Prod.fst = members.map Prod.fst := by
  induction members with
  | nil => rfl
  | cons member members ih =>
      rw [literalMembers, List.map_cons, ih, List.map_cons]

mutual

theorem sorted_literal : ∀ value : Json, value.Sorted →
    @Sorted FloatFormat.literals value.literal
  | .null, _ => trivial
  | .bool _, _ => trivial
  | .int _, _ => trivial
  | .float _, _ => trivial
  | .string _, _ => trivial
  | .array items, sorted => sortedItems_literal items sorted
  | .object members, sorted => by
      refine ⟨?_, sortedMembers_literal members sorted.2⟩
      have keys := sorted.1
      rw [← List.pairwise_map (f := Prod.fst) (R := (· < ·))] at keys ⊢
      rwa [map_fst_literalMembers]

theorem sortedItems_literal :
    ∀ items : List Json, SortedItems items →
      @SortedItems FloatFormat.literals (literalItems items)
  | [], _ => trivial
  | item :: items, sorted =>
      ⟨sorted_literal item sorted.1, sortedItems_literal items sorted.2⟩

theorem sortedMembers_literal :
    ∀ members : List (Text × Json), SortedMembers members →
      @SortedMembers FloatFormat.literals (literalMembers members)
  | [], _ => trivial
  | (_, value) :: members, sorted =>
      ⟨sorted_literal value sorted.1, sortedMembers_literal members sorted.2⟩

end

mutual

/-- Values with the same literals are equal. -/
theorem literal_injective (distinct : Function.Injective format.write) :
    ∀ left right : Json, left.literal = right.literal → left = right
  | .null, right, same => by cases right <;> cases same; rfl
  | .bool _, right, same => by cases right <;> cases same; rfl
  | .int _, right, same => by cases right <;> cases same; rfl
  | .float left, .float right, same => by
      injection same with literals
      rw [distinct (congrArg Subtype.val literals)]
  | .float _, .null, same => by cases same
  | .float _, .bool _, same => by cases same
  | .float _, .int _, same => by cases same
  | .float _, .string _, same => by cases same
  | .float _, .array _, same => by cases same
  | .float _, .object _, same => by cases same
  | .string _, right, same => by cases right <;> cases same; rfl
  | .array left, right, same => by
      cases right <;> simp only [literal, Json.array.injEq, reduceCtorEq] at same
      rw [literalItems_injective distinct left _ same]
  | .object left, right, same => by
      cases right <;>
        simp only [literal, Json.object.injEq, reduceCtorEq] at same
      rw [literalMembers_injective distinct left _ same]

theorem literalItems_injective (distinct : Function.Injective format.write) :
    ∀ left right : List Json, literalItems left = literalItems right →
      left = right
  | [], [], _ => rfl
  | [], _ :: _, same => by cases same
  | _ :: _, [], same => by cases same
  | item :: left, other :: right, same => by
      rw [literalItems, literalItems, List.cons.injEq] at same
      rw [literal_injective distinct item other same.1,
        literalItems_injective distinct left right same.2]

theorem literalMembers_injective (distinct : Function.Injective format.write) :
    ∀ left right : List (Text × Json),
      literalMembers left = literalMembers right → left = right
  | [], [], _ => rfl
  | [], _ :: _, same => by cases same
  | _ :: _, [], same => by cases same
  | (key, value) :: left, (name, other) :: right, same => by
      rw [literalMembers, literalMembers, List.cons.injEq, Prod.mk.injEq] at same
      rw [same.1.1,
        literal_injective distinct value other same.1.2,
        literalMembers_injective distinct left right same.2]

end

/-- Two values that the parser can build have one text only when they are
equal. -/
theorem render_injective (distinct : Function.Injective format.write)
    {left right : Json} (builtLeft : Buildable 127 left)
    (builtRight : Buildable 127 right) (same : left.render = right.render) :
    left = right := by
  have reading {value : Json} (built : Buildable 127 value) :
      @parse FloatFormat.literals value.render = some value.literal := by
    have shallow : @depth FloatFormat.literals value.literal < 128 :=
      depth_literal value ▸ Nat.lt_succ_of_le built.2
    rw [← render_literal,
      @parse_render FloatFormat.literals _ (sorted_literal value built.1) shallow,
      reread_literals]
  have read := reading builtLeft
  rw [same, reading builtRight, Option.some.injEq] at read
  exact (literal_injective distinct right left read).symm

end Json

end FireCrow.Library
