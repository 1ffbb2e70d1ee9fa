import Mathlib

/-!
# Walks over a tree of paths

The nodes of a tree are paths, each with its parent in the tree up to a root.  A
walk takes an inner node from a stack, meets what the node holds and pushes the
inner nodes among it.  What has been met and what is still below the stack are
then the same nodes together, each once, and every turn leaves one inner node
less.
-/

namespace FireCrow.Library.TreeWalk

variable {κ : Type} [DecidableEq κ]

/-- Paths strictly below a root, each once, whose parents are inner nodes. -/
structure Closed (root : List κ) (inner : List κ → Bool)
    (paths : List (List κ)) : Prop where
  nodup : paths.Nodup
  under : ∀ path ∈ paths, root <+: path ∧ path ≠ root
  parent : ∀ path ∈ paths, path.dropLast ≠ root →
    path.dropLast ∈ paths ∧ inner path.dropLast = true

/-- What a node holds. -/
def children (paths : List (List κ)) (node : List κ) : List (List κ) :=
  paths.filter fun path => path.dropLast = node

/-- What is strictly below a node. -/
def below (paths : List (List κ)) (node : List κ) : List (List κ) :=
  paths.filter fun path => node <+: path ∧ path ≠ node

/-- What is still below the nodes of a stack. -/
def pending (paths : List (List κ)) (stack : List (List κ)) : List (List κ) :=
  stack.flatMap (below paths)

/-- The inner nodes that a node pushes, the last one first. -/
def pushed (inner : List κ → Bool) (paths : List (List κ)) (node : List κ) :
    List (List κ) :=
  ((children paths node).filter inner).reverse

/-- The inner nodes that are still to be taken. -/
def load (inner : List κ → Bool) (paths stack : List (List κ)) : Nat :=
  stack.length + (pending paths stack).countP inner

variable {paths : List (List κ)} {node path : List κ}

theorem mem_children :
    path ∈ children paths node ↔ path ∈ paths ∧ path.dropLast = node := by
  rw [children, List.mem_filter, decide_eq_true_iff]

theorem prefix_child (child : path ∈ children paths node) : node <+: path := by
  rcases mem_children.1 child with ⟨-, rfl⟩
  exact List.dropLast_prefix path

theorem mem_below :
    path ∈ below paths node ↔ path ∈ paths ∧ node <+: path ∧ path ≠ node := by
  rw [below, List.mem_filter, decide_eq_true_iff]

theorem mem_pushed {inner : List κ → Bool} :
    path ∈ pushed inner paths node ↔
      path ∈ children paths node ∧ inner path = true := by
  rw [pushed, List.mem_reverse, List.mem_filter]

section Closed

variable {root : List κ} {inner : List κ → Bool} {paths : List (List κ)}
  (closed : Closed root inner paths)

include closed

omit [DecidableEq κ] in
theorem Closed.ne_nil (member : path ∈ paths) : path ≠ [] := by
  rintro rfl
  have inside := closed.under [] member
  exact inside.2 (List.prefix_nil.1 inside.1).symm

theorem Closed.length_child
    (child : path ∈ children paths node) : path.length = node.length + 1 := by
  rcases mem_children.1 child with ⟨member, rfl⟩
  rw [List.length_dropLast]
  have := List.length_pos_iff.2 (closed.ne_nil member)
  omega

/-- What is between the root and a path is an inner node. -/
theorem Closed.ancestor (member : path ∈ paths)
    (above : node <+: path) (apart : node ≠ path) (under : root <+: node)
    (proper : node ≠ root) : node ∈ paths ∧ inner node = true := by
  induction path using List.reverseRecOn with
  | nil => exact absurd rfl (closed.ne_nil member)
  | append_singleton front name ih =>
      rcases List.prefix_concat_iff.1 above with same | above
      · exact absurd same apart
      have parent := closed.parent _ member
      rw [List.dropLast_concat] at parent
      have notRoot : front ≠ root := by
        rintro rfl
        exact proper (above.eq_of_length_le under.length_le)
      by_cases same : node = front
      · rw [same]
        exact parent notRoot
      · exact ih (parent notRoot).1 above same

/-- What is below a node is what the node holds, or below that. -/
theorem Closed.mem_below_iff (under : root <+: node) :
    path ∈ below paths node ↔
      path ∈ children paths node ∨
        ∃ child ∈ pushed inner paths node, path ∈ below paths child := by
  constructor
  · intro member
    rcases mem_below.1 member with ⟨inside, ⟨parts, rfl⟩, apart⟩
    cases parts with
    | nil => exact absurd (List.append_nil _) apart
    | cons name rest =>
        have split : node ++ name :: rest = node ++ [name] ++ rest := by simp
        by_cases last : rest = []
        · rw [last] at inside ⊢
          exact Or.inl (mem_children.2 ⟨inside, List.dropLast_concat⟩)
        · rw [split] at inside ⊢
          have shorter : node ++ [name] ≠ node ++ [name] ++ rest := fun same =>
            last (List.append_right_eq_self.1 same.symm)
          have proper : node ++ [name] ≠ root := by
            rintro rfl
            have long := under.length_le
            rw [List.length_append] at long
            exact Nat.not_succ_le_self _ long
          have between := closed.ancestor inside (List.prefix_append _ _) shorter
            (under.trans (List.prefix_append _ _)) proper
          refine Or.inr ⟨node ++ [name], ?_, ?_⟩
          · exact mem_pushed.2
              ⟨mem_children.2 ⟨between.1, List.dropLast_concat⟩, between.2⟩
          · exact mem_below.2 ⟨inside, List.prefix_append _ _, shorter.symm⟩
  · rintro (child | ⟨child, push, member⟩)
    · refine mem_below.2
        ⟨(mem_children.1 child).1, prefix_child child, ?_⟩
      rintro rfl
      exact Nat.succ_ne_self _ (closed.length_child child).symm
    · have held := (mem_pushed.1 push).1
      rcases mem_below.1 member with ⟨inside, above, apart⟩
      refine mem_below.2 ⟨inside, (prefix_child held).trans above, ?_⟩
      rintro rfl
      have long := above.length_le
      rw [closed.length_child held] at long
      exact Nat.not_succ_le_self _ long

theorem Closed.nodup_pending_pushed (node : List κ) :
    (children paths node ++ pending paths (pushed inner paths node)).Nodup := by
  have held : (children paths node).Nodup := closed.nodup.filter _
  have push : (pushed inner paths node).Nodup :=
    List.nodup_reverse.2 (held.filter _)
  apply List.Nodup.append held
  · apply List.nodup_flatMap.2
    refine ⟨fun _ _ => closed.nodup.filter _, ?_⟩
    apply push.imp_of_mem
    intro left right leftPush rightPush apart path leftBelow rightBelow
    -- Two prefixes of one length are the same.
    have lengths : left.length = right.length := by
      rw [closed.length_child (mem_pushed.1 leftPush).1,
        closed.length_child (mem_pushed.1 rightPush).1]
    have prefixes := List.prefix_of_prefix_length_le (mem_below.1 leftBelow).2.1
      (mem_below.1 rightBelow).2.1 lengths.le
    exact apart (prefixes.eq_of_length lengths)
  · intro path child member
    rcases List.mem_flatMap.1 member with ⟨other, otherPush, inside⟩
    rcases mem_below.1 inside with ⟨-, above, apart⟩
    apply apart
    symm
    apply above.eq_of_length
    rw [closed.length_child child,
      closed.length_child (mem_pushed.1 otherPush).1]

/-- A turn meets what a node holds and leaves what is below the nodes that it
pushes. -/
theorem Closed.pending_visit (under : root <+: node) (stack : List (List κ)) :
    (children paths node ++
        pending paths (pushed inner paths node ++ stack)).Perm
      (pending paths (node :: stack)) := by
  have here : (children paths node ++
      pending paths (pushed inner paths node)).Perm (below paths node) := by
    apply (List.perm_ext_iff_of_nodup (closed.nodup_pending_pushed node)
      (closed.nodup.filter _)).2
    intro path
    show _ ↔ path ∈ below paths node
    rw [closed.mem_below_iff under, List.mem_append, pending, List.mem_flatMap]
  unfold pending at here ⊢
  rw [List.flatMap_append, List.flatMap_cons, ← List.append_assoc]
  exact here.append_right _

/-- A turn leaves one inner node less. -/
theorem Closed.load_visit (under : root <+: node) (stack : List (List κ)) :
    load inner paths (pushed inner paths node ++ stack) + 1 =
      load inner paths (node :: stack) := by
  have counts := (closed.pending_visit under stack).countP_eq inner
  have held : (pushed inner paths node).length =
      (children paths node).countP inner := by
    rw [pushed, List.length_reverse, List.countP_eq_length_filter]
  rw [List.countP_append] at counts
  unfold load
  rw [List.length_append, List.length_cons, held]
  omega

/-- From the root a walk has everything before it. -/
theorem Closed.pending_root : pending paths [root] = paths := by
  rw [pending, List.flatMap_cons, List.flatMap_nil, List.append_nil, below,
    List.filter_eq_self]
  intro path member
  exact decide_eq_true (closed.under path member)

end Closed

end FireCrow.Library.TreeWalk
