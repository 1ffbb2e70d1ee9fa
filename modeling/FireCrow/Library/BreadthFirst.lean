import Mathlib.Data.List.Nodup
import Mathlib.Data.List.Pairwise
import Mathlib.Data.Nat.Find

/-!
# Breadth-first search

Walks and distances in an arbitrary relation, and the invariant of a search
that keeps a queue of nodes with depths and the nodes it has expanded.

`Layered.skip` and `Layered.expand` are its two steps;
`Layered.distance_head` says that a node is first expanded at its distance.
-/

namespace FireCrow.Library

section Walks

variable {Node : Type} {edge : Node → Node → Prop} {start : Node}

/-- A walk of the given number of edges. -/
inductive Walk (edge : Node → Node → Prop) (start : Node) :
    Nat → Node → Prop
  | here : Walk edge start 0 start
  | step {steps : Nat} {node next : Node} :
      Walk edge start steps node → edge node next →
        Walk edge start (steps + 1) next

def Reaches (edge : Node → Node → Prop) (start node : Node) : Prop :=
  ∃ steps, Walk edge start steps node

/-- The length of a shortest walk. -/
def Distance (edge : Node → Node → Prop) (start node : Node)
    (distance : Nat) : Prop :=
  Walk edge start distance node ∧
    ∀ steps, Walk edge start steps node → distance ≤ steps

theorem Reaches.distance {node : Node} (reaches : Reaches edge start node) :
    ∃ distance, Distance edge start node distance := by
  classical
  exact ⟨Nat.find reaches, Nat.find_spec reaches,
    fun steps walk => Nat.find_min' reaches walk⟩

theorem Distance.unique {node : Node} {first second : Nat}
    (one : Distance edge start node first)
    (other : Distance edge start node second) : first = second :=
  Nat.le_antisymm (one.2 second other.1) (other.2 first one.1)

/-- The node before the last of a shortest walk is one edge closer. -/
theorem Distance.before {node : Node} {distance : Nat}
    (shortest : Distance edge start node (distance + 1)) :
    ∃ previous, Distance edge start previous distance ∧ edge previous node := by
  rcases shortest with ⟨walk, least⟩
  cases walk with
  | @step _ previous _ walk last =>
    refine ⟨previous, ⟨walk, fun steps other => ?_⟩, last⟩
    have bound := least (steps + 1) (.step other last)
    omega

/-- Beyond a node at a distance there is one at every smaller distance, and
it has an edge. -/
theorem Distance.layer {node : Node} {distance limit : Nat}
    (shortest : Distance edge start node distance) (below : limit < distance) :
    ∃ inner next, Distance edge start inner limit ∧ edge inner next := by
  induction distance generalizing node with
  | zero => omega
  | succ distance inductionHypothesis =>
    rcases shortest.before with ⟨previous, closer, last⟩
    by_cases same : limit = distance
    · subst same
      exact ⟨previous, node, closer, last⟩
    · exact inductionHypothesis closer (by omega)

end Walks

section Search

variable {Node : Type} {edge : Node → Node → Prop} {start : Node}
  {limit : Nat} {queue : List (Node × Nat)} {path : List Node}

/-- The invariant of the search: the queue is in order of depth and no two
depths are more than one apart; what has been expanded has no depth beyond the
limit, in order of distance; and every edge out of it leads to an expanded
node or into the queue. -/
structure Layered (edge : Node → Node → Prop) (start : Node) (limit : Nat)
    (queue : List (Node × Nat)) (path : List Node) : Prop where
  nodup : path.Nodup
  ordered : queue.Pairwise fun one other => one.2 ≤ other.2
  narrow : ∀ one ∈ queue, ∀ other ∈ queue, other.2 ≤ one.2 + 1
  walked : ∀ entry ∈ queue, Walk edge start entry.2 entry.1
  origin : ∀ entry ∈ queue, limit < entry.2 →
    ∃ node next, Distance edge start node limit ∧ edge node next
  expanded : ∀ node ∈ path, ∃ distance, Distance edge start node distance ∧
    distance ≤ limit ∧ ∀ entry ∈ queue, distance ≤ entry.2
  sorted : path.Pairwise fun one other => ∀ distance,
    Distance edge start other distance →
      ∃ closer, closer ≤ distance ∧ Distance edge start one closer
  closed : ∀ node ∈ path, ∀ next, edge node next → ∀ distance,
    Distance edge start node distance →
      (next ∈ path ∧ distance < limit) ∨ (next, distance + 1) ∈ queue
  begun : start ∈ path ∨ (start, 0) ∈ queue

namespace Layered

theorem initial : Layered edge start limit [(start, 0)] [] where
  nodup := List.nodup_nil
  ordered := List.pairwise_singleton _ _
  narrow := by simp
  walked := by
    intro entry member
    rw [List.mem_singleton.mp member]
    exact .here
  origin := by
    intro entry member beyond
    rw [List.mem_singleton.mp member] at beyond
    exact absurd beyond (Nat.not_lt_zero limit)
  expanded := by simp
  sorted := List.Pairwise.nil
  closed := by simp
  begun := .inr (List.mem_singleton_self _)

/-- Where a walk leads has been expanded, or the queue holds an entry at most
as deep as the walk is long. -/
theorem covered (layered : Layered edge start limit queue path)
    {steps : Nat} {node : Node} (walk : Walk edge start steps node) :
    node ∈ path ∨ ∃ entry ∈ queue, entry.2 ≤ steps := by
  induction walk with
  | here =>
    rcases layered.begun with expanded | queued
    · exact .inl expanded
    · exact .inr ⟨_, queued, Nat.le_refl 0⟩
  | @step steps previous next walk last inductionHypothesis =>
    rcases inductionHypothesis with expanded | ⟨entry, queued, shallow⟩
    · rcases layered.expanded previous expanded with ⟨distance, shortest, _⟩
      rcases layered.closed previous expanded next last distance shortest with
        ⟨found, _⟩ | queued
      · exact .inl found
      · have bound := shortest.2 steps walk
        exact .inr ⟨_, queued, Nat.succ_le_succ bound⟩
    · exact .inr ⟨entry, queued, by omega⟩

section Head

variable {node : Node} {depth : Nat} {rest : List (Node × Nat)}

section

variable (layered : Layered edge start limit ((node, depth) :: rest) path)
include layered

theorem head_least : ∀ entry ∈ (node, depth) :: rest, depth ≤ entry.2 := by
  intro entry member
  rcases List.mem_cons.mp member with same | later
  · exact Nat.le_of_eq (congrArg Prod.snd same).symm
  · exact (List.pairwise_cons.mp layered.ordered).1 entry later

/-- A node that is expanded now is expanded at its distance. -/
theorem distance_head (fresh : node ∉ path) :
    Distance edge start node depth := by
  refine ⟨layered.walked _ List.mem_cons_self, fun steps walk => ?_⟩
  rcases layered.covered walk with expanded | ⟨entry, queued, shallow⟩
  · exact absurd expanded fresh
  · exact Nat.le_trans (layered.head_least entry queued) shallow

/-- The head of the queue has been expanded before. -/
theorem skip
    (shallow : depth ≤ limit) (known : node ∈ path) :
    Layered edge start limit rest path where
  nodup := layered.nodup
  ordered := (List.pairwise_cons.mp layered.ordered).2
  narrow one first other second :=
    layered.narrow one (.tail _ first) other (.tail _ second)
  walked entry member := layered.walked entry (.tail _ member)
  origin entry member := layered.origin entry (.tail _ member)
  expanded := by
    intro other member
    rcases layered.expanded other member with ⟨distance, shortest, bound, below⟩
    exact ⟨distance, shortest, bound,
      fun entry queued => below entry (.tail _ queued)⟩
  sorted := layered.sorted
  closed := by
    intro other member next last distance shortest
    rcases layered.closed other member next last distance shortest with
      found | queued
    · exact .inl found
    · rcases List.mem_cons.mp queued with same | later
      · have parts := Prod.mk.inj same
        exact .inl ⟨parts.1 ▸ known, by omega⟩
      · exact .inr later
  begun := by
    rcases layered.begun with expanded | queued
    · exact .inl expanded
    · rcases List.mem_cons.mp queued with same | later
      · exact .inl ((Prod.mk.inj same).1 ▸ known)
      · exact .inr later

/-- The head of the queue is expanded: its successors are queued one deeper. -/
theorem expand (shallow : depth ≤ limit) (fresh : node ∉ path)
    {successors : List Node} (edges : ∀ next, next ∈ successors ↔ edge node next) :
    Layered edge start limit
      (rest ++ successors.map fun next => (next, depth + 1))
      (path ++ [node]) := by
  have here := layered.distance_head fresh
  have least := layered.head_least
  have queued : ∀ entry, entry ∈ rest ++ successors.map (fun next => (next, depth + 1)) →
      entry ∈ rest ∨ (edge node entry.1 ∧ entry.2 = depth + 1) := by
    intro entry member
    rcases List.mem_append.mp member with old | new
    · exact .inl old
    · rcases List.mem_map.mp new with ⟨next, among, same⟩
      subst same
      exact .inr ⟨(edges next).mp among, rfl⟩
  have deeper : ∀ entry, entry ∈ rest ++ successors.map (fun next => (next, depth + 1)) →
      depth ≤ entry.2 ∧ entry.2 ≤ depth + 1 := by
    intro entry member
    rcases queued entry member with old | ⟨_, exactly⟩
    · exact ⟨least entry (.tail _ old),
        layered.narrow _ List.mem_cons_self entry (.tail _ old)⟩
    · omega
  constructor
  case nodup =>
    refine List.nodup_append'.mpr
      ⟨layered.nodup, List.nodup_singleton node, fun other old new => ?_⟩
    exact fresh (List.mem_singleton.mp new ▸ old)
  case ordered =>
    refine List.pairwise_append.mpr
      ⟨(List.pairwise_cons.mp layered.ordered).2, ?_, ?_⟩
    · exact List.pairwise_map.mpr (List.pairwise_of_forall fun _ _ => Nat.le_refl _)
    · intro one old other new
      rcases List.mem_map.mp new with ⟨next, _, same⟩
      subst same
      exact (deeper one (List.mem_append_left _ old)).2
  case narrow =>
    intro one first other second
    have lower := deeper one first
    have upper := deeper other second
    omega
  case walked =>
    intro entry member
    rcases queued entry member with old | ⟨last, exactly⟩
    · exact layered.walked entry (.tail _ old)
    · rw [exactly]
      exact .step here.1 last
  case origin =>
    intro entry member beyond
    rcases queued entry member with old | ⟨last, exactly⟩
    · exact layered.origin entry (.tail _ old) beyond
    · have same : depth = limit := by omega
      exact ⟨node, entry.1, same ▸ here, last⟩
  case expanded =>
    intro other member
    rcases List.mem_append.mp member with old | new
    · rcases layered.expanded other old with ⟨distance, shortest, bound, below⟩
      refine ⟨distance, shortest, bound, fun entry among => ?_⟩
      exact Nat.le_trans (below _ List.mem_cons_self) (deeper entry among).1
    · rw [List.mem_singleton.mp new]
      exact ⟨depth, here, shallow, fun entry among => (deeper entry among).1⟩
  case sorted =>
    refine List.pairwise_append.mpr
      ⟨layered.sorted, List.pairwise_singleton _ _, ?_⟩
    intro one old other new distance shortest
    rw [List.mem_singleton.mp new] at shortest
    rcases layered.expanded one old with ⟨closer, known, _, below⟩
    refine ⟨closer, ?_, known⟩
    rw [shortest.unique here]
    exact below _ List.mem_cons_self
  case closed =>
    intro other member next last distance shortest
    rcases List.mem_append.mp member with old | new
    · rcases layered.closed other old next last distance shortest with
        ⟨found, within⟩ | among
      · exact .inl ⟨List.mem_append_left _ found, within⟩
      · rcases List.mem_cons.mp among with same | later
        · have parts := Prod.mk.inj same
          exact .inl ⟨List.mem_append_right _ (List.mem_singleton.mpr parts.1),
            by omega⟩
        · exact .inr (List.mem_append_left _ later)
    · rw [List.mem_singleton.mp new] at last shortest
      rw [shortest.unique here]
      exact .inr (List.mem_append_right _
        (List.mem_map.mpr ⟨next, (edges next).mpr last, rfl⟩))
  case begun =>
    rcases layered.begun with expanded | among
    · exact .inl (List.mem_append_left _ expanded)
    · rcases List.mem_cons.mp among with same | later
      · exact .inl (List.mem_append_right _
          (List.mem_singleton.mpr (Prod.mk.inj same).1))
      · exact .inr (List.mem_append_left _ later)

end

end Head

/-- With nothing left in the queue, what has been expanded is what can be
reached. -/
theorem complete (layered : Layered edge start limit [] path) (node : Node) :
    node ∈ path ↔ Reaches edge start node := by
  constructor
  · intro member
    rcases layered.expanded node member with ⟨distance, shortest, _⟩
    exact ⟨distance, shortest.1⟩
  · rintro ⟨steps, walk⟩
    rcases layered.covered walk with expanded | ⟨entry, queued, _⟩
    · exact expanded
    · exact absurd queued List.not_mem_nil

/-- ... and no node at the limit has an edge. -/
theorem ends_within (layered : Layered edge start limit [] path)
    {node next : Node} (shortest : Distance edge start node limit) :
    ¬ edge node next := by
  intro last
  have member := (layered.complete node).mpr ⟨limit, shortest.1⟩
  rcases layered.closed node member next last limit shortest with
    ⟨_, within⟩ | queued
  · exact absurd within (Nat.lt_irrefl limit)
  · exact absurd queued List.not_mem_nil

end Layered

end Search

end FireCrow.Library
