import FireCrow.Library.Text
import Mathlib.Data.List.Dedup
import Mathlib.Data.List.Nodup
import Mathlib.Logic.Relation

/-!
# The order of remediation tasks

`validate_remediation_dependencies` takes tasks away that wait for nothing.
Its nodes are the tasks and whatever a dependency names as waiting; a name that
is only waited for is no node and is never taken away.

`Planning` is the invariant of the loop: the degree of a node counts the
dependencies on names that are not yet in the order, the queue holds the nodes
without any, in order of depth, and the depth of a node is the length of the
longest chain that ends in it.
-/

namespace FireCrow.Services.RemediationPlan

open FireCrow.Library

def maxPlanDepth : Nat := 50

structure RemediationDependency where
  taskId : Text
  dependsOn : Text
deriving DecidableEq

inductive AppError where
  | internal (message : Text)
deriving DecidableEq

def depthExceeded : AppError :=
  .internal ("Remediation plan depth limit exceeded" : Text)

def cyclicDependency : AppError :=
  .internal ("Cyclic dependency detected in remediation plan" : Text)

/-! ## The algorithm -/

/-- A map from nodes to what they still wait for. -/
abbrev Degrees := Text → Option Nat

/-- `entry(task).or_insert(0)`. -/
def enterTask (degrees : Degrees) (task : Text) : Degrees :=
  fun node => if node = task then some ((degrees node).getD 0) else degrees node

/-- `*entry(task_id).or_insert(0) += 1`. -/
def enterDependency (degrees : Degrees) (dependency : RemediationDependency) :
    Degrees :=
  fun node =>
    if node = dependency.taskId then some ((degrees node).getD 0 + 1)
    else degrees node

def inDegree (tasks : List Text) (dependencies : List RemediationDependency) :
    Degrees :=
  dependencies.foldl enterDependency (tasks.foldl enterTask fun _ => none)

/-- What waits for a node, in the order in which it was entered. -/
def adjacent (dependencies : List RemediationDependency) (node : Text) :
    List Text :=
  (dependencies.filter fun dependency => dependency.dependsOn = node).map
    RemediationDependency.taskId

/-- The loop over what waits for a node of the depth. -/
def release (depth : Nat) :
    List Text → Degrees → List (Text × Nat) → Degrees × List (Text × Nat)
  | [], degrees, queue => (degrees, queue)
  | next :: rest, degrees, queue =>
      match degrees next with
      | none => release depth rest degrees queue
      | some degree =>
          release depth rest
            (fun node => if node = next then some (degree - 1) else degrees node)
            (if degree - 1 = 0 then queue ++ [(next, depth + 1)] else queue)

/-- The local variables of the loop. -/
structure Plan where
  degrees : Degrees
  queue : List (Text × Nat)
  visited : List Text
  order : List Text

/-- One turn of the `while` loop: the next state, an error, or the order. -/
def turn (dependencies : List RemediationDependency) (plan : Plan) :
    Plan ⊕ Except AppError (List Text) :=
  match plan.queue with
  | [] => .inr (.ok plan.order)
  | (node, depth) :: rest =>
      if maxPlanDepth < depth then .inr (.error depthExceeded)
      else if plan.visited.contains node then .inl { plan with queue := rest }
      else
        let released :=
          release depth (adjacent dependencies node) plan.degrees rest
        .inl {
          degrees := released.1
          queue := released.2
          visited := node :: plan.visited
          order := plan.order ++ [node]
        }

/-- The loop, for at most the given number of turns. -/
def turns (dependencies : List RemediationDependency) : Nat → Plan →
    Option (Except AppError (List Text))
  | 0, _ => none
  | fuel + 1, plan =>
      match turn dependencies plan with
      | .inl next => turns dependencies fuel next
      | .inr result => some result

/-- The loop begins with the nodes that wait for nothing. -/
def begin (tasks : List Text) (dependencies : List RemediationDependency)
    (iteration : List Text) : Plan where
  degrees := inDegree tasks dependencies
  queue := (iteration.filter fun node =>
    inDegree tasks dependencies node = some 0).map fun node => (node, 1)
  visited := []
  order := []

/-- `validate_remediation_dependencies`, given the order in which the map of
degrees is iterated. -/
def validateRemediationDependencies (tasks : List Text)
    (dependencies : List RemediationDependency) (iteration : List Text) :
    Option (Except AppError (List Text)) :=
  (turns dependencies (iteration.length + 1)
    (begin tasks dependencies iteration)).map fun result =>
      result.bind fun order =>
        if order.length < tasks.length then .error cyclicDependency
        else .ok order

section Graph

variable (tasks : List Text) (dependencies : List RemediationDependency)

/-! ## The graph -/

/-- A node of the map of degrees. -/
def Known (node : Text) : Prop :=
  node ∈ tasks ∨ ∃ dependency ∈ dependencies, dependency.taskId = node

/-- The map of degrees is iterated in some order. -/
structure Iterates (iteration : List Text) : Prop where
  nodup : iteration.Nodup
  exactly : ∀ node, node ∈ iteration ↔ Known tasks dependencies node

/-- A node whose dependencies all end in nodes that depend on nothing. -/
inductive Grounded : Text → Prop
  | intro {node : Text} : Known tasks dependencies node →
      (∀ dependency ∈ dependencies, dependency.taskId = node →
        Grounded dependency.dependsOn) → Grounded node

/-- A chain of so many grounded nodes ends in the node. -/
inductive Chain : Nat → Text → Prop
  | one {node : Text} : Grounded tasks dependencies node → Chain 1 node
  | more {length : Nat} {dependency : RemediationDependency} :
      Chain length dependency.dependsOn → dependency ∈ dependencies →
        Grounded tasks dependencies dependency.taskId →
          Chain (length + 1) dependency.taskId

/-- The longest chain that ends in a node. -/
def Rank (node : Text) (rank : Nat) : Prop :=
  Chain tasks dependencies rank node ∧
    ∀ length, Chain tasks dependencies length node → length ≤ rank

/-- What a node waits for outside the order. -/
def waiting (order : List Text) (node : Text) : Nat :=
  dependencies.countP fun dependency =>
    dependency.taskId = node ∧ dependency.dependsOn ∉ order

end Graph

section Counting

variable {tasks : List Text} {dependencies : List RemediationDependency}

theorem foldl_enterTask (tasks : List Text) :
    ∀ (degrees : Degrees) (node : Text),
      tasks.foldl enterTask degrees node =
        if node ∈ tasks then some ((degrees node).getD 0) else degrees node := by
  induction tasks with
  | nil => simp
  | cons task tasks inductionHypothesis =>
    intro degrees node
    rw [List.foldl_cons, inductionHypothesis]
    by_cases same : node = task
    · simp [enterTask, same]
    · simp [enterTask, same]

theorem foldl_enterDependency (dependencies : List RemediationDependency) :
    ∀ (degrees : Degrees) (node : Text),
      dependencies.foldl enterDependency degrees node =
        if ∃ dependency ∈ dependencies, dependency.taskId = node then
          some ((degrees node).getD 0 + dependencies.countP fun dependency =>
            dependency.taskId = node)
        else degrees node := by
  induction dependencies with
  | nil => simp
  | cons dependency dependencies inductionHypothesis =>
    intro degrees node
    rw [List.foldl_cons, inductionHypothesis]
    by_cases same : dependency.taskId = node
    · subst same
      simp only [enterDependency, if_true, Option.getD_some, List.mem_cons,
        exists_eq_or_imp, true_or, List.countP_cons, decide_true]
      split
      case isTrue => simp only [Option.some.injEq]; omega
      case isFalse none =>
        have zero : (dependencies.countP fun other =>
            other.taskId = dependency.taskId) = 0 := by
          rw [List.countP_eq_zero]
          intro other member same
          exact none ⟨other, member, of_decide_eq_true same⟩
        rw [zero]
    · have other : ¬ node = dependency.taskId := fun equal => same equal.symm
      simp [enterDependency, same, other]

/-- The degrees count what every node waits for. -/
theorem inDegree_known {node : Text} (known : Known tasks dependencies node) :
    inDegree tasks dependencies node = some (waiting dependencies [] node) := by
  have count : waiting dependencies [] node =
      dependencies.countP fun dependency => dependency.taskId = node := by
    simp [waiting]
  rw [inDegree, foldl_enterDependency, foldl_enterTask, count]
  by_cases named : ∃ dependency ∈ dependencies, dependency.taskId = node
  · rw [if_pos named]
    by_cases task : node ∈ tasks <;> simp [task]
  · have task : node ∈ tasks := known.resolve_right named
    have zero : (dependencies.countP fun dependency =>
        dependency.taskId = node) = 0 := by
      rw [List.countP_eq_zero]
      intro dependency member same
      exact named ⟨dependency, member, of_decide_eq_true same⟩
    rw [if_neg named, zero, if_pos task]
    rfl

theorem inDegree_unknown {node : Text} (unknown : ¬ Known tasks dependencies node) :
    inDegree tasks dependencies node = none := by
  rcases not_or.mp unknown with ⟨noTask, unnamed⟩
  rw [inDegree, foldl_enterDependency, foldl_enterTask, if_neg unnamed,
    if_neg noTask]

theorem count_adjacent (node next : Text) :
    (adjacent dependencies node).count next =
      dependencies.countP fun dependency =>
        dependency.dependsOn = node ∧ dependency.taskId = next := by
  rw [adjacent, List.count, List.countP_map, List.countP_filter]
  refine List.countP_congr fun dependency _ => ?_
  simp [and_comm]

theorem waiting_append {order : List Text} {node : Text} (fresh : node ∉ order)
    (next : Text) :
    waiting dependencies order next =
      waiting dependencies (order ++ [node]) next +
        (adjacent dependencies node).count next := by
  rw [count_adjacent, waiting, waiting]
  induction dependencies with
  | nil => rfl
  | cons dependency dependencies inductionHypothesis =>
    rw [List.countP_cons, List.countP_cons, List.countP_cons, inductionHypothesis]
    by_cases target : dependency.taskId = next
    · by_cases source : dependency.dependsOn = node
      · simp [target, source, fresh]
        omega
      · by_cases old : dependency.dependsOn ∈ order
        · simp [target, source, old]
        · simp [target, source, old]
          omega
    · simp [target]

theorem waiting_eq_zero {order : List Text} {node : Text} :
    waiting dependencies order node = 0 ↔
      ∀ dependency ∈ dependencies, dependency.taskId = node →
        dependency.dependsOn ∈ order := by
  rw [waiting, List.countP_eq_zero]
  refine forall₂_congr fun dependency _ => ?_
  simp

end Counting

/-! ## Releasing what waits for a node -/

theorem release_spec (depth : Nat) (nexts : List Text) :
    ∀ (degrees : Degrees) (queue : List (Text × Nat)),
      (∀ node degree, degrees node = some degree → nexts.count node ≤ degree) →
        ∃ ready : List Text, ready.Nodup ∧
          (∀ node, node ∈ ready ↔ 0 < nexts.count node ∧
            degrees node = some (nexts.count node)) ∧
          (release depth nexts degrees queue).2 =
            queue ++ ready.map (fun node => (node, depth + 1)) ∧
          ∀ node, (release depth nexts degrees queue).1 node =
            (degrees node).map fun degree => degree - nexts.count node := by
  induction nexts with
  | nil =>
    intro degrees queue _
    exact ⟨[], List.nodup_nil, by simp, by simp [release], by simp [release]⟩
  | cons next nexts inductionHypothesis =>
    intro degrees queue enough
    cases known : degrees next with
    | none =>
      have rest : ∀ node degree, degrees node = some degree →
          nexts.count node ≤ degree := fun node degree found =>
        Nat.le_trans List.count_le_count_cons (enough node degree found)
      rcases inductionHypothesis degrees queue rest with
        ⟨ready, nodup, members, queued, left⟩
      have other : ∀ node degree, degrees node = some degree → next ≠ node := by
        rintro node degree found rfl
        rw [known] at found
        cases found
      refine ⟨ready, nodup, fun node => ?_, ?_, fun node => ?_⟩
      · rw [members]
        constructor
        · rintro ⟨positive, found⟩
          rw [List.count_cons_of_ne (other node _ found)]
          exact ⟨positive, found⟩
        · rintro ⟨positive, found⟩
          rw [List.count_cons_of_ne (other node _ found)] at positive found
          exact ⟨positive, found⟩
      · rw [release, known]
        exact queued
      · rw [release, known]
        rw [left]
        cases found : degrees node with
        | none => rfl
        | some degree =>
          rw [List.count_cons_of_ne (other node degree found)]
    | some degree =>
      let lowered : Degrees := fun node =>
        if node = next then some (degree - 1) else degrees node
      have positive := enough next degree known
      rw [List.count_cons_self] at positive
      have rest : ∀ node degree, lowered node = some degree →
          nexts.count node ≤ degree := by
        intro node left found
        by_cases same : node = next
        · subst same
          simp only [lowered, if_true, Option.some.injEq] at found
          omega
        · simp only [lowered, if_neg same] at found
          exact Nat.le_trans List.count_le_count_cons (enough node left found)
      rcases inductionHypothesis lowered
        (if degree - 1 = 0 then queue ++ [(next, depth + 1)] else queue) rest with
        ⟨ready, nodup, members, queued, left⟩
      have unrolled : release depth (next :: nexts) degrees queue =
          release depth nexts lowered
            (if degree - 1 = 0 then queue ++ [(next, depth + 1)] else queue) := by
        rw [release, known]
      have leftAll : ∀ node, (release depth (next :: nexts) degrees queue).1 node =
          (degrees node).map fun degree =>
            degree - (next :: nexts).count node := by
        intro node
        rw [unrolled, left]
        by_cases same : node = next
        · subst same
          simp only [lowered, if_true, Option.map_some, known, List.count_cons_self,
            Option.some.injEq]
          omega
        · simp only [lowered, if_neg same]
          rw [List.count_cons_of_ne (fun equal => same equal.symm)]
      have others : ∀ node, node ≠ next → (node ∈ ready ↔
          0 < (next :: nexts).count node ∧
            degrees node = some ((next :: nexts).count node)) := by
        intro node different
        rw [members, List.count_cons_of_ne (fun equal => different equal.symm)]
        simp only [lowered, if_neg different]
      by_cases last : degree - 1 = 0
      · have fresh : next ∉ ready := by
          rw [members]
          simp only [lowered, if_true, Option.some.injEq]
          omega
        refine ⟨next :: ready, List.nodup_cons.mpr ⟨fresh, nodup⟩, fun node => ?_,
          ?_, leftAll⟩
        · by_cases same : node = next
          · subst same
            rw [List.count_cons_self, known, Option.some.injEq]
            refine ⟨fun _ => ⟨Nat.succ_pos _, by omega⟩,
              fun _ => List.mem_cons_self⟩
          · rw [List.mem_cons, ← others node same]
            exact ⟨fun member => member.resolve_left same, .inr⟩
        · rw [unrolled, queued, if_pos last, List.map_cons, List.append_assoc]
          rfl
      · refine ⟨ready, nodup, fun node => ?_, ?_, leftAll⟩
        · by_cases same : node = next
          · subst same
            rw [members, List.count_cons_self, known]
            simp only [lowered, if_true, Option.some.injEq]
            omega
          · exact others node same
        · rw [unrolled, queued, if_neg last]

/-! ## The invariant -/

section Invariant

variable {tasks : List Text} {dependencies : List RemediationDependency}

/-- A known node that waits for nothing outside the order. -/
def Ready (tasks : List Text) (dependencies : List RemediationDependency)
    (order : List Text) (node : Text) : Prop :=
  Known tasks dependencies node ∧ waiting dependencies order node = 0

/-- Every node stands behind what it depends on. -/
def Sorted (dependencies : List RemediationDependency) (order : List Text) :
    Prop :=
  ∀ front node back, order = front ++ node :: back →
    ∀ dependency ∈ dependencies, dependency.taskId = node →
      dependency.dependsOn ∈ front

structure Planning (tasks : List Text) (dependencies : List RemediationDependency)
    (plan : Plan) : Prop where
  visited : plan.visited = plan.order.reverse
  known : ∀ node, Known tasks dependencies node →
    plan.degrees node = some (waiting dependencies plan.order node)
  unknown : ∀ node, ¬ Known tasks dependencies node → plan.degrees node = none
  nodup : (plan.order ++ plan.queue.map Prod.fst).Nodup
  ready : ∀ node, node ∈ plan.order ++ plan.queue.map Prod.fst ↔
    Ready tasks dependencies plan.order node
  ranked : ∀ entry ∈ plan.queue, Rank tasks dependencies entry.1 entry.2
  ascending : plan.queue.Pairwise fun one other => one.2 ≤ other.2
  narrow : ∀ one ∈ plan.queue, ∀ other ∈ plan.queue, other.2 ≤ one.2 + 1
  taken : ∀ node ∈ plan.order, ∃ rank, Rank tasks dependencies node rank ∧
    rank ≤ maxPlanDepth ∧ ∀ entry ∈ plan.queue, rank ≤ entry.2
  sorted : Sorted dependencies plan.order

theorem Grounded.known {node : Text} (grounded : Grounded tasks dependencies node) :
    Known tasks dependencies node := by
  cases grounded with
  | intro known _ => exact known

theorem Chain.grounded {length : Nat} {node : Text}
    (chain : Chain tasks dependencies length node) :
    Grounded tasks dependencies node := by
  cases chain with
  | one grounded => exact grounded
  | more _ _ grounded => exact grounded

theorem rank_one {node : Text} (ready : Ready tasks dependencies [] node) :
    Rank tasks dependencies node 1 := by
  have alone := waiting_eq_zero.mp ready.2
  refine ⟨.one (.intro ready.1 fun dependency member same =>
    absurd (alone dependency member same) List.not_mem_nil), ?_⟩
  intro length chain
  cases chain with
  | one => exact Nat.le_refl 1
  | more _ member _ => exact absurd (alone _ member rfl) List.not_mem_nil

variable {iteration : List Text}

theorem Planning.initial (iterates : Iterates tasks dependencies iteration) :
    Planning tasks dependencies (begin tasks dependencies iteration) := by
  have names : (begin tasks dependencies iteration).queue.map Prod.fst =
      iteration.filter fun node => inDegree tasks dependencies node = some 0 := by
    simp [begin, Function.comp_def]
  have free : ∀ node, node ∈ (begin tasks dependencies iteration).queue.map Prod.fst ↔
      Ready tasks dependencies [] node := by
    intro node
    rw [names, List.mem_filter, iterates.exactly, Ready]
    refine and_congr_right fun known => ?_
    rw [inDegree_known known, decide_eq_true_eq, Option.some.injEq]
  have first : ∀ entry ∈ (begin tasks dependencies iteration).queue,
      entry.2 = 1 ∧ Ready tasks dependencies [] entry.1 := by
    intro entry member
    refine ⟨?_, (free entry.1).mp (List.mem_map.mpr ⟨entry, member, rfl⟩)⟩
    rcases List.mem_map.mp member with ⟨node, _, same⟩
    rw [← same]
  constructor
  case visited => rfl
  case known => exact fun node known => inDegree_known known
  case unknown => exact fun node unknown => inDegree_unknown unknown
  case nodup =>
    show (([] : List Text) ++
      (begin tasks dependencies iteration).queue.map Prod.fst).Nodup
    rw [List.nil_append, names]
    exact iterates.nodup.filter _
  case ready => exact free
  case ranked =>
    intro entry member
    rw [(first entry member).1]
    exact rank_one (first entry member).2
  case ascending =>
    refine List.Pairwise.imp_of_mem ?_ (List.pairwise_of_forall fun _ _ => trivial)
    intro one other left right _
    rw [(first one left).1, (first other right).1]
  case narrow =>
    intro one left other right
    rw [(first one left).1, (first other right).1]
    decide
  case taken => exact fun node member => absurd member List.not_mem_nil
  case sorted =>
    intro front node back same
    exact absurd same.symm (by simp [begin])

section Turn

variable {node : Text} {depth : Nat} {rest : List (Text × Nat)}
  {degrees : Degrees} {visited order : List Text}

section

variable
  (planning : Planning tasks dependencies ⟨degrees, (node, depth) :: rest, visited, order⟩)
include planning

theorem Planning.fresh : node ∉ order := by
  intro member
  have apart := (List.nodup_append.mp planning.nodup).2.2
  exact apart node member node List.mem_cons_self rfl

theorem Planning.head_least :
    ∀ entry ∈ (node, depth) :: rest, depth ≤ entry.2 := by
  intro entry member
  rcases List.mem_cons.mp member with same | later
  · exact Nat.le_of_eq (congrArg Prod.snd same).symm
  · exact (List.pairwise_cons.mp planning.ascending).1 entry later

/-- A node that waits for the head of the queue last has the rank behind it. -/
theorem Planning.rank_next {next : Text} (known : Known tasks dependencies next)
    (last : waiting dependencies (order ++ [node]) next = 0)
    (waits : 0 < (adjacent dependencies node).count next) :
    Rank tasks dependencies next (depth + 1) := by
  have before := waiting_eq_zero.mp last
  have bounded : ∀ other ∈ order ++ [node], ∃ rank,
      Rank tasks dependencies other rank ∧ rank ≤ depth := by
    intro other member
    rcases List.mem_append.mp member with old | new
    · rcases planning.taken other old with ⟨rank, ranked, _, below⟩
      exact ⟨rank, ranked, below _ List.mem_cons_self⟩
    · rw [List.mem_singleton.mp new]
      exact ⟨depth, planning.ranked _ List.mem_cons_self, Nat.le_refl depth⟩
  have grounded : Grounded tasks dependencies next := by
    refine .intro known fun dependency member same => ?_
    rcases bounded _ (before dependency member same) with ⟨rank, ranked, _⟩
    exact ranked.1.grounded
  constructor
  · rw [count_adjacent, List.countP_pos_iff] at waits
    rcases waits with ⟨dependency, member, matching⟩
    rcases of_decide_eq_true matching with ⟨source, target⟩
    have longest := (planning.ranked _ List.mem_cons_self).1
    rw [← target] at grounded ⊢
    exact .more (source.symm ▸ longest) member grounded
  · intro length chain
    cases chain with
    | one => exact Nat.succ_le_succ (Nat.zero_le depth)
    | @more shorter dependency chain member _ =>
      rcases bounded _ (before dependency member rfl) with ⟨rank, ranked, below⟩
      exact Nat.succ_le_succ ((ranked.2 shorter chain).trans below)

/-- What waited for the head of the queue, and what still waits. -/
theorem Planning.waiting_split (next : Text) :
    waiting dependencies order next =
      waiting dependencies (order ++ [node]) next +
        (adjacent dependencies node).count next :=
  waiting_append planning.fresh next

/-- A degree covers the edges from the head of the queue. -/
theorem Planning.enough (next : Text)
    (degree : Nat) (found : degrees next = some degree) :
    (adjacent dependencies node).count next ≤ degree := by
  by_cases known : Known tasks dependencies next
  · have counted := (planning.known next known).symm.trans found
    have whole := planning.waiting_split next
    rw [Option.some.injEq] at counted
    simp only at counted
    omega
  · rw [show degrees next = none from planning.unknown next known] at found
    cases found

/-- The nodes that are released are those that waited for the head of the queue
alone. -/
theorem Planning.released (next : Text) :
    (0 < (adjacent dependencies node).count next ∧
        degrees next = some ((adjacent dependencies node).count next)) ↔
      Known tasks dependencies next ∧
        0 < (adjacent dependencies node).count next ∧
          waiting dependencies (order ++ [node]) next = 0 := by
  by_cases known : Known tasks dependencies next
  · have counted : degrees next = some (waiting dependencies order next) :=
      planning.known next known
    have whole := planning.waiting_split next
    rw [counted, Option.some.injEq]
    constructor
    · rintro ⟨waits, same⟩
      exact ⟨known, waits, by omega⟩
    · rintro ⟨_, waits, none⟩
      exact ⟨waits, by omega⟩
  · have absent : degrees next = none := planning.unknown next known
    rw [absent]
    constructor
    · rintro ⟨_, found⟩
      cases found
    · rintro ⟨found, _⟩
      exact absurd found known

end

/-- A node goes behind what it depends on. -/
theorem Sorted.concat (sorted : Sorted dependencies order)
    (free : ∀ dependency ∈ dependencies, dependency.taskId = node →
      dependency.dependsOn ∈ order) :
    Sorted dependencies (order ++ [node]) := by
  intro front other back spelled dependency member same
  rcases List.eq_nil_or_concat back with empty | ⟨back', last, ends⟩
  · rw [empty] at spelled
    rcases List.append_inj' spelled rfl with ⟨fronts, heads⟩
    rw [← fronts]
    exact free dependency member (same.trans (List.cons.inj heads).1.symm)
  · rw [ends, List.concat_eq_append] at spelled
    have parts : order ++ [node] = (front ++ other :: back') ++ [last] := by
      rw [List.append_assoc, List.cons_append]
      exact spelled
    rcases List.append_inj' parts rfl with ⟨fronts, _⟩
    exact sorted front other back' fronts dependency member same

theorem Planning.take
    (planning : Planning tasks dependencies
      ⟨degrees, (node, depth) :: rest, visited, order⟩)
    (shallow : depth ≤ maxPlanDepth) :
    Planning tasks dependencies {
      degrees := (release depth (adjacent dependencies node) degrees rest).1
      queue := (release depth (adjacent dependencies node) degrees rest).2
      visited := node :: visited
      order := order ++ [node]
    } := by
  have split := planning.waiting_split
  rcases release_spec depth (adjacent dependencies node) degrees rest
    planning.enough with
    ⟨ready, readyNodup, readyMembers, queued, left⟩
  have newly : ∀ next, next ∈ ready ↔ Known tasks dependencies next ∧
      0 < (adjacent dependencies node).count next ∧
        waiting dependencies (order ++ [node]) next = 0 := fun next =>
    (readyMembers next).trans (planning.released next)
  have old : ∀ next, next ∈ order ++ ((node, depth) :: rest).map Prod.fst ↔
      Ready tasks dependencies order next := planning.ready
  have names : (release depth (adjacent dependencies node) degrees rest).2.map Prod.fst =
      rest.map Prod.fst ++ ready := by
    rw [queued, List.map_append, List.map_map]
    exact congrArg _ (List.map_id _)
  have rearranged : order ++ [node] ++ (rest.map Prod.fst ++ ready) =
      order ++ ((node, depth) :: rest).map Prod.fst ++ ready := by
    simp
  have within : ∀ entry ∈ (release depth (adjacent dependencies node) degrees rest).2,
      entry ∈ rest ∨ (entry.1 ∈ ready ∧ entry.2 = depth + 1) := by
    intro entry member
    rw [queued] at member
    rcases List.mem_append.mp member with earlier | new
    · exact .inl earlier
    · rcases List.mem_map.mp new with ⟨next, among, same⟩
      rw [← same]
      exact .inr ⟨among, rfl⟩
  have deeper : ∀ entry ∈ (release depth (adjacent dependencies node) degrees rest).2,
      depth ≤ entry.2 ∧ entry.2 ≤ depth + 1 := by
    intro entry member
    rcases within entry member with earlier | new
    · exact ⟨planning.head_least entry (.tail _ earlier),
        planning.narrow _ List.mem_cons_self entry (.tail _ earlier)⟩
    · omega
  constructor
  case visited =>
    rw [show visited = order.reverse from planning.visited, List.reverse_append]
    rfl
  case known =>
    intro next known
    have counted : degrees next = some (waiting dependencies order next) :=
      planning.known next known
    have whole := split next
    simp only [left, counted, Option.map_some, Option.some.injEq]
    omega
  case unknown =>
    intro next unknown
    have absent : degrees next = none := planning.unknown next unknown
    simp only [left, absent, Option.map_none]
  case nodup =>
    simp only [names]
    rw [rearranged]
    refine List.nodup_append'.mpr ⟨planning.nodup, readyNodup, fun next before new => ?_⟩
    have waits := (newly next).mp new
    have whole := split next
    have free := ((old next).mp before).2
    omega
  case ready =>
    intro next
    simp only [names]
    rw [rearranged, List.mem_append, old, newly, Ready, Ready]
    have whole := split next
    constructor
    · rintro (⟨known, none⟩ | ⟨known, _, none⟩)
      · exact ⟨known, by omega⟩
      · exact ⟨known, none⟩
    · rintro ⟨known, none⟩
      by_cases waits : 0 < (adjacent dependencies node).count next
      · exact .inr ⟨known, waits, none⟩
      · exact .inl ⟨known, by omega⟩
  case ranked =>
    intro entry member
    rcases within entry member with earlier | ⟨new, exactly⟩
    · exact planning.ranked entry (.tail _ earlier)
    · have waits := (newly entry.1).mp new
      rw [exactly]
      exact planning.rank_next waits.1 waits.2.2 waits.2.1
  case ascending =>
    simp only [queued]
    refine List.pairwise_append.mpr
      ⟨(List.pairwise_cons.mp planning.ascending).2, ?_, ?_⟩
    · exact List.pairwise_map.mpr (List.pairwise_of_forall fun _ _ => Nat.le_refl _)
    · intro one earlier other new
      rcases List.mem_map.mp new with ⟨next, _, same⟩
      rw [← same]
      exact planning.narrow _ List.mem_cons_self one (.tail _ earlier)
  case narrow =>
    intro one first other second
    have lower := deeper one first
    have upper := deeper other second
    omega
  case taken =>
    intro other member
    rcases List.mem_append.mp member with before | new
    · rcases planning.taken other before with ⟨rank, ranked, bound, below⟩
      refine ⟨rank, ranked, bound, fun entry among => ?_⟩
      exact (below _ List.mem_cons_self).trans (deeper entry among).1
    · rw [List.mem_singleton.mp new]
      exact ⟨depth, planning.ranked _ List.mem_cons_self, shallow,
        fun entry among => (deeper entry among).1⟩
  case sorted =>
    have here : node ∈ order ++ ((node, depth) :: rest).map Prod.fst :=
      List.mem_append_right _ List.mem_cons_self
    exact Sorted.concat planning.sorted (waiting_eq_zero.mp ((old node).mp here).2)

end Turn

/-! ## The run -/

/-- A chain of grounded nodes is too long. -/
def Deep (tasks : List Text) (dependencies : List RemediationDependency) : Prop :=
  ∃ node length, Chain tasks dependencies length node ∧ maxPlanDepth < length

/-- What is true of the end of the loop. -/
def Finished (tasks : List Text) (dependencies : List RemediationDependency) :
    Except AppError (List Text) → Prop
  | .error error => error = depthExceeded ∧ Deep tasks dependencies
  | .ok order => ¬ Deep tasks dependencies ∧ order.Nodup ∧
      Sorted dependencies order ∧
        ∀ node, node ∈ order ↔ Grounded tasks dependencies node

theorem Planning.finished {plan : Plan} (planning : Planning tasks dependencies plan)
    (done : plan.queue = []) :
    Finished tasks dependencies (.ok plan.order) := by
  have members : ∀ node, node ∈ plan.order ↔
      Ready tasks dependencies plan.order node := by
    intro node
    rw [← planning.ready, done, List.map_nil, List.append_nil]
  have exactly : ∀ node, node ∈ plan.order ↔ Grounded tasks dependencies node := by
    intro node
    constructor
    · intro member
      rcases planning.taken node member with ⟨rank, ranked, _⟩
      exact ranked.1.grounded
    · intro grounded
      induction grounded with
      | intro known _ inductionHypothesis =>
        exact (members _).mpr ⟨known, waiting_eq_zero.mpr inductionHypothesis⟩
  refine ⟨?_, ?_, planning.sorted, exactly⟩
  · rintro ⟨node, length, chain, beyond⟩
    have member := (exactly node).mpr chain.grounded
    rcases planning.taken node member with ⟨rank, ranked, bound, _⟩
    exact absurd ((ranked.2 length chain).trans bound) (Nat.not_le_of_lt beyond)
  · have nodup := planning.nodup
    rwa [done, List.map_nil, List.append_nil] at nodup

/-- With turns for every node the loop ends, and as it should. -/
theorem turns_finish
    (iterates : Iterates tasks dependencies iteration) :
    ∀ {fuel : Nat} {plan : Plan}, Planning tasks dependencies plan →
      plan.order.length + fuel = iteration.length + 1 →
        ∃ result, turns dependencies fuel plan = some result ∧
          Finished tasks dependencies result
  | fuel, ⟨degrees, queue, visited, order⟩, planning, enough => by
    have inside : ∀ node ∈ order ++ queue.map Prod.fst, node ∈ iteration :=
      fun node member => (iterates.exactly node).mpr ((planning.ready node).mp member).1
    have room := (planning.nodup.subperm inside).length_le
    rw [List.length_append] at room
    simp only at enough room
    cases fuel with
    | zero => omega
    | succ fuel =>
      rw [turns]
      cases queue with
      | nil => exact ⟨_, rfl, planning.finished rfl⟩
      | cons entry rest =>
        rcases entry with ⟨node, depth⟩
        by_cases beyond : maxPlanDepth < depth
        · simp only [turn, if_pos beyond]
          have ranked := planning.ranked _ List.mem_cons_self
          exact ⟨_, rfl, rfl, node, depth, ranked.1, beyond⟩
        · have unseen : visited.contains node = false := by
            rw [show visited = order.reverse from planning.visited]
            refine Bool.eq_false_of_not_eq_true fun seen => planning.fresh ?_
            exact List.mem_reverse.mp (List.contains_iff_mem.mp seen)
          simp only [turn, if_neg beyond, unseen, Bool.false_eq_true, if_false]
          refine turns_finish iterates (planning.take (Nat.le_of_not_lt beyond)) ?_
          simp only [List.length_append, List.length_singleton]
          omega

/-- Fewer names are grounded than the task list has entries. -/
def FewerGrounded (tasks : List Text)
    (dependencies : List RemediationDependency) : Prop :=
  ∀ names : List Text, names.Nodup →
    (∀ node ∈ names, Grounded tasks dependencies node) →
      names.length < tasks.length

theorem validate_spec (iterates : Iterates tasks dependencies iteration) :
    ∃ result,
      validateRemediationDependencies tasks dependencies iteration = some result ∧
        ((∃ order, result = .ok order) ↔
          ¬ Deep tasks dependencies ∧ ¬ FewerGrounded tasks dependencies) ∧
        ∀ order, result = .ok order → order.Nodup ∧ Sorted dependencies order ∧
          ∀ node, node ∈ order ↔ Grounded tasks dependencies node := by
  have enough : (begin tasks dependencies iteration).order.length +
      (iteration.length + 1) = iteration.length + 1 := Nat.zero_add _
  rcases turns_finish iterates (Planning.initial iterates) enough with
    ⟨result, returned, finished⟩
  rw [validateRemediationDependencies, returned, Option.map_some]
  refine ⟨_, rfl, ?_⟩
  cases result with
  | error error =>
    refine ⟨⟨?_, fun shallow => absurd finished.2 shallow.1⟩, ?_⟩
    · rintro ⟨order, same⟩
      cases same
    · intro order same
      cases same
  | ok order =>
    rcases finished with ⟨shallow, nodup, sorted, exactly⟩
    have fewer : FewerGrounded tasks dependencies ↔ order.length < tasks.length := by
      constructor
      · intro fewer
        exact fewer order nodup fun node member => (exactly node).mp member
      · intro short names distinct grounded
        have bound := (distinct.subperm fun node member =>
          (exactly node).mpr (grounded node member)).length_le
        exact Nat.lt_of_le_of_lt bound short
    rw [Except.bind]
    by_cases short : order.length < tasks.length
    · rw [if_pos short]
      refine ⟨⟨?_, fun both => absurd (fewer.mpr short) both.2⟩, ?_⟩
      · rintro ⟨other, same⟩
        cases same
      · intro other same
        cases same
    · rw [if_neg short]
      refine ⟨⟨fun _ => ⟨shallow, fun few => short (fewer.mp few)⟩,
        fun _ => ⟨order, rfl⟩⟩, ?_⟩
      intro other same
      cases same
      exact ⟨nodup, sorted, exactly⟩

end Invariant

/-! ## The graph on the tasks -/

section Tasks

variable (tasks : List Text) (dependencies : List RemediationDependency)

/-- A task waits for a task. -/
def TaskEdge (source target : Text) : Prop :=
  source ∈ tasks ∧ target ∈ tasks ∧
    ∃ dependency ∈ dependencies,
      dependency.dependsOn = source ∧ dependency.taskId = target

/-- A chain of so many tasks ends in the task. -/
inductive TaskChain : Nat → Text → Prop
  | one {task : Text} : task ∈ tasks → TaskChain 1 task
  | more {length : Nat} {source target : Text} : TaskChain length source →
      TaskEdge tasks dependencies source target → TaskChain (length + 1) target

/-- No task waits for itself, and no chain is longer than the greatest depth. -/
def Plannable : Prop :=
  (∀ task, ¬ Relation.TransGen (TaskEdge tasks dependencies) task task) ∧
    ∀ length task, TaskChain tasks dependencies length task →
      length ≤ maxPlanDepth

/-- Each task once, behind every task that it depends on. -/
def OrdersTasks (order : List Text) : Prop :=
  order.Perm tasks.dedup ∧
    ∀ front task back, order = front ++ task :: back →
      ∀ source, TaskEdge tasks dependencies source task → source ∈ front

/-- An order is returned exactly for a plannable graph, and is one. -/
def ReturnsOrder (iteration : List Text) : Prop :=
  ∃ result,
    validateRemediationDependencies tasks dependencies iteration = some result ∧
      ((∃ order, result = .ok order) ↔ Plannable tasks dependencies) ∧
      ∀ order, result = .ok order → OrdersTasks tasks dependencies order

/-- What makes the answer right: for a plannable graph the tasks are distinct
and exactly they are grounded, for any other a chain of grounded names is too
long or there are fewer of them than entries of the task list. -/
def PlainNames : Prop :=
  (Plannable tasks dependencies →
    tasks.Nodup ∧ ∀ node, Grounded tasks dependencies node ↔ node ∈ tasks) ∧
  (¬ Plannable tasks dependencies →
    Deep tasks dependencies ∨ FewerGrounded tasks dependencies)

end Tasks

section Rules

variable {tasks : List Text} {dependencies : List RemediationDependency}

theorem Chain.taskChain
    (exactly : ∀ node, Grounded tasks dependencies node ↔ node ∈ tasks)
    {length : Nat} {node : Text} (chain : Chain tasks dependencies length node) :
    TaskChain tasks dependencies length node := by
  induction chain with
  | one grounded => exact .one ((exactly _).mp grounded)
  | more chain member grounded inductionHypothesis =>
    exact .more inductionHypothesis ⟨(exactly _).mp chain.grounded,
      (exactly _).mp grounded, _, member, rfl, rfl⟩

/-- Where there are as many grounded tasks as entries, the tasks are distinct. -/
theorem nodup_of_not_fewer
    (exactly : ∀ node, Grounded tasks dependencies node ↔ node ∈ tasks)
    (enough : ¬ FewerGrounded tasks dependencies) : tasks.Nodup := by
  simp only [FewerGrounded, not_forall, not_lt] at enough
  rcases enough with ⟨names, distinct, grounded, long⟩
  have inside : ∀ node ∈ names, node ∈ tasks.dedup := fun node member =>
    List.mem_dedup.mpr ((exactly node).mp (grounded node member))
  have bound := (distinct.subperm inside).length_le
  have shorter := (List.dedup_sublist tasks).length_le
  have whole := (List.dedup_sublist tasks).eq_of_length (by omega)
  exact whole ▸ List.nodup_dedup tasks

theorem returnsOrder_rules {iteration : List Text}
    (iterates : Iterates tasks dependencies iteration) :
    ReturnsOrder tasks dependencies iteration ↔ PlainNames tasks dependencies := by
  rcases validate_spec iterates with ⟨result, returned, succeeds, order⟩
  constructor
  · rintro ⟨other, again, plans, orders⟩
    have same := Option.some.inj (again.symm.trans returned)
    subst same
    refine ⟨fun plannable => ?_, fun unplannable => ?_⟩
    · rcases plans.mpr plannable with ⟨list, ok⟩
      have members := (orders list ok).1
      have facts := order list ok
      have exactly : ∀ node, Grounded tasks dependencies node ↔ node ∈ tasks := by
        intro node
        rw [← facts.2.2, members.mem_iff, List.mem_dedup]
      exact ⟨nodup_of_not_fewer exactly (succeeds.mp ⟨list, ok⟩).2, exactly⟩
    · by_contra neither
      exact unplannable (plans.mp (succeeds.mpr (not_or.mp neither)))
  · rintro ⟨plain, otherwise⟩
    refine ⟨result, returned, ⟨?_, ?_⟩, ?_⟩
    · intro ok
      by_contra unplannable
      rcases otherwise unplannable with deep | fewer
      · exact (succeeds.mp ok).1 deep
      · exact (succeeds.mp ok).2 fewer
    · intro plannable
      rcases plain plannable with ⟨distinct, exactly⟩
      refine succeeds.mpr ⟨?_, fun fewer => ?_⟩
      · rintro ⟨node, length, chain, beyond⟩
        exact absurd (plannable.2 length node (chain.taskChain exactly))
          (Nat.not_le_of_lt beyond)
      · exact absurd (fewer tasks distinct fun node member =>
          (exactly node).mpr member) (Nat.lt_irrefl _)
    · intro list ok
      have plannable : Plannable tasks dependencies := by
        by_contra unplannable
        rcases otherwise unplannable with deep | fewer
        · exact (succeeds.mp ⟨list, ok⟩).1 deep
        · exact (succeeds.mp ⟨list, ok⟩).2 fewer
      rcases plain plannable with ⟨_, exactly⟩
      rcases order list ok with ⟨nodup, sorted, members⟩
      refine ⟨?_, ?_⟩
      · refine (List.perm_ext_iff_of_nodup nodup (List.nodup_dedup tasks)).mpr
          fun node => ?_
        rw [members, exactly, List.mem_dedup]
      · rintro front task back split source ⟨_, _, dependency, member, from_, to_⟩
        rw [← from_]
        exact sorted front task back split dependency member to_

/-- The order of the tasks is returned exactly when it should be where the names
of tasks and dependencies agree. -/
theorem remediation_order_iff {iteration : List Text}
    (iterates : Iterates tasks dependencies iteration) :
    ReturnsOrder tasks dependencies iteration ↔ PlainNames tasks dependencies :=
  returnsOrder_rules iterates

/-! ## Tasks that depend on tasks -/

theorem taskChain_of_not_grounded
    (closed : ∀ dependency ∈ dependencies,
      dependency.taskId ∈ tasks ∧ dependency.dependsOn ∈ tasks) (length : Nat) :
    ∀ task ∈ tasks, ¬ Grounded tasks dependencies task →
      TaskChain tasks dependencies (length + 1) task := by
  induction length with
  | zero => exact fun task member _ => .one member
  | succ length inductionHypothesis =>
    intro task member floating
    have source : ∃ dependency ∈ dependencies, dependency.taskId = task ∧
        ¬ Grounded tasks dependencies dependency.dependsOn := by
      by_contra none
      refine floating (.intro (.inl member) fun dependency among same => ?_)
      by_contra above
      exact none ⟨dependency, among, same, above⟩
    rcases source with ⟨dependency, among, same, above⟩
    have inside := closed dependency among
    exact .more (inductionHypothesis _ inside.2 above)
      ⟨inside.2, member, dependency, among, rfl, same⟩

theorem Grounded.not_cyclic {node : Text}
    (grounded : Grounded tasks dependencies node) :
    ¬ Relation.TransGen (TaskEdge tasks dependencies) node node := by
  induction grounded with
  | @intro node _ _ inductionHypothesis =>
    intro cycle
    rcases Relation.TransGen.tail'_iff.mp cycle with ⟨source, way, edge⟩
    rcases edge.2.2 with ⟨dependency, member, from_, to_⟩
    have around : Relation.TransGen (TaskEdge tasks dependencies) source source :=
      Relation.TransGen.head' edge way
    exact inductionHypothesis dependency member to_ (from_.symm ▸ around)

theorem TaskChain.chain
    (grounded : ∀ node ∈ tasks, Grounded tasks dependencies node)
    {length : Nat} {task : Text} (chain : TaskChain tasks dependencies length task) :
    Chain tasks dependencies length task := by
  induction chain with
  | one member => exact .one (grounded _ member)
  | more _ edge inductionHypothesis =>
    rcases edge with ⟨_, target, dependency, member, from_, to_⟩
    rw [← to_] at target ⊢
    exact .more (from_.symm ▸ inductionHypothesis) member (grounded _ target)

/-- Where the tasks are distinct and depend on tasks only, the answer is right,
with cycles and without. -/
theorem plainNames_of_closed (distinct : tasks.Nodup)
    (closed : ∀ dependency ∈ dependencies,
      dependency.taskId ∈ tasks ∧ dependency.dependsOn ∈ tasks) :
    PlainNames tasks dependencies := by
  have inside : ∀ node, Grounded tasks dependencies node → node ∈ tasks := by
    intro node grounded
    rcases grounded.known with task | ⟨dependency, member, same⟩
    · exact task
    · exact same ▸ (closed dependency member).1
  constructor
  · intro plannable
    refine ⟨distinct, fun node => ⟨inside node, fun member => ?_⟩⟩
    by_contra floating
    have long := plannable.2 _ node
      (taskChain_of_not_grounded closed maxPlanDepth node member floating)
    exact absurd long (Nat.not_le_of_lt (Nat.lt_succ_self _))
  · intro unplannable
    by_contra neither
    rcases not_or.mp neither with ⟨shallow, enough⟩
    have grounded : ∀ node ∈ tasks, Grounded tasks dependencies node := by
      simp only [FewerGrounded, not_forall, not_lt] at enough
      rcases enough with ⟨names, nodup, all, long⟩
      have same := (nodup.subperm fun node member =>
        inside node (all node member)).perm_of_length_le long
      exact fun node member => all node (same.mem_iff.mpr member)
    refine unplannable ⟨fun task cycle => ?_, fun length task chain => ?_⟩
    · rcases Relation.TransGen.head'_iff.mp cycle with ⟨_, edge, _⟩
      exact (grounded task edge.1).not_cyclic cycle
    · refine Nat.le_of_not_lt fun beyond => shallow ?_
      exact ⟨task, length, chain.chain grounded, beyond⟩

end Rules

/-! ## Names outside the list -/

def dependency (taskId dependsOn : Text) : RemediationDependency where
  taskId := taskId
  dependsOn := dependsOn

theorem remediation_order_iff_pair :
    ReturnsOrder [("a" : Text), ("b" : Text)] [dependency "b" "a"]
        [("b" : Text), ("a" : Text)] ↔
      PlainNames [("a" : Text), ("b" : Text)] [dependency "b" "a"] :=
  remediation_order_iff {
    nodup := by decide
    exactly := fun node => by
      simp only [Known, dependency, List.mem_cons, List.not_mem_nil, or_false,
        exists_eq_left]
      constructor
      · rintro (second | first)
        · exact .inl (.inr second)
        · exact .inl (.inl first)
      · rintro ((first | second) | second)
        · exact .inr first
        · exact .inl second
        · exact .inl second.symm
  }

/-- Two tasks that wait for each other, one that waits for nothing, and two
names outside the list that wait for that one. -/
def hiddenTasks : List Text := ["a", "b", "c"]

def hiddenDependencies : List RemediationDependency :=
  [dependency "a" "b", dependency "b" "a", dependency "x" "c", dependency "y" "c"]

theorem hidden_iterates : Iterates hiddenTasks hiddenDependencies
    ["a", "b", "c", "x", "y"] where
  nodup := by decide
  exactly := fun node => by
    simp only [Known, hiddenTasks, hiddenDependencies, dependency, List.mem_cons,
      List.not_mem_nil, or_false, exists_eq_or_imp, exists_eq_left]
    tauto

/-- The names outside the list make up for the tasks of the cycle. -/
theorem hidden_cycle_ordered :
    Iterates hiddenTasks hiddenDependencies ["a", "b", "c", "x", "y"] ∧
      validateRemediationDependencies hiddenTasks hiddenDependencies
        ["a", "b", "c", "x", "y"] = some (.ok ["c", "x", "y"]) ∧
      ¬ ReturnsOrder hiddenTasks hiddenDependencies ["a", "b", "c", "x", "y"] := by
  have returned : validateRemediationDependencies hiddenTasks hiddenDependencies
      ["a", "b", "c", "x", "y"] = some (.ok ["c", "x", "y"]) := by
    decide +kernel
  refine ⟨hidden_iterates, returned, ?_⟩
  rintro ⟨result, same, plans, _⟩
  have ok := Option.some.inj (same.symm.trans returned)
  have plannable := plans.mp ⟨_, ok⟩
  have first : TaskEdge hiddenTasks hiddenDependencies ("a" : Text) ("b" : Text) :=
    ⟨by decide, by decide, dependency "b" "a", by decide, rfl, rfl⟩
  have second : TaskEdge hiddenTasks hiddenDependencies ("b" : Text) ("a" : Text) :=
    ⟨by decide, by decide, dependency "a" "b", by decide, rfl, rfl⟩
  exact plannable.1 _ ((Relation.TransGen.single first).tail second)

end FireCrow.Services.RemediationPlan
