import FireCrow.Library.BreadthFirst
import FireCrow.Library.Text

/-!
# Attack paths

`calculate_attack_path` searches a list of edges breadth first.  It looks at
the depth of an entry before it looks whether the node has been visited, so an
edge back from a node at the greatest depth ends the search like an edge to a
node beyond it.
-/

namespace FireCrow.Services.AttackGraph

open FireCrow.Library

def maxGraphDepth : Nat := 50

structure Edge where
  source : Text
  target : Text
  label : Option Text
deriving DecidableEq

inductive AppError where
  | internal (message : Text)
deriving DecidableEq

def tooDeep : AppError :=
  .internal ("Maximum attack graph depth exceeded" : Text)

/-- The local variables of the loop. -/
structure Search where
  visited : List Text
  queue : List (Text × Nat)
  path : List Text
deriving DecidableEq

/-- What the inner loop over the edges pushes. -/
def pushed (edges : List Edge) (current : Text) (depth : Nat) :
    List (Text × Nat) :=
  (edges.filter fun edge => edge.source == current).map
    fun edge => (edge.target, depth + 1)

/-- One turn of the `while` loop: the next state, or what is returned. -/
def turn (edges : List Edge) (search : Search) :
    Search ⊕ Except AppError (List Text) :=
  match search.queue with
  | [] => .inr (.ok search.path)
  | (current, depth) :: rest =>
      if maxGraphDepth < depth then
        .inr (.error tooDeep)
      else if search.visited.contains current then
        .inl { search with queue := rest }
      else
        .inl {
          visited := current :: search.visited
          queue := rest ++ pushed edges current depth
          path := search.path ++ [current]
        }

/-- The loop, for at most the given number of turns. -/
def turns (edges : List Edge) : Nat → Search →
    Option (Except AppError (List Text))
  | 0, _ => none
  | fuel + 1, search =>
      match turn edges search with
      | .inl next => turns edges fuel next
      | .inr result => some result

def begin (start : Text) : Search where
  visited := []
  queue := [(start, 0)]
  path := []

def calculateAttackPath (start : Text) (edges : List Edge) :
    Option (Except AppError (List Text)) :=
  turns edges (edges.length + 2) (begin start)

/-! ## The graph -/

/-- Two nodes with an edge between them. -/
def Linked (edges : List Edge) (node next : Text) : Prop :=
  ∃ edge ∈ edges, edge.source = node ∧ edge.target = next

variable {edges : List Edge}

theorem mem_targets {node next : Text} :
    next ∈ (edges.filter fun edge => edge.source == node).map Edge.target ↔
      Linked edges node next := by
  simp only [List.mem_map, List.mem_filter, beq_iff_eq, Linked, and_assoc]

theorem pushed_eq (edges : List Edge) (current : Text) (depth : Nat) :
    pushed edges current depth =
      ((edges.filter fun edge => edge.source == current).map Edge.target).map
        fun next => (next, depth + 1) := by
  simp [pushed, Function.comp_def]

/-! ## The loop ends -/

/-- Entries of the queue, and edges that may still be pushed. -/
def work (edges : List Edge) (search : Search) : Nat :=
  search.queue.length +
    (edges.filter fun edge => !search.visited.contains edge.source).length

theorem unvisited_split (edges : List Edge) {visited : List Text}
    {current : Text} (fresh : visited.contains current = false) :
    (edges.filter fun edge => !visited.contains edge.source).length =
      (edges.filter fun edge => edge.source == current).length +
        (edges.filter fun edge =>
          !(current :: visited).contains edge.source).length := by
  induction edges with
  | nil => rfl
  | cons edge edges inductionHypothesis =>
    by_cases same : edge.source = current
    · subst same
      simp only [List.filter_cons, fresh, List.contains_cons, beq_self_eq_true,
        Bool.true_or, Bool.not_true, Bool.not_false, if_true,
        Bool.false_eq_true, if_false, List.length_cons] at *
      omega
    · have other : (edge.source == current) = false := beq_eq_false_iff_ne.mpr same
      cases known : visited.contains edge.source <;>
        simp only [List.filter_cons, known, other, List.contains_cons,
          Bool.or_false, Bool.false_or, Bool.not_true, Bool.not_false, if_true,
          Bool.false_eq_true, if_false, List.length_cons] at * <;>
        omega

theorem turn_work {search next : Search}
    (continues : turn edges search = .inl next) :
    work edges next < work edges search := by
  rcases search with ⟨visited, queue, path⟩
  cases queue with
  | nil => simp [turn] at continues
  | cons entry rest =>
    rcases entry with ⟨current, depth⟩
    simp only [turn] at continues
    split at continues
    · cases continues
    · split at continues
      · cases continues
        simp [work]
      · rename_i fresh
        have split := unvisited_split edges (Bool.eq_false_iff.mpr fresh)
        cases continues
        simp only [work, List.length_append, List.length_cons, pushed,
          List.length_map]
        omega

theorem turns_terminate :
    ∀ {fuel : Nat} {search : Search}, work edges search < fuel →
      ∃ result, turns edges fuel search = some result
  | 0, _, enough => absurd enough (Nat.not_lt_zero _)
  | fuel + 1, search, enough => by
    simp only [turns]
    cases outcome : turn edges search with
    | inl next =>
      have less := turn_work outcome
      exact turns_terminate (by omega)
    | inr result => exact ⟨result, rfl⟩

theorem calculateAttackPath_terminates (start : Text) (edges : List Edge) :
    ∃ result, calculateAttackPath start edges = some result := by
  apply turns_terminate
  have bound := List.length_filter_le
    (fun edge : Edge => !([] : List Text).contains edge.source) edges
  simp only [work, begin, List.length_singleton]
  omega

/-! ## What the loop returns -/

/-- The visited set holds the nodes of the path, and the search is layered. -/
structure Searching (edges : List Edge) (start : Text) (search : Search) :
    Prop where
  visited : search.visited = search.path.reverse
  layered : Layered (Linked edges) start maxGraphDepth search.queue search.path

theorem Searching.begin (edges : List Edge) (start : Text) :
    Searching edges start (begin start) where
  visited := rfl
  layered := .initial

/-- A node at the greatest depth has an edge. -/
def LeavesDepth (edges : List Edge) (start : Text) : Prop :=
  ∃ node next, Distance (Linked edges) start node maxGraphDepth ∧
    Linked edges node next

/-- What is true of the value returned. -/
def Returned (edges : List Edge) (start : Text) :
    Except AppError (List Text) → Prop
  | .error error => error = tooDeep ∧ LeavesDepth edges start
  | .ok path =>
      Layered (Linked edges) start maxGraphDepth [] path

section Turn

variable {edges : List Edge} {start : Text} {search : Search}

theorem Searching.continues (searching : Searching edges start search)
    {next : Search} (continues : turn edges search = .inl next) :
    Searching edges start next := by
  rcases search with ⟨visited, queue, path⟩
  rcases searching with ⟨same, layered⟩
  cases queue with
  | nil => cases continues
  | cons entry rest =>
    rcases entry with ⟨current, depth⟩
    have known : visited.contains current = true ↔ current ∈ path := by
      rw [show visited = path.reverse from same, List.contains_iff_mem,
        List.mem_reverse]
    simp only [turn] at continues
    split at continues
    case isTrue => cases continues
    case isFalse within =>
      have shallow : depth ≤ maxGraphDepth := Nat.le_of_not_lt within
      split at continues
      case isTrue seen =>
        cases continues
        exact ⟨same, layered.skip shallow (known.mp seen)⟩
      case isFalse unseen =>
        cases continues
        refine ⟨?_, ?_⟩
        · rw [show visited = path.reverse from same, List.reverse_append]
          rfl
        · rw [pushed_eq]
          exact layered.expand shallow (fun member => unseen (known.mpr member))
            fun next => mem_targets

theorem Searching.ends (searching : Searching edges start search)
    {result : Except AppError (List Text)}
    (ends : turn edges search = .inr result) : Returned edges start result := by
  rcases search with ⟨visited, queue, path⟩
  rcases searching with ⟨_, layered⟩
  cases queue with
  | nil =>
    cases ends
    exact layered
  | cons entry rest =>
    rcases entry with ⟨current, depth⟩
    simp only [turn] at ends
    split at ends
    case isTrue beyond =>
      cases ends
      exact ⟨rfl, layered.origin _ List.mem_cons_self beyond⟩
    case isFalse =>
      split at ends <;> cases ends

end Turn

theorem Searching.turns {start : Text} :
    ∀ {fuel : Nat} {search : Search} {result : Except AppError (List Text)},
      Searching edges start search → turns edges fuel search = some result →
        Returned edges start result
  | 0, _, _, _, returned => by cases returned
  | fuel + 1, search, result, searching, returned => by
    simp only [AttackGraph.turns] at returned
    split at returned
    case h_1 next continues =>
      exact Searching.turns (searching.continues continues) returned
    case h_2 value ends =>
      cases returned
      exact searching.ends ends

theorem calculateAttackPath_returned {start : Text}
    {result : Except AppError (List Text)}
    (returned : calculateAttackPath start edges = some result) :
    Returned edges start result :=
  (Searching.begin edges start).turns returned

/-- The search fails exactly when a node at the greatest depth has an edge. -/
theorem succeeds_iff (start : Text) (edges : List Edge) :
    (∃ path, calculateAttackPath start edges = some (.ok path)) ↔
      ¬ LeavesDepth edges start := by
  rcases calculateAttackPath_terminates start edges with ⟨result, returned⟩
  have known := calculateAttackPath_returned returned
  cases result with
  | error error =>
    refine ⟨fun succeeds => ?_, fun stays => absurd known.2 stays⟩
    rcases succeeds with ⟨path, same⟩
    rw [returned] at same
    cases same
  | ok path =>
    refine ⟨fun _ leaves => ?_, fun _ => ⟨path, returned⟩⟩
    rcases leaves with ⟨node, next, shortest, edge⟩
    exact known.ends_within shortest edge

/-! ## The reachable set -/

/-- Every node that can be reached is at most the greatest depth away. -/
def AllWithin (edges : List Edge) (start : Text) : Prop :=
  ∀ node, Reaches (Linked edges) start node →
    ∃ steps, steps ≤ maxGraphDepth ∧ Walk (Linked edges) start steps node

/-- Each node that can be reached once, nearer ones first. -/
structure ListsReachable (edges : List Edge) (start : Text)
    (path : List Text) : Prop where
  once : path.Nodup
  exactly : ∀ node, node ∈ path ↔ Reaches (Linked edges) start node
  nearer : path.Pairwise fun one other => ∀ distance,
    Distance (Linked edges) start other distance →
      ∃ closer, closer ≤ distance ∧ Distance (Linked edges) start one closer

/-- The search returns the reachable nodes exactly when all of them are within
the greatest depth. -/
def ReturnsReachable (start : Text) (edges : List Edge) : Prop :=
  ∃ result, calculateAttackPath start edges = some result ∧
    ((∃ path, result = .ok path) ↔ AllWithin edges start) ∧
    ∀ path, result = .ok path → ListsReachable edges start path

theorem lists_reachable {start : Text} {path : List Text}
    (returned : calculateAttackPath start edges = some (.ok path)) :
    ListsReachable edges start path := by
  have layered := calculateAttackPath_returned returned
  exact ⟨layered.nodup, layered.complete, layered.sorted⟩

theorem allWithin_of_stays {start : Text} (stays : ¬ LeavesDepth edges start) :
    AllWithin edges start := by
  intro node reaches
  rcases reaches.distance with ⟨distance, shortest⟩
  refine ⟨distance, Nat.le_of_not_lt fun beyond => stays ?_, shortest.1⟩
  exact shortest.layer beyond

theorem returnsReachable_rules (start : Text) (edges : List Edge) :
    ReturnsReachable start edges ↔
      ((∃ node, Reaches (Linked edges) start node ∧
          ∀ steps, Walk (Linked edges) start steps node →
            maxGraphDepth < steps) ∨
        ∀ node, Distance (Linked edges) start node maxGraphDepth →
          ∀ edge ∈ edges, edge.source ≠ node) := by
  have fails := succeeds_iff start edges
  have further : ¬ AllWithin edges start ↔
      ∃ node, Reaches (Linked edges) start node ∧
        ∀ steps, Walk (Linked edges) start steps node →
          maxGraphDepth < steps := by
    simp only [AllWithin, not_forall, not_exists, not_and, exists_prop]
    refine exists_congr fun node => and_congr_right fun _ =>
      forall_congr' fun steps => ?_
    rw [← Nat.not_le]
    exact ⟨fun none walk short => none short walk,
      fun long short walk => long walk short⟩
  have stays : ¬ LeavesDepth edges start ↔
      ∀ node, Distance (Linked edges) start node maxGraphDepth →
        ∀ edge ∈ edges, edge.source ≠ node := by
    constructor
    · intro none node shortest edge member same
      exact none ⟨node, edge.target, shortest, edge, member, same, rfl⟩
    · rintro none ⟨node, next, shortest, edge, member, same, _⟩
      exact none node shortest edge member same
  rw [← further, ← stays]
  constructor
  · rintro ⟨result, returned, agrees, _⟩
    by_cases within : AllWithin edges start
    · rcases agrees.mpr within with ⟨path, same⟩
      exact .inr (fails.mp ⟨path, same ▸ returned⟩)
    · exact .inl within
  · intro cases
    rcases calculateAttackPath_terminates start edges with ⟨result, returned⟩
    refine ⟨result, returned, ⟨?_, ?_⟩, ?_⟩
    · rintro ⟨path, same⟩
      exact allWithin_of_stays (fails.mp ⟨path, same ▸ returned⟩)
    · intro within
      rcases cases with further | none
      · exact absurd within further
      · rcases fails.mpr none with ⟨path, succeeds⟩
        exact ⟨path, Option.some.inj (returned.symm.trans succeeds)⟩
    · intro path same
      exact lists_reachable (same ▸ returned)

/-- Either a node can be reached only beyond the greatest depth, or no node at
the greatest depth has an edge. -/
theorem returns_reachable_iff (start : Text) (edges : List Edge) :
    ReturnsReachable start edges ↔
      ((∃ node, Reaches (Linked edges) start node ∧
          ∀ steps, Walk (Linked edges) start steps node →
            maxGraphDepth < steps) ∨
        ∀ node, Distance (Linked edges) start node maxGraphDepth →
          ∀ edge ∈ edges, edge.source ≠ node) :=
  returnsReachable_rules start edges

/-! ## An edge back from the greatest depth -/

/-- The node with the given number of letters. -/
def chainNode (index : Nat) : Text := List.replicate index 'n'

/-- A chain as long as the greatest depth, and an edge from its end to its
beginning. -/
def closedChain : List Edge :=
  (List.range maxGraphDepth).map (fun index => {
    source := chainNode index
    target := chainNode (index + 1)
    label := none
  }) ++ [{
    source := chainNode maxGraphDepth
    target := chainNode 0
    label := none
  }]

theorem closedChain_links {index : Nat} {next : Text}
    (linked : Linked closedChain (chainNode index) next) :
    (index < maxGraphDepth ∧ next = chainNode (index + 1)) ∨
      (index = maxGraphDepth ∧ next = chainNode 0) := by
  rcases linked with ⟨edge, member, source, target⟩
  have names : ∀ {one other : Nat}, chainNode one = chainNode other → one = other := by
    intro one other same
    have lengths := congrArg List.length same
    simpa [chainNode] using lengths
  rcases List.mem_append.mp member with inner | last
  · rcases List.mem_map.mp inner with ⟨position, range, same⟩
    subst same
    have position_eq := names source
    subst position_eq
    exact .inl ⟨List.mem_range.mp range, target.symm⟩
  · rw [List.mem_singleton.mp last] at source target
    exact .inr ⟨(names source).symm, target.symm⟩

theorem closedChain_walk {steps : Nat} {node : Text}
    (walk : Walk (Linked closedChain) (chainNode 0) steps node) :
    ∃ index, node = chainNode index ∧ index ≤ maxGraphDepth ∧ index ≤ steps := by
  induction walk with
  | here => exact ⟨0, rfl, Nat.zero_le _, Nat.le_refl 0⟩
  | @step steps previous next _ last inductionHypothesis =>
    rcases inductionHypothesis with ⟨index, same, within, short⟩
    rw [same] at last
    rcases closedChain_links last with ⟨inside, found⟩ | ⟨_, found⟩
    · exact ⟨index + 1, found, inside, Nat.succ_le_succ short⟩
    · exact ⟨0, found, Nat.zero_le _, Nat.zero_le _⟩

theorem closedChain_reaches :
    ∀ {index : Nat}, index ≤ maxGraphDepth →
      Walk (Linked closedChain) (chainNode 0) index (chainNode index)
  | 0, _ => .here
  | index + 1, within => by
    refine .step (closedChain_reaches (Nat.le_of_succ_le within)) ?_
    exact ⟨_, List.mem_append_left _ (List.mem_map.mpr
      ⟨index, List.mem_range.mpr within, rfl⟩), rfl, rfl⟩

/-- Fifty-one nodes in a ring are all within fifty edges, and the search
fails. -/
theorem closed_chain_fails : ¬ ReturnsReachable (chainNode 0) closedChain := by
  intro returns
  rcases (returnsReachable_rules _ _).mp returns with ⟨node, ⟨steps, walk⟩, long⟩ | none
  · rcases closedChain_walk walk with ⟨index, same, within, _⟩
    subst same
    exact absurd (long index (closedChain_reaches within)) (Nat.not_lt_of_le within)
  · refine none (chainNode maxGraphDepth)
      ⟨closedChain_reaches (Nat.le_refl _), fun steps walk => ?_⟩ _
      (List.mem_append_right _ (List.mem_singleton_self _)) rfl
    rcases closedChain_walk walk with ⟨index, same, _, short⟩
    have lengths := congrArg List.length same
    simp only [chainNode, List.length_replicate] at lengths
    omega

end FireCrow.Services.AttackGraph
