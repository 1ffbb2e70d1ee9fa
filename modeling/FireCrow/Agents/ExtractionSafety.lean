import FireCrow.Agents.Extraction
import FireCrow.Library.Paths

/-!
# Where an archive is extracted to

Whatever the bytes are, a name is joined to the destination by parts that are
names of one directory each, and nothing else is created, written or removed.
Every turn of the loop takes a block off the stream, so the loop ends.
-/

namespace FireCrow.Agents.Fetch

open FireCrow.Library
open FireCrow.Library.Stateful

/-! ## Names -/

/-- A name within one directory. -/
structure NormalName (part : Text) : Prop where
  nonempty : part ≠ []
  notCurrent : part ≠ ['.']
  notParent : part ≠ ['.', '.']
  single : '/' ∉ part
  short : part.byteLen ≤ maxComponentChars

/-- Names that lead downwards, within the bound of a path. -/
structure Relative (parts : List Text) : Prop where
  normal : ∀ part ∈ parts, NormalName part
  bounded : (Text.join ['/'] parts).length ≤ maxPathChars

/-- The destination joined with one or more normal names. -/
def Inside (dest path : Path) : Prop :=
  ∃ parts, path = dest ++ parts ∧ parts ≠ [] ∧ Relative parts

variable {parts : List Text}

theorem length_join (nonempty : parts ≠ []) :
    (Text.join ['/'] parts).length + 1 =
      (parts.map fun part => part.length + 1).sum := by
  unfold Text.join
  induction parts with
  | nil => exact absurd rfl nonempty
  | cons part parts ih =>
      by_cases last : parts = []
      · rw [last, List.intercalate_singleton]
        simp
      · rw [List.intercalate_cons_of_ne_nil last, List.map_cons, List.sum_cons,
          ← ih last]
        simp only [List.length_append, List.length_cons, List.length_nil]
        omega

/-- Fewer parts make a shorter path. -/
theorem length_join_le {whole : List Text} (some_of : parts.Sublist whole) :
    (Text.join ['/'] parts).length ≤ (Text.join ['/'] whole).length := by
  by_cases none_left : parts = []
  · rw [none_left]
    exact Nat.zero_le _
  have wholeNonempty : whole ≠ [] := by
    intro empty
    rw [empty] at some_of
    exact none_left (List.sublist_nil.1 some_of)
  have sums : (parts.map fun part => part.length + 1).sum ≤
      (whole.map fun part => part.length + 1).sum :=
    (some_of.map _).sum_le_sum fun _ _ => Nat.zero_le _
  rw [← length_join none_left, ← length_join wholeNonempty] at sums
  exact Nat.le_of_add_le_add_right sums

theorem Relative.of_prefix {front : List Text} (relative : Relative parts)
    (opens : front <+: parts) : Relative front where
  normal part member := relative.normal part (opens.subset member)
  bounded := (length_join_le opens.sublist).trans relative.bounded

/-- The part that a component pushes. -/
def Component.pushed : Component → Option Text
  | .normal part => some part
  | .rootDir | .curDir | .parentDir => none

theorem pushComponents_eq_ok {name : Text} {out path : Path}
    {steps : List Component}
    (pushed : pushComponents name out steps = .ok path) :
    path = out ++ steps.filterMap Component.pushed ∧
      (∀ part ∈ steps.filterMap Component.pushed,
        part.byteLen ≤ maxComponentChars) ∧
      .parentDir ∉ steps := by
  induction steps generalizing out with
  | nil =>
      cases pushed
      simp
  | cons step steps ih =>
      cases step with
      | rootDir | parentDir => cases pushed
      | curDir =>
          have rest := ih pushed
          have same : (Component.curDir :: steps).filterMap Component.pushed =
              steps.filterMap Component.pushed := rfl
          rw [same]
          refine ⟨rest.1, rest.2.1, ?_⟩
          simpa using rest.2.2
      | normal part =>
          unfold pushComponents at pushed
          split at pushed
          · cases pushed
          rename_i short
          have rest := ih pushed
          simp only [Component.pushed, List.filterMap_cons, List.mem_cons,
            forall_eq_or_imp, List.append_assoc] at rest ⊢
          refine ⟨rest.1, ⟨not_lt.1 short, rest.2.1⟩, ?_⟩
          simpa using rest.2.2

/-- Whether a part of a path is a name. -/
def keeps (part : Text) : Bool := part ≠ [] && part ≠ ['.'] && part ≠ ['.', '.']

theorem component_pushed {part : Text} :
    (component part).bind Component.pushed =
      if keeps part then some part else none := by
  unfold component keeps
  by_cases dots : part = ['.', '.']
  · simp [dots, Component.pushed]
  · by_cases skipped : part = [] ∨ part = ['.']
    · rcases skipped with empty | current
      · simp [empty]
      · simp [current]
    · have other := not_or.1 skipped
      simp [dots, other.1, other.2, Component.pushed]

theorem components_pushed (path : Text) :
    (components path).filterMap Component.pushed =
      (path.splitOn '/').filter keeps := by
  unfold components
  simp only [List.filterMap_append, List.filterMap_filterMap]
  have first : (if path.head? = some '/' then [Component.rootDir]
      else if (path.splitOn '/').head? = some ['.'] then [Component.curDir]
      else []).filterMap Component.pushed = [] := by
    split
    · rfl
    · split
      · rfl
      · rfl
  rw [first, List.nil_append, ← List.filterMap_eq_filter]
  congr 1
  ext part : 1
  rw [component_pushed]
  rfl

/-- A path that is joined is the destination, or below it. -/
theorem safeJoin_eq_ok {dest path : Path} {name : Text}
    (joined : safeJoin dest name = .ok path) :
    ∃ parts, path = dest ++ parts ∧ Relative parts := by
  unfold safeJoin at joined
  generalize trimCurrent name = name at joined
  simp only [throw, throwThe, MonadExceptOf.throw, bind, Except.bind, pure,
    Except.pure] at joined
  split at joined
  · cases joined
  split at joined
  · cases joined
  rename_i bounded
  split at joined
  · cases joined
  rename_i out pushed
  split at joined
  · cases joined
  cases joined
  have parts := pushComponents_eq_ok pushed
  rw [components_pushed] at parts
  refine ⟨_, parts.1, ?_, ?_⟩
  · intro part member
    have inside := List.mem_filter.1 member
    have kept : (part ≠ [] ∧ part ≠ ['.']) ∧ part ≠ ['.', '.'] := by
      simpa [keeps] using inside.2
    exact {
      nonempty := kept.1.1
      notCurrent := kept.1.2
      notParent := kept.2
      single := Paths.slash_not_mem_of_mem_splitOn inside.1
      short := parts.2.1 part member }
  · calc (Text.join ['/'] ((List.splitOn '/' name).filter keeps)).length
        ≤ (Text.join ['/'] (List.splitOn '/' name)).length :=
          length_join_le List.filter_sublist
      _ = name.length := by
          unfold Text.join
          rw [List.intercalate_splitOn]
      _ ≤ maxPathChars := not_lt.1 bounded

/-! ## What an extraction changes -/

/-- The destination is a directory, and so is everything on the way to it. -/
structure Rooted (dest : Path) (files : FileSystem) : Prop where
  here : files dest = some .directory
  above : ∀ parent, parent <+: dest → parent ≠ [] →
    ∃ node, files parent = some node ∧ node.isDir = true

/-- Bytes are only taken from the stream, and only what is inside the
destination changes. -/
structure Keeps (dest : Path) (world last : World) : Prop where
  stream : last.stream.bytes <:+ world.stream.bytes
  grows : world.changed <+: last.changed
  recorded : ∀ path, last.files path ≠ world.files path →
    path ∈ last.changed
  rooted : Rooted dest world.files → Rooted dest last.files
  inside : Rooted dest world.files →
    ∀ other ∈ last.changed, other ∈ world.changed ∨ Inside dest other

theorem Keeps.of_same {dest : Path} {world last : World}
    (stream : last.stream.bytes <:+ world.stream.bytes)
    (files : last.files = world.files)
    (changed : last.changed = world.changed) : Keeps dest world last where
  stream := stream
  grows := changed ▸ List.prefix_refl _
  recorded _ other := absurd (congrFun files _) other
  rooted root := files ▸ root
  inside _ _ member := Or.inl (changed ▸ member)

theorem Keeps.refl (dest : Path) (world : World) : Keeps dest world world :=
  .of_same (List.suffix_refl _) rfl rfl

theorem Keeps.trans (dest : Path) (world middle last : World)
    (first : Keeps dest world middle) (second : Keeps dest middle last) :
    Keeps dest world last where
  stream := second.stream.trans first.stream
  grows := first.grows.trans second.grows
  recorded := by
    intro path other
    by_cases same : last.files path = middle.files path
    · exact second.grows.subset (first.recorded path (same ▸ other))
    · exact second.recorded path same
  rooted root := second.rooted (first.rooted root)
  inside := by
    intro root path member
    rcases second.inside (first.rooted root) path member with earlier | inside
    · exact first.inside root path earlier
    · exact Or.inr inside

/-- Nothing that the destination rests on is inside it. -/
theorem Inside.not_above {dest path : Path} (inside : Inside dest path) :
    ¬ path <+: dest := by
  rcases inside with ⟨parts, rfl, nonempty, -⟩
  intro below
  have short := below.length_le
  rw [List.length_append] at short
  exact nonempty (List.length_eq_zero_iff.1 (by omega))

theorem Keeps.put {dest path : Path} {world : World} {node : Option Node}
    (target : Rooted dest world.files → Inside dest path) :
    Keeps dest world (world.put path node) where
  stream := List.suffix_refl _
  grows := List.prefix_append _ _
  recorded := by
    intro other differs
    apply List.mem_append_right
    rw [List.mem_singleton]
    by_contra apart
    exact differs (if_neg apart)
  rooted := by
    intro root
    have outside (other : Path) (below : other <+: dest) :
        (world.put path node).files other = world.files other := by
      apply if_neg
      intro same
      exact (target root).not_above (same ▸ below)
    constructor
    · rw [outside dest (List.prefix_refl _)]
      exact root.here
    · intro parent below nonempty
      rw [outside parent below]
      exact root.above parent below nonempty
  inside := by
    intro root other member
    rcases List.mem_append.1 member with earlier | new
    · exact Or.inl earlier
    · rw [List.mem_singleton.1 new]
      exact Or.inr (target root)

/-! ## Reading -/

/-- A relation that what only reads moves along. -/
structure Reads (relation : World → World → Prop) : Prop where
  same : ∀ {world last}, last.stream.bytes <:+ world.stream.bytes →
    last.files = world.files → last.changed = world.changed →
    relation world last
  trans : ∀ world middle last, relation world middle →
    relation middle last → relation world last

theorem Reads.refl {relation : World → World → Prop} (reads : Reads relation)
    (world : World) : relation world world :=
  reads.same (List.suffix_refl _) rfl rfl

theorem keeps_reads (dest : Path) : Reads (Keeps dest) where
  same := Keeps.of_same
  trans := Keeps.trans dest

/-- A step of the extraction that moves along a relation and ends. -/
abbrev KeptFrom (relation : World → World → Prop) {Value : Type}
    (step : Extraction Value) (world : World) : Prop :=
  MovesFrom relation (fun stop => stop ≠ .unfinished) step world

abbrev Kept (relation : World → World → Prop) {Value : Type}
    (step : Extraction Value) : Prop :=
  Moves relation (fun stop => stop ≠ .unfinished) step

section Steps

variable {Value Next : Type} {relation : World → World → Prop}
  (reads : Reads relation) (env : Environment)

include reads

theorem kept_bind {first : Extraction Value} {next : Value → Extraction Next}
    (kept : Kept relation first) (continued : ∀ value, Kept relation (next value)) :
    Kept relation (first >>= next) :=
  kept.bind (reads.trans) continued

theorem keptFrom_bind {first : Extraction Value}
    {next : Value → Extraction Next} {world : World}
    (kept : KeptFrom relation first world)
    (continued : ∀ value, Kept relation (next value)) :
    KeptFrom relation (first >>= next) world :=
  MovesFrom.bind (reads.trans) kept continued

theorem pure_kept (value : Value) : Kept relation (pure value) :=
  moves_pure (reads.refl) value

theorem refuse_kept (error : AppError) :
    Kept relation (refuse error : Extraction Value) := by
  apply moves_throw (reads.refl)
  intro same
  cases same

theorem limitTo_kept (limit amount : Nat) : Kept relation (limitTo limit amount) :=
  moves_ite (refuse_kept reads _) (pure_kept reads _)

theorem lift_kept (result : Except AppError Value) : Kept relation (lift result) := by
  cases result with
  | ok value => exact pure_kept reads value
  | error error => exact refuse_kept reads error

theorem tick_kept : Kept relation tick :=
  fun _ => reads.same (List.suffix_refl _) rfl rfl

theorem pollCancel_kept : Kept relation (pollCancel env) := by
  unfold pollCancel
  apply kept_bind reads (tick_kept reads)
  intro clock
  exact moves_ite (refuse_kept reads _) (pure_kept reads _)

theorem setPendingName_kept (name : Option Text) :
    Kept relation (setPendingName name) :=
  fun _ => reads.same (List.suffix_refl _) rfl rfl

theorem takeName_kept (header : Bytes) : Kept relation (takeName header) :=
  fun _ => reads.same (List.suffix_refl _) rfl rfl

theorem charge_kept (count : Nat) : Kept relation (charge count) := by
  unfold charge
  apply kept_bind reads
  · exact moves_modify fun _ => reads.same (List.suffix_refl _) rfl rfl
  intro _
  exact moves_get_bind fun world => limitTo_kept reads _ _ world

theorem countEntry_kept : Kept relation countEntry := by
  unfold countEntry
  apply kept_bind reads
  · exact moves_modify fun _ => reads.same (List.suffix_refl _) rfl rfl
  intro _
  exact moves_get_bind fun world => limitTo_kept reads _ _ world

theorem discardPadding_kept (padding : Nat) :
    Kept relation (discardPadding padding) := by
  unfold discardPadding
  apply moves_get_bind
  intro world
  apply keptFrom_bind reads
  · exact reads.same (List.drop_suffix _ _) rfl rfl
  intro _
  exact moves_ite (refuse_kept reads _) (pure_kept reads _)

omit reads in
/-- A read takes some bytes off the stream, and at least one. -/
theorem read_yields (want : Nat) (world : World) :
    Yields (read env (want + 1)) world
      (fun chunk last => chunk ≠ [] ∧ chunk.length ≤ want + 1 ∧
        world.stream.bytes = chunk ++ last.stream.bytes ∧
        last = { world with
          stream := { world.stream with bytes := last.stream.bytes }
          clock := world.clock + 1 })
      (fun stop last => stop ≠ .unfinished ∧
        last = { world with clock := world.clock + 1 }) := by
  unfold read tick
  simp only [yields_bind, yields_get, yields_set, yields_pure]
  split
  · refine ⟨?_, rfl⟩
    intro same
    cases same
  rename_i bytesLeft
  simp only [yields_bind, yields_set, yields_pure]
  have filled : 0 < world.stream.bytes.length := by
    apply List.length_pos_iff.2
    simpa using bytesLeft
  have length : (world.stream.bytes.take
      (min (max 1 (env.offers world.clock)) (want + 1))).length =
        min (min (max 1 (env.offers world.clock)) (want + 1))
          world.stream.bytes.length := List.length_take
  refine ⟨?_, ?_, ?_, rfl⟩
  · apply List.length_pos_iff.1
    rw [length]
    exact lt_min (lt_min (lt_max_of_lt_left Nat.one_pos) (Nat.succ_pos _))
      filled
  · rw [length]
    exact (min_le_left _ _).trans (min_le_right _ _)
  · exact (List.take_append_drop _ _).symm

theorem read_kept (want : Nat) : Kept relation (read env (want + 1)) := by
  intro world
  apply (read_yields env want world).mono
  · rintro chunk last ⟨-, -, split, same⟩
    rw [same]
    exact reads.same ⟨chunk, split.symm⟩ rfl rfl
  · rintro stop last ⟨ends, same⟩
    rw [same]
    exact ⟨ends, reads.same (List.suffix_refl _) rfl rfl⟩

omit reads in
/-- While something is left, at least a byte is wanted. -/
theorem wanted_succ (remaining : Nat) :
    min (remaining + 1) streamChunkBytes =
      min remaining (streamChunkBytes - 1) + 1 :=
  Nat.add_min_add_right remaining (streamChunkBytes - 1) 1

/-- Every turn streams a byte at least, so the turns are enough. -/
theorem streamLoop_kept {write : Bytes → Extraction Unit}
    (writes : ∀ chunk, Kept relation (write chunk)) (fuel remaining : Nat)
    (enough : remaining ≤ fuel) :
    Kept relation (streamLoop env write fuel remaining) := by
  induction fuel generalizing remaining with
  | zero =>
      rw [Nat.le_zero.1 enough]
      exact pure_kept reads []
  | succ fuel ih =>
      cases remaining with
      | zero => exact pure_kept reads []
      | succ remaining =>
          unfold streamLoop
          apply kept_bind reads (pollCancel_kept reads env)
          intro _ world
          unfold MovesFrom
          rw [yields_bind, wanted_succ]
          apply ((read_yields env _ world).and (read_kept reads env _ world)).mono
          · rintro chunk middle ⟨⟨some_read, -⟩, kept⟩
            have progress : 1 ≤ chunk.length := List.length_pos_iff.2 some_read
            have rest : Kept relation (do
                write chunk
                charge chunk.length
                let rest ← streamLoop env write fuel
                  (remaining + 1 - chunk.length)
                return chunk ++ rest) := by
              apply kept_bind reads (writes chunk)
              intro _
              apply kept_bind reads (charge_kept reads _)
              intro _
              apply kept_bind reads
              · apply ih
                exact (Nat.sub_le_sub_left progress _).trans
                  (Nat.le_of_succ_le_succ enough)
              · exact fun rest => pure_kept reads _
            apply (rest middle).mono
            · exact fun _ last kept' => reads.trans _ _ _ kept kept'
            · exact fun _ last failed => ⟨failed.1, reads.trans _ _ _ kept failed.2⟩
          · exact fun _ _ failed => failed.2

theorem streamExact_kept {write : Bytes → Extraction Unit}
    (writes : ∀ chunk, Kept relation (write chunk)) (size : Nat) :
    Kept relation (streamExact env write size) :=
  streamLoop_kept reads env writes size size (le_refl _)

theorem readMetaBody_kept (size : Nat) :
    Kept relation (readMetaBody env size) := by
  unfold readMetaBody
  apply kept_bind reads (limitTo_kept reads _ _)
  intro _
  exact streamExact_kept reads env (fun _ => pure_kept reads _) size

theorem discardExact_kept (size : Nat) :
    Kept relation (discardExact env size) := by
  unfold discardExact
  apply kept_bind reads
  · exact streamExact_kept reads env (fun _ => pure_kept reads _) size
  · exact fun _ => pure_kept reads _

end Steps

/-! ## Writing -/

section Writes

variable {Value Next : Type} (dest : Path) (env : Environment)


variable {path : Path}

variable {world : World}

theorem callOs_keptFrom (message : Text) (node : Option Node)
    (target : Rooted dest world.files → Inside dest path) :
    KeptFrom (Keeps dest) (callOs env message path node) world := by
  unfold callOs tick KeptFrom MovesFrom
  simp only [yields_bind, yields_get, yields_set, yields_pure]
  have later : Keeps dest world { world with clock := world.clock + 1 } :=
    .of_same (List.suffix_refl _) rfl rfl
  split
  · refine ⟨?_, later⟩
    intro same
    cases same
  · exact later.trans _ _ _ _ (.put target)

theorem removeFile_kept (inside : Inside dest path) :
    Kept (Keeps dest) (removeFile env path) := by
  intro world
  unfold removeFile tick MovesFrom
  simp only [yields_bind, yields_get, yields_set, yields_pure]
  have later : Keeps dest world { world with clock := world.clock + 1 } :=
    .of_same (List.suffix_refl _) rfl rfl
  split
  · exact later.trans _ _ _ _ (.put fun _ => inside)
  · exact later

/-- A directory that is missing is below the destination. -/
theorem createDir_kept (nonempty : path ≠ [])
    (target : path <+: dest ∨ Inside dest path) :
    Kept (Keeps dest) (createDir env path) := by
  unfold createDir
  apply moves_get_bind
  intro world
  split
  · rename_i missing
    apply callOs_keptFrom dest env
    intro root
    rcases target with below | inside
    · rcases root.above path below nonempty with ⟨node, present, -⟩
      rw [present] at missing
      cases missing
    · exact inside
  · exact moves_ite (refuse_kept (keeps_reads dest) _) (pure_kept (keeps_reads dest) _) world

theorem createDirsFrom_kept (parent rest : Path)
    (target : ∀ path, path <+: parent ++ rest → path <+: dest ∨ Inside dest path) :
    Kept (Keeps dest) (createDirsFrom env parent rest) := by
  induction rest generalizing parent with
  | nil => exact pure_kept (keeps_reads dest) ()
  | cons name rest ih =>
      have same : parent ++ [name] ++ rest = parent ++ name :: rest := by simp
      unfold createDirsFrom
      apply kept_bind (keeps_reads dest)
      · apply createDir_kept dest env (by simp)
        apply target
        exact same ▸ List.prefix_append _ _
      · intro _
        apply ih
        rw [same]
        exact target

variable {parts : Path}

/-- What is on the way to a joined path is on the way to the destination or
inside it. -/
theorem prefix_or_inside (relative : Relative parts)
    (opens : path <+: dest ++ parts) : path <+: dest ∨ Inside dest path := by
  rcases List.prefix_or_prefix_of_prefix opens (List.prefix_append dest parts)
    with below | ⟨front, rfl⟩
  · exact Or.inl below
  · have within : front <+: parts :=
      (List.prefix_append_right_inj dest).1 opens
    by_cases nothing : front = []
    · rw [nothing, List.append_nil]
      exact Or.inl (List.prefix_refl _)
    · exact Or.inr ⟨front, rfl, nothing, relative.of_prefix within⟩

theorem createDirAll_kept (relative : Relative parts)
    (opens : path <+: dest ++ parts) : Kept (Keeps dest) (createDirAll env path) := by
  apply createDirsFrom_kept dest env
  intro other within
  exact prefix_or_inside dest relative (within.trans opens)

theorem createFile_kept (inside : Inside dest path) :
    Kept (Keeps dest) (createFile env path) := by
  unfold createFile
  apply moves_get_bind
  intro world
  split
  · exact refuse_kept (keeps_reads dest) _ world
  · exact callOs_keptFrom dest env _ _ fun _ => inside

theorem writeChunk_kept (inside : Inside dest path)
    (chunk : Bytes) : Kept (Keeps dest) (writeChunk env path chunk) := by
  unfold writeChunk
  apply moves_get_bind
  intro world
  split
  · exact callOs_keptFrom dest env _ _ fun _ => inside
  · exact refuse_kept (keeps_reads dest) _ world

theorem refuseLink_kept (path : Path) : Kept (Keeps dest) (refuseLink path) := by
  unfold refuseLink
  apply moves_get_bind
  intro world
  split
  · exact refuse_kept (keeps_reads dest) _ world
  · exact pure_kept (keeps_reads dest) () world

/-! ## Entries -/

/-- The destination itself is no file that could be made. -/
theorem createFile_dest (root : Rooted dest world.files)
    (next : Unit → Extraction Unit) :
    KeptFrom (Keeps dest) (createFile env dest >>= next) world := by
  unfold createFile KeptFrom MovesFrom
  simp only [yields_bind, yields_get, root.here]
  refine ⟨?_, Keeps.refl dest world⟩
  intro same
  cases same

theorem writeFile_keptFrom (relative : Relative parts)
    (size : Nat) (root : Rooted dest world.files) :
    KeptFrom (Keeps dest) (do
      createFile env (dest ++ parts)
      tryCatch
        (do let _ ← streamExact env (writeChunk env (dest ++ parts)) size)
        (fun stop => do
          removeFile env (dest ++ parts)
          throw stop)) world := by
  by_cases nothing : parts = []
  · rw [nothing, List.append_nil]
    exact createFile_dest dest env root _
  have inside : Inside dest (dest ++ parts) := ⟨parts, rfl, nothing, relative⟩
  apply keptFrom_bind (keeps_reads dest) (createFile_kept dest env inside world)
  intro _ middle
  unfold MovesFrom
  rw [yields_tryCatch]
  have streamed : Kept (Keeps dest) (do
      let _ ← streamExact env (writeChunk env (dest ++ parts)) size) :=
    kept_bind (keeps_reads dest)
      (streamExact_kept (keeps_reads dest) env (writeChunk_kept dest env inside) size)
      fun _ => pure_kept (keeps_reads dest) ()
  apply (streamed middle).mono
  · exact fun _ _ kept => kept
  · rintro stop last ⟨ends, kept⟩
    have removed : Kept (Keeps dest) (do
        removeFile env (dest ++ parts)
        (throw stop : Extraction Unit)) :=
      kept_bind (keeps_reads dest) (removeFile_kept dest env inside)
        fun _ => moves_throw (Keeps.refl dest) ends
    apply (removed last).mono
    · exact fun _ _ kept' => kept.trans _ _ _ _ kept'
    · exact fun _ _ failed => ⟨failed.1, kept.trans _ _ _ _ failed.2⟩

/-- The same from the states in which the destination stands. -/
def KeptRooted (dest : Path) {Value : Type} (step : Extraction Value) : Prop :=
  ∀ world, Rooted dest world.files → KeptFrom (Keeps dest) step world

theorem Kept.rooted {dest : Path} {step : Extraction Value}
    (kept : Kept (Keeps dest) step) : KeptRooted dest step :=
  fun world _ => kept world

theorem KeptRooted.bind {dest : Path} {first : Extraction Value}
    {next : Value → Extraction Next} (kept : KeptRooted dest first)
    (continued : ∀ value, KeptRooted dest (next value)) :
    KeptRooted dest (first >>= next) := by
  intro world root
  unfold KeptFrom MovesFrom
  rw [yields_bind]
  apply Yields.mono (kept world root)
  · intro value middle moved
    apply Yields.mono (continued value middle (moved.rooted root))
    · exact fun _ _ moved' => moved.trans _ _ _ _ moved'
    · exact fun _ _ failed => ⟨failed.1, moved.trans _ _ _ _ failed.2⟩
  · exact fun _ _ failed => failed

variable (header : Bytes)

theorem extractFile_kept (size : Nat) :
    KeptRooted dest (extractFile env dest header size) := by
  unfold extractFile
  apply (takeName_kept (keeps_reads dest) header).rooted.bind
  intro name
  apply (limitTo_kept (keeps_reads dest) _ _).rooted.bind
  intro _
  apply (charge_kept (keeps_reads dest) size).rooted.bind
  intro _
  apply (countEntry_kept (keeps_reads dest)).rooted.bind
  intro _
  cases joined : safeJoin dest name with
  | error error =>
      exact (refuse_kept (keeps_reads dest) error : Kept (Keeps dest) (refuse error)).rooted
  | ok path =>
      rcases safeJoin_eq_ok joined with ⟨parts, rfl, relative⟩
      apply (refuseLink_kept dest _).rooted.bind
      intro _
      apply (createDirAll_kept dest env relative
        (List.dropLast_prefix _)).rooted.bind
      intro _
      exact fun world root => writeFile_keptFrom dest env relative size root

theorem extractDirectory_kept (size : Nat) :
    KeptRooted dest (extractDirectory env dest header size) := by
  unfold extractDirectory
  apply (takeName_kept (keeps_reads dest) header).rooted.bind
  intro name
  apply (countEntry_kept (keeps_reads dest)).rooted.bind
  intro _
  cases joined : safeJoin dest name with
  | error error =>
      exact (refuse_kept (keeps_reads dest) error : Kept (Keeps dest) (refuse error)).rooted
  | ok path =>
      rcases safeJoin_eq_ok joined with ⟨parts, rfl, relative⟩
      apply (discardExact_kept (keeps_reads dest) env size).rooted.bind
      intro _
      exact (createDirAll_kept dest env relative (List.prefix_refl _)).rooted

theorem extractBody_kept (size : Nat) :
    KeptRooted dest (extractBody env dest header size) := by
  unfold extractBody
  cases typeFlag header with
  | longName =>
      apply (readMetaBody_kept (keeps_reads dest) env size).rooted.bind
      exact fun body => (setPendingName_kept (keeps_reads dest) _).rooted
  | extended =>
      apply (readMetaBody_kept (keeps_reads dest) env size).rooted.bind
      intro body
      cases paxPath body with
      | none => exact (pure_kept (keeps_reads dest) ()).rooted
      | some path => exact (setPendingName_kept (keeps_reads dest) _).rooted
  | globalExtended => exact (discardExact_kept (keeps_reads dest) env size).rooted
  | file => exact extractFile_kept dest env header size
  | directory => exact extractDirectory_kept dest env header size
  | link => exact (refuse_kept (keeps_reads dest) _).rooted
  | other =>
      apply (discardExact_kept (keeps_reads dest) env size).rooted.bind
      exact fun _ => (setPendingName_kept (keeps_reads dest) _).rooted

theorem extractEntry_kept : KeptRooted dest (extractEntry env dest header) := by
  unfold extractEntry
  apply (lift_kept (keeps_reads dest) _).rooted.bind
  intro size
  apply (extractBody_kept dest env header size).bind
  exact fun _ => (discardPadding_kept (keeps_reads dest) _).rooted

/-- A turn ends the loop or takes a block off the stream. -/
theorem fillBlock_yields (world : World) :
    Yields fillBlock world
      (fun block last =>
        (block = none ∧ last = world) ∨
        ∃ header, block = some header ∧ header.length = 512 ∧
          world.stream.bytes = header ++ last.stream.bytes ∧
          last = world.inflated last.stream.bytes)
      (fun stop last => stop ≠ .unfinished ∧ last = world.inflated []) := by
  unfold fillBlock
  simp only [yields_bind, yields_get]
  split
  · rename_i full
    refine Or.inr ⟨_, rfl, ?_, (List.take_append_drop _ _).symm, rfl⟩
    rw [List.length_take, Nat.min_eq_left full]
  · split
    · exact Or.inl ⟨rfl, rfl⟩
    · refine ⟨?_, rfl⟩
      intro same
      cases same

theorem extractLoop_kept (fuel : Nat) (root : Rooted dest world.files)
    (enough : world.stream.bytes.length < fuel) :
    KeptFrom (Keeps dest) (extractLoop env dest fuel) world := by
  induction fuel generalizing world with
  | zero => exact absurd enough (Nat.not_lt_zero _)
  | succ fuel ih =>
      unfold extractLoop KeptFrom MovesFrom
      rw [yields_bind]
      apply Yields.mono (pollCancel_kept (keeps_reads dest) env world)
      · intro _ polled kept
        rw [yields_bind]
        apply (fillBlock_yields polled).mono
        · rintro block filled (⟨rfl, rfl⟩ | ⟨header, rfl, length, split, same⟩)
          · exact kept
          have taken : Keeps dest world filled := by
            apply kept.trans
            rw [same]
            exact .of_same ⟨header, split.symm⟩ rfl rfl
          have shorter : filled.stream.bytes.length < fuel := by
            have first := kept.stream.length_le
            rw [split, List.length_append, length] at first
            omega
          show Yields (if header.all fun byte => byte = 0 then pure ()
            else do
              extractEntry env dest header
              extractLoop env dest fuel) filled _ _
          split
          · exact taken
          rw [yields_bind]
          have entered := extractEntry_kept dest env header filled
            (taken.rooted root)
          apply Yields.mono entered
          · intro _ middle kept'
            have moved := taken.trans _ _ _ _ kept'
            apply Yields.mono (ih (moved.rooted root)
              (kept'.stream.length_le.trans_lt shorter))
            · exact fun _ _ rest => moved.trans _ _ _ _ rest
            · exact fun _ _ failed =>
                ⟨failed.1, moved.trans _ _ _ _ failed.2⟩
          · exact fun _ _ failed =>
              ⟨failed.1, taken.trans _ _ _ _ failed.2⟩
        · rintro stop last ⟨ends, rfl⟩
          exact ⟨ends, kept.trans _ _ _ _
            (.of_same (List.nil_suffix) rfl rfl)⟩
      · exact fun _ _ failed => failed

end Writes

/-! ## Special entries -/

/-- No file has changed, and none has been changed in between. -/
def Untouched (world last : World) : Prop :=
  last.files = world.files ∧ last.changed = world.changed

theorem untouched_reads : Reads Untouched where
  same _ files changed := ⟨files, changed⟩
  trans _ _ _ first second := ⟨second.1.trans first.1, second.2.trans first.2⟩

/-- An entry of another kind than a file or a directory changes no file. -/
theorem extractBody_untouched (dest : Path) (env : Environment)
    (header : Bytes) (size : Nat)
    (special : typeFlag header ≠ .file ∧ typeFlag header ≠ .directory) :
    Kept Untouched (extractBody env dest header size) := by
  unfold extractBody
  cases kind : typeFlag header with
  | longName =>
      apply kept_bind untouched_reads (readMetaBody_kept untouched_reads _ _)
      exact fun body => setPendingName_kept untouched_reads _
  | extended =>
      apply kept_bind untouched_reads (readMetaBody_kept untouched_reads _ _)
      intro body
      cases paxPath body with
      | none => exact pure_kept untouched_reads ()
      | some path => exact setPendingName_kept untouched_reads _
  | globalExtended => exact discardExact_kept untouched_reads env size
  | file => exact absurd kind special.1
  | directory => exact absurd kind special.2
  | link => exact refuse_kept untouched_reads _
  | other =>
      apply kept_bind untouched_reads (discardExact_kept untouched_reads _ _)
      exact fun _ => setPendingName_kept untouched_reads _

/-! ## Runs -/

/-- The state that an extraction leaves. -/
def lastWorld : EStateM.Result Stop World Unit → World
  | .ok _ last => last
  | .error _ last => last

/-- Whatever an archive holds and however its extraction ends, only what is
inside the destination has been created, written or removed; entries of other
kinds than files and directories change nothing; and the extraction does end. -/
theorem extraction_stays_inside (env : Environment) (dest : Path)
    (stream : Stream) (files : FileSystem) (root : Rooted dest files) :
    (∀ path ∈ (lastWorld
        (extractTarballWithCancel env dest stream files)).changed,
      Inside dest path) ∧
    (∀ path, (lastWorld
        (extractTarballWithCancel env dest stream files)).files path ≠
          files path →
      Inside dest path) ∧
    (∀ header size world,
      typeFlag header ≠ .file ∧ typeFlag header ≠ .directory →
        Yields (extractBody env dest header size) world
          (fun _ last => Untouched world last)
          (fun _ last => Untouched world last)) ∧
    (∀ last, extractTarballWithCancel env dest stream files ≠
      .error .unfinished last) := by
  have ended : KeptFrom (Keeps dest)
      (extractLoop env dest (stream.bytes.length + 1))
      (World.start stream files) :=
    extractLoop_kept dest env _ root (Nat.lt_succ_self _)
  have kept : Keeps dest (World.start stream files)
      (lastWorld (extractTarballWithCancel env dest stream files)) := by
    unfold KeptFrom MovesFrom Yields at ended
    unfold extractTarballWithCancel
    split at ended
    · rename_i value last run
      rw [run]
      exact ended
    · rename_i stop last run
      rw [run]
      exact ended.2
  have inside : ∀ path ∈ (lastWorld
      (extractTarballWithCancel env dest stream files)).changed,
      Inside dest path := by
    intro path member
    rcases kept.inside root path member with before | inside
    · cases before
    · exact inside
  refine ⟨inside, ?_, ?_, ?_⟩
  · exact fun path other => inside path (kept.recorded path other)
  · intro header size world special
    apply (extractBody_untouched dest env header size special world).mono
    · exact fun _ _ untouched => untouched
    · exact fun _ _ failed => failed.2
  · intro last run
    unfold extractTarballWithCancel at run
    unfold KeptFrom MovesFrom Yields at ended
    rw [run] at ended
    exact ended.1 rfl

/-! ## Sample archives -/

/-- A header with a name, a size in octal digits and a kind. -/
def headerBlock (name size : Text) (flag : Char) : Bytes :=
  let bytes (text : Text) (width : Nat) : Bytes :=
    ((text.map fun (character : Char) => UInt8.ofNat character.toNat) ++
      List.replicate width 0).take width
  bytes name 100 ++ bytes [] 24 ++ bytes size 12 ++ bytes [] 20 ++
    [UInt8.ofNat flag.toNat] ++ bytes [] 355

def calm : Environment where
  cancelled _ := false
  offers _ := streamChunkBytes
  refuses _ := none

def emptyDest : FileSystem := fun path =>
  if path = [] ∨ path = [("dest" : Text)] then some .directory else none

theorem emptyDest_rooted : Rooted [("dest" : Text)] emptyDest where
  here := if_pos (Or.inr rfl)
  above := by
    intro parent below nonempty
    rcases List.prefix_cons_iff.1 below with rfl | ⟨rest, rfl, nothing⟩
    · exact absurd rfl nonempty
    · rw [List.prefix_nil.1 nothing]
      exact ⟨.directory, if_pos (Or.inr rfl), rfl⟩

/-- The stream of an archive with one entry that goes upwards. -/
def upwards : Stream := ⟨headerBlock "a/../../b" "0" '0', none⟩

theorem extraction_stays_inside_upwards :
    (∀ path ∈ (lastWorld (extractTarballWithCancel calm [("dest" : Text)]
        upwards emptyDest)).changed,
      Inside [("dest" : Text)] path) ∧
    (∀ path, (lastWorld (extractTarballWithCancel calm [("dest" : Text)]
        upwards emptyDest)).files path ≠ emptyDest path →
      Inside [("dest" : Text)] path) := by
  have stays := extraction_stays_inside calm [("dest" : Text)] upwards emptyDest
    emptyDest_rooted
  exact ⟨stays.1, stays.2.1⟩

end FireCrow.Agents.Fetch
