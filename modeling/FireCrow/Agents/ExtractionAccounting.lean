import FireCrow.Agents.ExtractedTree

/-!
# What an extraction charges

A step that returns leaves a tree below the destination whose files have been
charged for.  Between counting an entry and creating its file one entry is
spare, and a chunk that is written is charged before the next one is read.
-/

namespace FireCrow.Agents.Fetch

open FireCrow.Library
open FireCrow.Library.Stateful

/-! ## What every step keeps -/

/-- The tree stands, and what is in it has been charged for, with some entries
that have been counted and not yet written. -/
structure Sound (dest : Path) (spare : Nat) (world : World) : Prop where
  tree : Tree dest world.files
  counted : ∃ count, count + spare ≤ world.fileCount ∧
    Counted dest world.files count world.total
  fewEntries : world.fileCount ≤ maxFileCount
  fewBytes : world.total ≤ maxTotalBytes

theorem Sound.of_same {dest : Path} {spare : Nat} {world last : World}
    (sound : Sound dest spare world) (files : last.files = world.files)
    (fileCount : last.fileCount = world.fileCount)
    (total : last.total = world.total) : Sound dest spare last where
  tree := files ▸ sound.tree
  counted := by
    rw [files, fileCount, total]
    exact sound.counted
  fewEntries := fileCount ▸ sound.fewEntries
  fewBytes := total ▸ sound.fewBytes

theorem Sound.mono {dest : Path} {spare spare' : Nat} {world : World}
    (sound : Sound dest spare world) (fewer : spare' ≤ spare) :
    Sound dest spare' world where
  tree := sound.tree
  counted := by
    rcases sound.counted with ⟨count, within, counted⟩
    exact ⟨count, (Nat.add_le_add_left fewer count).trans within, counted⟩
  fewEntries := sound.fewEntries
  fewBytes := sound.fewBytes

theorem Fresh.sound {dest : Path} {files : FileSystem} (fresh : Fresh dest files)
    (stream : Stream) : Sound dest 0 (World.start stream files) where
  tree := fresh.tree
  counted := ⟨0, le_refl _, fresh.counted⟩
  fewEntries := Nat.zero_le _
  fewBytes := Nat.zero_le _

/-! ## Reading -/

section Reading

variable {Value : Type} (env : Environment) (holds : World → Prop)

/-- A condition that reading has no influence on. -/
def Offline (holds : World → Prop) : Prop :=
  ∀ world stream clock pendingName, holds world →
    holds { world with
      stream := stream
      clock := clock
      pendingName := pendingName }

theorem sound_offline (dest : Path) (spare : Nat) : Offline (Sound dest spare) :=
  fun _ _ _ _ sound => sound.of_same rfl rfl rfl

variable {holds} (offline : Offline holds)

theorem refuse_preserves (error : AppError) :
    Preserves holds (refuse error : Extraction Value) :=
  preserves_throw _

theorem limitTo_preserves (limit amount : Nat) :
    Preserves holds (limitTo limit amount) :=
  preserves_ite (refuse_preserves _) (preserves_pure _)

theorem lift_preserves (result : Except AppError Value) :
    Preserves holds (lift result) := by
  cases result with
  | ok value => exact preserves_pure value
  | error error => exact refuse_preserves error

/-- What passes a limit is within it. -/
theorem limitTo_leadsTo (limit amount : Nat) (world : World) :
    LeadsTo (limitTo limit amount) world
      fun _ last => last = world ∧ amount ≤ limit := by
  unfold limitTo
  split
  · exact leadsTo_throw _
  · rename_i within
    exact ⟨rfl, not_lt.1 within⟩

include offline

theorem pollCancel_preserves : Preserves holds (pollCancel env) := by
  unfold pollCancel tick
  intro world kept
  have later := offline world world.stream (world.clock + 1) world.pendingName kept
  show LeadsTo (if env.cancelled world.clock then _ else pure ()) _ _
  exact preserves_ite (refuse_preserves _) (preserves_pure _) _ later

theorem setPendingName_preserves (name : Option Text) :
    Preserves holds (setPendingName name) :=
  fun world kept => offline world world.stream world.clock name kept

theorem takeName_preserves (header : Bytes) :
    Preserves holds (takeName header) :=
  fun world kept => offline world world.stream world.clock none kept

theorem fillBlock_preserves : Preserves holds fillBlock := by
  intro world kept
  apply (fillBlock_yields world).leadsTo.mono
  rintro block last (⟨-, rfl⟩ | ⟨header, -, -, -, same⟩)
  · exact kept
  · rw [same]
    exact offline world _ world.clock world.pendingName kept

theorem discardPadding_preserves (padding : Nat) :
    Preserves holds (discardPadding padding) := by
  unfold discardPadding
  intro world kept
  have shorter := offline world
    { world.stream with bytes := world.stream.bytes.drop padding }
    world.clock world.pendingName kept
  exact preserves_ite (refuse_preserves _) (preserves_pure _) _ shorter

/-- What a chunk changes may be out of order until the chunk is charged. -/
theorem streamLoop_preserves {write : Bytes → Extraction Unit}
    (written : ∀ chunk, Preserves holds do
      write chunk
      charge chunk.length)
    (fuel remaining : Nat) :
    Preserves holds (streamLoop env write fuel remaining) := by
  induction fuel generalizing remaining with
  | zero =>
      cases remaining with
      | zero => exact preserves_pure []
      | succ remaining => exact preserves_throw _
  | succ fuel ih =>
      cases remaining with
      | zero => exact preserves_pure []
      | succ remaining =>
          unfold streamLoop
          apply (pollCancel_preserves env offline).bind
          intro _ world kept
          rw [wanted_succ]
          apply (read_yields env _ world).leadsTo.bind
          rintro chunk middle ⟨-, -, -, same⟩
          have kept' : holds middle := by
            rw [same]
            exact offline world _ _ world.pendingName kept
          have charged := written chunk middle kept'
          unfold LeadsTo at charged ⊢
          rw [yields_bind] at charged ⊢
          apply charged.mono
          · intro _ changed later
            apply LeadsTo.bind later
            intro _ last kept''
            apply (ih _ last kept'').bind
            exact fun rest => preserves_pure _
          · exact fun _ _ failed => failed

end Reading

/-! ## Charging -/

section Steps

variable (dest : Path) (env : Environment) (spare : Nat)

/-- A charge that is accepted is exact. -/
theorem charge_leadsTo (count : Nat) (world : World) :
    LeadsTo (charge count) world fun _ last =>
      last = { world with total := world.total + count } ∧
        last.total ≤ maxTotalBytes := by
  unfold charge
  have limited := limitTo_leadsTo maxTotalBytes
    (saturatingAdd world.total count)
    { world with total := saturatingAdd world.total count }
  apply LeadsTo.mono limited
  rintro _ last ⟨rfl, within⟩
  have exact_sum : saturatingAdd world.total count = world.total + count := by
    unfold saturatingAdd maxTotalBytes at *
    omega
  exact ⟨by rw [exact_sum], within⟩

theorem countEntry_leadsTo (world : World) :
    LeadsTo countEntry world fun _ last =>
      last = { world with fileCount := world.fileCount + 1 } ∧
        last.fileCount ≤ maxFileCount := by
  unfold countEntry
  apply LeadsTo.mono (limitTo_leadsTo maxFileCount (world.fileCount + 1)
    { world with fileCount := world.fileCount + 1 })
  rintro _ last ⟨rfl, within⟩
  exact ⟨rfl, within⟩

theorem charge_preserves (count : Nat) :
    Preserves (Sound dest spare) (charge count) := by
  intro world sound
  apply (charge_leadsTo count world).mono
  rintro _ last ⟨rfl, within⟩
  rcases sound.counted with ⟨entries, few, counted⟩
  exact ⟨sound.tree, ⟨entries, few, counted.mono (le_refl _) (Nat.le_add_right _ _)⟩,
    sound.fewEntries, within⟩

variable {world : World}

theorem countEntry_leadsTo_sound (sound : Sound dest 0 world) :
    LeadsTo countEntry world fun _ last => Sound dest 1 last := by
  apply (countEntry_leadsTo world).mono
  rintro _ last ⟨rfl, within⟩
  rcases sound.counted with ⟨entries, few, counted⟩
  exact ⟨sound.tree, ⟨entries, Nat.succ_le_succ few, counted⟩, within, sound.fewBytes⟩

theorem discardExact_preserves (size : Nat) :
    Preserves (Sound dest spare) (discardExact env size) := by
  unfold discardExact
  apply Preserves.bind
  · apply streamLoop_preserves env (sound_offline dest spare)
    intro chunk
    exact (preserves_pure _).bind fun _ => charge_preserves dest spare _
  · exact fun _ => preserves_pure _

theorem readMetaBody_preserves (size : Nat) :
    Preserves (Sound dest spare) (readMetaBody env size) := by
  unfold readMetaBody
  apply (limitTo_preserves _ _).bind
  intro _
  apply streamLoop_preserves env (sound_offline dest spare)
  intro chunk
  exact (preserves_pure _).bind fun _ => charge_preserves dest spare _

/-! ## Writing -/

theorem callOs_leadsTo (message : Text) (path : Path) (node : Option Node)
    (world : World) :
    LeadsTo (callOs env message path node) world fun _ last =>
      last = ({ world with clock := world.clock + 1 } : World).put path node := by
  unfold callOs tick LeadsTo
  simp only [yields_bind, yields_get, yields_set, yields_pure]
  split
  · trivial
  · rfl

theorem createDir_leadsTo {path : Path} (nonempty : path ≠ [])
    (sound : Sound dest spare world)
    (comparable : path <+: dest ∨ dest <+: path)
    (stands : Below dest path → world.files path.dropLast = some .directory) :
    LeadsTo (createDir env path) world fun _ last =>
      Sound dest spare last ∧
        (dest <+: path → last.files path = some .directory) := by
  unfold createDir LeadsTo
  simp only [yields_bind, yields_get]
  cases present : world.files path with
  | none =>
      have below : Below dest path := by
        rcases comparable with above | under
        · rcases sound.tree.root.above path above nonempty with ⟨node, there, -⟩
          rw [present] at there
          cases there
        · refine ⟨under, ?_⟩
          rintro rfl
          rw [sound.tree.root.here] at present
          cases present
      apply (callOs_leadsTo env _ path _ world).mono
      rintro _ last rfl
      refine ⟨⟨?_, ?_, sound.fewEntries, sound.fewBytes⟩, fun _ => world.files.set_self _ _⟩
      · show Tree dest (world.files.set path (some .directory))
        apply sound.tree.set below
        · exact fun _ => Node.noConfusion
        · rw [present]
          exact (Option.some_ne_none _).symm
        · exact stands below
      · rcases sound.counted with ⟨count, few, counted⟩
        exact ⟨count, few, counted.set_directory⟩
  | some node =>
      show LeadsTo (if !node.isDir then _ else pure ()) world _
      split
      · exact leadsTo_throw _
      · rename_i leads
        refine ⟨sound, fun under => ?_⟩
        rw [present, sound.tree.directory under present (by simpa using leads)]

theorem createDirsFrom_leadsTo (parent rest : Path)
    (sound : Sound dest spare world)
    (comparable : ∀ path, path <+: parent ++ rest →
      path <+: dest ∨ dest <+: path)
    (stands : dest <+: parent → world.files parent = some .directory) :
    LeadsTo (createDirsFrom env parent rest) world fun _ last =>
      Sound dest spare last ∧
        (dest <+: parent ++ rest →
          last.files (parent ++ rest) = some .directory) := by
  induction rest generalizing parent world with
  | nil =>
      rw [List.append_nil]
      exact ⟨sound, stands⟩
  | cons name rest ih =>
      have same : parent ++ [name] ++ rest = parent ++ name :: rest := by simp
      unfold createDirsFrom
      apply (createDir_leadsTo dest env spare (by simp) sound ?_ ?_).bind
      · rintro _ middle ⟨sound', stands'⟩
        rw [← same] at comparable ⊢
        exact ih (parent ++ [name]) sound' comparable stands'
      · apply comparable
        exact same ▸ List.prefix_append _ _
      · intro below
        rw [List.dropLast_concat]
        apply stands
        have within := below.prefix_dropLast
        rwa [List.dropLast_concat] at within

theorem createDirAll_leadsTo {parts path : Path}
    (sound : Sound dest spare world) (opens : path <+: dest ++ parts) :
    LeadsTo (createDirAll env path) world fun _ last =>
      Sound dest spare last ∧
        (dest <+: path → last.files path = some .directory) := by
  apply createDirsFrom_leadsTo dest env spare [] path sound
  · intro other within
    exact List.prefix_or_prefix_of_prefix (within.trans opens) (List.prefix_append _ _)
  · intro above
    have empty : dest = [] := List.prefix_nil.1 above
    rw [← empty]
    exact sound.tree.root.here

/-- A file that is being written. -/
def Writing (dest path : Path) (world : World) : Prop :=
  Sound dest 0 world ∧ ∃ content, world.files path = some (.file content)

theorem writing_offline (path : Path) : Offline (Writing dest path) :=
  fun world stream clock pendingName writing =>
    ⟨sound_offline dest 0 world stream clock pendingName writing.1, writing.2⟩

theorem createFile_leadsTo {path : Path}
    (sound : Sound dest 1 world) (below : Below dest path)
    (stands : world.files path.dropLast = some .directory) :
    LeadsTo (createFile env path) world fun _ last => Writing dest path last := by
  unfold createFile LeadsTo
  simp only [yields_bind, yields_get]
  split
  · exact leadsTo_throw _
  · rename_i vacant
    apply (callOs_leadsTo env _ path _ world).mono
    rintro _ last rfl
    refine ⟨⟨?_, ?_, sound.fewEntries, sound.fewBytes⟩, [], world.files.set_self _ _⟩
    · show Tree dest (world.files.set path (some (.file [])))
      exact sound.tree.set below (fun _ => Node.noConfusion) vacant stands
    · rcases sound.counted with ⟨count, few, counted⟩
      exact ⟨count + 1, few, counted.set_file []⟩

theorem writeChunk_preserves {path : Path} (below : Below dest path)
    (chunk : Bytes) :
    Preserves (Writing dest path) (do
      writeChunk env path chunk
      charge chunk.length) := by
  rintro world ⟨sound, content, present⟩
  have written : LeadsTo (writeChunk env path chunk) world fun _ last =>
      last = ({ world with clock := world.clock + 1 } : World).put path
        (some (.file (content ++ chunk))) := by
    unfold writeChunk LeadsTo
    simp only [yields_bind, yields_get]
    rw [present]
    exact callOs_leadsTo env _ path _ world
  apply written.bind
  rintro _ middle rfl
  apply (charge_leadsTo chunk.length _).mono
  rintro _ last ⟨rfl, within⟩
  refine ⟨⟨?_, ?_, sound.fewEntries, within⟩, _, world.files.set_self _ _⟩
  · show Tree dest (world.files.set path (some (.file (content ++ chunk))))
    apply sound.tree.set below
    · exact fun _ => Node.noConfusion
    · rw [present]
      simp
    · exact sound.tree.parent path below (present ▸ Option.some_ne_none _)
  · rcases sound.counted with ⟨count, few, counted⟩
    exact ⟨count, few, counted.append below present chunk⟩

theorem writeFile_leadsTo {parts : Path} (size : Nat)
    (sound : Sound dest 1 world)
    (stands : dest <+: (dest ++ parts).dropLast →
      world.files (dest ++ parts).dropLast = some .directory) :
    LeadsTo (do
      createFile env (dest ++ parts)
      tryCatch
        (do let _ ← streamExact env (writeChunk env (dest ++ parts)) size)
        (fun stop => do
          removeFile env (dest ++ parts)
          throw stop)) world fun _ last => Sound dest 0 last := by
  by_cases nothing : parts = []
  · rw [nothing, List.append_nil]
    unfold createFile LeadsTo
    simp only [yields_bind, yields_get, sound.tree.root.here]
    trivial
  have below : Below dest (dest ++ parts) := below_append nothing
  apply (createFile_leadsTo dest env sound below
    (stands below.prefix_dropLast)).bind
  intro _ middle writing
  unfold LeadsTo
  rw [yields_tryCatch]
  have streamed : LeadsTo (do
      let _ ← streamExact env (writeChunk env (dest ++ parts)) size) middle
      fun _ last => Writing dest (dest ++ parts) last := by
    apply Preserves.bind _ (fun _ => preserves_pure ()) middle writing
    exact streamLoop_preserves env (writing_offline dest _)
      (fun chunk => writeChunk_preserves dest env below chunk) size size
  apply Yields.mono streamed
  · exact fun _ _ writing' => writing'.1
  · intro stop last _
    have removed : LeadsTo (removeFile env (dest ++ parts)) last
        fun _ _ => True := leadsTo_true
    exact removed.bind fun _ _ _ => leadsTo_throw stop

/-! ## Entries -/

theorem refuseLink_preserves (path : Path) :
    Preserves (Sound dest spare) (refuseLink path) := by
  unfold refuseLink
  apply preserves_get_bind
  intro world sound
  split
  · exact leadsTo_throw _
  · exact sound

variable (header : Bytes)

theorem extractFile_preserves (size : Nat) :
    Preserves (Sound dest 0) (extractFile env dest header size) := by
  unfold extractFile
  apply (takeName_preserves (sound_offline dest 0) header).bind
  intro name
  apply (limitTo_preserves _ _).bind
  intro _
  apply (charge_preserves dest 0 size).bind
  intro _ world sound
  apply (countEntry_leadsTo_sound dest sound).bind
  intro _ counted sound
  cases joined : safeJoin dest name with
  | error error => exact leadsTo_throw _
  | ok path =>
      rcases safeJoin_eq_ok joined with ⟨parts, rfl, -⟩
      show LeadsTo (do
        refuseLink (dest ++ parts)
        createDirAll env (dest ++ parts).dropLast
        createFile env (dest ++ parts)
        _) counted _
      apply (refuseLink_preserves dest 1 _ counted sound).bind
      intro _ checked sound
      apply (createDirAll_leadsTo dest env 1 sound (List.dropLast_prefix _)).bind
      rintro _ made ⟨sound, stands⟩
      exact writeFile_leadsTo dest env size sound stands

theorem extractDirectory_preserves (size : Nat) :
    Preserves (Sound dest 0) (extractDirectory env dest header size) := by
  unfold extractDirectory
  apply (takeName_preserves (sound_offline dest 0) header).bind
  intro name world sound
  apply (countEntry_leadsTo_sound dest sound).bind
  intro _ counted sound
  cases joined : safeJoin dest name with
  | error error => exact leadsTo_throw _
  | ok path =>
      rcases safeJoin_eq_ok joined with ⟨parts, rfl, -⟩
      apply (discardExact_preserves dest env 1 size counted sound).bind
      intro _ discarded sound
      apply (createDirAll_leadsTo dest env 1 sound (List.prefix_refl _)).mono
      exact fun _ _ made => made.1.mono (Nat.zero_le 1)

theorem extractBody_preserves (size : Nat) :
    Preserves (Sound dest 0) (extractBody env dest header size) := by
  unfold extractBody
  cases typeFlag header with
  | longName =>
      apply (readMetaBody_preserves dest env 0 size).bind
      exact fun body => setPendingName_preserves (sound_offline dest 0) _
  | extended =>
      apply (readMetaBody_preserves dest env 0 size).bind
      intro body
      cases paxPath body with
      | none => exact preserves_pure ()
      | some path => exact setPendingName_preserves (sound_offline dest 0) _
  | globalExtended => exact discardExact_preserves dest env 0 size
  | file => exact extractFile_preserves dest env header size
  | directory => exact extractDirectory_preserves dest env header size
  | link => exact refuse_preserves _
  | other =>
      apply (discardExact_preserves dest env 0 size).bind
      exact fun _ => setPendingName_preserves (sound_offline dest 0) _

theorem extractEntry_preserves :
    Preserves (Sound dest 0) (extractEntry env dest header) := by
  unfold extractEntry
  apply (lift_preserves _).bind
  intro size
  apply (extractBody_preserves dest env header size).bind
  exact fun _ => discardPadding_preserves (sound_offline dest 0) _

theorem extractLoop_preserves (fuel : Nat) :
    Preserves (Sound dest 0) (extractLoop env dest fuel) := by
  induction fuel with
  | zero => exact preserves_throw _
  | succ fuel ih =>
      unfold extractLoop
      apply (pollCancel_preserves env (sound_offline dest 0)).bind
      intro _
      apply (fillBlock_preserves (sound_offline dest 0)).bind
      intro block
      cases block with
      | none => exact preserves_pure ()
      | some header =>
          apply preserves_ite (preserves_pure ())
          apply (extractEntry_preserves dest env header).bind
          exact fun _ => ih

end Steps

/-! ## Accepted archives -/

section Accepted

variable {env : Environment} {dest : Path} {stream : Stream}
  {files : FileSystem} {last : World}

theorem Fresh.extracted (fresh : Fresh dest files)
    (accepted : extractTarballWithCancel env dest stream files = .ok () last) :
    Sound dest 0 last := by
  have leads := extractLoop_preserves dest env (stream.bytes.length + 1) _
    (fresh.sound stream)
  exact leads.of_run accepted

/-- What is below the destination has been joined to it. -/
theorem Fresh.inside (fresh : Fresh dest files)
    (accepted : extractTarballWithCancel env dest stream files = .ok () last)
    {path : Path} (below : Below dest path) (present : last.files path ≠ none) :
    path ∈ last.changed ∧ Inside dest path := by
  have ended : KeptFrom (Keeps dest)
      (extractLoop env dest (stream.bytes.length + 1))
      (World.start stream files) :=
    extractLoop_kept dest env _ fresh.root (Nat.lt_succ_self _)
  have kept : Keeps dest (World.start stream files) last :=
    ended.leadsTo.of_run accepted
  have changed : path ∈ last.changed := by
    apply kept.recorded
    show last.files path ≠ files path
    rw [fresh.empty path below]
    exact present
  rcases kept.inside fresh.root path changed with before | inside
  · cases before
  · exact ⟨changed, inside⟩

/-- There are only so many paths that have been changed. -/
def changedListing (fresh : Fresh dest files)
    (accepted : extractTarballWithCancel env dest stream files = .ok () last) :
    Listing dest last.files where
  paths := last.changed.dedup.filter fun path =>
    Below dest path ∧ last.files path ≠ none
  nodup := (List.nodup_dedup _).filter _
  mem_iff path := by
    rw [List.mem_filter, List.mem_dedup, decide_eq_true_iff]
    exact ⟨And.right, fun there =>
      ⟨(fresh.inside accepted there.1 there.2).1, there⟩⟩

end Accepted

end FireCrow.Agents.Fetch
