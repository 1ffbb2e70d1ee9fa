import FireCrow.Library.JoinedText
import FireCrow.Library.UrlPath
import FireCrow.Orchestrator.RepositoryNames

/-!
# The lookup of a branch

The head of a branch is asked for at an address that ends in the name of the
branch, as it is.  A client that reads the address resolves dot segments and
drops white space, and the server decodes escapes.
-/

namespace FireCrow.Orchestrator

open FireCrow.Library FireCrow.Api.Webhooks

/-! ## The address -/

/-- The default of `github_api_base`. -/
def githubApiBase : Text := "https://api.github.com"

def reposOpening : Text := "/repos/"

def commitsEnding : Text := "/commits/"

/-- The path of the commits of a repository. -/
def commitsPath (owner repo : Text) : Text :=
  reposOpening ++ (owner ++ '/' :: (repo ++ commitsEnding))

/-- The address that `fetch_branch_head_sha` builds. -/
def branchUrl (owner repo branch : Text) : Text :=
  githubApiBase ++ (commitsPath owner repo ++ branch)

/-- The address has the path of the commits, an encoding of the branch behind
it, and nothing else. -/
def LooksUp (owner repo branch : Text) : Prop :=
  ∃ rest, Url.parseAt githubApiBase (branchUrl owner repo branch) = some {
      path := commitsPath owner repo ++ rest
      query := none
      fragment := none
    } ∧ Url.percentDecode rest = branch.toBytes

/-! ## What is accepted -/

section Names

variable {url owner repo branch : Text}

theorem names_of_parsed
    (named : parseGithubOwnerRepo url = some (owner, repo)) :
    validSegment owner = true ∧ validSegment repo = true := by
  rw [parseGithubOwnerRepo] at named
  cases accepted : normalizeRepositoryUrl url with
  | none =>
    rw [accepted] at named
    cases named
  | some canonical =>
    rcases exists_urlParts accepted with
      ⟨before, first, second, ending, slashes, after, parts, same⟩
    have parsed := parts.parseGithubOwnerRepo_eq (same ▸ accepted)
    rw [parseGithubOwnerRepo] at parsed
    rw [parsed] at named
    cases named
    exact ⟨parts.ownerValid, parts.repoValid⟩

theorem isNameChar_not {segment : Text} (valid : validSegment segment = true)
    {character : Char} (other : isNameChar character = false) :
    character ∉ segment := by
  intro member
  rw [isNameChar_of_validSegment valid member] at other
  cases other

theorem not_dotted_of_valid {segment : Text}
    (valid : validSegment segment = true) : ¬ Url.Dotted segment := by
  have percent : '%' ∉ segment := isNameChar_not valid (by decide)
  simp only [validSegment, Bool.and_eq_true, bne_iff_ne] at valid
  have spelled : ∀ dots ∈ Url.doubleDots ++ Url.singleDots,
      dots = ("." : Text) ∨ dots = (".." : Text) ∨ '%' ∈ dots := by decide
  intro dotted
  rcases spelled segment (List.mem_append.mpr dotted) with one | two | escape
  · exact valid.1.1.2 one
  · exact valid.1.2 two
  · exact percent escape

/-- What an accepted branch does not have. -/
structure BranchName (branch : Text) : Prop where
  query : '?' ∉ branch
  fragment : '#' ∉ branch
  backslash : '\\' ∉ branch
  dots : ¬ (".." : Text) <:+: branch

theorem branchName_of_valid (accepted : isValidBranchName branch = true) :
    BranchName branch := by
  rw [isValidBranchName] at accepted
  split_ifs at accepted with _ _ _ sequences
  simp only [Bool.or_eq_true, not_or, Text.contains_iff] at sequences
  rw [Bool.not_eq_true', List.any_eq_false] at accepted
  have outside : ∀ character, isForbiddenInBranch character = true →
      Text.isWhitespace character = false → character ∉ branch := by
    intro character forbidden word member
    have inside : [character] <:+: Text.trim branch :=
      Text.infix_trim (fun other among =>
        (List.mem_singleton.mp among) ▸ word) ((List.singleton_infix_iff _ _).mpr member)
    exact accepted character ((List.singleton_infix_iff _ _).mp inside) forbidden
  refine ⟨outside _ (by decide) (by decide), outside _ (by decide) (by decide),
    outside _ (by decide) (by decide), fun inside => ?_⟩
  exact sequences.1.1 (Text.infix_trim (by decide) inside)

end Names

/-! ## How the address is read -/

section Address

variable {owner repo branch : Text}

/-- The branch as the client reads it. -/
def cleanedBranch (branch : Text) : Text :=
  (branch.rdropWhile Url.isC0OrSpace).filter
    fun character => !Url.isTabOrNewline character

theorem commitsPath_last (owner repo : Text) :
    ∃ front, commitsPath owner repo = front ++ ['/'] := by
  have ending : commitsEnding = ("/commits" : Text) ++ ['/'] := by decide
  refine ⟨reposOpening ++ (owner ++ '/' :: (repo ++ ("/commits" : Text))), ?_⟩
  rw [commitsPath, ending]
  simp only [List.append_assoc, List.cons_append]

variable {character : Char}

theorem plain_commitsPath (owner_valid : validSegment owner = true)
    (repo_valid : validSegment repo = true)
    (member : character ∈ commitsPath owner repo) :
    isNameChar character = true ∨ character = '/' := by
  have opening : ∀ other ∈ reposOpening,
      isNameChar other = true ∨ other = '/' := by
    decide
  have ending : ∀ other ∈ commitsEnding,
      isNameChar other = true ∨ other = '/' := by
    decide
  simp only [commitsPath, List.mem_append, List.mem_cons] at member
  rcases member with front | first | slash | second | back
  · exact opening character front
  · exact .inl (isNameChar_of_validSegment owner_valid first)
  · exact .inr slash
  · exact .inl (isNameChar_of_validSegment repo_valid second)
  · exact ending character back

theorem isNameChar_range (name : isNameChar character = true) :
    0x2D ≤ character.toNat ∧ character.toNat ≤ 0x7A := by
  simp only [isNameChar, Text.isAsciiAlphanumeric, Text.isAsciiDigit,
    Text.isAsciiUppercase, Text.isAsciiLowercase, Bool.or_eq_true,
    Bool.and_eq_true, decide_eq_true_eq, beq_iff_eq, Char.le_def,
    UInt32.le_iff_toNat_le] at name
  rcases name with ((((digit | upper) | lower) | same) | same) | same
  · have least : 48 ≤ character.toNat := digit.1
    have most : character.toNat ≤ 57 := digit.2
    omega
  · have least : 65 ≤ character.toNat := upper.1
    have most : character.toNat ≤ 90 := upper.2
    omega
  · have least : 97 ≤ character.toNat := lower.1
    have most : character.toNat ≤ 122 := lower.2
    omega
  · rw [same]
    decide
  · rw [same]
    decide
  · rw [same]
    decide

/-- A character of a name or a slash stands in a path as it is. -/
theorem plain_pathChar (plain : isNameChar character = true ∨ character = '/') :
    Url.inPathSet character = false ∧ Url.isTabOrNewline character = false ∧
      character ≠ '%' ∧ character ≠ '?' ∧ character ≠ '#' ∧ character ≠ '\\' := by
  have different : ∀ other ∈ ['\t', '\n', '\r', '%', '?', '#', '\\'] ++
      ['"', '#', '<', '>', '?', '^', '\x60', '\x7b', '\x7d'],
      isNameChar other = false ∧ other ≠ '/' := by decide
  have distinct : ∀ other ∈ ['\t', '\n', '\r', '%', '?', '#', '\\'] ++
      ['"', '#', '<', '>', '?', '^', '\x60', '\x7b', '\x7d'], character ≠ other := by
    intro other member same
    rcases plain with name | slash
    · rw [same, (different other member).1] at name
      cases name
    · exact (different other member).2 (same ▸ slash)
  have range : 0x20 < character.toNat ∧ character.toNat ≤ 0x7E := by
    rcases plain with name | slash
    · have bounds := isNameChar_range name
      omega
    · rw [slash]
      decide
  refine ⟨?_, ?_, distinct _ (by decide), distinct _ (by decide),
    distinct _ (by decide), distinct _ (by decide)⟩
  · have outside : character ∉ ['"', '#', '<', '>', '?', '^', '\x60', '\x7b', '\x7d'] :=
      fun member => distinct character (List.mem_append_right _ member) rfl
    simp only [Url.inPathSet, outside, Bool.or_eq_false_iff,
      decide_eq_false_iff_not, not_false_iff, and_true]
    omega
  · simp only [Url.isTabOrNewline, Bool.or_eq_false_iff, beq_eq_false_iff_ne]
    exact ⟨⟨distinct _ (by decide), distinct _ (by decide)⟩, distinct _ (by decide)⟩

section

variable (ownerValid : validSegment owner = true)
include ownerValid

theorem encode_commitsPath (repoValid : validSegment repo = true) :
    Url.encode (commitsPath owner repo) = commitsPath owner repo := by
  have kept : ∀ character ∈ commitsPath owner repo,
      Url.encodeChar character = [character] := by
    intro character member
    have plain := (plain_pathChar (plain_commitsPath ownerValid repoValid member)).1
    rw [Url.encodeChar, plain]
    rfl
  rw [Url.encode, List.flatMap_congr kept, List.flatMap_singleton']

theorem not_mem_commitsPath (repoValid : validSegment repo = true)
    (other : isNameChar character = false ∧ character ≠ '/') :
    character ∉ commitsPath owner repo := by
  intro member
  rcases plain_commitsPath ownerValid repoValid member with name | slash
  · rw [other.1] at name
    cases name
  · exact other.2 slash

/-- The address with the branch as the client reads it. -/
theorem cleaned_branchUrl
    (repoValid : validSegment repo = true) (branch : Text) :
    Url.cleaned (branchUrl owner repo branch) =
      githubApiBase ++ (commitsPath owner repo ++ cleanedBranch branch) := by
  rcases commitsPath_last owner repo with ⟨front, last⟩
  have opening : githubApiBase = 'h' :: githubApiBase.tail := by decide
  have dropped : (branchUrl owner repo branch).dropWhile Url.isC0OrSpace =
      branchUrl owner repo branch := by
    rw [branchUrl, opening, List.cons_append,
      List.dropWhile_cons_of_neg (by decide)]
  have trimmed : (branchUrl owner repo branch).rdropWhile Url.isC0OrSpace =
      githubApiBase ++ (commitsPath owner repo ++
        branch.rdropWhile Url.isC0OrSpace) := by
    have slash : Url.isC0OrSpace '/' = false := by decide
    rw [branchUrl, last, List.append_assoc, List.singleton_append,
      ← List.append_assoc, Text.rdropWhile_around slash, List.append_assoc,
      List.append_assoc, List.singleton_append]
  have base : ∀ character ∈ githubApiBase,
      (!Url.isTabOrNewline character) = true := by decide
  have path : ∀ character ∈ commitsPath owner repo,
      (!Url.isTabOrNewline character) = true := by
    intro character member
    rw [(plain_pathChar (plain_commitsPath ownerValid repoValid member)).2.1]
    rfl
  rw [Url.cleaned, dropped, trimmed, List.filter_append, List.filter_append,
    List.filter_eq_self.mpr base, List.filter_eq_self.mpr path]
  rfl

end

theorem mem_of_mem_cleanedBranch
    (member : character ∈ cleanedBranch branch) : character ∈ branch :=
  (List.rdropWhile_prefix _ branch).subset (List.mem_filter.mp member).1

/-- The segments of the address. -/
def branchSegments (owner repo branch : Text) : List Text :=
  (commitsPath owner repo ++ cleanedBranch branch).tail.splitOn '/'

theorem commitsPath_head (owner repo : Text) (back : Text) :
    commitsPath owner repo ++ back =
      '/' :: (commitsPath owner repo ++ back).tail := by
  have opening : reposOpening = '/' :: reposOpening.tail := by decide
  rw [commitsPath, opening]
  rfl

theorem raw_branchSegments (owner repo branch : Text) :
    Url.raw (branchSegments owner repo branch) =
      commitsPath owner repo ++ cleanedBranch branch := by
  rw [branchSegments, Url.raw_splitOn, ← commitsPath_head]

theorem branchSegments_eq (ownerValid : validSegment owner = true)
    (repoValid : validSegment repo = true) :
    branchSegments owner repo branch =
      [("repos" : Text), owner, repo, ("commits" : Text)] ++
        (cleanedBranch branch).splitOn '/' := by
  have opening : reposOpening = '/' :: (("repos" : Text) ++ ['/']) := by decide
  have ending : commitsEnding = '/' :: (("commits" : Text) ++ ['/']) := by decide
  have spelled : (commitsPath owner repo ++ cleanedBranch branch).tail =
      ("repos" : Text) ++ '/' :: (owner ++ '/' :: (repo ++ '/' ::
        (("commits" : Text) ++ '/' :: cleanedBranch branch))) := by
    rw [commitsPath, opening, ending]
    simp only [List.append_assoc, List.cons_append, List.tail_cons, List.nil_append]
  have first : '/' ∉ ("repos" : Text) := by decide
  have last : '/' ∉ ("commits" : Text) := by decide
  rw [branchSegments, spelled,
    List.splitOn_append_cons_self_of_not_mem first,
    List.splitOn_append_cons_self_of_not_mem (validSegment_slash ownerValid),
    List.splitOn_append_cons_self_of_not_mem (validSegment_slash repoValid),
    List.splitOn_append_cons_self_of_not_mem last]
  rfl

theorem parse_branchUrl (ownerValid : validSegment owner = true)
    (repoValid : validSegment repo = true) (name : BranchName branch) :
    Url.parseAt githubApiBase (branchUrl owner repo branch) = some {
      path := Url.encode (Url.raw
        (Url.resolve [] (branchSegments owner repo branch)))
      query := none
      fragment := none
    } := by
  have absent : ∀ character, isNameChar character = false ∧ character ≠ '/' →
      character ∉ branch →
        character ∉ commitsPath owner repo ++ cleanedBranch branch := by
    intro character other outside member
    rcases List.mem_append.mp member with path | back
    · exact not_mem_commitsPath ownerValid repoValid other path
    · exact outside (mem_of_mem_cleanedBranch back)
  have noFragment := absent '#' (by decide) name.fragment
  have noQuery := absent '?' (by decide) name.query
  have noBackslash := absent '\\' (by decide) name.backslash
  have kept : Url.slashed (commitsPath owner repo ++ cleanedBranch branch) =
      commitsPath owner repo ++ cleanedBranch branch := by
    rw [Url.slashed]
    have each : ∀ character ∈ commitsPath owner repo ++ cleanedBranch branch,
        (if character = '\\' then '/' else character) = character := by
      intro character member
      exact if_neg fun same : character = '\\' => noBackslash (same ▸ member)
    exact (List.map_congr_left each).trans (List.map_id _)
  rw [Url.parseAt, cleaned_branchUrl ownerValid repoValid,
    Text.stripPrefix_eq_some.2 rfl, Option.bind_some]
  simp only [Url.cut, Text.splitOnce_eq_none.2 noFragment,
    Text.splitOnce_eq_none.2 noQuery, kept]
  rw [commitsPath_head, ← Url.flatMap_encode, branchSegments]
  rfl

end Address

/-! ## Where the branch is looked up -/

section Lookup

variable {url owner repo branch : Text}

/-- The branch opens no escape, has no segment that is a dot, and no white
space that a client drops. -/
structure LiteralBranch (branch : Text) : Prop where
  unescaped : ¬ Url.Escaped branch
  named : ("." : Text) ∉ branch.splitOn '/'
  unbroken : ∀ character ∈ branch, Url.isTabOrNewline character = false
  ends : ∀ character, branch.getLast? = some character →
    Url.isC0OrSpace character = false

theorem cleanedBranch_eq_self_iff :
    cleanedBranch branch = branch ↔
      (∀ character ∈ branch, Url.isTabOrNewline character = false) ∧
        ∀ character, branch.getLast? = some character →
          Url.isC0OrSpace character = false := by
  constructor
  · intro same
    have shorter := (List.filter_sublist
      (p := fun character => !Url.isTabOrNewline character)
      (l := branch.rdropWhile Url.isC0OrSpace)).length_le
    have start := List.rdropWhile_prefix Url.isC0OrSpace branch
    have lengths := congrArg List.length same
    rw [cleanedBranch] at lengths
    have whole : branch.rdropWhile Url.isC0OrSpace = branch :=
      start.eq_of_length_le (by omega)
    refine ⟨fun character member => ?_, fun character last => ?_⟩
    · rw [← same] at member
      exact Bool.not_eq_true' _ ▸ (List.mem_filter.mp member).2
    · refine Bool.eq_false_of_not_eq_true fun white => ?_
      rcases List.getLast?_eq_some_iff.mp last with ⟨front, spelled⟩
      rw [spelled, List.rdropWhile_concat_pos _ _ _ white] at whole
      have longer := congrArg List.length whole
      have bound := (List.rdropWhile_prefix Url.isC0OrSpace front).length_le
      rw [List.length_append, List.length_singleton] at longer
      omega
  · rintro ⟨unbroken, ends⟩
    have whole : branch.rdropWhile Url.isC0OrSpace = branch := by
      rcases List.eq_nil_or_concat branch with empty | ⟨front, last, spelled⟩
      · rw [empty]
        rfl
      · have kept := ends last (by rw [spelled]; simp)
        rw [spelled, List.concat_eq_append,
          List.rdropWhile_concat_neg _ _ _ (by rw [kept]; exact Bool.false_ne_true)]
    rw [cleanedBranch, whole]
    exact List.filter_eq_self.mpr fun character member => by
      rw [unbroken character member]
      rfl

theorem cleanedBranch_sublist (branch : Text) :
    (cleanedBranch branch).Sublist branch :=
  List.filter_sublist.trans (List.rdropWhile_prefix _ branch).sublist

theorem infix_of_mem_splitOn {part text : Text} (member : part ∈ text.splitOn '/') :
    part <:+: '/' :: text := by
  rw [← Url.raw_splitOn text]
  rcases List.append_of_mem member with ⟨front, back, split⟩
  rw [split, Url.raw_append, Url.raw_cons]
  exact ⟨Url.raw front ++ ['/'], Url.raw back, by simp⟩

theorem not_dotted_of_literal (name : BranchName branch)
    (literal : LiteralBranch branch) :
    ∀ segment ∈ branch.splitOn '/', ¬ Url.Dotted segment := by
  have spelled : ∀ dots ∈ Url.doubleDots ++ Url.singleDots,
      dots = ("." : Text) ∨ dots = (".." : Text) ∨
        ("%2e" : Text) <:+: dots ∨ ("%2E" : Text) <:+: dots := by decide
  have unescaped : ∀ high low : Char, ∀ byte, Url.hexByte high low = some byte →
      ∀ segment ∈ branch.splitOn '/', ¬ ['%', high, low] <:+: segment := by
    intro high low byte hex segment member inside
    rcases List.infix_cons_iff.mp (inside.trans (infix_of_mem_splitOn member)) with
      starts | later
    · exact absurd (List.cons_prefix_cons.mp starts).1 (by decide)
    · exact literal.unescaped ⟨high, low, byte, later, hex⟩
  intro segment member dotted
  rcases spelled segment (List.mem_append.mpr dotted) with
    one | two | lower | upper
  · exact literal.named (one ▸ member)
  · rcases List.infix_cons_iff.mp (infix_of_mem_splitOn member) with starts | later
    · rw [two] at starts
      exact absurd (List.cons_prefix_cons.mp starts).1 (by decide)
    · exact name.dots (two ▸ later)
  · exact unescaped '2' 'e' 0x2E (by decide) segment member lower
  · exact unescaped '2' 'E' 0x2E (by decide) segment member upper

theorem lookup_rules (named : parseGithubOwnerRepo url = some (owner, repo))
    (accepted : isValidBranchName branch = true) :
    LooksUp owner repo branch ↔ LiteralBranch branch := by
  rcases names_of_parsed named with ⟨ownerValid, repoValid⟩
  have name := branchName_of_valid accepted
  have percent : '%' ∉ commitsPath owner repo :=
    not_mem_commitsPath ownerValid repoValid (by decide)
  -- Without a dot segment the path is the commits' path and the branch, encoded.
  have plainPath : (∀ segment ∈ (cleanedBranch branch).splitOn '/',
      ¬ Url.Dotted segment) →
        Url.encode (Url.raw (Url.resolve [] (branchSegments owner repo branch))) =
          commitsPath owner repo ++ Url.encode (cleanedBranch branch) := by
    intro names
    have fixed : ∀ segment ∈ [("repos" : Text), owner, repo, ("commits" : Text)],
        ¬ Url.Dotted segment := by
      have first : ¬ Url.Dotted ("repos" : Text) :=
        not_dotted_of_valid (by decide)
      have last : ¬ Url.Dotted ("commits" : Text) :=
        not_dotted_of_valid (by decide)
      simp only [List.forall_mem_cons, List.not_mem_nil, false_imp_iff,
        implies_true, and_true]
      exact ⟨first, not_dotted_of_valid ownerValid,
        not_dotted_of_valid repoValid, last⟩
    rw [Url.resolve_of_names, List.nil_append, raw_branchSegments,
      Url.encode_append, encode_commitsPath ownerValid repoValid]
    rw [branchSegments_eq ownerValid repoValid]
    intro segment member
    rcases List.mem_append.mp member with front | back
    · exact fixed segment front
    · exact names segment back
  rw [LooksUp, parse_branchUrl ownerValid repoValid name]
  simp only [Option.some.injEq, Url.Parsed.mk.injEq, and_true]
  constructor
  · rintro ⟨rest, path, decoded⟩
    have bytes := congrArg Url.percentDecode path
    rw [Url.percentDecode_encode, Url.percentDecode_append percent, decoded] at bytes
    have lengths := congrArg List.length bytes
    have shorter := (Url.percentDecode_length_le
      (Url.raw (Url.resolve [] (branchSegments owner repo branch)))).1
    have resolved := Url.raw_resolve_le [] (branchSegments owner repo branch)
    have sub := cleanedBranch_sublist branch
    have whole := Url.length_toBytes_append (commitsPath owner repo)
      (cleanedBranch branch)
    rw [raw_branchSegments, whole] at resolved
    rw [List.length_append] at lengths
    have nothing : (Text.toBytes (Url.raw [])).length = 0 := rfl
    rw [nothing, Nat.zero_add] at resolved
    have same : cleanedBranch branch = branch :=
      Url.eq_of_sublist_of_length sub (by omega)
    have names : ∀ segment ∈ (cleanedBranch branch).splitOn '/',
        ¬ Url.Dotted segment := by
      intro segment member dotted
      have less := resolved.2 ⟨segment, by
        rw [branchSegments_eq ownerValid repoValid]
        exact List.mem_append_right _ member, dotted⟩
      rw [same] at less
      omega
    rw [plainPath names, List.append_cancel_left_eq, same] at path
    rw [← path, Url.percentDecode_encode] at decoded
    have steady := cleanedBranch_eq_self_iff.mp same
    refine ⟨fun escaped => ?_, fun dot => ?_, steady.1, steady.2⟩
    · have less := (Url.percentDecode_length_le branch).2 escaped
      rw [decoded] at less
      exact absurd less (Nat.lt_irrefl _)
    · exact names _ (same.symm ▸ dot) (.inr (by decide))
  · intro literal
    have same := cleanedBranch_eq_self_iff.mpr ⟨literal.unbroken, literal.ends⟩
    have names := not_dotted_of_literal name literal
    refine ⟨Url.encode branch, ?_, ?_⟩
    · rw [plainPath (same.symm ▸ names), same]
    · rw [Url.percentDecode_encode,
        Url.percentDecode_of_not_escaped literal.unescaped]

/-- The lookup asks about the branch exactly where no percent sign opens an
escape, no segment is a dot, and there is no white space that a client drops. -/
theorem branch_lookup_iff (named : parseGithubOwnerRepo url = some (owner, repo))
    (accepted : isValidBranchName branch = true) :
    LooksUp owner repo branch ↔ LiteralBranch branch :=
  lookup_rules named accepted

theorem parseGithubOwnerRepo_octo :
    parseGithubOwnerRepo "https://github.com/octo/crow" =
      some (("octo" : Text), ("crow" : Text)) := by
  decide +kernel

theorem branch_lookup_iff_main :
    LooksUp "octo" "crow" "main" ↔ LiteralBranch "main" :=
  branch_lookup_iff parseGithubOwnerRepo_octo (by decide +kernel)

/-- An accepted branch whose lookup leaves the commits of the repository. -/
theorem escaped_dots_elsewhere :
    parseGithubOwnerRepo "https://github.com/octo/crow" =
        some (("octo" : Text), ("crow" : Text)) ∧
      isValidBranchName "%2e%2e/branches" = true ∧
      ¬ LooksUp "octo" "crow" "%2e%2e/branches" := by
  have accepted : isValidBranchName "%2e%2e/branches" = true := by decide +kernel
  refine ⟨parseGithubOwnerRepo_octo, accepted, fun looksUp => ?_⟩
  have literal := (lookup_rules parseGithubOwnerRepo_octo accepted).mp looksUp
  exact literal.unescaped
    ⟨'2', 'e', 0x2E, ⟨[], ("%2e/branches" : Text), by decide⟩, by decide⟩

end Lookup

end FireCrow.Orchestrator
