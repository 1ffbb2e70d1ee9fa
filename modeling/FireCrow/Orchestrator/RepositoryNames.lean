import FireCrow.Api.WebhookClosure

/-!
# The names of a repository

The URL of a submission is read four times: by the scan contract, which
normalises it, by the gate and the fetch phase, which both ask the scan
contract, and by the pipeline, which cuts the owner and the name out of the
text.  The pipeline does not trim the URL and cuts off every `.git`, where the
scan contract cuts off one.
-/

namespace FireCrow.Orchestrator

open FireCrow.Library FireCrow.Api.Webhooks

/-! ## The readers -/

/-- `validate_github_repo_url`. -/
def validateGithubRepoUrl (url : Text) : Except Text Text :=
  match normalizeRepositoryUrl url with
  | some canonical => .ok canonical
  | none => .error
      "repo_url must be an https://github.com/\x7bowner\x7d/\x7brepo\x7d URL"

/-- `parse_github_owner_repo`. -/
def parseGithubOwnerRepo (url : Text) : Option (Text × Text) :=
  match normalizeRepositoryUrl url with
  | none => none
  | some canonical =>
      match canonical.stripPrefix "https://github.com/" with
      | none => none
      | some rest =>
          match rest.splitOn '/' with
          | [owner, repo] => some (owner, repo)
          | _ => none

/-- At most so many endings are cut off. -/
def dropSuffixes (ending : Text) : Nat → Text → Text
  | 0, text => text
  | count + 1, text =>
      if text.endsWith ending then
        dropSuffixes ending count (dropSuffix text ending)
      else text

/-- `trim_end_matches` of a text, which is not empty. -/
def trimEndMatches (text ending : Text) : Text :=
  dropSuffixes ending text.length text

/-- The URL as the pipeline splits it. -/
def cleanedUrl (url : Text) : Text :=
  trimEndMatches (url.rdropWhile (· == '/')) ".git"

/-- `extract_repo_owner`. -/
def extractRepoOwner (url : Text) : Text :=
  ((cleanedUrl url).splitOn '/').reverse[1]?.getD []

/-- `extract_repo_name`. -/
def extractRepoName (url : Text) : Text :=
  ((cleanedUrl url).splitOn '/').getLast?.getD "repo"

/-! ## Suffixes -/

theorem dropSuffix_append (text ending : Text) :
    dropSuffix (text ++ ending) ending = text := by
  have ends : (text ++ ending).endsWith ending = true :=
    List.isSuffixOf_iff_suffix.2 (List.suffix_append text ending)
  rw [dropSuffix, if_pos ends, List.length_append, Nat.add_sub_cancel]
  exact List.take_left

/-- One ending is cut off, where there is one. -/
theorem dropSuffix_cases (text ending : Text) :
    text = dropSuffix text ending ++ ending ∨
      text = dropSuffix text ending ∧ ¬ ending <:+ text := by
  by_cases ends : ending <:+ text
  · left
    obtain ⟨front, rfl⟩ := ends
    rw [dropSuffix_append]
  · right
    have plain : ¬ text.endsWith ending = true :=
      fun yes => ends (List.isSuffixOf_iff_suffix.1 yes)
    rw [dropSuffix, if_neg plain]
    exact ⟨rfl, ends⟩

variable {text ending : Text}

theorem dropSuffixes_eq_self (plain : ¬ ending <:+ text) (count : Nat) :
    dropSuffixes ending count text = text := by
  cases count with
  | zero => rfl
  | succ count =>
      rw [dropSuffixes, if_neg]
      exact fun yes => plain (List.isSuffixOf_iff_suffix.1 yes)

theorem trimEndMatches_eq_self
    (plain : ¬ ending <:+ text) : trimEndMatches text ending = text :=
  dropSuffixes_eq_self plain text.length

theorem trimEndMatches_append (present : ending ≠ [])
    (plain : ¬ ending <:+ text) :
    trimEndMatches (text ++ ending) ending = text := by
  have ends : (text ++ ending).endsWith ending = true :=
    List.isSuffixOf_iff_suffix.2 (List.suffix_append text ending)
  obtain ⟨count, long⟩ : ∃ count, (text ++ ending).length = count + 1 := by
    apply Nat.exists_eq_succ_of_ne_zero
    simp [present]
  rw [trimEndMatches, long, dropSuffixes, if_pos ends, dropSuffix_append]
  exact dropSuffixes_eq_self plain count

/-- An ending without the marker is one of the last part. -/
theorem suffix_last_part {front back : Text} {marker : Char}
    (without : marker ∉ ending) (ends : ending <:+ front ++ marker :: back) :
    ending <:+ back := by
  have whole : marker :: back <:+ front ++ marker :: back :=
    List.suffix_append _ _
  rcases List.suffix_or_suffix_of_suffix ends whole with inside | inside
  · rcases List.suffix_cons_iff.1 inside with same | within
    · exact absurd (same ▸ List.mem_cons_self) without
    · exact within
  · exact absurd (inside.subset List.mem_cons_self) without

theorem rdropWhile_append_all {accepts : Char → Bool}
    (all : ∀ character ∈ ending, accepts character = true)
    (last : ∀ nonempty : text ≠ [],
      ¬ accepts (text.getLast nonempty) = true) :
    (text ++ ending).rdropWhile accepts = text := by
  rw [List.rdropWhile, List.reverse_append, List.dropWhile_append_of_pos]
  · exact List.rdropWhile_eq_self_iff.2 last
  · exact fun character member => all character (List.mem_reverse.1 member)

theorem getLast_splitOn_suffix {last : Text} {marker : Char}
    (found : (text.splitOn marker).getLast? = some last) : last <:+ text := by
  have whole := @List.intercalate_splitOn Char text _ _ marker
  rw [← whole]
  generalize text.splitOn marker = parts at found ⊢
  induction parts with
  | nil => cases found
  | cons first parts ih =>
      cases parts with
      | nil =>
          cases found
          simp
      | cons second parts =>
          rw [List.intercalate_cons_cons]
          rw [List.getLast?_cons_cons] at found
          exact (ih found).trans (List.suffix_append _ _)

/-! ## Segments -/

variable {segment : Text}

section

variable (valid : validSegment segment = true)
include valid

theorem validSegment_nonempty : segment ≠ [] := by
  rintro rfl
  cases valid

theorem isNameChar_of_validSegment {character : Char}
    (member : character ∈ segment) : isNameChar character = true := by
  simp only [validSegment, Bool.and_eq_true, List.all_eq_true] at valid
  exact valid.2 character member

theorem validSegment_slash : '/' ∉ segment :=
  fun member => absurd (isNameChar_of_validSegment valid member) (by decide)

end

theorem splitOn_pair {owner repo : Text} (ownerValid : validSegment owner = true)
    (repoValid : validSegment repo = true) :
    (owner ++ '/' :: repo).splitOn '/' = [owner, repo] := by
  rw [List.splitOn_append_cons_self_of_not_mem (validSegment_slash ownerValid),
    List.splitOn_eq_singleton (validSegment_slash repoValid)]

/-! ## What the scan contract reads -/

/-- The parts of a URL that the scan contract accepts. -/
structure UrlParts (url before owner repo ending slashes after : Text) :
    Prop where
  whole : url = before ++ (("https://github.com/" : Text) ++
    (owner ++ '/' :: repo) ++ ending ++ slashes) ++ after
  ownerValid : validSegment owner = true
  repoValid : validSegment repo = true
  cut : ending = [] ∧ ¬ (".git" : Text) <:+ owner ++ '/' :: repo ∨
    ending = ".git"
  slashed : ∀ character ∈ slashes, (character == '/') = true
  blank : ∀ character ∈ after, Text.isWhitespace character = true

/-- The normal form of the URL of a repository. -/
def canonicalUrl (owner repo : Text) : Text :=
  ("https://github.com/" : Text) ++ owner ++ ("/" : Text) ++ repo

theorem append_path (host owner repo : Text) :
    host ++ owner ++ ("/" : Text) ++ repo = host ++ (owner ++ '/' :: repo) := by
  have slash : ("/" : Text) ++ repo = '/' :: repo := rfl
  rw [List.append_assoc, List.append_assoc, slash]

theorem canonicalUrl_eq (owner repo : Text) :
    canonicalUrl owner repo =
      ("https://github.com/" : Text) ++ (owner ++ '/' :: repo) :=
  append_path _ owner repo

/-- Trimming takes away whitespace only. -/
theorem exists_eq_trim_append (text : Text) :
    ∃ before after : Text, text = before ++ text.trim ++ after ∧
      ∀ character ∈ after, Text.isWhitespace character = true := by
  refine ⟨text.takeWhile Text.isWhitespace,
    (text.dropWhile Text.isWhitespace).rtakeWhile Text.isWhitespace, ?_, ?_⟩
  · rw [Text.trim, List.append_assoc, List.rdropWhile_append_rtakeWhile,
      List.takeWhile_append_dropWhile]
  · intro character member
    exact List.mem_rtakeWhile_imp member

theorem exists_urlParts {url canonical : Text}
    (accepted : normalizeRepositoryUrl url = some canonical) :
    ∃ before owner repo ending slashes after,
      UrlParts url before owner repo ending slashes after ∧
        canonical = canonicalUrl owner repo := by
  obtain ⟨before, after, whole, blank⟩ := exists_eq_trim_append url
  unfold normalizeRepositoryUrl at accepted
  cases stripped : url.trim.stripPrefix "https://github.com/" with
  | none =>
      rw [stripped] at accepted
      cases accepted
  | some rest =>
      rw [stripped] at accepted
      dsimp only at accepted
      have slashed := @List.rdropWhile_append_rtakeWhile Char (· == '/') rest
      have cut := dropSuffix_cases (rest.rdropWhile (· == '/')) ".git"
      generalize dropSuffix (rest.rdropWhile (· == '/')) ".git" = path
        at accepted cut
      have joined := @List.intercalate_splitOn Char path _ _ '/'
      split at accepted
      · rename_i owner repo parts
        rw [parts] at joined
        split at accepted
        · rename_i valid
          rw [Bool.and_eq_true] at valid
          cases accepted
          have pathEq : path = owner ++ '/' :: repo := by
            rw [← joined]
            simp [List.intercalate]
          rw [Text.stripPrefix_eq_some] at stripped
          have inner : ∃ ending, rest.rdropWhile (· == '/') = path ++ ending ∧
              (ending = [] ∧ ¬ (".git" : Text) <:+ path ∨ ending = ".git") := by
            rcases cut with ends | ⟨same, plain⟩
            · exact ⟨".git", ends, .inr rfl⟩
            · rw [same] at plain
              exact ⟨[], by rw [List.append_nil]; exact same, .inl ⟨rfl, plain⟩⟩
          obtain ⟨ending, cut, kind⟩ := inner
          subst pathEq
          refine ⟨before, owner, repo, ending, rest.rtakeWhile (· == '/'),
            after, ?_, rfl⟩
          constructor
          · rw [List.append_assoc _ ending, List.append_assoc _ _ (ending ++ _),
              ← List.append_assoc _ ending, ← cut, slashed, ← stripped]
            exact whole
          · exact valid.1
          · exact valid.2
          · exact kind
          · exact fun _ member =>
              List.mem_rtakeWhile_imp (p := (· == '/')) member
          · exact blank
        · cases accepted
      · cases accepted

namespace UrlParts

variable {url before owner repo ending slashes after : Text}

/-- The part of the URL before the slashes at its end. -/
def path (before owner repo ending : Text) : Text :=
  before ++ ("https://github.com/" : Text) ++ (owner ++ '/' :: repo) ++ ending

theorem url_eq (parts : UrlParts url before owner repo ending slashes after) :
    url = path before owner repo ending ++ slashes ++ after := by
  rw [parts.whole, path]
  simp only [List.append_assoc]

theorem git_suffix_iff {front : Text} :
    (".git" : Text) <:+ front ++ '/' :: repo ↔ (".git" : Text) <:+ repo := by
  constructor
  · exact suffix_last_part (by decide)
  · exact fun ends => ends.trans
      ((List.suffix_cons '/' repo).trans (List.suffix_append front _))

theorem path_last (parts : UrlParts url before owner repo ending slashes after)
    (nonempty : path before owner repo ending ≠ []) :
    ¬ ((path before owner repo ending).getLast nonempty == '/') = true := by
  rw [beq_iff_eq]
  rcases parts.cut with ⟨rfl, _⟩ | rfl
  · have named : '/' :: repo ≠ [] := List.cons_ne_nil '/' repo
    have whole : path before owner repo [] =
        before ++ ("https://github.com/" : Text) ++ owner ++ '/' :: repo := by
      rw [path, List.append_nil, ← List.append_assoc]
    intro slash
    rw [List.getLast_congr nonempty (by simp) whole,
      List.getLast_append_of_right_ne_nil _ _ named,
      List.getLast_cons (validSegment_nonempty parts.repoValid)] at slash
    exact validSegment_slash parts.repoValid (slash ▸ List.getLast_mem _)
  · intro slash
    have last : (path before owner repo ".git").getLast nonempty = 't' := by
      rw [List.getLast_eq_iff_getLast?_eq_some, path]
      rw [List.getLast?_append]
      rfl
    rw [last] at slash
    exact absurd slash (by decide)

theorem parseGithubOwnerRepo_eq
    (parts : UrlParts url before owner repo ending slashes after)
    (accepted : normalizeRepositoryUrl url = some (canonicalUrl owner repo)) :
    parseGithubOwnerRepo url = some (owner, repo) := by
  rw [parseGithubOwnerRepo, accepted]
  dsimp only
  rw [Text.stripPrefix_eq_some.2 (canonicalUrl_eq owner repo)]
  dsimp only
  rw [splitOn_pair parts.ownerValid parts.repoValid]

theorem cleanedUrl_eq (parts : UrlParts url before owner repo ending slashes [])
    (plain : ¬ (".git" : Text) <:+ repo) :
    cleanedUrl url =
      before ++ ("https://github.com/" : Text) ++ (owner ++ '/' :: repo) := by
  have front : ¬ (".git" : Text) <:+
      before ++ ("https://github.com/" : Text) ++ (owner ++ '/' :: repo) := by
    rw [← List.append_assoc, git_suffix_iff]
    exact plain
  rw [cleanedUrl, parts.url_eq, List.append_nil,
    rdropWhile_append_all parts.slashed parts.path_last, path]
  rcases parts.cut with ⟨rfl, _⟩ | rfl
  · rw [List.append_nil]
    exact trimEndMatches_eq_self front
  · exact trimEndMatches_append (by decide) front

/-- The pipeline reads the owner and the name of the scan contract. -/
theorem extracted (parts : UrlParts url before owner repo ending slashes [])
    (plain : ¬ (".git" : Text) <:+ repo) :
    (extractRepoOwner url, extractRepoName url) = (owner, repo) := by
  have host : before ++ ("https://github.com/" : Text) ++
      (owner ++ '/' :: repo) =
        (before ++ ("https://github.com" : Text)) ++
          '/' :: (owner ++ '/' :: repo) := by
    rw [List.append_assoc, List.append_assoc]
    rfl
  rw [extractRepoOwner, extractRepoName, parts.cleanedUrl_eq plain, host,
    List.splitOn_append_cons_self, splitOn_pair parts.ownerValid parts.repoValid,
    List.reverse_append, List.getLast?_append]
  rfl

theorem after_eq_nil
    (parts : UrlParts url before owner repo ending slashes after)
    (word : ∀ character, url.getLast? = some character →
      Text.isWhitespace character = false) : after = [] := by
  cases last : after.getLast? with
  | none => exact List.getLast?_eq_none_iff.1 last
  | some character =>
      have blank := parts.blank character (List.mem_of_getLast? last)
      have whole : url.getLast? = some character := by
        rw [parts.url_eq, List.getLast?_append, last]
        rfl
      rw [word character whole] at blank
      cases blank

/-- The name ends in `.git` where two of them end the URL. -/
theorem git_git_iff (parts : UrlParts url before owner repo ending slashes []) :
    (".git.git" : Text) <:+ url.rdropWhile (· == '/') ↔
      (".git" : Text) <:+ repo := by
  have front : (".git" : Text) <:+
      before ++ ("https://github.com/" : Text) ++ (owner ++ '/' :: repo) ↔
        (".git" : Text) <:+ repo := by
    rw [← List.append_assoc, git_suffix_iff]
  rw [parts.url_eq, List.append_nil,
    rdropWhile_append_all parts.slashed parts.path_last, path]
  rcases parts.cut with ⟨rfl, plain⟩ | rfl
  · rw [git_suffix_iff] at plain
    have shorter : (".git" : Text) <:+ (".git.git" : Text) :=
      List.suffix_append (".git" : Text) (".git" : Text)
    rw [List.append_nil]
    constructor
    · exact fun ends => front.1 (shorter.trans ends)
    · exact fun ends => absurd ends plain
  · have twice : (".git.git" : Text) = (".git" : Text) ++ (".git" : Text) := rfl
    rw [twice, List.suffix_append_self_iff, front]

end UrlParts

/-- A normal URL is kept where its name does not end in `.git`. -/
theorem normalizeRepositoryUrl_canonicalUrl {owner repo : Text}
    (ownerValid : validSegment owner = true)
    (repoValid : validSegment repo = true)
    (plain : ¬ (".git" : Text) <:+ repo) :
    normalizeRepositoryUrl (canonicalUrl owner repo) =
      some (canonicalUrl owner repo) := by
  have word : ∀ character ∈ canonicalUrl owner repo,
      Text.isWhitespace character = false := by
    intro character member
    rw [canonicalUrl_eq] at member
    rcases List.mem_append.1 member with host | path
    · exact (by decide : ∀ character ∈ ("https://github.com/" : Text),
        Text.isWhitespace character = false) character host
    · rcases List.mem_append.1 path with inOwner | rest
      · exact isWhitespace_of_isNameChar
          (isNameChar_of_validSegment ownerValid inOwner)
      · rcases List.mem_cons.1 rest with rfl | inRepo
        · rfl
        · exact isWhitespace_of_isNameChar
            (isNameChar_of_validSegment repoValid inRepo)
  have last : (owner ++ '/' :: repo).rdropWhile (· == '/') =
      owner ++ '/' :: repo := by
    rw [List.rdropWhile_eq_self_iff]
    intro nonempty slash
    rw [List.getLast_append_of_right_ne_nil _ _ (List.cons_ne_nil _ _),
      List.getLast_cons (validSegment_nonempty repoValid), beq_iff_eq] at slash
    exact validSegment_slash repoValid (slash ▸ List.getLast_mem _)
  have kept : dropSuffix (owner ++ '/' :: repo) ".git" = owner ++ '/' :: repo := by
    rw [dropSuffix, if_neg]
    intro ends
    exact plain (UrlParts.git_suffix_iff.1 (List.isSuffixOf_iff_suffix.1 ends))
  rw [normalizeRepositoryUrl, Text.trim_eq_self word,
    Text.stripPrefix_eq_some.2 (canonicalUrl_eq owner repo)]
  dsimp only
  rw [last, kept, splitOn_pair ownerValid repoValid]
  dsimp only
  rw [ownerValid, repoValid]
  rfl

/-- A name that is normalised to itself does not end in `.git`. -/
theorem not_git_of_normal {owner repo : Text}
    (normal : normalizeRepositoryUrl (canonicalUrl owner repo) =
      some (canonicalUrl owner repo)) : ¬ (".git" : Text) <:+ repo := by
  obtain ⟨before, owner', repo', ending, slashes, after, parts, same⟩ :=
    exists_urlParts normal
  have whole := parts.whole
  rw [canonicalUrl_eq, canonicalUrl_eq] at same
  have path : owner ++ '/' :: repo = owner' ++ '/' :: repo' :=
    List.append_cancel_left same
  rw [canonicalUrl_eq, path] at whole
  have sizes := congrArg List.length whole
  simp only [List.length_append] at sizes
  have none : ending.length = 0 := by omega
  rw [List.length_eq_zero_iff] at none
  rcases parts.cut with ⟨_, plain⟩ | git
  · rw [← path, UrlParts.git_suffix_iff] at plain
    exact plain
  · rw [none] at git
    exact absurd git (by decide)

/-! ## One repository, one identity -/

/-- The pipeline names the repository that is fetched, and the normal form of
the URL is normal. -/
structure OneIdentity (url : Text) : Prop where
  named : parseGithubOwnerRepo url =
    some (extractRepoOwner url, extractRepoName url)
  normal : (normalizeRepositoryUrl url).bind normalizeRepositoryUrl =
    normalizeRepositoryUrl url

/-- The scan contract or the gate takes the URL. -/
def Submitted (url : Text) : Prop :=
  (normalizeRepositoryUrl url).isSome = true ∨
    (validateGithubRepoUrl url).isOk = true

/-- There is no whitespace at the end, and no second `.git`. -/
structure EndsOnce (url : Text) : Prop where
  word : ∀ character, url.getLast? = some character →
    Text.isWhitespace character = false
  once : ¬ (".git.git" : Text) <:+ url.rdropWhile (· == '/')

theorem Submitted.exists_normal {url : Text} (submitted : Submitted url) :
    ∃ canonical, normalizeRepositoryUrl url = some canonical := by
  rcases submitted with some | ok
  · exact Option.isSome_iff_exists.1 some
  · unfold validateGithubRepoUrl at ok
    split at ok
    · rename_i canonical normal
      exact ⟨canonical, normal⟩
    · cases ok

theorem extractRepoName_suffix {url : Text} {character : Char}
    (last : url.getLast? = some character)
    (blank : Text.isWhitespace character = true) :
    extractRepoName url <:+ url := by
  have plain : ∀ other, url.getLast? = some other → other = character := by
    intro other also
    exact Option.some.inj (also.symm.trans last)
  have kept : url.rdropWhile (· == '/') = url := by
    rw [List.rdropWhile_eq_self_iff]
    intro nonempty slash
    rw [beq_iff_eq] at slash
    have same := plain '/' (slash ▸ List.getLast?_eq_some_getLast nonempty)
    rw [← same] at blank
    exact absurd blank (by decide)
  have noGit : ¬ (".git" : Text) <:+ url := by
    rintro ⟨front, rfl⟩
    have same := plain 't' (by rw [List.getLast?_append]; rfl)
    rw [← same] at blank
    exact absurd blank (by decide)
  rw [extractRepoName, cleanedUrl, kept, trimEndMatches_eq_self noGit]
  cases found : (url.splitOn '/').getLast? with
  | none =>
      rw [List.getLast?_eq_none_iff] at found
      exact absurd found (List.splitOn_ne_nil '/' url)
  | some name => exact getLast_splitOn_suffix found

/-- The repository of an accepted URL has one identity exactly when the URL
ends in no whitespace and in no second `.git`. -/
theorem one_identity_iff {url : Text} (submitted : Submitted url) :
    OneIdentity url ↔ EndsOnce url := by
  obtain ⟨canonical, normal⟩ := submitted.exists_normal
  obtain ⟨before, owner, repo, ending, slashes, after, parts, rfl⟩ :=
    exists_urlParts normal
  have parsed := parts.parseGithubOwnerRepo_eq normal
  constructor
  · intro one
    have word : ∀ character, url.getLast? = some character →
        Text.isWhitespace character = false := by
      intro character last
      by_contra blank
      rw [Bool.not_eq_false] at blank
      have suffix := extractRepoName_suffix last blank
      have named : extractRepoName url = repo :=
        (congrArg Prod.snd (Option.some.inj (parsed.symm.trans one.named))).symm
      obtain ⟨front, whole⟩ := named ▸ suffix
      have inside : character ∈ repo := by
        rw [← whole, List.getLast?_append_of_ne_nil _
          (validSegment_nonempty parts.repoValid)] at last
        exact List.mem_of_getLast? last
      rw [isWhitespace_of_isNameChar
        (isNameChar_of_validSegment parts.repoValid inside)] at blank
      cases blank
    constructor
    · exact word
    · have stays : normalizeRepositoryUrl (canonicalUrl owner repo) =
          some (canonicalUrl owner repo) := by
        have bound := one.normal
        rw [normal] at bound
        exact bound
      obtain rfl := parts.after_eq_nil word
      rw [parts.git_git_iff]
      exact not_git_of_normal stays
  · intro ends
    obtain rfl := parts.after_eq_nil ends.word
    have plain := ends.once
    rw [parts.git_git_iff] at plain
    constructor
    · rw [parsed, parts.extracted plain]
    · rw [normal]
      exact normalizeRepositoryUrl_canonicalUrl parts.ownerValid
        parts.repoValid plain

/-! ## Addresses -/

theorem one_identity_iff_plain :
    OneIdentity "https://github.com/acme/app.git/" ↔
      EndsOnce "https://github.com/acme/app.git/" :=
  one_identity_iff (.inl (by decide))

/-- The second `.git` belongs to the name of the repository, and the pipeline
cuts it off. -/
theorem git_git_two_identities : ¬ ∀ url, Submitted url → OneIdentity url := by
  intro claim
  have one := claim "https://github.com/acme/app.git.git"
    (.inl (by decide))
  exact absurd one.named (by decide)

end FireCrow.Orchestrator
