import FireCrow.DockerAuthz.NormalPaths

/-!
# The request that the daemon executes

The daemon routes a request by the decoded segments of its path and takes the
first value of each decoded key.  It executes what the plugin judged exactly
when the address is unambiguous.
-/

namespace FireCrow.DockerAuthz

open FireCrow.Library

/-! ## Routes -/

/-- `v` and digits with dots, the version that a route may start with. -/
def isVersionSegment : Bytes → Bool
  | 0x76 :: digits =>
      !digits.isEmpty && digits.all fun byte =>
        (0x30 ≤ byte && byte ≤ 0x39) || byte = 0x2E
  | _ => false

/-- The segments behind a version. -/
def unversioned : List Bytes → List Bytes
  | version :: segment :: segments =>
      if isVersionSegment version = true then segment :: segments
      else version :: segment :: segments
  | segments => segments

/-- The operations of the daemon that the channel is for. -/
inductive Operation where
  | ping
  | version
  | create
  | pull
  | lifecycle (target : Bytes)
  | remove (target : Bytes)
deriving DecidableEq

/-- The operation of a route; `none` for every other route of the daemon. -/
def route (method : Text) : List Bytes → Option Operation
  | [segment] =>
      if (method = "HEAD" ∨ method = "GET") ∧ segment = Text.toBytes "_ping" then
        some .ping
      else if method = "GET" ∧ segment = Text.toBytes "version" then some .version
      else none
  | [family, name] =>
      if method = "POST" ∧ family = Text.toBytes "containers" ∧
          name = Text.toBytes "create" then some .create
      else if method = "POST" ∧ family = Text.toBytes "images" ∧
          name = Text.toBytes "create" then some .pull
      else if method = "DELETE" ∧ family = Text.toBytes "containers" then
        some (.remove name)
      else none
  | [family, target, operation] =>
      if method = "POST" ∧ family = Text.toBytes "containers" ∧
          operation ∈ lifecycleOps.map Text.toBytes then
        some (.lifecycle target)
      else none
  | _ => none

/-- The segments and the operation of a route. -/
inductive Routed (method : Text) : List Bytes → Operation → Prop where
  | ping (negotiates : method = "HEAD" ∨ method = "GET") :
      Routed method [Text.toBytes "_ping"] .ping
  | version (reads : method = "GET") :
      Routed method [Text.toBytes "version"] .version
  | create (posts : method = "POST") :
      Routed method [Text.toBytes "containers", Text.toBytes "create"] .create
  | pull (posts : method = "POST") :
      Routed method [Text.toBytes "images", Text.toBytes "create"] .pull
  | lifecycle (target : Bytes) (op : Text) (listed : op ∈ lifecycleOps)
      (posts : method = "POST") :
      Routed method [Text.toBytes "containers", target, op.toBytes]
        (.lifecycle target)
  | remove (target : Bytes) (deletes : method = "DELETE") :
      Routed method [Text.toBytes "containers", target] (.remove target)

variable {segments : List Bytes}

theorem routed_of_route {method : Text}
    {operation : Operation} (found : route method segments = some operation) :
    Routed method segments operation := by
  unfold route at found
  split at found
  · split at found
    · rename_i known
      obtain ⟨negotiates, rfl⟩ := known
      cases found
      exact .ping negotiates
    · split at found
      · rename_i known
        obtain ⟨reads, rfl⟩ := known
        cases found
        exact .version reads
      · cases found
  · split at found
    · rename_i known
      obtain ⟨posts, rfl, rfl⟩ := known
      cases found
      exact .create posts
    · split at found
      · rename_i known
        obtain ⟨posts, rfl, rfl⟩ := known
        cases found
        exact .pull posts
      · split at found
        · rename_i known
          obtain ⟨deletes, rfl⟩ := known
          cases found
          exact .remove _ deletes
        · cases found
  · split at found
    · rename_i known
      obtain ⟨posts, rfl, listed⟩ := known
      obtain ⟨op, isOp, rfl⟩ := List.mem_map.1 listed
      cases found
      exact .lifecycle _ op isOp posts
    · cases found
  · cases found

/-- The value that the daemon takes for a key of the query. -/
def Takes (request : AuthzRequest) (key value : Text) : Prop :=
  ∀ values, Url.parameters (Url.query request.uri) = some values →
    Url.get values key = value.toBytes

/-- An operation with what the plugin approved of it. -/
inductive Approved (plugin : Plugin) (request : AuthzRequest)
    (decision : Decision) : Operation → Prop where
  | ping : Approved plugin request decision .ping
  | version : Approved plugin request decision .version
  | create (name : Text) (read : queryParam request.uri "name" = some name)
      (scanner : isScannerName name = true)
      (taken : Takes request "name" name) :
      Approved plugin request decision .create
  | pull (image : Text) (tags : List Text)
      (allowed : PullAllowed request image tags)
      (imageTaken : Takes request "fromImage" image)
      (tagTaken : Takes request "tag" (tags.head?.getD [])) :
      Approved plugin request decision .pull
  | lifecycle (target : Text) (judged : decision.target = some target)
      (owned : Owned plugin target) :
      Approved plugin request decision (.lifecycle target.toBytes)
  | remove (target : Text) (judged : decision.target = some target)
      (owned : Owned plugin target) :
      Approved plugin request decision (.remove target.toBytes)

/-- The caller is identified, and the daemon executes an operation that the
plugin approved. -/
structure JudgedAsExecuted (plugin : Plugin) (request : AuthzRequest)
    (decision : Decision) : Prop where
  identified : Identified plugin request
  approved : ∀ bytes, Url.Decodes (Url.path request.uri) bytes →
    ∃ operation,
      route request.method (unversioned (Url.segments bytes)) = some operation ∧
        Approved plugin request decision operation

/-- A key that the first parameter that names it spells out. -/
def SpelledOut (request : AuthzRequest) (key : Text) : Prop :=
  (Url.parameters (Url.query request.uri)).isSome = true →
    Url.Unmasked (Url.query request.uri) key

/-- The parts of a path that name an endpoint. -/
def addressed (request : AuthzRequest) : List Text :=
  behindVersion (Url.parts (Url.path request.uri))

/-- An address with one reading. -/
structure Unambiguous (request : AuthzRequest) : Prop where
  noFragment : '#' ∉ Url.path request.uri
  noEscape : '%' ∉ Url.path request.uri
  operation : request.method = "POST" →
    (∃ op ∈ lifecycleOps, (addressed request).getLast? = some op) →
      (addressed request).length = 3
  name : request.method = "POST" →
    addressed request = ["containers", "create"] → SpelledOut request "name"
  image : request.method = "POST" →
    addressed request = ["images", "create"] →
      SpelledOut request "fromImage" ∧ SpelledOut request "tag"

/-! ## Decoded paths -/

theorem decoded_of_unescaped {part : Text} {segment : Bytes}
    (unescaped : '%' ∉ part) (read : Url.Decodes part segment) :
    segment = part.toBytes :=
  Option.some.inj (read.symm.trans (Url.decodes_of_unescaped unescaped))

theorem segments_eq_of_unescaped {parts : List Text}
    (unescaped : ∀ part ∈ parts, '%' ∉ part)
    (read : List.Forall₂ Url.Decodes parts segments) :
    segments = parts.map Text.toBytes := by
  induction read with
  | nil => rfl
  | @cons part segment parts segments here _ ih =>
      rw [List.map_cons,
        decoded_of_unescaped (unescaped part List.mem_cons_self) here,
        ih fun other member => unescaped other (List.mem_cons_of_mem _ member)]

theorem encode_of_versionCharacter {character : Char}
    (accepted : (Text.isAsciiDigit character || character = '.') = true) :
    ∃ byte : UInt8, String.utf8EncodeChar character = [byte] ∧
      ((0x30 ≤ byte && byte ≤ 0x39) || byte = 0x2E) = true := by
  rcases Bool.or_eq_true_iff.1 accepted with digit | dot
  · simp only [Text.isAsciiDigit, Bool.and_eq_true, decide_eq_true_eq] at digit
    have low : 0x30 ≤ character.toNat := UInt32.le_iff_toNat_le.1 digit.1
    have high : character.toNat ≤ 0x39 := UInt32.le_iff_toNat_le.1 digit.2
    have ascii : Text.isAscii character = true :=
      decide_eq_true (lt_of_le_of_lt high (by decide))
    refine ⟨_, Bytes.utf8EncodeChar_ascii ascii, ?_⟩
    have value := (Bytes.toNat_val_ascii ascii).1
    refine Bool.or_eq_true_iff.2 (Or.inl (Bool.and_eq_true_iff.2 ⟨?_, ?_⟩))
    · exact decide_eq_true (UInt8.le_iff_toNat_le.2 (value ▸ low))
    · exact decide_eq_true (UInt8.le_iff_toNat_le.2 (value ▸ high))
  · exact ⟨0x2E, of_decide_eq_true dot ▸ by decide, by decide⟩

theorem versionBytes {digits : Text}
    (accepted : ∀ character ∈ digits,
      (Text.isAsciiDigit character || character = '.') = true) :
    ∀ byte ∈ digits.toBytes,
      ((0x30 ≤ byte && byte ≤ 0x39) || byte = 0x2E) = true := by
  intro byte member
  obtain ⟨character, inside, encoded⟩ := List.mem_flatMap.1 member
  obtain ⟨single, same, digit⟩ :=
    encode_of_versionCharacter (accepted character inside)
  rw [same, List.mem_singleton] at encoded
  rwa [encoded]

theorem isVersionSegment_toBytes {part : Text} (version : isVersion part = true) :
    '%' ∉ part ∧ isVersionSegment part.toBytes = true := by
  unfold isVersion at version
  split at version
  · rename_i digits
    obtain ⟨some, digit⟩ := Bool.and_eq_true_iff.1 version
    have accepted := List.all_eq_true.1 digit
    have unescaped : '%' ∉ digits := fun member =>
      absurd (accepted '%' member) (by decide)
    refine ⟨fun member => ?_, ?_⟩
    · rcases List.mem_cons.1 member with same | inside
      · cases same
      · exact unescaped inside
    · have nonempty : Text.toBytes digits ≠ [] := by
        rw [Bool.not_eq_true', List.isEmpty_eq_false_iff] at some
        exact (Url.decodes_of_unescaped unescaped).nonempty_iff.1 some
      refine Bool.and_eq_true_iff.2 ⟨?_, List.all_eq_true.2 (versionBytes accepted)⟩
      rwa [Bool.not_eq_true', List.isEmpty_eq_false_iff]
  · cases version

/-- Behind a version, the parts of a path decode to the segments of a route. -/
theorem unversioned_of_forall₂ {parts : List Text}
    (read : List.Forall₂ Url.Decodes parts segments)
    (head : ∀ part ∈ (behindVersion parts).head?,
      '%' ∉ part ∧ isVersionSegment part.toBytes = false) :
    List.Forall₂ Url.Decodes (behindVersion parts) (unversioned segments) := by
  cases read with
  | nil => exact .nil
  | @cons version segment parts segments here later =>
      cases later with
      | nil => exact .cons here .nil
      | cons next others =>
          rw [behindVersion] at head ⊢
          by_cases isVersion : isVersion version = true
          · obtain ⟨unescaped, bytes⟩ := isVersionSegment_toBytes isVersion
            rw [if_pos isVersion, unversioned,
              if_pos (by rw [decoded_of_unescaped unescaped here, bytes])]
            exact .cons next others
          · rw [if_neg isVersion] at head ⊢
            obtain ⟨unescaped, other⟩ := head version rfl
            rw [unversioned, if_neg (by
              rw [decoded_of_unescaped unescaped here, other]
              exact Bool.false_ne_true)]
            exact .cons here (.cons next others)

/-! ## Rules by parts -/

section Rules

variable [FloatFormat]

/-- The rules that allow a request, by the parts of its path. -/
inductive PartsRule (plugin : Plugin) (request : AuthzRequest) :
    List Text → Option Text → Prop where
  | ping {target : Option Text}
      (method : request.method = "HEAD" ∨ request.method = "GET") :
      PartsRule plugin request ["_ping"] target
  | version {target : Option Text} (method : request.method = "GET") :
      PartsRule plugin request ["version"] target
  | create {target : Option Text} (method : request.method = "POST")
      (allowed : (createPolicy request).allow = true) :
      PartsRule plugin request ["containers", "create"] target
  | pull {target : Option Text} (method : request.method = "POST")
      (passed : pullChecks request = .ok ()) :
      PartsRule plugin request ["images", "create"] target
  | lifecycle (target : Text) (more : List Text)
      (method : request.method = "POST")
      (operation : ∃ op ∈ lifecycleOps, (target :: more).getLast? = some op)
      (owned : Owned plugin target) :
      PartsRule plugin request ("containers" :: target :: more) (some target)
  | remove (target : Text) (method : request.method = "DELETE")
      (owned : Owned plugin target) :
      PartsRule plugin request ["containers", target] (some target)

variable {path : Text}

omit [FloatFormat] in
theorem parts_of_render {parts known : List Text}
    (plain : ∀ part ∈ parts, Paths.Plain part)
    (knownPlain : ∀ part ∈ known, '/' ∉ part ∧ part ≠ [])
    (path_eq : path = Paths.render parts)
    (spelled : path = Paths.render known) : parts = known :=
  Paths.render_injective plain
    (fun part member => ⟨(knownPlain part member).2, (knownPlain part member).1⟩)
    (path_eq.symm.trans spelled)

variable {request : AuthzRequest} {plugin : Plugin}

theorem partsRule_of_rule {target : Option Text}
    (rule : Rule plugin request path target)
    (normal : Normal request.uri path) :
    PartsRule plugin request (normalParts request.uri) target := by
  have plain := normalParts_plain request.uri
  have spelled : ∀ known : List Text,
      (∀ part ∈ known, '/' ∉ part ∧ part ≠ []) →
        path = Paths.render known → normalParts request.uri = known :=
    fun known knownPlain => parts_of_render plain knownPlain normal.path_eq
  cases rule with
  | ping method same =>
      rw [spelled ["_ping"] (by decide) same]
      exact .ping method
  | version method same =>
      rw [spelled ["version"] (by decide) same]
      exact .version method
  | create method same allowed =>
      rw [spelled ["containers", "create"] (by decide) same]
      exact .create method allowed
  | pull method same passed =>
      rw [spelled ["images", "create"] (by decide) same]
      exact .pull method passed
  | lifecycle target method found operation owned =>
      rw [normal.path_eq] at found operation
      obtain ⟨more, form⟩ := containerParts_of_target plain normal.nonempty found
      rw [form.parts_eq]
      exact .lifecycle target more method (form.operation operation) owned
  | remove target method found whole owned =>
      rw [normal.path_eq] at found whole
      obtain ⟨more, form⟩ := containerParts_of_target plain normal.nonempty found
      rw [form.parts_eq, form.whole whole]
      exact .remove target method owned

theorem PartsRule.head {parts : List Text} {target : Option Text}
    (rule : PartsRule plugin request parts target) :
    ∀ part ∈ parts.head?, '%' ∉ part ∧ isVersionSegment part.toBytes = false := by
  cases rule with
  | ping | version | create | pull | lifecycle | remove =>
      rintro _ ⟨⟩
      decide

/-- The target that a rule names is spelled in the path. -/
theorem target_infix_of_rule
    {target : Text} (rule : Rule plugin request path (some target)) :
    target <:+: path := by
  have inside : ∀ known, containerTarget path = some known → known <:+: path := by
    intro known found
    obtain ⟨rest, stripped, kept⟩ := Option.bind_eq_some_iff.1 found
    obtain ⟨same, -⟩ := Option.filter_eq_some_iff.1 kept
    rw [Text.stripPrefix_eq_some.1 stripped, ← Option.some.inj same]
    exact (List.takeWhile_prefix _).isInfix.trans
      (List.suffix_append _ _).isInfix
  generalize same : some target = found at rule
  cases rule with
  | ping | version => exact inside target same.symm
  | create | pull => cases same
  | lifecycle _ _ addressed _ _ | remove _ _ addressed _ _ =>
      cases same
      exact inside target addressed

theorem noFragment_of_rule
    {target : Text} (rule : Rule plugin request path (some target))
    (normal : Normal request.uri path) : '#' ∉ target := by
  intro member
  have inPath := (target_infix_of_rule rule).subset member
  rw [normal.path_eq] at inPath
  obtain ⟨part, isPart, inside⟩ := mem_part_of_mem_path inPath (by decide)
  rw [Url.parts, splitOn_render (normalParts_plain _) normal.nonempty] at isPart
  have isNormal : part ∈ normalParts request.uri :=
    (List.mem_cons.1 (List.mem_filter.1 isPart).1).resolve_left
      (List.ne_nil_of_mem inside)
  exact fragment_not_mem_rawPath request.uri
    (mem_path_of_mem_part ((behindVersion_suffix _).subset isNormal) inside)

end Rules

/-! ## Keys -/

theorem queryOf_eq (uri : Text) : queryOf uri = Url.query uri := by
  rw [queryOf, Url.query]
  cases Text.splitOnce '?' uri <;> rfl

/-- The daemon takes what the plugin read exactly when nothing masks the key. -/
theorem takes_iff_spelled {request : AuthzRequest} {key value : Text}
    (unescaped : '%' ∉ key) (noPlus : '+' ∉ key)
    (read : (spelledValues (queryOf request.uri) key).head?.getD [] = value)
    (fixed : ∀ character ∈ value, Fixed character) :
    Takes request key value ↔ SpelledOut request key := by
  rw [queryOf_eq] at read
  unfold Takes SpelledOut
  cases found : Url.parameters (Url.query request.uri) with
  | none => exact ⟨fun _ => nofun, fun _ => nofun⟩
  | some values =>
      have spelled : Url.spelledValue (Url.query request.uri) key =
          value.toBytes := by
        have located := spelledValue_of_spelledValues found unescaped noPlus
        split at located
        · rename_i blank
          rw [blank] at read
          rw [located, ← read]
          rfl
        · rename_i text others listed
          rw [listed] at read
          cases read
          exact located fixed
      rw [← Url.get_eq_spelledValue_iff found unescaped noPlus, spelled]
      exact ⟨fun taken _ => taken values rfl, fun equal _ same =>
        Option.some.inj same ▸ equal rfl⟩

/-! ## Fragments -/

theorem fragment_mem_unescape {path : Text} {bytes : Bytes}
    (read : Url.unescape false path = some bytes) (fragment : '#' ∈ path) :
    0x23 ∈ bytes := by
  have notDigit : ∀ low high, Url.hexByte '#' low = none ∧
      Url.hexByte high '#' = none := by
    refine fun low high => ⟨rfl, ?_⟩
    rw [Url.hexByte]
    cases Json.hexValue high <;> rfl
  fun_induction Url.unescape false path generalizing bytes with
  | case1 => cases fragment
  | case2 high low rest ih =>
      obtain ⟨byte, escaped, read⟩ := Option.bind_eq_some_iff.1 read
      obtain ⟨after, decoded, same⟩ := Option.bind_eq_some_iff.1 read
      cases same
      simp only [List.mem_cons] at fragment
      rcases fragment with percent | first | second | later
      · cases percent
      · rw [← first, (notDigit low high).1] at escaped
        cases escaped
      · rw [← second, (notDigit low high).2] at escaped
        cases escaped
      · exact List.mem_cons_of_mem _ (ih decoded later)
  | case3 character high low rest _ ih | case5 character rest _ _ ih =>
      obtain ⟨after, decoded, rfl⟩ := Option.map_eq_some_iff.1 read
      rcases List.mem_cons.1 fragment with rfl | later
      · exact List.mem_append_left _ (by decide)
      · exact List.mem_append_right _ (ih decoded later)
  | case4 => cases read

/-- A byte of a path that is not a slash is in a segment of the route, unless
it is one of a version. -/
theorem mem_unversioned {bytes : Bytes} {byte : UInt8} (inside : byte ∈ bytes)
    (notSlash : byte ≠ 0x2F)
    (notVersion : ∀ segment, isVersionSegment segment = true → byte ∉ segment) :
    ∃ segment ∈ unversioned (Url.segments bytes), byte ∈ segment := by
  obtain ⟨segment, member, there⟩ := Text.exists_mem_splitOn inside notSlash
  have kept : segment ∈ Url.segments bytes := List.mem_filter.2
    ⟨member, decide_eq_true (List.ne_nil_of_mem there)⟩
  refine ⟨segment, ?_, there⟩
  unfold unversioned
  split
  · rename_i version next others listed
    rw [listed] at kept
    split
    · rename_i isVersion
      refine (List.mem_cons.1 kept).resolve_left ?_
      rintro rfl
      exact notVersion _ isVersion there
    · exact kept
  · exact kept

theorem fragment_not_mem_version (segment : Bytes)
    (version : isVersionSegment segment = true) : 0x23 ∉ segment := by
  unfold isVersionSegment at version
  split at version
  · rename_i digits
    have digit := List.all_eq_true.1 (Bool.and_eq_true_iff.1 version).2
    intro member
    rcases List.mem_cons.1 member with same | inside
    · exact absurd same (by decide)
    · exact absurd (digit _ inside) (by decide)
  · cases version

theorem noFragment_of_approved {plugin : Plugin} {request : AuthzRequest}
    {decision : Decision} {operation : Operation}
    (routed : route request.method segments = some operation)
    (approved : Approved plugin request decision operation)
    (judged : ∀ target, decision.target = some target → '#' ∉ target) :
    ∀ segment ∈ segments, 0x23 ∉ segment := by
  have target : ∀ target : Text, decision.target = some target →
      0x23 ∉ target.toBytes := fun target same member =>
    judged target same ((Bytes.mem_toBytes_iff (by decide)).1 member)
  have known : ∀ name : Text, '#' ∉ name → 0x23 ∉ name.toBytes :=
    fun name absent member =>
      absent ((Bytes.mem_toBytes_iff (by decide)).1 member)
  cases routed_of_route routed with
  | ping | version => simpa using known _ (by decide)
  | create | pull =>
      simpa using ⟨known _ (by decide), known _ (by decide)⟩
  | lifecycle _ op listed _ =>
      cases approved with
      | lifecycle name same _ =>
          have plain : ∀ op ∈ lifecycleOps, '#' ∉ op := by decide
          simpa using ⟨known _ (by decide), target name same,
            known op (plain op listed)⟩
  | remove _ _ =>
      cases approved with
      | remove name same _ =>
          simpa using ⟨known _ (by decide), target name same⟩

/-! ## Judged as executed -/

section Judged

variable [FloatFormat]

/-- Everything that the reading of an address needs of an allowed request. -/
structure Allowed (plugin : Plugin) (request : AuthzRequest)
    (decision : Decision) : Prop where
  identified : Identified plugin request
  noEscape : Url.NoSlashEscape (rawPath request.uri)
  rule : PartsRule plugin request (normalParts request.uri) decision.target
  noFragment : ∀ target, decision.target = some target → '#' ∉ target

theorem allowed_of_decide {plugin : Plugin} {request : AuthzRequest}
    {decision : Decision} (decided : plugin.decide request = some decision)
    (allowed : decision.allow = true) : Allowed plugin request decision := by
  obtain ⟨identified, path, normalized, rule⟩ := rule_of_decide decided allowed
  have present : path ≠ [] := by
    rintro rfl
    generalize decision.target = target at rule
    cases rule with
    | ping _ same | version _ same | create _ same _ | pull _ same _ => cases same
    | lifecycle _ _ found _ _ | remove _ _ found _ _ => cases found
  have normal := normal_of_normalizePath normalized present
  refine ⟨identified, normal.noEscape, partsRule_of_rule rule normal,
    fun target same => ?_⟩
  rw [same] at rule
  exact noFragment_of_rule rule normal

variable {plugin : Plugin} {request : AuthzRequest} {decision : Decision}
  {bytes : Bytes}

theorem Allowed.decoded (allowed : Allowed plugin request decision)
    (read : Url.Decodes (Url.path request.uri) bytes)
    (noFragment : '#' ∉ Url.path request.uri) :
    List.Forall₂ Url.Decodes (normalParts request.uri)
      (unversioned (Url.segments bytes)) := by
  have raw := rawPath_of_noFragment noFragment
  rw [← raw] at read
  exact unversioned_of_forall₂
    (Url.segments_of_unescape read allowed.noEscape) allowed.rule.head

omit [FloatFormat] in
theorem addressed_eq (noFragment : '#' ∉ Url.path request.uri) :
    addressed request = normalParts request.uri := by
  rw [addressed, normalParts, rawPath_of_noFragment noFragment]

theorem unescaped_of_routed {parts : List Text} {operation : Operation}
    (rule : PartsRule plugin request parts decision.target)
    (decoded : List.Forall₂ Url.Decodes parts segments)
    (routed : Routed request.method segments operation)
    (approved : Approved plugin request decision operation) :
    (∀ part ∈ parts, '%' ∉ part) ∧
      (request.method = "POST" →
        (∃ op ∈ lifecycleOps, parts.getLast? = some op) → parts.length = 3) := by
  have opUnescaped : ∀ op ∈ lifecycleOps, '%' ∉ op := by decide
  generalize named : decision.target = target at rule
  cases rule with
  | ping | version | create | pull =>
      refine ⟨by decide, fun _ ⟨op, listed, last⟩ => ?_⟩
      cases last
      exact absurd listed (by decide)
  | lifecycle target more method last owned =>
      obtain ⟨op, listed, last⟩ := last
      cases routed with
      | ping negotiates =>
          rcases negotiates with other | other
          · exact absurd (method.symm.trans other) (by decide)
          · exact absurd (method.symm.trans other) (by decide)
      | version other | remove _ other =>
          exact absurd (method.symm.trans other) (by decide)
      | create =>
          obtain _ | ⟨-, _ | ⟨create, _ | _⟩⟩ := decoded
          cases last
          have known : ∀ op ∈ lifecycleOps,
              Text.toBytes "create" ≠ op.toBytes := by decide
          exact absurd (decoded_of_unescaped (opUnescaped target listed) create)
            (known target listed)
      | pull =>
          obtain _ | ⟨images, _⟩ := decoded
          exact absurd (decoded_of_unescaped (by decide) images) (by decide)
      | lifecycle _ _ _ _ =>
          obtain _ | ⟨-, _ | ⟨isTarget, _ | ⟨-, _ | _⟩⟩⟩ := decoded
          cases last
          cases approved with
          | lifecycle _ same _ =>
              cases named.symm.trans same
              refine ⟨?_, fun _ _ => rfl⟩
              intro part member
              simp only [List.mem_cons, List.not_mem_nil, or_false] at member
              rcases member with rfl | rfl | rfl
              · decide
              · exact Url.Decodes.unescaped isTarget
              · exact opUnescaped _ listed
  | remove target method owned =>
      refine ⟨?_, fun posts => absurd (method.symm.trans posts) (by decide)⟩
      cases routed with
      | ping | version => obtain _ | ⟨-, _ | _⟩ := decoded
      | create posts | pull posts | lifecycle _ _ _ posts =>
          exact absurd (method.symm.trans posts) (by decide)
      | remove =>
          obtain _ | ⟨-, _ | ⟨isTarget, _ | _⟩⟩ := decoded
          cases approved with
          | remove _ same _ =>
              cases named.symm.trans same
              intro part member
              simp only [List.mem_cons, List.not_mem_nil, or_false] at member
              rcases member with rfl | rfl
              · decide
              · exact Url.Decodes.unescaped isTarget

omit [FloatFormat] in
theorem spelled_of_create
    (approved : Approved plugin request decision .create) :
    SpelledOut request "name" := by
  cases approved with
  | create name read scanner taken =>
      rw [queryParam_eq_head] at read
      exact (takes_iff_spelled (by decide) (by decide) (by rw [read]; rfl)
        (fixed_of_isScannerName scanner)).1 taken

omit [FloatFormat] in
theorem takes_iff_of_pull {image : Text} {tags : List Text}
    (allowed : PullAllowed request image tags) :
    (Takes request "fromImage" image ↔ SpelledOut request "fromImage") ∧
      (Takes request "tag" (tags.head?.getD []) ↔ SpelledOut request "tag") := by
  refine ⟨takes_iff_spelled (by decide) (by decide)
    (by rw [allowed.image_eq]; rfl) allowed.fixed.1,
    takes_iff_spelled (by decide) (by decide) (by rw [allowed.tags_eq]) ?_⟩
  cases tags with
  | nil => nofun
  | cons tag tags => exact allowed.fixed.2 tag List.mem_cons_self

/-- An allowed request whose route is spelled out is routed to what the plugin
approved. -/
theorem approved_of_parts {parts : List Text}
    (rule : PartsRule plugin request parts decision.target)
    (whole : request.method = "POST" →
      (∃ op ∈ lifecycleOps, parts.getLast? = some op) → parts.length = 3)
    (name : request.method = "POST" → parts = ["containers", "create"] →
      SpelledOut request "name")
    (image : request.method = "POST" → parts = ["images", "create"] →
      SpelledOut request "fromImage" ∧ SpelledOut request "tag") :
    ∃ operation, route request.method (parts.map Text.toBytes) = some operation ∧
      Approved plugin request decision operation := by
  generalize named : decision.target = target at rule
  cases rule with
  | ping method => exact ⟨.ping, if_pos ⟨method, rfl⟩, .ping⟩
  | version method =>
      refine ⟨.version, ?_, .version⟩
      rw [method]
      decide
  | create method allowed =>
      refine ⟨.create, if_pos ⟨method, rfl, rfl⟩, ?_⟩
      obtain ⟨body, members, created⟩ := (createPolicy_allow_iff request).1 allowed
      have scanner := created.named
      cases read : queryParam request.uri "name" with
      | none =>
          rw [read] at scanner
          exact absurd scanner (by decide)
      | some given =>
          rw [read] at scanner
          have head := read
          rw [queryParam_eq_head] at head
          exact .create given read scanner
            ((takes_iff_spelled (by decide) (by decide)
              (congrArg (Option.getD · []) head)
              (fixed_of_isScannerName scanner)).2 (name method rfl))
  | pull method passed =>
      refine ⟨.pull, ?_, ?_⟩
      · rw [method]
        decide
      · obtain ⟨given, tags, allowed⟩ := pullAllowed_of_ok passed
        obtain ⟨ofImage, ofTag⟩ := takes_iff_of_pull allowed
        obtain ⟨imageSpelled, tagSpelled⟩ := image method rfl
        exact .pull given tags allowed (ofImage.2 imageSpelled)
          (ofTag.2 tagSpelled)
  | lifecycle target more method last owned =>
      have three := whole method last
      obtain ⟨op, listed, last⟩ := last
      obtain ⟨only, rfl⟩ : ∃ only, more = [only] :=
        List.length_eq_one_iff.1 (by simpa using three)
      cases last
      refine ⟨.lifecycle target.toBytes, if_pos ⟨method, rfl, ?_⟩,
        .lifecycle target named owned⟩
      exact List.mem_map_of_mem listed
  | remove target method owned =>
      refine ⟨.remove target.toBytes, ?_, .remove target named owned⟩
      rw [method]
      rfl

end Judged

section Samples

attribute [local instance] FloatFormat.integersOnly

def samplePlugin : Plugin where
  allowedCns := ["backend"]
  registry := []

/-- A request of the backend without a body. -/
def sampleCall (method uri : Text) : AuthzRequest where
  method := method
  uri := uri
  user := some "backend"
  userAuthn := some "TLS"
  body := none

def sampleStart : AuthzRequest :=
  sampleCall "POST"
    "/v1.41/containers/firecrow-scan-01234567-89ab-4def-8123-456789abcdef/start"

theorem sampleStart_unambiguous : Unambiguous sampleStart := by
  have path : addressed sampleStart = ["containers",
      "firecrow-scan-01234567-89ab-4def-8123-456789abcdef", "start"] := by
    -- the kernel reads a list of letters faster than a literal
    rw [sampleStart]
    repeat rw [String.toList_ofList]
    decide
  refine ⟨by decide, by decide, fun _ _ => ?_,
    fun _ same => ?_, fun _ same => ?_⟩
  · rw [path]
    rfl
  · rw [path] at same
    cases same
  · rw [path] at same
    cases same

/-- The escaped key is first, and the plugin reads the other one. -/
def maskedPull : AuthzRequest :=
  sampleCall "POST"
    "/images/create?from%49mage=evil&fromImage=semgrep/semgrep:1.96.0"

end Samples

end FireCrow.DockerAuthz
