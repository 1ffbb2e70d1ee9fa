import FireCrow.DockerAuthz.Queries

/-!
# Rules that allow

What an allowed decision passed: the identity, the normalised path and one of
six rules.  A normalised path is the parts of the path behind a version.
-/

namespace FireCrow.DockerAuthz

open FireCrow.Library

/-! ## The pull policy -/

theorem taggedReference_denies (image : Text) (tags : List Text) :
    Denies (taggedReference image tags) := by
  unfold taggedReference
  split
  · exact .ok _
  · refine .bind (.denyIf _ _ _) fun _ => .bind (.denyIf _ _ _) fun _ => ?_
    split
    · exact .bind (.denyIf _ _ _) fun _ => .ok _
    · exact .ok _
  · exact .error _ _ _

theorem pullCandidate_denies (images tags : List Text) :
    Denies (pullCandidate images tags) := by
  unfold pullCandidate
  split
  · exact .bind (.denyIf _ _ _) fun _ => taggedReference_denies _ _
  · exact .error _ _ _

theorem pullChecks_denies (request : AuthzRequest) :
    Denies (pullChecks request) :=
  .bind (pullCandidate_denies _ _) fun _ => .denyIf _ _ _

/-- The parameters of an allowed pull: one reference, which the image alone or
the image with one tag spells. -/
structure PullAllowed (request : AuthzRequest) (image : Text)
    (tags : List Text) : Prop where
  image_eq : spelledValues (queryOf request.uri) "fromImage" = [image]
  tags_eq : spelledValues (queryOf request.uri) "tag" = tags
  reference : (tags = [] ∧ image ∈ approvedImages) ∨
    ∃ tag, tags = [tag] ∧
      ((image ∈ approvedImages ∧ ∃ name, image = name ++ ':' :: tag) ∨
        image ++ ':' :: tag ∈ approvedImages)

theorem rsplitOnce_eq_some {marker : Char} {text front back : Text}
    (split : Text.rsplitOnce marker text = some (front, back)) :
    text = front ++ marker :: back := by
  obtain ⟨⟨behind, before⟩, reversed, same⟩ := Option.map_eq_some_iff.1 split
  cases same
  have whole := (Text.splitOnce_eq_some.1 reversed).1
  rw [← List.reverse_reverse text, whole]
  simp

/-- The reference is the image, or the image with its one tag. -/
theorem reference_of_tagged {image candidate : Text} {tags : List Text}
    (made : taggedReference image tags = .ok candidate) :
    (tags = [] ∧ candidate = image) ∨
      ∃ tag, tags = [tag] ∧
        ((candidate = image ∧ ∃ name, image = name ++ ':' :: tag) ∨
          candidate = image ++ ':' :: tag) := by
  unfold taggedReference at made
  split at made
  · cases made
    exact Or.inl ⟨rfl, rfl⟩
  · rename_i tag
    obtain ⟨-, made⟩ := (Result.then_eq_ok _ _ _).1 made
    obtain ⟨-, made⟩ := (Result.then_eq_ok _ _ _).1 made
    refine Or.inr ⟨tag, rfl, ?_⟩
    split at made
    · rename_i front embedded split
      obtain ⟨same, made⟩ := (Result.then_eq_ok _ _ _).1 made
      rw [denyIf_eq_ok, not_not] at same
      cases made
      exact Or.inl ⟨rfl, front, same ▸ rsplitOnce_eq_some split⟩
    · cases made
      exact Or.inr rfl
  · cases made

theorem pullAllowed_of_ok {request : AuthzRequest}
    (passed : pullChecks request = .ok ()) :
    ∃ image tags, PullAllowed request image tags := by
  obtain ⟨candidate, made, approved⟩ := (Result.bind_eq_ok _ _ _).1 passed
  rw [denyIf_eq_ok, not_not] at approved
  unfold pullCandidate at made
  split at made
  · rename_i image images
    obtain ⟨-, made⟩ := (Result.then_eq_ok _ _ _).1 made
    refine ⟨image, _, images, rfl, ?_⟩
    rcases reference_of_tagged made with
      ⟨none, rfl⟩ | ⟨tag, single, ⟨rfl, embedded⟩ | rfl⟩
    · exact Or.inl ⟨none, approved⟩
    · exact Or.inr ⟨tag, single, Or.inl ⟨approved, embedded⟩⟩
    · exact Or.inr ⟨tag, single, Or.inr approved⟩
  · cases made

theorem fixed_of_approvedImages :
    ∀ image ∈ approvedImages, ∀ character ∈ image, Fixed character := by
  have bounds : ∀ image ∈ approvedImages, ∀ character ∈ image,
      0x2C ≤ character.val.toNat ∧ character.val.toNat < 0x80 := by decide
  exact fun image listed character member =>
    .of_range (bounds image listed character member).1
      (bounds image listed character member).2

theorem PullAllowed.fixed {request : AuthzRequest} {image : Text}
    {tags : List Text} (allowed : PullAllowed request image tags) :
    (∀ character ∈ image, Fixed character) ∧
      ∀ tag ∈ tags, ∀ character ∈ tag, Fixed character := by
  rcases allowed.reference with ⟨rfl, listed⟩ | ⟨tag, rfl, reference⟩
  · exact ⟨fixed_of_approvedImages image listed, nofun⟩
  · rcases reference with ⟨listed, name, spelled⟩ | listed
    · have all := fixed_of_approvedImages image listed
      refine ⟨all, fun other member character inside => ?_⟩
      rw [List.mem_singleton.1 member] at inside
      exact all character (by rw [spelled]; simp [inside])
    · have all := fixed_of_approvedImages _ listed
      refine ⟨fun character inside => all character (by simp [inside]),
        fun other member character inside => ?_⟩
      rw [List.mem_singleton.1 member] at inside
      exact all character (by simp [inside])

/-! ## Rules -/

/-- A container that the channel owns. -/
def Owned (plugin : Plugin) (target : Text) : Prop :=
  target ∈ plugin.registry ∨ isScannerName target = true

section Rules

variable [FloatFormat]

/-- The rules that allow a request with a normalised path, and the target of
their decision. -/
inductive Rule (plugin : Plugin) (request : AuthzRequest) (path : Text) :
    Option Text → Prop where
  | ping (method : request.method = "HEAD" ∨ request.method = "GET")
      (spelled : path = "/_ping") : Rule plugin request path (containerTarget path)
  | version (method : request.method = "GET") (spelled : path = "/version") :
      Rule plugin request path (containerTarget path)
  | create (method : request.method = "POST")
      (spelled : path = "/containers/create")
      (allowed : (createPolicy request).allow = true) :
      Rule plugin request path none
  | pull (method : request.method = "POST") (spelled : path = "/images/create")
      (passed : pullChecks request = .ok ()) : Rule plugin request path none
  | lifecycle (target : Text) (method : request.method = "POST")
      (addressed : containerTarget path = some target)
      (operation : isLifecycleOp path = true) (owned : Owned plugin target) :
      Rule plugin request path (some target)
  | remove (target : Text) (method : request.method = "DELETE")
      (addressed : containerTarget path = some target)
      (whole : isContainerDelete path = true) (owned : Owned plugin target) :
      Rule plugin request path (some target)

variable {plugin : Plugin}

omit [FloatFormat] in
theorem targetPolicy_allow {target : Text}
    (allowed : (plugin.targetPolicy target).allow = true) :
    Owned plugin target ∧ (plugin.targetPolicy target).target = some target := by
  unfold Plugin.targetPolicy at allowed ⊢
  split at allowed
  · rename_i registered
    rw [if_pos registered]
    exact ⟨Or.inl registered, rfl⟩
  · rename_i unregistered
    split at allowed
    · rename_i named
      rw [if_neg unregistered, if_pos named]
      exact ⟨Or.inr named, rfl⟩
    · cases allowed

omit [FloatFormat] in
theorem target_of_ofChecks {check : Except Decision Unit} (rule : Text)
    (passed : check = .ok ()) : (Decision.ofChecks check rule).target = none := by
  rw [passed]
  rfl

variable {request : AuthzRequest}

theorem rule_of_allow {path : Text}
    (allowed : (plugin.endpointPolicy request path).allow = true) :
    Rule plugin request path (plugin.endpointPolicy request path).target := by
  unfold Plugin.endpointPolicy at allowed ⊢
  dsimp only at allowed ⊢
  split at allowed
  · rename_i negotiation
    rw [if_pos negotiation]
    rcases negotiation with ⟨method, spelled⟩ | ⟨method, spelled⟩
    · exact .ping method spelled
    · exact .version method spelled
  · rename_i notNegotiation
    rw [if_neg notNegotiation]
    split at allowed
    · rename_i creates
      rw [if_pos creates, createPolicy, target_of_ofChecks _
        ((createChecks_denies request).allow_iff _ |>.1 allowed)]
      exact .create creates.1 creates.2 allowed
    · rename_i notCreate
      rw [if_neg notCreate]
      split at allowed
      · rename_i pulls
        have passed := ((pullChecks_denies request).allow_iff _).1 allowed
        rw [if_pos pulls, pullPolicy, target_of_ofChecks _ passed]
        exact .pull pulls.1 pulls.2 passed
      · rename_i notPull
        rw [if_neg notPull]
        split at allowed
        · cases allowed
        · rename_i notGrpc
          rw [if_neg notGrpc]
          cases addressed : containerTarget path with
          | none =>
              rw [addressed] at allowed
              cases allowed
          | some target =>
              rw [addressed] at allowed
              dsimp only at allowed ⊢
              split at allowed
              · rename_i operates
                obtain ⟨owned, same⟩ := targetPolicy_allow allowed
                rw [if_pos operates, same]
                exact .lifecycle target operates.1 addressed operates.2 owned
              · rename_i notOperation
                rw [if_neg notOperation]
                split at allowed
                · rename_i removes
                  obtain ⟨owned, same⟩ := targetPolicy_allow allowed
                  rw [if_pos removes, same]
                  exact .remove target removes.1 addressed removes.2 owned
                · cases allowed

/-- A verified identity on the allowlist. -/
def Identified (plugin : Plugin) (request : AuthzRequest) : Prop :=
  request.userAuthn = some "TLS" ∧
    ∃ cn ∈ plugin.allowedCns, request.user = some cn

omit [FloatFormat] in
theorem identified_of_gate {cn : Text}
    (passed : plugin.identityGate request = .ok cn) :
    Identified plugin request := by
  unfold Plugin.identityGate at passed
  split at passed
  · rename_i authn user isAuthn isUser
    split at passed
    · rename_i verified
      split at passed
      · rename_i listed
        exact ⟨isAuthn.trans (congrArg some verified.1), user, listed, isUser⟩
      · cases passed
    · cases passed
  · cases passed

omit [FloatFormat] in
theorem identityGate_denies (plugin : Plugin) (request : AuthzRequest) :
    Denies (plugin.identityGate request) := by
  unfold Plugin.identityGate
  split
  · split
    · split
      · exact .ok _
      · exact .error _ _ _
    · exact .error _ _ _
  · exact .error _ _ _

/-- An allowed request is identified, and a rule allows its path. -/
theorem rule_of_decide
    {decision : Decision} (decided : plugin.decide request = some decision)
    (allowed : decision.allow = true) :
    Identified plugin request ∧ ∃ path, normalizePath request.uri = some path ∧
      Rule plugin request path decision.target := by
  unfold Plugin.decide at decided
  split at decided
  · rename_i denial gate
    cases decided
    have denied := identityGate_denies plugin request _ gate
    rw [denied] at allowed
    cases allowed
  · rename_i cn gate
    obtain ⟨path, normal, rfl⟩ := Option.map_eq_some_iff.1 decided
    exact ⟨identified_of_gate gate, path, normal, rule_of_allow allowed⟩

end Rules

end FireCrow.DockerAuthz
