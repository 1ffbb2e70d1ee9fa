import FireCrow.Services.EgressProxy

/-!
# The proxy dials what it has judged

Whatever the client sends and whatever each resolution and each connection
attempt yields, the addresses that the proxy dials are those of the single
resolution that it has judged.
-/

namespace FireCrow.Services.Egress

open FireCrow.Library

/-! ## Traces -/

abbrev Happened := Sigma Statement.Reply

/-- The resolutions of a trace, with their answers. -/
def resolutions (trace : List Happened) :
    List (Text × Except ResolveError (List IpAddr)) :=
  trace.filterMap fun
    | ⟨.resolve host, answer⟩ => some (host, answer)
    | _ => none

def responses (trace : List Happened) : List Status :=
  trace.filterMap fun
    | ⟨.respond status, _⟩ => some status
    | _ => none

/-- The connections that a trace tries to open, and whether they open. -/
def dials (trace : List Happened) : List (IpAddr × Nat × Bool) :=
  trace.filterMap fun
    | ⟨.connect address port, connected⟩ => some (address, port, connected)
    | _ => none

variable (front back : List Happened)

@[simp]
theorem resolutions_append :
    resolutions (front ++ back) = resolutions front ++ resolutions back :=
  List.filterMap_append

@[simp]
theorem responses_append :
    responses (front ++ back) = responses front ++ responses back :=
  List.filterMap_append

@[simp]
theorem dials_append : dials (front ++ back) = dials front ++ dials back :=
  List.filterMap_append

variable {trace : List Happened}

theorem query_trace {statement : Statement}
    {result : Except Empty statement.Reply}
    (ran : (query statement).Trace trace result) :
    ∃ reply, trace = [⟨statement, reply⟩] ∧ result = .ok reply := by
  cases ran with
  | ask reply continues =>
      cases continues
      exact ⟨reply, rfl, rfl⟩

variable {port : Nat}

theorem connectPinned_trace {candidates : List IpAddr} {connected : Bool}
    (ran : (connectPinned port candidates).Trace trace (.ok connected)) :
    resolutions trace = [] ∧ responses trace = [] ∧
      (∀ dial ∈ dials trace, dial.1 ∈ candidates ∧ dial.2.1 = port) ∧
      (connected = true ↔ ∃ dial ∈ dials trace, dial.2.2 = true) := by
  induction candidates generalizing trace with
  | nil =>
      cases ran
      simp [resolutions, responses, dials]
  | cons address rest ih =>
      cases ran with
      | ask reply continues =>
          cases opened : reply with
          | true =>
              subst opened
              cases continues
              simp [resolutions, responses, dials]
          | false =>
              subst opened
              rcases ih continues with ⟨unresolved, silent, among, reached⟩
              refine ⟨unresolved, silent, ?_, ?_⟩
              · intro dial member
                rcases List.mem_cons.1 member with rfl | member
                · exact ⟨List.mem_cons_self, rfl⟩
                · exact ⟨List.mem_cons_of_mem _ (among dial member).1,
                    (among dial member).2⟩
              · rw [reached]
                constructor
                · rintro ⟨dial, member, opened⟩
                  exact ⟨dial, List.mem_cons_of_mem _ member, opened⟩
                · rintro ⟨dial, member, opened⟩
                  rcases List.mem_cons.1 member with rfl | member
                  · cases opened
                  · exact ⟨dial, member, opened⟩

theorem checkCandidates_eq_ok
    {resolved : Except ResolveError (List IpAddr)} {validated : List IpAddr}
    (checked : checkCandidates resolved = .ok validated) :
    resolved = .ok validated ∧
      ∀ candidate ∈ validated, evaluateIp candidate = .allow := by
  unfold checkCandidates at checked
  split at checked
  · cases checked
  rename_i candidates
  split at checked
  · cases checked
  split at checked
  · cases checked
  rename_i none
  cases checked
  refine ⟨rfl, fun candidate member => ?_⟩
  have passed := List.findSome?_eq_none_iff.1 none candidate member
  cases verdict : evaluateIp candidate with
  | allow => rfl
  | block reason => simp [verdict] at passed

/-- A resolution is dialled where every address of it may be. -/
theorem serveResolved_trace {resolved : Except ResolveError (List IpAddr)}
    {result : Except Empty Unit}
    (ran : (serveResolved port resolved).Trace trace result) :
    resolutions trace = [] ∧
      ((dials trace = [] ∧ responses trace = [.forbidden]) ∨
        ∃ validated, checkCandidates resolved = .ok validated ∧
          (∀ dial ∈ dials trace, dial.1 ∈ validated ∧ dial.2.1 = port) ∧
          ((∃ dial ∈ dials trace, dial.2.2 = true) ∧
              responses trace = [.established] ∨
            (∀ dial ∈ dials trace, dial.2.2 = false) ∧
              responses trace = [.badGateway])) := by
  unfold serveResolved at ran
  cases checked : checkCandidates resolved with
  | error reason =>
      rw [checked] at ran
      rcases query_trace ran with ⟨_, rfl, _⟩
      exact ⟨rfl, .inl ⟨rfl, rfl⟩⟩
  | ok validated =>
      rw [checked] at ran
      rcases Program.Trace.bind ran with
        ⟨error, _, _⟩ | ⟨first, second, connected, dialled, after, rfl⟩
      · exact error.elim
      rcases connectPinned_trace dialled with
        ⟨unresolved, silent, among, reached⟩
      cases connected with
      | true =>
          cases after with
          | ask reply continues =>
              rcases query_trace continues with ⟨_, rfl, _⟩
              have none : dials [⟨.respond .established, reply⟩,
                ⟨.tunnel, ()⟩] = [] := rfl
              rw [resolutions_append, responses_append, dials_append,
                unresolved, silent]
              refine ⟨rfl, .inr ⟨validated, rfl, ?_, .inl ⟨?_, rfl⟩⟩⟩
              · intro dial member
                rcases List.mem_append.1 member with before | after
                · exact among dial before
                · cases after
              · rcases reached.1 rfl with ⟨dial, member, opened⟩
                exact ⟨dial, List.mem_append_left _ member, opened⟩
      | false =>
          rcases query_trace after with ⟨_, rfl, _⟩
          rw [resolutions_append, responses_append, dials_append, unresolved,
            silent]
          refine ⟨rfl, .inr ⟨validated, rfl, ?_, .inr ⟨?_, rfl⟩⟩⟩
          · intro dial member
            rcases List.mem_append.1 member with before | after
            · exact among dial before
            · cases after
          · intro dial member
            rcases List.mem_append.1 member with before | after
            · by_contra opened
              have yes := reached.2
                ⟨dial, before, Bool.eq_true_of_not_eq_false opened⟩
              cases yes
            · cases after

theorem parseConnectLine_eq_ok {line host : Text}
    (parsed : parseConnectLine line = .ok (host, port)) :
    ∃ authority version,
      line.splitWhitespace = ["CONNECT".toList, authority, version] ∧
        parseAuthority authority = .ok (host, port) := by
  unfold parseConnectLine at parsed
  split at parsed
  · rename_i method authority version words
    split at parsed
    · cases parsed
    rename_i connect
    split at parsed
    · cases parsed
    exact ⟨authority, version, not_not.1 connect ▸ words, parsed⟩
  · cases parsed

/-- The request line of the client is a well-formed CONNECT to the host and
port. -/
def ConnectRequest (client : Client) (host : Text) (port : Nat) : Prop :=
  ∃ line authority version, client.requestLine = some line ∧
    line.splitWhitespace = ["CONNECT".toList, authority, version] ∧
      parseAuthority authority = .ok (host, port)

section Requests

variable [UnicodeTables]

/-- A connection either asks for an allowed target, which is served, or is
refused at once. -/
theorem serveConnection_trace {client : Client} {trace : List Happened}
    {result : Except Empty Unit}
    (ran : (serveConnection client).Trace trace result) :
    (∃ host port, ConnectRequest client host port ∧
        evaluateEgressTarget host port = .allow ∧
          (serveTarget host port).Trace trace result) ∨
      resolutions trace = [] ∧ dials trace = [] ∧
        (responses trace = [.badRequest] ∨ responses trace = [.forbidden]) := by
  unfold serveConnection at ran
  split at ran
  · rcases query_trace ran with ⟨_, rfl, _⟩
    exact .inr ⟨rfl, rfl, .inl rfl⟩
  rename_i line read
  split at ran
  · rcases query_trace ran with ⟨_, rfl, _⟩
    exact .inr ⟨rfl, rfl, .inl rfl⟩
  rename_i host port parsed
  split at ran
  · rcases query_trace ran with ⟨_, rfl, _⟩
    exact .inr ⟨rfl, rfl, .inr rfl⟩
  rename_i passed
  left
  rcases parseConnectLine_eq_ok parsed with ⟨authority, version, words, framed⟩
  refine ⟨host, port, ⟨line, authority, version, read, words, framed⟩, ?_, ran⟩
  unfold checkTarget at passed
  split at passed
  · cases passed
  · rename_i allowed
    exact allowed

/-- Where the proxy tries to open a connection, the request was a CONNECT to a
target that the policy allows, there was one resolution, the address is one of
it, and all of them may be dialled.  Where no connection opens, the one
response is a refusal. -/
theorem dials_only_vetted {permit : Bool} {client : Client}
    {trace : List Happened} {result : Except Empty Unit}
    (ran : (handleAccept permit client).Trace trace result) :
    (∀ dial ∈ dials trace, ∃ host answer,
      ConnectRequest client host dial.2.1 ∧
        evaluateEgressTarget host dial.2.1 = .allow ∧
        resolutions trace = [(host, .ok answer)] ∧ dial.1 ∈ answer ∧
        ∀ candidate ∈ answer, evaluateIp candidate = .allow) ∧
      ((∀ dial ∈ dials trace, dial.2.2 = false) →
        ∃ status, status ≠ .established ∧ responses trace = [status]) := by
  cases permit with
  | false =>
    rcases query_trace ran with ⟨_, rfl, _⟩
    exact ⟨by simp [dials], fun _ => ⟨.serviceUnavailable, by simp, rfl⟩⟩
  | true =>
    rcases serveConnection_trace ran with
      ⟨host, port, requested, allowed, served⟩ | ⟨_, undialled, refused⟩
    · cases served with
      | ask resolved continues =>
          rcases serveResolved_trace continues with ⟨once, outcome⟩
          rename_i rest
          have one : resolutions (⟨.resolve host, resolved⟩ :: rest) =
              [(host, resolved)] := congrArg (List.cons (host, resolved)) once
          have same : dials (⟨.resolve host, resolved⟩ :: rest) =
              dials rest := rfl
          have spoken : responses (⟨.resolve host, resolved⟩ :: rest) =
              responses rest := rfl
          rw [one, same, spoken]
          rcases outcome with ⟨undialled, refused⟩ |
            ⟨validated, checked, among, outcome⟩
          · rw [undialled, refused]
            exact ⟨by simp, fun _ => ⟨.forbidden, by simp, rfl⟩⟩
          · rcases checkCandidates_eq_ok checked with ⟨answered, vetted⟩
            refine ⟨fun dial member => ?_, fun unopened => ?_⟩
            · rcases among dial member with ⟨inside, named⟩
              rw [named]
              exact ⟨host, validated, requested, allowed,
                congrArg (fun answer => [(host, answer)]) answered, inside,
                vetted⟩
            · rcases outcome with ⟨⟨dial, member, opened⟩, _⟩ | ⟨_, refused⟩
              · rw [unopened dial member] at opened
                cases opened
              · exact ⟨.badGateway, by simp, refused⟩
    · rw [undialled]
      refine ⟨by simp, fun _ => ?_⟩
      rcases refused with refused | refused
      · exact ⟨.badRequest, by simp, refused⟩
      · exact ⟨.forbidden, by simp, refused⟩

end Requests

/-! ## A trace -/

/-- A CONNECT to the database. -/
def osvClient : Client where
  bytes := "CONNECT api.osv.dev:443 HTTP/1.1\r\n\r\n".toList.map
    fun character => UInt8.ofNat character.toNat
  inTime := true

/-- The name resolves to two addresses, and the second one answers. -/
def osvTrace : List Happened :=
  [⟨.resolve "api.osv.dev", .ok [.v4 0x22000001, .v4 0x22000002]⟩,
    ⟨.connect (.v4 0x22000001) 443, false⟩,
    ⟨.connect (.v4 0x22000002) 443, true⟩,
    ⟨.respond .established, ()⟩, ⟨.tunnel, ()⟩]

theorem osvTrace_ran :
    (@handleAccept .ascii true osvClient).Trace osvTrace (.ok ()) := by
  let _ : UnicodeTables := .ascii
  have read : osvClient.requestLine =
      some "CONNECT api.osv.dev:443 HTTP/1.1".toList := by
    decide
  have parsed : parseConnectLine "CONNECT api.osv.dev:443 HTTP/1.1" =
      .ok ("api.osv.dev".toList, 443) := by
    decide
  have allowed : evaluateEgressTarget "api.osv.dev" 443 = .allow := by
    decide
  have passed : checkTarget "api.osv.dev" 443 = .ok () := by
    unfold checkTarget
    rw [allowed]
  have served : serveConnection osvClient = serveTarget "api.osv.dev" 443 := by
    unfold serveConnection
    simp only [read, parsed, passed]
  show (serveConnection osvClient).Trace osvTrace (.ok ())
  rw [served]
  have checked : checkCandidates (.ok [.v4 0x22000001, .v4 0x22000002]) =
      .ok [.v4 0x22000001, .v4 0x22000002] := by
    decide
  have dialled : (serveResolved 443
      (.ok [.v4 0x22000001, .v4 0x22000002])).Trace osvTrace.tail (.ok ()) := by
    unfold serveResolved
    rw [checked]
    show (Program.ask (Statement.connect (.v4 0x22000001) 443) _).Trace _ _
    refine .ask _ ?_
    show (Program.ask (Statement.connect (.v4 0x22000002) 443) _).Trace _ _
    refine .ask _ ?_
    show (Program.ask (Statement.respond .established) _).Trace _ _
    refine .ask _ ?_
    show (Program.ask Statement.tunnel _).Trace _ _
    exact .ask _ .done
  show (Program.ask (Statement.resolve "api.osv.dev") fun answer =>
    serveResolved 443 answer).Trace osvTrace (.ok ())
  exact .ask _ dialled

/-- The address that was dialled second belongs to the judged resolution. -/
theorem dials_only_vetted_osvTrace :
    ∃ host answer, ConnectRequest osvClient host 443 ∧
      @evaluateEgressTarget .ascii host 443 = .allow ∧
      resolutions osvTrace = [(host, .ok answer)] ∧
      .v4 0x22000002 ∈ answer ∧
      ∀ candidate ∈ answer, evaluateIp candidate = .allow :=
  (@dials_only_vetted .ascii _ _ _ _ osvTrace_ran).1
    (.v4 0x22000002, 443, true) (by simp [dials, osvTrace])

end FireCrow.Services.Egress
