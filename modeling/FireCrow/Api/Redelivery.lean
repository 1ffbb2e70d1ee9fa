import FireCrow.Api.GateInvariants

/-!
# Redeliveries

However the calls for one delivery interleave with each other, with other
submissions and with crashes, the delivery has at most one job.  A call that
misses the job of its delivery in the first select goes through the gate of
new jobs, and there the cap comes before the insert that would find the job.
-/

namespace FireCrow.Api

open FireCrow.Library FireCrow.Schemas FireCrow.Orchestrator.Execution

/-- Where the first select finds the job, or fewer jobs than the cap are
active, the call does not depend on the cap. -/
def Submission.Undisturbed (maxActive : Int) (submission : Submission) :
    Prop :=
  submission.existing.isSome = true ∨
    ∃ live, submission.live = some live ∧ (live : Int) < maxActive

theorem Submissions.Regular.attribution_unique {maxActive : Int}
    {state : Submissions} (regular : state.Regular maxActive)
    {left right : Attribution} (inLeft : left ∈ state.attributions)
    (inRight : right ∈ state.attributions)
    (same : left.deliveryId = right.deliveryId) : left = right :=
  List.inj_on_of_nodup_map regular.deliveries inLeft inRight same

/-- In every run a delivery has at most one job; and every call for the
delivery that the database answered returns that job, whenever the job was
created, exactly when its first select has found it or its count was below
the cap.  Otherwise it was refused at the cap. -/
theorem redelivery_returns_job_iff {maxActiveJobs : Int}
    {config : GateConfiguration}
    (reachable : GateReachable maxActiveJobs anyStep config) :
    (config.state.attributions.map Attribution.deliveryId).Nodup ∧
      ∀ response ∈ config.state.responses, ∀ deliveryId submission,
        response = ⟨some deliveryId, .ok submission⟩ →
          ∀ jobId, ⟨jobId, deliveryId⟩ ∈ config.state.attributions →
            (submission.result = .ok jobId ↔
              submission.Undisturbed (max maxActiveJobs 1)) := by
  have regular := reachable.sound.inv
  refine ⟨regular.deliveries, ?_⟩
  rintro _ member deliveryId submission rfl jobId attributed
  have justified : submission.Justified (max maxActiveJobs 1) config.state
      deliveryId := regular.responses _ member deliveryId rfl
  unfold Submission.Justified at justified
  cases result : submission.result with
  | ok returned =>
      rw [result] at justified
      have same := regular.attribution_unique justified.1 attributed rfl
      cases same
      exact ⟨fun _ => justified.2, fun _ => rfl⟩
  | error error =>
      rw [result] at justified
      rcases justified with ⟨missed, live, counted, full, _⟩
      refine ⟨nofun, ?_⟩
      rintro (found | ⟨other, recounted, below⟩)
      · rw [missed] at found
        cases found
      · rw [counted] at recounted
        cases recounted
        exact absurd below (not_lt.2 full)

/-- Two calls for one delivery at a cap of one: both miss the job, the first
creates it, and the second finds the cap reached. -/
def racedDelivery : GateConfiguration :=
  (gateMachine 1).schedule (fun _ _ => true) gateStart
    [.call 0 (.submit "job-1" "user-1" (some "delivery-1")),
      .call 1 (.submit "job-2" "user-1" (some "delivery-1")),
      .advance 0 1, .advance 1 1, .advance 0 4, .advance 1 3]

theorem racedDelivery_reachable : GateReachable 1 anyStep racedDelivery := by
  have admits : Admits (gateMachine 1) (fun _ _ => true) anyStep :=
    ⟨fun _ => trivial, trivial, trivial, fun _ => trivial⟩
  exact admits.schedule gateStart _

theorem racedDelivery_responses :
    racedDelivery.state.responses =
      [⟨some "delivery-1", .ok ⟨none, some 0, .ok "job-1"⟩⟩,
        ⟨some "delivery-1", .ok ⟨none, some 1,
          .error (tooManyActive 1 1)⟩⟩] := by
  decide +kernel

theorem racedDelivery_created :
    (⟨"job-1", "delivery-1"⟩ : Attribution) ∈
      racedDelivery.state.attributions := by
  decide +kernel

/-- The first call finds no job and room below the cap. -/
theorem redelivery_returns_job_iff_racedDelivery :
    (⟨none, some 0, .ok "job-1"⟩ : Submission).Undisturbed 1 := by
  refine ((redelivery_returns_job_iff racedDelivery_reachable).2 _ ?_
    "delivery-1" _ rfl "job-1" racedDelivery_created).1 rfl
  rw [racedDelivery_responses]
  exact List.mem_cons_self

theorem racedDelivery_refused :
    ¬ ∀ maxActiveJobs config, GateReachable maxActiveJobs anyStep config →
      ∀ response ∈ config.state.responses, ∀ deliveryId submission,
        response = ⟨some deliveryId, .ok submission⟩ →
          ∀ jobId, ⟨jobId, deliveryId⟩ ∈ config.state.attributions →
            submission.result = .ok jobId := by
  intro returns
  have second : (⟨some "delivery-1", .ok ⟨none, some 1,
      .error (tooManyActive 1 1)⟩⟩ : Response) ∈
        racedDelivery.state.responses := by
    rw [racedDelivery_responses]
    exact List.mem_cons_of_mem _ List.mem_cons_self
  have returned := returns 1 racedDelivery racedDelivery_reachable _ second
    "delivery-1" _ rfl "job-1" racedDelivery_created
  cases returned

end FireCrow.Api
