/-
Module: Warehouse.Proofs.Run.LogRows
Purpose: The log of a run has a row for each attempt. The rows of a step are made of the result of
  the step and of the attempts that are recorded for its dataset. Where datasets are told apart by
  their written keys, these are the attempts at the step and no others, so that the rows tell one
  after another what the loader was asked and answered for the step; a step that was passed over has
  one row.
Trusted boundary: none
Main exports: Account.PassedOver, AccountsFor, runSteps_accounted, RowsTell, row_per_attempt
-/
import Warehouse.Proofs.Lists
import Warehouse.Proofs.Run.Attempts
import Warehouse.Proofs.Run.Blocking
import Warehouse.Proofs.Run.FailFast
import Warehouse.Run.Log

namespace Warehouse

/-! ### The accounts of a run -/

/-- A step that was not handed to the loader. -/
structure Account.PassedOver (a : Account) : Prop where
  exchanges : a.exchanges = []
  attempts : a.attempts = []
  dataset : a.result.dataset = a.step.key.display
  status : a.result.status = .skipped
  untried : a.result.attemptNo = 0

/-- The outcome of a run and what was asked and answered in it, read off the accounts of its
steps. -/
structure AccountsFor (batchId : String) (policy : RunPolicy) (steps : List RunStep) (o : Outcome)
    (log : List Exchange) (accounts : List Account) : Prop where
  steps : accounts.map Account.step = steps
  results : o.results = accounts.map Account.result
  attempts : o.attempts = accounts.flatMap Account.attempts
  log : log = accounts.flatMap Account.exchanges
  each : ∀ a ∈ accounts, a.PassedOver ∨ a.TriedFrom batchId policy policy.retries 1

section

variable {batchId : String} {policy : RunPolicy} {steps : List RunStep} {o : Outcome}
    {log : List Exchange}
  {accounts : List Account}

/-- Another step in front brings another account in front. -/
theorem AccountsFor.cons (rest : AccountsFor batchId policy steps o log accounts) {a : Account}
    (first : a.PassedOver ∨ a.TriedFrom batchId policy policy.retries 1) :
    AccountsFor batchId policy (a.step :: steps) (o.after a.result a.attempts) (a.exchanges ++ log)
      (a :: accounts) where
  steps := by rw [List.map_cons, rest.steps]
  results := by rw [Outcome.after, rest.results, List.map_cons]
  attempts := by rw [Outcome.after, rest.attempts, List.flatMap_cons]
  log := by rw [rest.log, List.flatMap_cons]
  each := List.forall_mem_cons.mpr ⟨first, rest.each⟩

private theorem passedOver_blocked (step : RunStep) (root : String) :
    Account.PassedOver ⟨step, [], [], blocked step root⟩ := ⟨rfl, rfl, rfl, rfl, rfl⟩

/-- The steps after the end of a run are passed over. -/
theorem accountsFor_aborted (batchId : String) (policy : RunPolicy) (ended : DatasetKey)
    (rest : List RunStep) :
    AccountsFor batchId policy rest ⟨false, rest.map (abortedAfter ended), []⟩ []
      (rest.map fun step => ⟨step, [], [], abortedAfter ended step⟩) where
  steps := by simp [Function.comp_def]
  results := by simp
  attempts := by simp
  log := by simp
  each a member := by
    obtain ⟨step, -, rfl⟩ := List.mem_map.mp member
    exact .inl ⟨rfl, rfl, rfl, rfl, rfl⟩

end

/-- Each step of a run is passed over, or tried as often as it can be and as may help. Keeping what
is asked and answered changes nothing else. -/
theorem runSteps_accounted {σ : Type} (load : Loader (StateM σ)) (batchId : String)
    (policy : RunPolicy) (steps : List RunStep) (past : Fates) (s : σ) (log : List Exchange) :
    ∃ accounts o s' new,
      (runSteps load batchId policy steps past).run s = pure (o, s') ∧
      (runSteps (transcribing load) batchId policy steps past).run (s, log) =
        pure (o, s', log ++ new) ∧
      AccountsFor batchId policy steps o new accounts := by
  induction steps generalizing past s log with
  | nil =>
    exact ⟨[], .empty, s, [], by simp [runSteps], by simp [runSteps], rfl, rfl, rfl, rfl, by simp⟩
  | cons step rest ih =>
    cases behind : step.inputs.findSome? past.failureBehind? with
    | some root =>
      obtain ⟨accounts, o, s', new, plain, kept, accounted⟩ :=
        ih ((step.key, .blocked root) :: past) s log
      refine ⟨_, _, s', _, ?_, ?_, accounted.cons (.inl (passedOver_blocked step root))⟩
      · simp only [runSteps, behind, StateT.run_bind, plain, pure_bind, StateT.run_pure]
      · simp only [runSteps, behind, StateT.run_bind, kept, pure_bind, StateT.run_pure,
          List.nil_append]
    | none =>
      obtain ⟨a, s₁, rfl, plainly, tried, account⟩ :=
        attemptStep_triedFrom batchId policy step load policy.retries 1 s log
      by_cases stops : a.result.status = .error ∧ ¬ policy.continueOnError
      · refine ⟨_, _, s₁, _, ?_, ?_,
          (accountsFor_aborted batchId policy a.step.key rest).cons (.inr account)⟩
        · simp only [runSteps, behind, StateT.run_bind, plainly, pure_bind, if_pos stops,
            StateT.run_pure]
        · simp only [runSteps, behind, StateT.run_bind, tried, pure_bind, if_pos stops,
            StateT.run_pure, List.append_nil]
      · obtain ⟨accounts, o, s', new, plain, kept, accounted⟩ :=
          ih ((a.step.key, .ofResult a.result) :: past) s₁ (log ++ a.exchanges)
        refine ⟨_, _, s', _, ?_, ?_, accounted.cons (.inr account)⟩
        · simp only [runSteps, behind, StateT.run_bind, plainly, pure_bind, if_neg stops, plain,
            StateT.run_pure]
        · simp only [runSteps, behind, StateT.run_bind, tried, pure_bind, if_neg stops, kept,
            StateT.run_pure, List.append_assoc]

/-! ### What is a step's own -/

section

variable {batchId : String} {policy : RunPolicy} {retries first : Nat} {a : Account}

/-- The result of a step names its dataset. -/
theorem Account.TriedFrom.dataset_eq (tried : a.TriedFrom batchId policy retries first) :
    a.result.dataset = a.step.key.display := by
  obtain ⟨e, -, -, result, -⟩ := tried.last
  rw [result]
  cases e.answer <;> rfl

/-- All calls for a step are of this step. -/
theorem Account.TriedFrom.own (tried : a.TriedFrom batchId policy retries first) {e : Exchange}
    (member : e ∈ a.exchanges) : e.call.step = a.step := by
  have called := List.mem_map_of_mem (f := Exchange.call) member
  rw [tried.calls] at called
  obtain ⟨n, -, call⟩ := List.mem_map.mp called
  rw [← call]

/-- The attempts at a step are recorded under the key of its dataset. -/
theorem Account.TriedFrom.dataset_of_mem (tried : a.TriedFrom batchId policy retries first)
    {attempt : Attempt} (member : attempt ∈ a.attempts) : attempt.dataset = a.step.key.display := by
  rw [tried.attempts] at member
  obtain ⟨e, among, rfl⟩ := List.mem_map.mp member
  rw [← tried.own among]
  rfl

namespace AccountsFor

variable {steps : List RunStep} {o : Outcome} {log : List Exchange} {accounts : List Account}
  (accounted : AccountsFor batchId policy steps o log accounts)
  (distinct : (steps.map fun step => step.key.display).Nodup)

include accounted

theorem dataset_eq (member : a ∈ accounts) : a.result.dataset = a.step.key.display :=
  (accounted.each a member).elim Account.PassedOver.dataset Account.TriedFrom.dataset_eq

/-- The results name the datasets of the steps, in order. -/
theorem datasets_eq : o.results.map StepResult.dataset = steps.map fun step =>
    step.key.display := by
  rw [accounted.results, ← accounted.steps, List.map_map, List.map_map]
  exact List.map_congr_left fun a member => accounted.dataset_eq member

include distinct

/-- Where no two datasets are written alike, the attempts under the key of a dataset are those at
its step. -/
theorem attemptsOf_eq (member : a ∈ accounts) : o.attemptsOf a.result.dataset = a.attempts := by
  rw [← accounted.steps, List.map_map] at distinct
  rw [Outcome.attemptsOf, accounted.attempts, accounted.dataset_eq member]
  have tagged : ∀ a ∈ accounts, ∀ attempt ∈ a.attempts, attempt.dataset = a.step.key.display := by
    intro a member attempt among
    rcases accounted.each a member with passed | tried
    · rw [passed.attempts] at among
      cases among
    · exact tried.dataset_of_mem among
  exact filter_flatMap_eq tagged distinct member

/-- What was asked for a step is what was asked when it was its turn. -/
theorem exchanges_eq (member : a ∈ accounts) :
    (log.filter fun e => e.call.step = a.step) = a.exchanges := by
  have apart : (accounts.map Account.step).Nodup := by
    rw [accounted.steps]
    exact distinct.of_map _
  rw [accounted.log]
  refine filter_flatMap_eq ?_ apart member
  intro a' member' e among
  rcases accounted.each a' member' with passed | tried
  · rw [passed.exchanges] at among
    cases among
  · exact tried.own among

end AccountsFor

end

/-! ### The rows of a step -/

/-- How the log has the status that a step ended with. -/
def StepStatus.logged (executed : Bool) : StepStatus → LogStatus
  | success => if executed then .success else .dryRun
  | error => .error
  | _ => .skipped

/-- A row for an attempt that was followed by another: it tells what was answered. -/
structure LogRecord.TellsRetry (row : LogRecord) (e : Exchange) : Prop where
  status : row.status = .error
  reason : row.reason? = some "retried"
  message : ∃ f, e.answer = some f ∧ row.errorMessage? = some f.message

/-- The last row of a step: it tells what became of the step. -/
structure LogRecord.TellsEnd (row base : LogRecord) (executed : Bool) (result : StepResult) :
    Prop where
  status : row.status = result.status.logged executed
  reason : row.reason? = result.reason?
  blockedBy : row.blockedBy? = result.blockedBy?
  message : row.status = .error → row.errorMessage? = result.message?
  /-- A record that was started without an error message has one exactly if the step ended in an
  error. -/
  message_iff : base.errorMessage? = none → (row.errorMessage?.isSome ↔ row.status = .error)

/-- The rows of a step: one for each attempt in order, or a single one if there was none. -/
structure RowsTell (rows : List LogRecord) (base : LogRecord) (executed : Bool)
    (result : StepResult) (exchanges : List Exchange) : Prop where
  count : rows.length = max 1 exchanges.length
  numbers : rows.map LogRecord.attemptNo = if exchanges = [] then [0]
    else List.range' 1 exchanges.length
  retried : List.Forall₂ LogRecord.TellsRetry rows.dropLast exchanges.dropLast
  ended : ∃ row, rows.getLast? = some row ∧ row.TellsEnd base executed result

section

variable {base : LogRecord} {executed : Bool} {now : Timestamp} {a : Account} {batchId : String}
    {policy : RunPolicy}
  {retries : Nat}

private theorem logged_eq_error_iff {status : StepStatus} : status.logged executed = .error ↔
    status = .error := by
  cases status <;> cases executed <;> simp [StepStatus.logged]

private theorem status_finish (base : LogRecord) (result : StepResult) (executed : Bool)
    (now : Timestamp) :
    (base.finish result executed now).status = result.status.logged executed := by
  cases status :
    result.status <;> simp [LogRecord.finish, LogRecord.successStatus, StepStatus.logged, status]

/-- The last row of a step tells what became of it. -/
theorem finish_tellsEnd {result : StepResult}
    (explained : result.status = .error → result.message?.isSome) :
    (base.finish result executed now).TellsEnd base executed result where
  status := status_finish base result executed now
  reason := rfl
  blockedBy := rfl
  message failed := by
    rw [status_finish, logged_eq_error_iff] at failed
    exact if_pos failed
  message_iff fresh := by
    rw [status_finish, logged_eq_error_iff, LogRecord.finish]
    by_cases failed : result.status = .error
    · simp only [failed, if_pos, iff_true]
      exact explained failed
    · simp [failed, fresh]

/-- A step that is passed over has one row. -/
theorem stepRecords_passedOver (passed : a.PassedOver) :
    stepRecords base a.result a.attempts executed now = [base.finish a.result executed now] := by
  rw [stepRecords, passed.attempts]
  rfl

/-- A step that is tried has a row for each attempt before the last, and one for its result. -/
theorem stepRecords_tried (tried : a.TriedFrom batchId policy retries 1) :
    stepRecords base a.result a.attempts executed now =
      (a.exchanges.dropLast.map fun e => base.finishAttempt (e.record true) executed now) ++
        [base.finish a.result executed now] := by
  obtain ⟨earlier, e, split, numbered, before⟩ := tried.exists_last
  have kept : (a.attempts.filter fun attempt => attempt.attemptNo < a.result.attemptNo) =
      earlier.map fun e => e.record true := by
    rw [tried.attempts, split, List.map_append, List.filter_append]
    have last : ([e].map fun e => e.record (e.call.attemptNo < a.result.attemptNo)).filter
        (fun attempt => attempt.attemptNo < a.result.attemptNo) = [] := by
      simp [Exchange.record, numbered]
    rw [last, List.append_nil, List.filter_eq_self.mpr]
    · exact List.map_congr_left fun e' member => by rw [decide_eq_true (before e' member)]
    · intro attempt member
      obtain ⟨e', among, rfl⟩ := List.mem_map.mp member
      exact decide_eq_true (before e' among)
  rw [stepRecords, kept, split, List.dropLast_concat, List.map_map]
  rfl

private theorem rowsTell_passedOver (passed : a.PassedOver) :
    RowsTell (stepRecords base a.result a.attempts executed now) base executed a.result
      a.exchanges := by
  rw [stepRecords_passedOver passed, passed.exchanges]
  refine ⟨rfl, ?_, .nil, _, rfl, finish_tellsEnd fun failed => ?_⟩
  · rw [List.map_singleton, LogRecord.finish, passed.untried, if_pos rfl]
  · rw [passed.status] at failed
    cases failed

private theorem rowsTell_tried (tried : a.TriedFrom batchId policy policy.retries 1) :
    RowsTell (stepRecords base a.result a.attempts executed now) base executed a.result
      a.exchanges := by
  have follows := tried.followsPolicy
  obtain ⟨earlier, e, split, numbered, before⟩ := tried.exists_last
  have numbers := tried.numbers
  rw [stepRecords_tried tried, split, List.dropLast_concat]
  rw [split] at numbers
  refine ⟨?_, ?_, ?_, _, List.getLast?_concat, finish_tellsEnd fun failed => ?_⟩
  · simp
  · rw [if_neg (by simp), ← numbers, List.map_append, List.map_append, List.map_map,
      List.map_singleton, List.map_singleton, numbered]
    rfl
  · rw [List.dropLast_concat, List.dropLast_concat, List.forall₂_map_left_iff, List.forall₂_same]
    intro e' member
    obtain ⟨f, answer, -⟩ := tried.earlier e' (by simp [split, member]) (before e' member)
    exact ⟨by simp [LogRecord.finishAttempt, Exchange.record, answer], rfl, f, answer,
      by simp [LogRecord.finishAttempt, Exchange.record, answer]⟩
  · cases failure : a.lastFailure? with
    | none =>
      rw [follows.success_iff.mpr failure] at failed
      cases failed
    | some f =>
      rw [(follows.failure f failure).2]
      rfl

end

/-- The log of a run has a row for each call that is made for a step, in order, and one row for a
step for which none is made: all rows but the last tell of an attempt that was followed by another,
and the last one of the end of the step. -/
theorem row_per_attempt {σ : Type} (load : Loader (StateM σ)) (plan : RunPlan) (policy : RunPolicy)
    (distinct : (plan.steps.map fun step => step.key.display).Nodup)
    (bounded : policy.maxRetries.toNat + 1 < UInt32.size) (s : σ) :
    ∃ o s' log,
      (runPlan load plan policy).run s = pure (o, s') ∧
      (runPlan (transcribing load) plan policy).run (s, []) = pure (o, s', log) ∧
      o.results.map StepResult.dataset = (plan.steps.map fun step => step.key.display) ∧
      ∀ step result, plan.Got o step result →
        (log.filter fun e => e.call.step = step).length < UInt32.size ∧
        ∀ (base : LogRecord) (executed : Bool) (now : Timestamp),
          RowsTell (stepRecords base result (o.attemptsOf result.dataset) executed now) base
            executed result (log.filter fun e => e.call.step = step) := by
  obtain ⟨accounts, o, s', log, plain, kept, accounted⟩ :=
    runSteps_accounted load plan.batchId policy plan.steps [] s []
  refine ⟨o, s', log, plain, kept, accounted.datasets_eq, fun step result got => ?_⟩
  rw [RunPlan.Got, accounted.results, ← accounted.steps, List.zip_map', List.mem_map] at got
  obtain ⟨a, member, same⟩ := got
  cases same
  rw [accounted.exchanges_eq distinct member, accounted.attemptsOf_eq distinct member]
  rcases accounted.each a member with passed | tried
  · refine ⟨?_, fun base executed now => rowsTell_passedOver passed⟩
    rw [passed.exchanges]
    decide
  · refine ⟨?_, fun base executed now => rowsTell_tried tried⟩
    have within := tried.within
    have := policy.retries_le
    omega

/-- Two in the morning. -/
def atNight : Timestamp := ⟨⟨2024, 5, 1⟩, 2, 0, 0, 0⟩

/-- What the rows for the results of a run tell of the attempts, when all are made of one started
record. -/
def attemptsInRows (o : Outcome) : List (List (Nat × Option String)) :=
  o.results.map fun result =>
    (stepRecords (.started "b7" "r1" ⟨"stage", "customer"⟩ "warehouse" "dev" atNight) result
      (o.attemptsOf result.dataset) true atNight).map fun row => (row.attemptNo, row.reason?)

/-- The rows of a night: two for the customers, who are read at the second attempt, two for the
products, which are never read, and one each for the orders, which are passed over, and the
calendar. -/
theorem row_per_attempt_for_night :
    (nightlyPlan.steps.map fun step => step.key.display).Nodup ∧
    (1 : UInt32).toNat + 1 < UInt32.size ∧ ∃ o s' log,
      (runPlan sourceLoader nightlyPlan ⟨true, true, 1⟩).run 0 = pure (o, s') ∧
      (runPlan (transcribing sourceLoader) nightlyPlan ⟨true, true, 1⟩).run (0, []) =
        pure (o, s', log) ∧
      (∀ step result, nightlyPlan.Got o step result →
        ∀ (base : LogRecord) (executed : Bool) (now : Timestamp),
        RowsTell (stepRecords base result (o.attemptsOf result.dataset) executed now) base
          executed result (log.filter fun e => e.call.step = step)) ∧
      attemptsInRows o =
        [[(1, some "retried"), (2, some "succeeded_after_retry")],
          [(1, some "retried"), (2, some "retries_exhausted")],
          [(0, some "upstream_failed")],
          [(1, none)]] := by
  have distinct : (nightlyPlan.steps.map fun step => step.key.display).Nodup := by decide
  obtain ⟨o, s', log, plain, kept, -, tell⟩ :=
    row_per_attempt sourceLoader nightlyPlan ⟨true, true, 1⟩ distinct (by decide) 0
  have outcome : ((runPlan sourceLoader nightlyPlan ⟨true, true, 1⟩).run 0).1 = o :=
    congrArg Prod.fst plain
  refine ⟨distinct,
    by decide, o, s', log, plain, kept, fun step result got => (tell step result got).2, ?_⟩
  rw [← outcome]
  rfl

end Warehouse
