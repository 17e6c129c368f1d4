/-
Module: Warehouse.Proofs.Run.Attempts
Purpose: How often a step is tried, what is recorded of the attempts, and why a step is given up.
  The loader may be any that answers a call depending on the calls before; it is watched by one that
  keeps each call with its answer. A step is tried up to the first attempt after which the policy
  allows no other. The reason for which it is given up is that of its last failure, unless that
  failure cannot be helped by another attempt and came after one that could.
Trusted boundary: none
Main exports: Exchange, transcribing, Account, Account.Happens, RunPolicy.Ends, FollowsPolicy,
  TriedFrom, attemptStep_triedFrom, retries_follow_policy, attempts_exceed_iff, TellsReason,
  reason_told_iff
-/
import Mathlib.Data.List.Nodup
import Warehouse.Proofs.Run.Trace

namespace Warehouse

/-- A call of a loader, and the failure that it answered, if it was one. -/
structure Exchange where
  call : StepCall
  answer : Option StepFailure

/-- A loader with a state, which also keeps what it was asked and what it answered. -/
def transcribing {σ : Type} (load : Loader (StateM σ)) : Loader (StateM (σ × List Exchange)) :=
  fun call => do
  let (s, log) ← get
  let (answer, s') := (load call).run s
  set (s', log ++ [⟨call, answer⟩])
  return answer

/-- The record of an attempt: whether it went well, what it said if not, and whether another
followed. -/
def Exchange.record (e : Exchange) (retried : Bool) : Attempt :=
  ⟨e.call.step.key.display, e.call.attemptNo, if e.answer = none then .success else .error, retried,
    e.answer.map StepFailure.message⟩

/-- A step, what was asked and answered for it, what was recorded of that, and what became of the
step. -/
structure Account where
  step : RunStep
  exchanges : List Exchange
  attempts : List Attempt
  result : StepResult

/-- Whether an account is that of its step when the step is handed to a loader. -/
def Account.Happens {σ : Type} (a : Account) (load : Loader (StateM σ)) (batchId : String)
    (policy : RunPolicy) (s : σ) : Prop :=
  ∃ s', (attemptStep load batchId a.step policy policy.retries 1).run s =
    pure ((a.result, a.attempts), s') ∧
    (attemptStep (transcribing load) batchId a.step policy policy.retries 1).run (s, []) =
      pure ((a.result, a.attempts), s', a.exchanges)

/-- The failure of the last attempt, if it failed. -/
def Account.lastFailure? (a : Account) : Option StepFailure :=
  a.exchanges.getLast?.bind Exchange.answer

/-- Whether an attempt is the last that the policy allows: it went well, no other can help, as many
as allowed were made, or the run does not execute. -/
def RunPolicy.Ends (p : RunPolicy) (attemptNo : Nat) (answer : Option StepFailure) : Prop :=
  answer = none ∨ (∃ f, answer = some f ∧ f.retriable = false) ∨
    attemptNo = p.maxRetries.toNat + 1 ∨ p.execute = false

/-- Whether a step was tried as the policy says, with the number in its result as that of the last
attempt. -/
structure Account.FollowsPolicy (a : Account) (batchId : String) (policy : RunPolicy) : Prop where
  attempted : 1 ≤ a.result.attemptNo
  /-- The calls are for the attempts from the first to the last, in order. -/
  calls : a.exchanges.map Exchange.call =
    (List.range' 1 a.result.attemptNo).map fun n => ⟨batchId, a.step, n, policy.execute⟩
  /-- The last attempt is the first after which the policy allows no other. -/
  ends_iff : ∀ e ∈ a.exchanges, policy.Ends e.call.attemptNo e.answer ↔
    e.call.attemptNo = a.result.attemptNo
  /-- Each attempt is recorded, and all but the last as retried. -/
  attempts : a.attempts = a.exchanges.map fun e => e.record (e.call.attemptNo < a.result.attemptNo)
  success_iff : a.result.status = .success ↔ a.lastFailure? = none
  failure : ∀ f, a.lastFailure? = some f → a.result.status = .error ∧
    a.result.message? = some f.message
  dryRun : policy.execute = false → a.result.attemptNo = 1

/-- A step has one account with a loader. -/
theorem Account.Happens.unique {σ : Type} {load : Loader (StateM σ)} {batchId : String}
    {policy : RunPolicy} {s : σ} {a a' : Account} (happens : a.Happens load batchId policy s)
    (happens' : a'.Happens load batchId policy s) (same : a.step = a'.step) : a = a' := by
  obtain ⟨s₁, -, kept⟩ := happens
  obtain ⟨s₂, -, kept'⟩ := happens'
  rw [same] at kept
  have equal : ((a.result, a.attempts), s₁, a.exchanges) =
      ((a'.result, a'.attempts), s₂, a'.exchanges) :=
    kept.symm.trans kept'
  cases a
  cases a'
  cases same
  cases equal
  rfl

/-! ### One step -/

/-- What is so of a step that was tried from the `first` time on, when it could be tried again
`retries` times. -/
structure Account.TriedFrom (a : Account) (batchId : String) (policy : RunPolicy)
    (retries first : Nat) : Prop where
  calls : a.exchanges.map Exchange.call =
    (List.range' first a.exchanges.length).map fun n => ⟨batchId, a.step, n, policy.execute⟩
  counted : a.result.attemptNo + 1 = first + a.exchanges.length
  within : a.exchanges.length ≤ retries + 1
  earlier : ∀ e ∈ a.exchanges, e.call.attemptNo < a.result.attemptNo →
    ∃ f, e.answer = some f ∧ f.retriable = true
  attempts : a.attempts = a.exchanges.map fun e => e.record (e.call.attemptNo < a.result.attemptNo)
  last : ∃ e, a.exchanges.getLast? = some e ∧ e.call.attemptNo = a.result.attemptNo ∧
    a.result = (lastAttempt a.step policy.kind e.call.attemptNo e.answer).1 ∧
    (a.exchanges.length = retries + 1 ∨ e.answer.filter StepFailure.retriable = none)

section

variable {batchId : String} {policy : RunPolicy} {step : RunStep}

private theorem attemptNo_lastAttempt (step : RunStep) (kind : StepKind) (attemptNo : Nat)
    (answer : Option StepFailure) :
    (lastAttempt step kind attemptNo answer).1.attemptNo = attemptNo := by
  cases answer <;> rfl

/-- The account of a step that is tried once more and then no longer. -/
def Account.once (batchId : String) (policy : RunPolicy) (step : RunStep) (attemptNo : Nat)
    (answer : Option StepFailure) : Account where
  step
  exchanges := [⟨⟨batchId, step, attemptNo, policy.execute⟩, answer⟩]
  attempts := (lastAttempt step policy.kind attemptNo answer).2
  result := (lastAttempt step policy.kind attemptNo answer).1

/-- The account of a step that failed before it was tried again. -/
def Account.afterFailure (a : Account) (batchId : String) (policy : RunPolicy) (attemptNo : Nat)
    (f : StepFailure) : Account where
  step := a.step
  exchanges := ⟨⟨batchId, a.step, attemptNo, policy.execute⟩, some f⟩ :: a.exchanges
  attempts := ⟨a.step.key.display, attemptNo, .error, true, some f.message⟩ :: a.attempts
  result := a.result

private theorem triedFrom_once {retries first : Nat} {answer : Option StepFailure}
    (ends : retries = 0 ∨ answer.filter StepFailure.retriable = none) :
    (Account.once batchId policy step first answer).TriedFrom batchId policy retries first where
  calls := rfl
  counted := by rw [Account.once, attemptNo_lastAttempt]; rfl
  within := Nat.le_add_left 1 retries
  earlier e member before := by
    rw [List.mem_singleton.mp member, Account.once, attemptNo_lastAttempt] at before
    exact absurd before (Nat.lt_irrefl first)
  attempts := by
    cases answer <;> simp [Account.once, lastAttempt, Exchange.record, succeeded, failed]
  last := by
    refine ⟨_, rfl, (attemptNo_lastAttempt step policy.kind first answer).symm, rfl,
      ends.imp_left fun none => ?_⟩
    rw [none]
    rfl

/-- A failure in front of an account is an account that has one retry more. -/
theorem Account.TriedFrom.afterFailure {a : Account} {retries first : Nat} {f : StepFailure}
    (tried : a.TriedFrom batchId policy retries (first + 1)) (retriable : f.retriable = true) :
    (a.afterFailure batchId policy first f).TriedFrom batchId policy (retries + 1) first := by
  obtain ⟨e, last, numbered, result, ends⟩ := tried.last
  have later : first < a.result.attemptNo := by
    have counted := tried.counted
    have filled : 0 < a.exchanges.length := List.length_pos_iff.mpr fun none => by
      simp [none] at last
    omega
  refine ⟨?_, ?_, Nat.succ_le_succ tried.within, ?_, ?_, e, ?_, numbered, result,
    ends.imp_left (congrArg (· + 1))⟩
  · rw [Account.afterFailure, List.map_cons, tried.calls, List.length_cons, List.range'_succ,
      List.map_cons]
  · rw [Account.afterFailure, tried.counted, List.length_cons, Nat.add_right_comm, Nat.add_assoc]
  · intro e' member before
    rcases List.mem_cons.mp member with rfl | member
    · exact ⟨f, rfl, retriable⟩
    · exact tried.earlier e' member before
  · simp [Account.afterFailure, tried.attempts, Exchange.record, later]
  · rw [Account.afterFailure, List.getLast?_cons, last]
    rfl

variable {σ : Type} (load : Loader (StateM σ))

private theorem run_transcribing (call : StepCall) (s : σ) (log : List Exchange) :
    (transcribing load call).run (s, log) =
      pure (((load call).run s).1, ((load call).run s).2,
        log ++ [⟨call, ((load call).run s).1⟩]) := rfl

variable (batchId policy step) in
/-- A step is tried as often as it can be and as may help. Keeping what is asked and answered
changes nothing else. By induction on how often it can be tried again. -/
theorem attemptStep_triedFrom (retries first : Nat) (s : σ) (log : List Exchange) :
    ∃ (a : Account) (s' : σ), a.step = step ∧
      (attemptStep load batchId step policy retries first).run s =
        pure ((a.result, a.attempts), s') ∧
      (attemptStep (transcribing load) batchId step policy retries first).run (s, log) =
        pure ((a.result, a.attempts), s', log ++ a.exchanges) ∧
      a.TriedFrom batchId policy retries first := by
  induction retries generalizing first s log with
  | zero => exact ⟨_, _, rfl, rfl, rfl, triedFrom_once (.inl rfl)⟩
  | succ retries ih =>
    rcases answered : (load ⟨batchId, step, first, policy.execute⟩).run s with ⟨answer, s₁⟩
    cases again : answer.filter StepFailure.retriable with
    | none =>
      refine ⟨.once batchId policy step first answer, s₁, rfl, ?_, ?_, triedFrom_once (.inr again)⟩
      · simp only [attemptStep, StateT.run_bind, run_eq_pure answered, pure_bind, again]
        rfl
      · simp only [attemptStep, StateT.run_bind, run_transcribing, pure_bind, answered, again]
        rfl
    | some f =>
      obtain ⟨rfl, retriable⟩ := Option.filter_eq_some_iff.mp again
      obtain ⟨a, s', rfl, plain, kept, tried⟩ := ih (first + 1) s₁
        (log ++ [⟨⟨batchId, step, first, policy.execute⟩, some f⟩])
      refine ⟨a.afterFailure batchId policy first f, s', rfl, ?_, ?_, tried.afterFailure retriable⟩
      · simp only [attemptStep, StateT.run_bind, run_eq_pure answered, pure_bind, again, plain,
          StateT.run_pure]
        rfl
      · simp only [attemptStep, StateT.run_bind, run_transcribing, pure_bind, answered, again, kept,
          StateT.run_pure, List.append_assoc, List.singleton_append]
        rfl

end

/-! ### What the policy says -/

namespace Account.TriedFrom

variable {a : Account} {batchId : String} {policy : RunPolicy} {retries first : Nat}
  (tried : a.TriedFrom batchId policy retries first)

include tried

/-- The attempts are numbered one after the other. -/
theorem numbers : a.exchanges.map (fun e => e.call.attemptNo) =
    List.range' first a.exchanges.length := by
  have numbers := congrArg (List.map StepCall.attemptNo) tried.calls
  simpa [Function.comp_def] using numbers

/-- Each attempt has a number between the first and the last. -/
theorem attemptNo_mem {e : Exchange} (member : e ∈ a.exchanges) :
    first ≤ e.call.attemptNo ∧ e.call.attemptNo ≤ a.result.attemptNo := by
  have listed : e.call.attemptNo ∈ List.range' first a.exchanges.length := by
    rw [← tried.numbers]
    exact List.mem_map_of_mem member
  have counted := tried.counted
  rw [List.mem_range'_1] at listed
  omega

/-- All attempts before the last exchange have smaller numbers than the last. -/
theorem exists_last : ∃ earlier e, a.exchanges = earlier ++ [e] ∧
    e.call.attemptNo = a.result.attemptNo ∧
    ∀ e' ∈ earlier, e'.call.attemptNo < a.result.attemptNo := by
  obtain ⟨e, last, numbered, -⟩ := tried.last
  obtain ⟨earlier, split⟩ := List.getLast?_eq_some_iff.mp last
  refine ⟨earlier, e, split, numbered, fun e' member => ?_⟩
  have counted := tried.counted
  have numbers := tried.numbers
  rw [split, List.map_append, List.length_append, List.length_singleton, List.range'_concat]
    at numbers
  have listed := List.mem_map_of_mem (f := fun e : Exchange => e.call.attemptNo) member
  rw [(List.append_inj' numbers rfl).1, List.mem_range'_1] at listed
  rw [split, List.length_append, List.length_singleton] at counted
  omega

/-- Attempts are told apart by their numbers. -/
theorem eq_of_attemptNo_eq {e e' : Exchange} (member : e ∈ a.exchanges) (member' : e' ∈ a.exchanges)
    (same : e.call.attemptNo = e'.call.attemptNo) : e = e' := by
  have distinct : (a.exchanges.map fun e => e.call.attemptNo).Nodup := by
    rw [tried.numbers]
    exact List.nodup_range'
  exact List.inj_on_of_nodup_map distinct member member' same

end Account.TriedFrom

/-- No more attempts are repeated than the policy says. -/
theorem RunPolicy.retries_le (p : RunPolicy) : p.retries ≤ p.maxRetries.toNat := by
  rw [RunPolicy.retries]
  split
  · exact Nat.le_refl _
  · exact Nat.zero_le _

/-- Nothing is repeated if nothing is executed. -/
private theorem RunPolicy.retries_of_dry {p : RunPolicy} (dry : p.execute = false) :
    p.retries = 0 := by
  rw [RunPolicy.retries, if_neg (Bool.eq_false_iff.mp dry)]

private theorem filter_retriable_eq_none_iff {answer : Option StepFailure} :
    answer.filter StepFailure.retriable = none ↔
      answer = none ∨ ∃ f, answer = some f ∧ f.retriable = false := by
  cases answer <;> simp

namespace Account.TriedFrom

variable {a : Account} {batchId : String} {policy : RunPolicy}
  (tried : a.TriedFrom batchId policy policy.retries 1)

include tried

/-- As many attempts were made as the last number says. -/
theorem length_eq : a.exchanges.length = a.result.attemptNo := by
  have := tried.counted
  omega

/-- The last number is within what the policy allows. -/
theorem attemptNo_le : a.result.attemptNo ≤ policy.retries + 1 := by
  have within := tried.within
  rwa [tried.length_eq] at within

/-- There is at least one attempt. -/
theorem attemptNo_pos : 1 ≤ a.result.attemptNo := by
  obtain ⟨e, last, -⟩ := tried.last
  have within := tried.attemptNo_mem (List.mem_of_getLast? last)
  exact Nat.le_trans within.1 within.2

/-- An attempt that is followed by another is none of those after which the policy allows no
other. -/
theorem attemptNo_eq_of_ends {e : Exchange} (member : e ∈ a.exchanges)
    (ends : policy.Ends e.call.attemptNo e.answer) : e.call.attemptNo = a.result.attemptNo := by
  obtain ⟨positive, upTo⟩ := tried.attemptNo_mem member
  have most := tried.attemptNo_le
  refine (Nat.lt_or_eq_of_le upTo).resolve_left fun before => ?_
  obtain ⟨f, answer, retriable⟩ := tried.earlier e member before
  rcases ends with passed | ⟨f', answer', fatal⟩ | spent | dry
  · cases answer.symm.trans passed
  · cases answer.symm.trans answer'
    cases fatal.symm.trans retriable
  · have := policy.retries_le
    omega
  · rw [RunPolicy.retries_of_dry dry] at most
    omega

/-- The last attempt is one after which the policy allows no other. -/
theorem ends_of_attemptNo_eq {e : Exchange} (member : e ∈ a.exchanges)
    (final : e.call.attemptNo = a.result.attemptNo) : policy.Ends e.call.attemptNo e.answer := by
  obtain ⟨e', last, numbered, -, ends⟩ := tried.last
  cases tried.eq_of_attemptNo_eq member (List.mem_of_getLast? last) (final.trans numbered.symm)
  rcases ends with spent | none
  · cases executes : policy.execute with
    | false => exact .inr (.inr (.inr executes))
    | true =>
      rw [RunPolicy.retries, if_pos executes, tried.length_eq] at spent
      exact .inr (.inr (.inl (final.trans spent)))
  · exact (filter_retriable_eq_none_iff.mp none).imp_right .inl

/-- What becomes of a step is what became of the last attempt at it. -/
theorem result_eq :
    a.result = (lastAttempt a.step policy.kind a.result.attemptNo a.lastFailure?).1 := by
  obtain ⟨e, last, numbered, result, -⟩ := tried.last
  rwa [Account.lastFailure?, last, Option.bind_some, ← numbered]

/-- An account of attempts that were made by the rules follows the policy. -/
theorem followsPolicy : a.FollowsPolicy batchId policy where
  attempted := tried.attemptNo_pos
  calls := by rw [tried.calls, tried.length_eq]
  ends_iff e member := ⟨tried.attemptNo_eq_of_ends member, tried.ends_of_attemptNo_eq member⟩
  attempts := tried.attempts
  success_iff := by
    rw [tried.result_eq]
    cases a.lastFailure? <;> simp [lastAttempt, succeeded, failed]
  failure f failed := by
    rw [tried.result_eq, failed]
    exact ⟨rfl, rfl⟩
  dryRun dry := by
    have most := tried.attemptNo_le
    rw [RunPolicy.retries_of_dry dry] at most
    exact Nat.le_antisymm most tried.attemptNo_pos

end Account.TriedFrom

/-- A step that is handed to a loader is tried as the policy says, whatever is answered: up to the
first attempt that goes well, that no other can help, or that is the last of those allowed. -/
theorem retries_follow_policy {σ : Type} (load : Loader (StateM σ)) (batchId : String)
    (step : RunStep) (policy : RunPolicy)
    (bounded : policy.maxRetries.toNat + 1 < UInt32.size) (s : σ) :
    ∃ a : Account, a.step = step ∧ a.Happens load batchId policy s ∧
      a.FollowsPolicy batchId policy ∧ a.result.attemptNo < UInt32.size := by
  obtain ⟨a, s', same, plain, kept, tried⟩ :=
    attemptStep_triedFrom batchId policy step load policy.retries 1 s []
  refine ⟨a, same, ⟨s', same ▸ plain, same ▸ kept⟩, tried.followsPolicy, ?_⟩
  have most := tried.attemptNo_le
  have := policy.retries_le
  omega

/-- When a step needs more attempts than can be numbered in 32 bits: the run executes, the policy
allows as many retries as can be written down, and every attempt that can be numbered fails so that
another may help. -/
theorem attempts_exceed_iff {σ : Type} (load : Loader (StateM σ)) (batchId : String)
    (step : RunStep) (policy : RunPolicy) (s : σ) :
    ∃ a : Account, a.step = step ∧ a.Happens load batchId policy s ∧
      (UInt32.size ≤ a.exchanges.length ↔
        (policy.execute = true ∧ policy.maxRetries.toNat + 1 = UInt32.size) ∧
          ∀ e ∈ a.exchanges, e.call.attemptNo < UInt32.size →
            ∃ f, e.answer = some f ∧ f.retriable = true) := by
  obtain ⟨a, s', same, plain, kept, tried⟩ :=
    attemptStep_triedFrom batchId policy step load policy.retries 1 s []
  rw [← policy.counts_iff.not.trans not_not]
  refine ⟨a, same, ⟨s', same ▸ plain, same ▸ kept⟩, fun many => ⟨?_, ?_⟩, ?_⟩
  · exact fun counts => Nat.not_le_of_lt (Nat.lt_of_le_of_lt tried.within counts) many
  · rw [tried.length_eq] at many
    exact fun e member early => tried.earlier e member (Nat.lt_of_lt_of_le early many)
  · rintro ⟨all, retriable⟩
    by_contra few
    -- The last attempt is one of those that can be numbered, but it would have been retried.
    obtain ⟨e, last, numbered, -, ends⟩ := tried.last
    rw [tried.length_eq] at few ends
    obtain ⟨f, answer, again⟩ := retriable e (List.mem_of_getLast? last) (by omega)
    rcases ends with spent | none
    · exact all (show policy.retries + 1 < UInt32.size by omega)
    · rw [answer, Option.filter_some, if_pos again] at none
      cases none

/-- The load of the orders, which reads nothing of the warehouse. -/
def ordersStep : RunStep := ⟨1, ⟨"stage", "orders"⟩, []⟩

/-- A loader that counts its calls, runs out of time at the first attempt and finds no orders at the
second. -/
def ordersLoader : Loader (StateM Nat) := fun call => do
  modify (· + 1)
  return if call.attemptNo = 1 then some ⟨"timeout", true⟩ else some ⟨"no such table", false⟩

/-- The account of the orders: two attempts, though four were allowed. -/
def ordersAccount : Account where
  step := ordersStep
  exchanges := [⟨⟨"b3", ordersStep, 1, true⟩, some ⟨"timeout", true⟩⟩,
    ⟨⟨"b3", ordersStep, 2, true⟩, some ⟨"no such table", false⟩⟩]
  attempts := [⟨"stage.orders", 1, .error, true, some "timeout"⟩,
    ⟨"stage.orders", 2, .error, false, some "no such table"⟩]
  result :=
    ⟨"stage.orders", .error, .execute, 2, some "retries_exhausted", none, some "no such table"⟩

private theorem happens_ordersAccount :
    ordersAccount.Happens ordersLoader "b3" ⟨true, false, 3⟩ 0 := ⟨2, rfl, rfl⟩

/-- The orders are tried twice, for the second failure is one that no other attempt can help. -/
theorem retries_follow_policy_for_orders : (3 : UInt32).toNat + 1 < UInt32.size ∧
    ordersAccount.Happens ordersLoader "b3" ⟨true, false, 3⟩ 0 ∧
    ordersAccount.FollowsPolicy "b3" ⟨true, false, 3⟩ := by
  obtain ⟨a, same, happens, follows, -⟩ :=
    retries_follow_policy ordersLoader "b3" ordersStep ⟨true, false, 3⟩ (by decide) 0
  cases happens.unique happens_ordersAccount same
  exact ⟨by decide, happens, follows⟩

/-! ### Why a step is given up -/

/-- Whether a reason tells why a step was given up after so many attempts, the last of which failed
like that: because another attempt could not help, because all that were allowed were made, or for
no other reason than the failure. -/
structure RunPolicy.TellsReason (p : RunPolicy) (attempts : Nat) (f : StepFailure)
    (reason? : Option String) : Prop where
  notRetriable : reason? = some "not_retriable" ↔ f.retriable = false
  exhausted : reason? = some "retries_exhausted" ↔
    f.retriable = true ∧ attempts = p.maxRetries.toNat + 1 ∧ 2 ≤ attempts
  otherwise : reason? ≠ some "not_retriable" → reason? ≠ some "retries_exhausted" →
    reason? = some "failed"

/-- The first attempt is told from later ones before a failure that may pass is told from one that
will not. -/
theorem givenUpReason_tells_iff {p : RunPolicy} {attemptNo : Nat} {f : StepFailure}
    (positive : 1 ≤ attemptNo) (ends : p.Ends attemptNo (some f))
    (dryRun : p.execute = false → attemptNo = 1) :
    p.TellsReason attemptNo f (some (givenUpReason attemptNo f)) ↔
      attemptNo = 1 ∨ f.retriable = true := by
  rcases Nat.eq_or_lt_of_le positive with rfl | later
  · refine iff_of_true ⟨?_, ?_, ?_⟩ (.inl rfl)
    all_goals cases retriable : f.retriable <;> simp [givenUpReason, retriable]
  · rw [givenUpReason, if_pos later]
    cases retriable : f.retriable with
    | false =>
      refine iff_of_false (fun tells => ?_) ?_
      · exact absurd (tells.notRetriable.mpr retriable) (by decide)
      · rintro (rfl | ⟨⟨⟩⟩)
        exact Nat.lt_irrefl 1 later
    | true =>
      refine iff_of_true ⟨by simp [retriable], iff_of_true rfl ⟨retriable, ?_, later⟩, by simp⟩
        (.inr rfl)
      rcases ends with passed | ⟨f', same, fatal⟩ | spent | dry
      · cases passed
      · cases same
        cases fatal.symm.trans retriable
      · exact spent
      · have := dryRun dry
        omega

/-- The reason for which a step is given up is told from its last failure and from the number of
attempts exactly if there was one attempt only, or the last failure was one that another attempt may
help. The policy may be any under which attempts can be counted in 32 bits, and in 32 bits they are
counted. -/
theorem reason_told_iff {σ : Type} (load : Loader (StateM σ)) (batchId : String) (step : RunStep)
    (policy : RunPolicy) (counts : policy.Counts) (s : σ) :
    ∃ a : Account, a.step = step ∧ a.Happens load batchId policy s ∧
      a.exchanges.length < UInt32.size ∧
      (a.result.status = .error → ∃ f, a.lastFailure? = some f ∧
        (policy.TellsReason a.exchanges.length f a.result.reason? ↔
          a.exchanges.length = 1 ∨ f.retriable = true)) := by
  obtain ⟨a, s', same, plain, kept, tried⟩ :=
    attemptStep_triedFrom batchId policy step load policy.retries 1 s []
  refine ⟨a, same, ⟨s', same ▸ plain, same ▸ kept⟩, Nat.lt_of_le_of_lt tried.within counts,
    fun error => ?_⟩
  have follows := tried.followsPolicy
  cases failure : a.lastFailure? with
  | none =>
    rw [follows.success_iff.mpr failure] at error
    cases error
  | some f =>
    obtain ⟨e, last, numbered, -⟩ := tried.last
    have ends := (follows.ends_iff e (List.mem_of_getLast? last)).mpr numbered
    have answer : e.answer = some f := by
      rwa [Account.lastFailure?, last, Option.bind_some] at failure
    have reason : a.result.reason? = some (givenUpReason a.result.attemptNo f) := by
      rw [tried.result_eq, failure]
      rfl
    rw [numbered, answer] at ends
    rw [reason, tried.length_eq]
    exact ⟨f, rfl, givenUpReason_tells_iff follows.attempted ends follows.dryRun⟩

/-- The orders are given up at the second attempt, whose failure is not told from the first one. -/
theorem reason_untold_for_orders : RunPolicy.Counts ⟨true, false, 3⟩ ∧
    ordersAccount.Happens ordersLoader "b3" ⟨true, false, 3⟩ 0 ∧
    ¬ RunPolicy.TellsReason ⟨true, false, 3⟩ 2 ⟨"no such table", false⟩
      ordersAccount.result.reason? := by
  have counts : RunPolicy.Counts ⟨true, false, 3⟩ := by decide
  obtain ⟨a, same, happens, -, told⟩ :=
    reason_told_iff ordersLoader "b3" ordersStep ⟨true, false, 3⟩ counts 0
  cases happens.unique happens_ordersAccount same
  obtain ⟨f, failure, iff⟩ := told rfl
  cases failure
  exact ⟨counts, happens, fun tells => absurd (iff.mp tells) (by decide)⟩

/-- A failure that no other attempt can help is taken for the end of the retries if it comes at a
second attempt. -/
theorem not_always_told :
    ¬ ∀ (σ : Type) (load : Loader (StateM σ)) (batchId : String) (policy : RunPolicy) (s : σ)
      (a : Account),
      a.Happens load batchId policy s → a.result.status = .error → ∀ f, a.lastFailure? = some f →
      policy.TellsReason a.exchanges.length f a.result.reason? := by
  intro always
  have tells :=
    always Nat ordersLoader "b3" ⟨true, false, 3⟩ 0 ordersAccount happens_ordersAccount rfl
      ⟨"no such table", false⟩ rfl
  exact absurd (tells.notRetriable.mpr rfl) (by decide)

end Warehouse
