import TradingBot.System
import TradingBot.Library.Trace
import Mathlib.Data.List.Infix
import Mathlib.Data.List.Nodup

namespace TradingBot

open Library

/-! The order in which `executionLoop` takes requests of equal priority, over
everything that the specification of `std::priority_queue` allows. -/

/-- A request with the position of its `push` among all pushes. -/
structure Submission where
  position : Nat
  request : ExecutionRequest
  deriving DecidableEq

def Submission.hasPriority (priority : ExecutionPriority)
    (submission : Submission) : Bool :=
  decide (submission.request.priority = priority)

/-- The calls that reach the queue, without what the queue chooses. -/
inductive QueueCall where
  | submitOrder (request : ExecutionRequest)
  | loopRound
  deriving DecidableEq

/-- A round of the loop takes one of the top requests, or finds the queue
empty and continues. -/
inductive QueueAction where
  | submitOrder (request : ExecutionRequest)
  | takeTop (submission : Submission)
  | continueLoop
  deriving DecidableEq

def QueueAction.call : QueueAction → QueueCall
  | .submitOrder request => .submitOrder request
  | .takeTop _ => .loopRound
  | .continueLoop => .loopRound

/-- `submitted` and `taken` are history variables. -/
structure ExecutionQueue where
  queue : List Submission
  submitted : List Submission
  taken : List Submission
  deriving DecidableEq

namespace ExecutionQueue

def init : ExecutionQueue where
  queue := []
  submitted := []
  taken := []

def submitOrder (state : ExecutionQueue) (request : ExecutionRequest) :
    ExecutionQueue :=
  let submission := { position := state.submitted.length, request }
  { state with
    queue := state.queue ++ [submission]
    submitted := state.submitted ++ [submission] }

def step (state : ExecutionQueue) : QueueAction → Option ExecutionQueue
  | .submitOrder request => some (state.submitOrder request)
  | .takeTop submission =>
      if submission ∈ state.queue ∧
          IsTop (state.queue.map Submission.request) submission.request then
        some { state with
          queue := state.queue.erase submission
          taken := state.taken ++ [submission] }
      else none
  | .continueLoop => if state.queue = [] then some state else none

def machine : Machine ExecutionQueue QueueAction where
  init := init
  step := step

/-- Of each priority, the first submitted are the first taken. -/
def InSubmissionOrder (state : ExecutionQueue) : Prop :=
  ∀ priority : ExecutionPriority,
    state.taken.filter (Submission.hasPriority priority) <+:
      state.submitted.filter (Submission.hasPriority priority)

/-- Whatever the queue chooses, the calls keep the order of submission. -/
def OrderGuaranteed (calls : List QueueCall) : Prop :=
  ∀ actions final, actions.map QueueAction.call = calls →
    machine.run machine.init actions = some final → final.InSubmissionOrder

end ExecutionQueue

/-- How many requests of each priority wait. -/
abbrev WaitingCounts := ExecutionPriority → Nat

namespace WaitingCounts

def mostUrgent (counts : WaitingCounts) : Option ExecutionPriority :=
  if 0 < counts .high then some .high
  else if 0 < counts .normal then some .normal
  else if 0 < counts .low then some .low
  else none

def afterCall (counts : WaitingCounts) : QueueCall → WaitingCounts
  | .submitOrder request =>
      Function.update counts request.priority (counts request.priority + 1)
  | .loopRound =>
      match counts.mostUrgent with
      | none => counts
      | some priority => Function.update counts priority (counts priority - 1)

def after (calls : List QueueCall) : WaitingCounts :=
  calls.foldl afterCall fun _ => 0

theorem after_concat (calls : List QueueCall) (call : QueueCall) :
    after (calls ++ [call]) = (after calls).afterCall call :=
  List.foldl_append

def ofQueue (queue : List Submission) : WaitingCounts :=
  fun priority => queue.countP (Submission.hasPriority priority)

end WaitingCounts

/-- A round of the loop finds at most one request of the most urgent waiting
priority. -/
def FindsNoEquals (earlier : List QueueCall) (call : QueueCall) : Prop :=
  call = .loopRound →
    ∀ priority ∈ (WaitingCounts.after earlier).mostUrgent,
      WaitingCounts.after earlier priority ≤ 1

namespace WaitingCounts

theorem mostUrgent_eq_some {counts : WaitingCounts}
    {priority : ExecutionPriority} :
    counts.mostUrgent = some priority ↔
      0 < counts priority ∧
        ∀ other : ExecutionPriority, other.toInt < priority.toInt →
          counts other = 0 := by
  have all : ∀ property : ExecutionPriority → Prop,
      (∀ other, property other) ↔
        property .high ∧ property .normal ∧ property .low := by
    intro property
    refine ⟨fun every => ⟨every _, every _, every _⟩, fun every other => ?_⟩
    cases other with
    | high => exact every.1
    | normal => exact every.2.1
    | low => exact every.2.2
  rw [all]
  unfold mostUrgent
  split_ifs <;> cases priority <;> simp [ExecutionPriority.toInt] <;> omega

theorem isTop_iff {queue : List Submission} {submission : Submission}
    (member : submission ∈ queue) :
    IsTop (queue.map Submission.request) submission.request ↔
      (ofQueue queue).mostUrgent = some submission.request.priority := by
  have present : 0 < ofQueue queue submission.request.priority :=
    List.countP_pos_iff.mpr ⟨submission, member, by simp [Submission.hasPriority]⟩
  rw [mostUrgent_eq_some, and_iff_right present, IsTop,
    and_iff_right (List.mem_map_of_mem member)]
  simp only [List.forall_mem_map, ExecutionRequest.after, decide_eq_false_iff_not,
    ofQueue, List.countP_eq_zero, Submission.hasPriority, decide_eq_true_eq]
  constructor
  · intro top other urgent waiting listed same
    exact top waiting listed (same ▸ urgent)
  · intro none waiting listed urgent
    exact none waiting.request.priority urgent waiting listed rfl

theorem mostUrgent_eq_none {counts : WaitingCounts} :
    counts.mostUrgent = none ↔ ∀ priority, counts priority = 0 := by
  unfold mostUrgent
  constructor
  · intro none priority
    split_ifs at none
    cases priority <;> omega
  · intro none
    simp [none]

theorem exists_top {queue : List Submission} (nonempty : queue ≠ []) :
    ∃ submission ∈ queue,
      IsTop (queue.map Submission.request) submission.request := by
  obtain ⟨first, listed⟩ := List.exists_mem_of_ne_nil queue nonempty
  cases urgent : (ofQueue queue).mostUrgent with
  | none =>
      have none := mostUrgent_eq_none.mp urgent first.request.priority
      rw [ofQueue, List.countP_eq_zero] at none
      exact absurd (decide_eq_true rfl) (none first listed)
  | some priority =>
      obtain ⟨submission, member, same⟩ :=
        List.countP_pos_iff.mp (mostUrgent_eq_some.mp urgent).1
      have same : submission.request.priority = priority := by
        simpa [Submission.hasPriority] using same
      exact ⟨submission, member, (isTop_iff member).mpr (same ▸ urgent)⟩

end WaitingCounts

namespace ExecutionQueue

/-- What the calls determine, whatever the queue chose. -/
structure Consistent (calls : List QueueCall) (state : ExecutionQueue) :
    Prop where
  conserved : state.submitted.Perm (state.taken ++ state.queue)
  positions : state.submitted.map Submission.position =
    List.range state.submitted.length
  counts : WaitingCounts.ofQueue state.queue = WaitingCounts.after calls

theorem consistent_init : Consistent [] init where
  conserved := List.Perm.refl _
  positions := rfl
  counts := rfl

variable {calls : List QueueCall} {state next : ExecutionQueue}

theorem takeTop_eq_some {submission : Submission} :
    state.step (.takeTop submission) = some next ↔
      submission ∈ state.queue ∧
        IsTop (state.queue.map Submission.request) submission.request ∧
        next = { state with
          queue := state.queue.erase submission
          taken := state.taken ++ [submission] } := by
  rw [step, Option.ite_none_right_eq_some, Option.some_inj, and_assoc,
    eq_comm (b := next)]

theorem Consistent.submitOrder (consistent : Consistent calls state)
    (request : ExecutionRequest) :
    Consistent (calls ++ [.submitOrder request]) (state.submitOrder request) where
  conserved := by
    rw [ExecutionQueue.submitOrder, ← List.append_assoc]
    exact consistent.conserved.append_right _
  positions := by
    simp [ExecutionQueue.submitOrder, consistent.positions, List.range_succ]
  counts := by
    rw [WaitingCounts.after_concat, ← consistent.counts]
    funext priority
    rcases eq_or_ne request.priority priority with rfl | differ
    · simp [ExecutionQueue.submitOrder, WaitingCounts.afterCall,
        WaitingCounts.ofQueue, Submission.hasPriority]
    · simp [ExecutionQueue.submitOrder, WaitingCounts.afterCall,
        WaitingCounts.ofQueue, Submission.hasPriority, differ, differ.symm]

theorem Consistent.takeTop (consistent : Consistent calls state)
    {submission : Submission} (member : submission ∈ state.queue)
    (top : IsTop (state.queue.map Submission.request) submission.request) :
    Consistent (calls ++ [.loopRound])
      { state with
        queue := state.queue.erase submission
        taken := state.taken ++ [submission] } where
  conserved := by
    rw [List.append_assoc, List.singleton_append]
    exact consistent.conserved.trans
      ((List.perm_cons_erase member).append_left state.taken)
  positions := consistent.positions
  counts := by
    have urgent := (WaitingCounts.isTop_iff member).mp top
    rw [consistent.counts] at urgent
    rw [WaitingCounts.after_concat, WaitingCounts.afterCall]
    simp only [urgent]
    rw [← consistent.counts]
    funext priority
    rcases eq_or_ne submission.request.priority priority with rfl | differ
    · simp [WaitingCounts.ofQueue, List.countP_erase, member,
        Submission.hasPriority]
    · simp [WaitingCounts.ofQueue, List.countP_erase, Submission.hasPriority,
        differ, differ.symm]

theorem Consistent.continueLoop (consistent : Consistent calls state)
    (empty : state.queue = []) :
    Consistent (calls ++ [.loopRound]) state where
  conserved := consistent.conserved
  positions := consistent.positions
  counts := by
    have none : (WaitingCounts.after calls).mostUrgent = none := by
      rw [← consistent.counts, empty]
      rfl
    rw [WaitingCounts.after_concat, WaitingCounts.afterCall, none]
    exact consistent.counts

theorem Consistent.step (consistent : Consistent calls state)
    {action : QueueAction} (stepped : state.step action = some next) :
    Consistent (calls ++ [action.call]) next := by
  cases action with
  | submitOrder request =>
      cases stepped
      exact consistent.submitOrder request
  | takeTop submission =>
      obtain ⟨member, top, rfl⟩ := takeTop_eq_some.mp stepped
      exact consistent.takeTop member top
  | continueLoop =>
      obtain ⟨empty, same⟩ := Option.ite_none_right_eq_some.mp stepped
      cases same
      exact consistent.continueLoop empty

theorem consistent_of_run {actions : List QueueAction} {final : ExecutionQueue}
    (ran : machine.run machine.init actions = some final) :
    Consistent (actions.map QueueAction.call) final := by
  induction actions using List.reverseRecOn generalizing final with
  | nil =>
      cases ran
      exact consistent_init
  | append_singleton actions action induction =>
      obtain ⟨middle, before, stepped⟩ := Machine.run_concat_eq_some.mp ran
      rw [List.map_append]
      exact (induction before).step stepped

/-- Every sequence of calls has a run. -/
theorem exists_run (calls : List QueueCall) :
    ∃ actions final, actions.map QueueAction.call = calls ∧
      machine.run machine.init actions = some final := by
  induction calls using List.reverseRecOn with
  | nil => exact ⟨[], init, rfl, rfl⟩
  | append_singleton calls call induction =>
      obtain ⟨actions, middle, rfl, ran⟩ := induction
      have enabled : ∃ action next, action.call = call ∧
          middle.step action = some next := by
        cases call with
        | submitOrder request => exact ⟨.submitOrder request, _, rfl, rfl⟩
        | loopRound =>
            by_cases empty : middle.queue = []
            · exact ⟨.continueLoop, middle, rfl, if_pos empty⟩
            · obtain ⟨submission, member, top⟩ := WaitingCounts.exists_top empty
              exact ⟨.takeTop submission, _, rfl,
                takeTop_eq_some.mpr ⟨member, top, rfl⟩⟩
      obtain ⟨action, next, rfl, stepped⟩ := enabled
      exact ⟨actions ++ [action], next, by simp,
        Machine.run_trans ran (Machine.run_single stepped)⟩

/-- While the order is kept, the rest of each priority waits. -/
theorem InSubmissionOrder.waiting (ordered : state.InSubmissionOrder)
    (consistent : Consistent calls state) (priority : ExecutionPriority) :
    ∃ waiting,
      state.submitted.filter (Submission.hasPriority priority) =
          state.taken.filter (Submission.hasPriority priority) ++ waiting ∧
        waiting.Perm (state.queue.filter (Submission.hasPriority priority)) ∧
        waiting.length = WaitingCounts.after calls priority := by
  obtain ⟨waiting, split⟩ := ordered priority
  have shared := consistent.conserved.filter (Submission.hasPriority priority)
  rw [List.filter_append, ← split, List.perm_append_left_iff] at shared
  refine ⟨waiting, split.symm, shared, ?_⟩
  rw [shared.length_eq, ← List.countP_eq_length_filter, ← consistent.counts]
  rfl

theorem InSubmissionOrder.submitOrder (ordered : state.InSubmissionOrder)
    (request : ExecutionRequest) :
    (state.submitOrder request).InSubmissionOrder := by
  intro priority
  rw [ExecutionQueue.submitOrder, List.filter_append]
  exact (ordered priority).trans (List.prefix_append ..)

/-- Taking a submission keeps the order exactly if it is the first waiting one
of its priority. -/
theorem InSubmissionOrder.takeTop_iff (ordered : state.InSubmissionOrder)
    {submission : Submission} {waiting : List Submission}
    (split : state.submitted.filter
        (Submission.hasPriority submission.request.priority) =
      state.taken.filter
        (Submission.hasPriority submission.request.priority) ++ waiting) :
    InSubmissionOrder { state with
        queue := state.queue.erase submission
        taken := state.taken ++ [submission] } ↔
      [submission] <+: waiting := by
  have own : [submission].filter
      (Submission.hasPriority submission.request.priority) = [submission] := by
    simp [Submission.hasPriority]
  constructor
  · intro after
    have kept := after submission.request.priority
    rwa [List.filter_append, own, split, List.prefix_append_right_inj] at kept
  · intro first priority
    rw [List.filter_append]
    rcases eq_or_ne submission.request.priority priority with rfl | differ
    · rwa [own, split, List.prefix_append_right_inj]
    · simpa [Submission.hasPriority, differ] using ordered priority

theorem Consistent.nodup (consistent : Consistent calls state) :
    state.submitted.Nodup := by
  apply List.Nodup.of_map Submission.position
  rw [consistent.positions]
  exact List.nodup_range

/-- A round that finds no equals keeps the order. -/
theorem orderGuaranteed_of_findsNoEquals {call : QueueCall}
    (guaranteed : OrderGuaranteed calls) (unequalled : FindsNoEquals calls call) :
    OrderGuaranteed (calls ++ [call]) := by
  intro actions final same ran
  obtain ⟨earlier, last, rfl, rfl, single⟩ := List.map_eq_append_iff.mp same
  obtain ⟨action, rfl, rfl⟩ := List.map_eq_singleton_iff.mp single
  obtain ⟨middle, before, stepped⟩ := Machine.run_concat_eq_some.mp ran
  have ordered := guaranteed earlier middle rfl before
  have consistent := consistent_of_run before
  cases action with
  | submitOrder request =>
      cases stepped
      exact ordered.submitOrder request
  | takeTop submission =>
      obtain ⟨member, top, rfl⟩ := takeTop_eq_some.mp stepped
      obtain ⟨waiting, split, shared, length⟩ :=
        ordered.waiting consistent submission.request.priority
      have urgent := (WaitingCounts.isTop_iff member).mp top
      rw [consistent.counts] at urgent
      have single := unequalled rfl _ urgent
      have waits : submission ∈ waiting := shared.mem_iff.mpr
        (List.mem_filter.mpr ⟨member, by simp [Submission.hasPriority]⟩)
      rw [← length] at single
      obtain ⟨only, rfl⟩ := List.length_eq_one_iff.mp
        (le_antisymm single (List.length_pos_of_mem waits))
      rw [ordered.takeTop_iff split, List.mem_singleton.mp waits]
  | continueLoop =>
      obtain ⟨_, same⟩ := Option.ite_none_right_eq_some.mp stepped
      cases same
      exact ordered

theorem findsNoEquals_of_orderGuaranteed {call : QueueCall}
    (guaranteed : OrderGuaranteed calls)
    (after : OrderGuaranteed (calls ++ [call])) : FindsNoEquals calls call := by
  intro round priority urgent
  subst round
  by_contra several
  obtain ⟨actions, state, rfl, ran⟩ := exists_run calls
  have ordered := guaranteed actions state rfl ran
  have consistent := consistent_of_run ran
  obtain ⟨waiting, split, shared, length⟩ := ordered.waiting consistent priority
  rw [← length] at several
  -- the second of the equals may be taken first
  match waiting, several with
  | first :: second :: rest, _ =>
      have listed : second ∈ state.queue.filter (Submission.hasPriority priority) :=
        shared.mem_iff.mp (by simp)
      obtain ⟨member, same⟩ := List.mem_filter.mp listed
      have same : second.request.priority = priority := by
        simpa [Submission.hasPriority] using same
      subst same
      have top := (WaitingCounts.isTop_iff member).mpr (consistent.counts ▸ urgent)
      have stepped : machine.step state (.takeTop second) = some _ :=
        takeTop_eq_some.mpr ⟨member, top, rfl⟩
      have kept := after (actions ++ [.takeTop second]) _
        (by simp [QueueAction.call])
        (Machine.run_trans ran (Machine.run_single stepped))
      rw [ordered.takeTop_iff split, List.cons_prefix_cons] at kept
      have distinct := consistent.nodup.filter
        (Submission.hasPriority second.request.priority)
      rw [split, kept.1] at distinct
      exact List.not_nodup_cons_of_mem List.mem_cons_self
        (List.nodup_append.mp distinct).2.1
  | [], several => exact several (Nat.zero_le _)
  | [_], several => exact several (le_refl _)

/-- The queue and the requests taken so far, as the whole system has them. -/
structure Mirrors (system : System) (state : ExecutionQueue) : Prop where
  queue : state.queue.map Submission.request = system.executionQueue
  taken : state.taken.map Submission.request =
    system.executed ++ system.loop.request?.toList

theorem exists_map_erase {queue : List Submission} {request : ExecutionRequest}
    (member : request ∈ queue.map Submission.request) :
    ∃ submission ∈ queue, submission.request = request ∧
      (queue.erase submission).map Submission.request =
        (queue.map Submission.request).erase request := by
  induction queue with
  | nil => cases member
  | cons first rest induction =>
      rcases eq_or_ne first.request request with same | differ
      · exact ⟨first, List.mem_cons_self, same, by simp [same]⟩
      · have later : request ∈ rest.map Submission.request :=
          (List.mem_cons.mp member).resolve_left differ.symm
        obtain ⟨submission, listed, rfl, erased⟩ := induction later
        refine ⟨submission, List.mem_cons_of_mem _ listed, rfl, ?_⟩
        have apart : first ≠ submission := fun same => differ (same ▸ rfl)
        rw [List.map_cons, List.erase_cons_tail (by simpa using apart),
          List.erase_cons_tail (by simpa using differ), List.map_cons, erased]

theorem Mirrors.step {system later : System} (mirrors : Mirrors system state)
    {action : Action} (stepped : system.step action = some later) :
    ∃ actions next, machine.run state actions = some next ∧
      Mirrors later next := by
  cases action with
  | submitOrder request =>
      cases stepped
      refine ⟨[.submitOrder request], state.submitOrder request, rfl, ?_⟩
      exact
        { queue := by simp [submitOrder, System.submitOrder, mirrors.queue]
          taken := mirrors.taken }
  | takeRequest request =>
      obtain ⟨waiting, top, rfl⟩ := System.takeRequest_eq_some.mp stepped
      rw [← mirrors.queue] at top
      obtain ⟨submission, member, rfl, erased⟩ := exists_map_erase top.1
      have taken : machine.step state (.takeTop submission) = some _ :=
        takeTop_eq_some.mpr ⟨member, top, rfl⟩
      refine ⟨[.takeTop submission], _, Machine.run_single taken, ?_⟩
      exact
        { queue := by rw [erased, mirrors.queue]
          taken := by
            simp [mirrors.taken, waiting, LoopStage.request?] }
  | getLatestTick =>
      obtain ⟨request, stage, rfl⟩ := System.getLatestTick_eq_some.mp stepped
      refine ⟨[], state, rfl, { queue := mirrors.queue, taken := ?_ }⟩
      simpa [stage, LoopStage.request?] using mirrors.taken
  | simulateOrderExecution =>
      obtain ⟨request, latestTick, stage, _, rfl⟩ :=
        System.simulateOrderExecution_eq_some.mp stepped
      refine ⟨[], state, rfl, { queue := mirrors.queue, taken := ?_ }⟩
      simpa [stage, LoopStage.request?] using mirrors.taken
  | simulateTrade executedAt =>
      obtain ⟨request, latestTick, stage, rfl⟩ :=
        System.simulateTrade_eq_some.mp stepped
      refine ⟨[], state, rfl, { queue := mirrors.queue, taken := ?_ }⟩
      simpa [stage, LoopStage.request?] using mirrors.taken
  | recordLatency latency =>
      obtain ⟨request, latestTick, stage, rfl⟩ :=
        System.recordLatency_eq_some.mp stepped
      refine ⟨[], state, rfl, { queue := mirrors.queue, taken := ?_ }⟩
      rcases stage with stage | ⟨stage, _⟩
      · simpa [stage, LoopStage.request?, System.finishRequest] using mirrors.taken
      · simpa [stage, LoopStage.request?, System.finishRequest] using mirrors.taken
  | placeOrder | cancelOrder | modifyOrder | publishTick | publishOrderBook =>
      cases stepped
      exact ⟨[], state, rfl, { queue := mirrors.queue, taken := mirrors.taken }⟩

/-- The loop of the whole system takes requests as some run of the queue. -/
theorem exists_mirror {marketData : MarketDataHandler} {actions : List Action}
    {final : System}
    (ran : (System.machine marketData).run
      (System.machine marketData).init actions = some final) :
    ∃ queueActions state,
      machine.run machine.init queueActions = some state ∧
        Mirrors final state := by
  induction actions using List.reverseRecOn generalizing final with
  | nil =>
      cases ran
      exact ⟨[], init, rfl, { queue := rfl, taken := rfl }⟩
  | append_singleton actions action induction =>
      obtain ⟨middle, before, stepped⟩ := Machine.run_concat_eq_some.mp ran
      obtain ⟨earlier, state, reached, mirrors⟩ := induction before
      obtain ⟨more, next, continued, mirrored⟩ := mirrors.step stepped
      exact ⟨earlier ++ more, next, Machine.run_trans reached continued, mirrored⟩

theorem orderGuaranteed_nil : OrderGuaranteed [] := by
  intro actions final same ran
  rw [List.map_eq_nil_iff] at same
  subst same
  cases ran
  exact fun _ => List.prefix_refl _

/-- All along a sequence of calls, requests of one priority are sure to be
taken in the order of submission exactly if no round of the loop finds two of
the most urgent waiting priority. -/
theorem order_guaranteed_iff (calls : List QueueCall) :
    EveryPrefix OrderGuaranteed calls ↔ EveryEntry FindsNoEquals calls :=
  everyPrefix_iff orderGuaranteed_nil
    (fun _ _ guaranteed =>
      ⟨findsNoEquals_of_orderGuaranteed guaranteed,
        orderGuaranteed_of_findsNoEquals guaranteed⟩) calls

private def stampedRequest (nanoseconds : UInt64) : ExecutionRequest :=
  { orderId := 1000, symbol := "AAPL", side := .buy, price := 100,
    quantity := 100, priority := .high, timestamp := { nanoseconds } }

theorem equal_requests_may_be_reversed :
    ¬ ∀ actions final,
      machine.run machine.init actions = some final →
      (final.submitted.map fun submission =>
        submission.request.timestamp.nanoseconds).Pairwise (· ≤ ·) →
      final.taken.Pairwise fun first second =>
        first.request.priority = second.request.priority →
          first.position < second.position := by
  intro ordered
  have kept := ordered
    [.submitOrder (stampedRequest 1), .submitOrder (stampedRequest 2),
      .takeTop { position := 1, request := stampedRequest 2 },
      .takeTop { position := 0, request := stampedRequest 1 }] _ rfl (by decide)
  revert kept
  decide

end ExecutionQueue

end TradingBot
