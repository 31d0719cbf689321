import TradingBot.Library.Simulation
import TradingBot.ExecutionEngine
import Mathlib.Data.Multiset.AddSub
import Mathlib.Data.List.MinMax

namespace TradingBot

/-! What an `ExecutionEngine` is for, section by section: a bag of requests,
the flag, and how far the loop is. -/

/-- Where `executionLoop` is.  It holds `queueMutex` while `blocking`, between
its test of the predicate and the wait. -/
inductive ExecutionPoint where
  | absent
  | whileTest
  | waitTest
  | blocking
  | blocked
  | executing
  | returned
  deriving DecidableEq

/-- Both `notify_one` and `notify_all`. -/
def ExecutionPoint.wake : ExecutionPoint → ExecutionPoint
  | .blocked => .waitTest
  | point => point

@[ext] structure Engine where
  running : Bool
  queue : Multiset ExecutionRequest
  execution : ExecutionPoint

inductive EngineAction where
  | setRunning
  | spawn
  | clearRunning
  | notify
  | join
  | push (request : ExecutionRequest)
  | advance
  | take (request : ExecutionRequest)
  | finish
  | wakeSpuriously
  deriving DecidableEq

namespace Engine

/-- No queued request is more urgent. -/
def Top (queue : Multiset ExecutionRequest) (request : ExecutionRequest) :
    Prop :=
  request ∈ queue ∧ ∀ other ∈ queue, request.after other = false

instance (queue : Multiset ExecutionRequest) (request : ExecutionRequest) :
    Decidable (Top queue request) :=
  inferInstanceAs (Decidable (_ ∧ _))

/-- The loop tests `running`, finds nothing to take, or blocks. -/
def advance (engine : Engine) : Option Engine :=
  match engine.execution with
  | .whileTest =>
      some { engine with
        execution := if engine.running then .waitTest else .returned }
  | .waitTest =>
      if engine.queue = 0 then
        some { engine with
          execution := if engine.running then .blocking else .returned }
      else none
  | .blocking => some { engine with execution := .blocked }
  | _ => none

def step (engine : Engine) : EngineAction → Option Engine
  | .setRunning => some { engine with running := true }
  | .spawn =>
      if engine.execution = .absent then
        some { engine with execution := .whileTest }
      else none
  | .clearRunning => some { engine with running := false }
  | .notify => some { engine with execution := engine.execution.wake }
  | .join =>
      if engine.execution = .absent ∨ engine.execution = .returned then
        some { engine with execution := .absent }
      else none
  | .push request =>
      if engine.execution = .blocking then none
      else some { engine with queue := request ::ₘ engine.queue }
  | .advance => engine.advance
  | .take request =>
      if engine.execution = .waitTest ∧ Top engine.queue request then
        some { engine with
          queue := engine.queue.erase request, execution := .executing }
      else none
  | .finish =>
      if engine.execution = .executing then
        some { engine with execution := .whileTest }
      else none
  | .wakeSpuriously =>
      if engine.execution = .blocked then
        some { engine with execution := .waitTest }
      else none

def init : Engine where
  running := false
  queue := 0
  execution := .absent

def machine : Library.Machine Engine EngineAction where
  init := init
  step := step

theorem top_coe {queue : List ExecutionRequest} {request : ExecutionRequest} :
    Top queue request ↔ IsTop queue request := Iff.rfl

end Engine

theorem exists_isTop {queue : List ExecutionRequest} (waiting : queue ≠ []) :
    ∃ request, IsTop queue request := by
  let urgency (entry : ExecutionRequest) : Int := entry.priority.toInt
  have found : queue.argmin urgency ≠ none :=
    fun none => waiting (List.argmin_eq_none.mp none)
  obtain ⟨request, least⟩ := Option.ne_none_iff_exists'.mp found
  refine ⟨request, List.argmin_mem least, ?_⟩
  intro other member
  have lower : urgency request ≤ urgency other :=
    List.le_of_mem_argmin member least
  rw [ExecutionRequest.after, decide_eq_false_iff_not, not_lt]
  exact lower

end TradingBot
