import TradingBot.Library.LockOrder

namespace Library

/-! Threads that lock mutexes and access shared locations in between, and the
races between their accesses. -/

inductive AccessKind where
  | read
  | write
  | atomic
  deriving DecidableEq

/-- At least one of the two is not atomic and at least one is no read. -/
def AccessKind.Conflicts : AccessKind → AccessKind → Prop
  | .read, .read | .atomic, .atomic => False
  | _, _ => True

theorem AccessKind.Conflicts.symm {first second : AccessKind}
    (conflicts : first.Conflicts second) : second.Conflicts first := by
  cases first <;> cases second <;> trivial

instance (first second : AccessKind) : Decidable (first.Conflicts second) :=
  match first, second with
  | .read, .read => .isFalse id
  | .atomic, .atomic => .isFalse id
  | .read, .write | .read, .atomic | .write, .read | .write, .write
  | .write, .atomic | .atomic, .read | .atomic, .write => .isTrue trivial

inductive MemoryStep (Mutex Location : Type*) where
  | lock (step : LockStep Mutex)
  | access (location : Location) (kind : AccessKind)

section Programs

variable {Mutex Location : Type*}

def MemoryStep.lock? : MemoryStep Mutex Location → Option (LockStep Mutex)
  | .lock step => some step
  | .access _ _ => none

/-- What a program does with the mutexes. -/
def erase (program : List (MemoryStep Mutex Location)) :
    List (LockStep Mutex) :=
  program.filterMap MemoryStep.lock?

def lockedScope (mutex : Mutex) (body : List (MemoryStep Mutex Location)) :
    List (MemoryStep Mutex Location) :=
  .lock (.acquire mutex) :: body ++ [.lock (.release mutex)]

@[simp] theorem erase_nil : erase ([] : List (MemoryStep Mutex Location)) = [] :=
  rfl

@[simp] theorem erase_lock (step : LockStep Mutex)
    (rest : List (MemoryStep Mutex Location)) :
    erase (.lock step :: rest) = step :: erase rest := rfl

@[simp] theorem erase_access (location : Location) (kind : AccessKind)
    (rest : List (MemoryStep Mutex Location)) :
    erase (.access location kind :: rest) = erase rest := rfl

@[simp] theorem erase_append (first second : List (MemoryStep Mutex Location)) :
    erase (first ++ second) = erase first ++ erase second :=
  List.filterMap_append

@[simp] theorem erase_lockedScope (mutex : Mutex)
    (body : List (MemoryStep Mutex Location)) :
    erase (lockedScope mutex body) = locked mutex (erase body) := by
  simp [lockedScope, locked]

theorem erase_flatMap {β : Type*} (entries : List β)
    (steps : β → List (MemoryStep Mutex Location)) :
    erase (entries.flatMap steps) =
      entries.flatMap fun entry => erase (steps entry) := by
  induction entries with
  | nil => rfl
  | cons entry rest induction =>
      rw [List.flatMap_cons, List.flatMap_cons, erase_append, induction]

/-- Every access meets a condition on the mutexes held at it. -/
def Checked (permitted : Location → AccessKind → Set Mutex → Prop) :
    Set Mutex → List (MemoryStep Mutex Location) → Prop
  | _, [] => True
  | held, .access location kind :: rest =>
      permitted location kind held ∧ Checked permitted held rest
  | held, .lock (.acquire mutex) :: rest =>
      Checked permitted (insert mutex held) rest
  | held, .lock (.release mutex) :: rest =>
      Checked permitted (held \ {mutex}) rest
  | held, .lock .block :: rest => Checked permitted held rest

/-- The steps can come before any that are checked with the same mutexes
held. -/
def Covered (permitted : Location → AccessKind → Set Mutex → Prop)
    (held : Set Mutex) (steps : List (MemoryStep Mutex Location)) : Prop :=
  ∀ rest, Checked permitted held rest → Checked permitted held (steps ++ rest)

variable {permitted : Location → AccessKind → Set Mutex → Prop}
  {held : Set Mutex} {first second : List (MemoryStep Mutex Location)}

theorem covered_nil : Covered permitted held [] := fun _ checked => checked

theorem Covered.append (left : Covered permitted held first)
    (right : Covered permitted held second) :
    Covered permitted held (first ++ second) := by
  intro rest checked
  rw [List.append_assoc]
  exact left _ (right _ checked)

theorem Covered.cons {location : Location} {kind : AccessKind}
    (allowed : permitted location kind held)
    (rest : Covered permitted held second) :
    Covered permitted held (.access location kind :: second) :=
  fun _ checked => ⟨allowed, rest _ checked⟩

theorem covered_flatMap {β : Type*} {entries : List β}
    {steps : β → List (MemoryStep Mutex Location)}
    (each : ∀ entry ∈ entries, Covered permitted held (steps entry)) :
    Covered permitted held (entries.flatMap steps) := by
  induction entries with
  | nil => exact covered_nil
  | cons entry rest induction =>
      rw [List.flatMap_cons]
      exact (each entry List.mem_cons_self).append
        (induction fun other member => each other (List.mem_cons_of_mem _ member))

theorem Covered.lockedScope {mutex : Mutex} (fresh : mutex ∉ held)
    (body : Covered permitted (insert mutex held) first) :
    Covered permitted held (lockedScope mutex first) := by
  intro rest checked
  have released : insert mutex held \ {mutex} = held :=
    Set.insert_sdiff_self_of_notMem fresh
  rw [Library.lockedScope, List.cons_append, List.cons_append,
    List.append_assoc]
  refine body _ ?_
  show Checked permitted (insert mutex held \ {mutex}) rest
  rw [released]
  exact checked

theorem Covered.checked (covered : Covered permitted held first) :
    Checked permitted held first := by
  have alone := covered [] trivial
  rwa [List.append_nil] at alone

theorem Checked.and_of_mem {other : Location → AccessKind → Prop}
    {program : List (MemoryStep Mutex Location)}
    (checked : Checked permitted held program)
    (always : ∀ location kind, .access location kind ∈ program →
      other location kind) :
    Checked (fun location kind held =>
      other location kind ∧ permitted location kind held) held program := by
  induction program generalizing held with
  | nil => trivial
  | cons step rest induction =>
      have later : ∀ location kind, .access location kind ∈ rest →
          other location kind := fun location kind member =>
        always location kind (List.mem_cons_of_mem _ member)
      cases step with
      | access location kind =>
          exact ⟨⟨always location kind List.mem_cons_self, checked.1⟩,
            induction checked.2 later⟩
      | lock step =>
          cases step with
          | acquire mutex => exact induction checked later
          | release mutex => exact induction checked later
          | block => exact induction checked later

end Programs

/-- `making` is the call a thread made last. -/
structure MemoryState (Thread Mutex Location Call : Type*) where
  owner : Mutex → Option Thread
  program : Thread → List (MemoryStep Mutex Location)
  making : Thread → Option Call

/-- `skip` leaves out an access that lies on a branch not taken. -/
inductive MemoryAction (Thread Call : Type*) where
  | call (thread : Thread) (call : Call)
  | advance (thread : Thread)
  | skip (thread : Thread)

namespace MemoryState

variable {Thread Mutex Location Call : Type*}

def init : MemoryState Thread Mutex Location Call where
  owner := fun _ => none
  program := fun _ => []
  making := fun _ => none

def held (state : MemoryState Thread Mutex Location Call) (thread : Thread) :
    Set Mutex :=
  {mutex | state.owner mutex = some thread}

/-- The thread accesses a location next. -/
def At (state : MemoryState Thread Mutex Location Call) (thread : Thread)
    (location : Location) (kind : AccessKind) : Prop :=
  ∃ rest, state.program thread = .access location kind :: rest

/-- Two threads are about to make conflicting accesses. -/
def Race (state : MemoryState Thread Mutex Location Call)
    (thread other : Thread) : Prop :=
  ∃ location kind otherKind, state.At thread location kind ∧
    state.At other location otherKind ∧ kind.Conflicts otherKind

theorem Race.symm {state : MemoryState Thread Mutex Location Call}
    {thread other : Thread} (race : state.Race thread other) :
    state.Race other thread := by
  obtain ⟨location, kind, otherKind, here, there, conflicts⟩ := race
  exact ⟨location, otherKind, kind, there, here, conflicts.symm⟩

/-- The state of the mutexes alone. -/
def locks (state : MemoryState Thread Mutex Location Call) :
    LockState Thread Mutex where
  owner := state.owner
  program := fun thread => erase (state.program thread)

section Step

variable [DecidableEq Thread] [DecidableEq Mutex]

def setProgram (state : MemoryState Thread Mutex Location Call)
    (thread : Thread) (program : List (MemoryStep Mutex Location)) :
    MemoryState Thread Mutex Location Call :=
  { state with program := Function.update state.program thread program }

def setOwner (state : MemoryState Thread Mutex Location Call) (mutex : Mutex)
    (owner : Option Thread) : MemoryState Thread Mutex Location Call :=
  { state with owner := Function.update state.owner mutex owner }

def advance (state : MemoryState Thread Mutex Location Call)
    (thread : Thread) : Option (MemoryState Thread Mutex Location Call) :=
  match state.program thread with
  | [] => none
  | .access _ _ :: rest => some (state.setProgram thread rest)
  | .lock (.acquire mutex) :: rest =>
      if state.owner mutex = none then
        some ((state.setOwner mutex (some thread)).setProgram thread rest)
      else none
  | .lock (.release mutex) :: rest =>
      some ((state.setOwner mutex none).setProgram thread rest)
  | .lock .block :: rest => some (state.setProgram thread rest)

def skip (state : MemoryState Thread Mutex Location Call) (thread : Thread) :
    Option (MemoryState Thread Mutex Location Call) :=
  match state.program thread with
  | .access _ _ :: rest => some (state.setProgram thread rest)
  | _ => none

variable (steps : Call → List (MemoryStep Mutex Location))
  (allowed : Thread → Call → Bool)

def beginCall (state : MemoryState Thread Mutex Location Call)
    (thread : Thread) (call : Call) :
    MemoryState Thread Mutex Location Call :=
  { state.setProgram thread (steps call) with
    making := Function.update state.making thread (some call) }

def step (state : MemoryState Thread Mutex Location Call) :
    MemoryAction Thread Call → Option (MemoryState Thread Mutex Location Call)
  | .call thread call =>
      if (state.program thread).isEmpty ∧ allowed thread call then
        some (state.beginCall steps thread call)
      else none
  | .advance thread => state.advance thread
  | .skip thread => state.skip thread

def machine :
    Machine (MemoryState Thread Mutex Location Call)
      (MemoryAction Thread Call) where
  init := init
  step := step steps allowed

end Step

section Soundness

variable [DecidableEq Thread] [DecidableEq Mutex]
  {steps : Call → List (MemoryStep Mutex Location)}
  {allowed : Thread → Call → Bool}
  {state next : MemoryState Thread Mutex Location Call} {thread : Thread}

omit [DecidableEq Mutex] in
@[simp] theorem beginCall_making (call : Call) :
    (state.beginCall steps thread call).making =
      Function.update state.making thread (some call) := rfl

omit [DecidableEq Mutex] in
theorem locks_setProgram (program : List (MemoryStep Mutex Location)) :
    (state.setProgram thread program).locks =
      state.locks.setProgram thread (erase program) := by
  have same : (fun other => erase (Function.update state.program thread program
      other)) = Function.update (fun other => erase (state.program other)) thread
        (erase program) := by
    funext other
    rcases eq_or_ne other thread with rfl | differ
    · simp
    · simp [differ]
  rw [locks, setProgram, same]
  rfl

omit [DecidableEq Mutex] in
theorem locks_setProgram_of_erase {program : List (MemoryStep Mutex Location)}
    (same : erase program = erase (state.program thread)) :
    (state.setProgram thread program).locks = state.locks := by
  rw [locks_setProgram, same, LockState.setProgram]
  simp [locks]

/-- Accesses apart, the threads take the steps of their lock programs. -/
theorem advance_locks (stepped : state.advance thread = some next) :
    next.locks = state.locks ∨ state.locks.advance thread = some next.locks := by
  unfold advance at stepped
  split at stepped
  next => cases stepped
  next location kind rest program =>
      cases stepped
      exact .inl (locks_setProgram_of_erase (by simp [program]))
  next mutex rest program =>
      split at stepped
      next free =>
          cases stepped
          have free : state.locks.owner mutex = none := free
          have waiting : state.locks.program thread =
              .acquire mutex :: erase rest := by simp [locks, program]
          rw [LockState.advance, waiting, locks_setProgram]
          exact .inr (if_pos free)
      next => cases stepped
  next mutex rest program =>
      cases stepped
      have leaving : state.locks.program thread =
          .release mutex :: erase rest := by simp [locks, program]
      rw [LockState.advance, leaving, locks_setProgram]
      exact .inr rfl
  next rest program =>
      cases stepped
      have blocking : state.locks.program thread = .block :: erase rest := by
        simp [locks, program]
      rw [LockState.advance, blocking, locks_setProgram]
      exact .inr rfl

omit [DecidableEq Mutex] in
theorem skip_eq_some :
    state.skip thread = some next ↔
      ∃ location kind rest,
        state.program thread = .access location kind :: rest ∧
          next = state.setProgram thread rest := by
  unfold skip
  split
  next location kind rest program => simp [program, eq_comm]
  next other =>
      simp only [reduceCtorEq, false_iff]
      intro enabled
      obtain ⟨location, kind, rest, program, _⟩ := enabled
      exact other location kind rest program

theorem call_eq_some {call : Call} :
    state.step steps allowed (.call thread call) = some next ↔
      (state.program thread = [] ∧ allowed thread call = true) ∧
        next = state.beginCall steps thread call := by
  rw [step, Option.ite_none_right_eq_some, Option.some_inj,
    eq_comm (a := next), List.isEmpty_iff]

theorem step_locks {action : MemoryAction Thread Call}
    (stepped : state.step steps allowed action = some next) :
    next.locks = state.locks ∨
      ∃ taken, state.locks.step (fun call => erase (steps call)) allowed taken =
        some next.locks := by
  cases action with
  | call thread call =>
      obtain ⟨⟨idle, permitted⟩, rfl⟩ := call_eq_some.mp stepped
      refine .inr ⟨.call thread call, ?_⟩
      have idle : state.locks.program thread = [] := by simp [locks, idle]
      rw [LockState.step, if_pos ⟨by simp [idle], permitted⟩]
      exact congrArg some (locks_setProgram _).symm
  | advance thread =>
      rcases advance_locks stepped with same | moved
      · exact .inl same
      · exact .inr ⟨.advance thread, moved⟩
  | skip thread =>
      obtain ⟨location, kind, rest, program, rfl⟩ := skip_eq_some.mp stepped
      exact .inl (locks_setProgram_of_erase (by simp [program]))

variable {α : Type*} [Preorder α] {rank : Mutex → α}
  {permitted : Call → Location → AccessKind → Set Mutex → Prop}

/-- What each thread has left keeps the order of the mutexes and checks its
accesses. -/
structure Sound (rank : Mutex → α)
    (permitted : Call → Location → AccessKind → Set Mutex → Prop)
    (state : MemoryState Thread Mutex Location Call) : Prop where
  disciplined : state.locks.Disciplined rank
  checked : ∀ thread call, state.making thread = some call →
    Checked (permitted call) (state.held thread) (state.program thread)
  idle : ∀ thread, state.making thread = none → state.program thread = []

omit [DecidableEq Thread] [DecidableEq Mutex] in
theorem sound_init :
    (init : MemoryState Thread Mutex Location Call).Sound rank permitted where
  disciplined := LockState.disciplined_init
  checked := by simp [init]
  idle := fun _ _ => rfl

omit [DecidableEq Mutex] in
/-- One thread moves on, and the mutexes of the others stay theirs. -/
theorem Sound.move (sound : state.Sound rank permitted)
    {moved : MemoryState Thread Mutex Location Call}
    {program : List (MemoryStep Mutex Location)}
    (disciplined : (moved.setProgram thread program).locks.Disciplined rank)
    (others : ∀ other ≠ thread, moved.held other = state.held other)
    (kept : moved.program = state.program)
    (same : moved.making = state.making)
    (unfinished : state.program thread ≠ [])
    (checked : ∀ call, state.making thread = some call →
      Checked (permitted call) (moved.held thread) program) :
    (moved.setProgram thread program).Sound rank permitted := by
  refine ⟨disciplined, ?_, ?_⟩
  · intro other call movedMakes
    have makes : state.making other = some call := same ▸ movedMakes
    show Checked (permitted call) (moved.held other)
      (Function.update moved.program thread program other)
    rcases eq_or_ne other thread with rfl | differ
    · rw [Function.update_self]
      exact checked call makes
    · rw [Function.update_of_ne differ, others other differ, kept]
      exact sound.checked other call makes
  · intro other movedRests
    have rests : state.making other = none := same ▸ movedRests
    have differ : other ≠ thread := by
      rintro rfl
      exact unfinished (sound.idle other rests)
    show Function.update moved.program thread program other = []
    rw [Function.update_of_ne differ, kept]
    exact sound.idle other rests

theorem Sound.advance (sound : state.Sound rank permitted)
    (disciplined : next.locks.Disciplined rank)
    (stepped : state.advance thread = some next) :
    next.Sound rank permitted := by
  have ordered := sound.disciplined thread
  have checked := sound.checked thread
  unfold MemoryState.advance at stepped
  split at stepped
  next => cases stepped
  next location kind rest program =>
      cases stepped
      refine sound.move disciplined (fun _ _ => rfl) rfl rfl (by simp [program])
        fun call makes => ?_
      have here := checked call makes
      rw [program] at here
      exact here.2
  next mutex rest program =>
      split at stepped
      next free =>
          cases stepped
          refine sound.move disciplined (fun other differ => ?_) rfl rfl
            (by simp [program]) fun call makes => ?_
          · exact state.locks.held_setOwner_other (by simp [locks, free])
              (by simpa using differ.symm)
          · have here := checked call makes
            rw [program] at here
            have grown : (state.setOwner mutex (some thread)).held thread =
                insert mutex (state.held thread) :=
              state.locks.held_setOwner_self thread mutex
            rw [grown]
            exact here
      next => cases stepped
  next mutex rest program =>
      cases stepped
      have leaving : state.locks.program thread =
          .release mutex :: erase rest := by simp [locks, program]
      rw [leaving] at ordered
      have owned : state.owner mutex = some thread := ordered.1
      refine sound.move disciplined (fun other differ => ?_) rfl rfl
        (by simp [program]) fun call makes => ?_
      · exact state.locks.held_setOwner_other
          (by simpa [locks, owned] using differ.symm) (by simp)
      · have here := checked call makes
        rw [program] at here
        have shrunk : (state.setOwner mutex none).held thread =
            state.held thread \ {mutex} :=
          state.locks.held_setOwner_none thread mutex
        rw [shrunk]
        exact here
  next rest program =>
      cases stepped
      refine sound.move disciplined (fun _ _ => rfl) rfl rfl (by simp [program])
        fun call makes => ?_
      have here := checked call makes
      rw [program] at here
      exact here

theorem Sound.step
    (covered : ∀ call, Checked (permitted call) ∅ (steps call))
    {action : MemoryAction Thread Call} (sound : state.Sound rank permitted)
    (disciplined : next.locks.Disciplined rank)
    (stepped : state.step steps allowed action = some next) :
    next.Sound rank permitted := by
  cases action with
  | advance thread => exact sound.advance disciplined stepped
  | skip thread =>
      obtain ⟨location, kind, rest, program, rfl⟩ := skip_eq_some.mp stepped
      refine sound.move disciplined (fun _ _ => rfl) rfl rfl (by simp [program])
        fun call makes => ?_
      have here := sound.checked thread call makes
      rw [program] at here
      exact here.2
  | call thread call =>
      obtain ⟨⟨idle, _⟩, rfl⟩ := call_eq_some.mp stepped
      have nothing : state.held thread = ∅ := by
        have ordered := sound.disciplined thread
        have finished : state.locks.program thread = [] := by simp [locks, idle]
        rw [finished] at ordered
        exact ordered
      refine ⟨disciplined, ?_, ?_⟩
      · intro other otherCall makes
        show Checked (permitted otherCall) (state.held other)
          (Function.update state.program thread (steps call) other)
        rcases eq_or_ne other thread with rfl | differ
        · rw [Function.update_self, nothing]
          have same : otherCall = call := by simpa [eq_comm] using makes
          exact same ▸ covered call
        · rw [Function.update_of_ne differ]
          exact sound.checked other otherCall (by simpa [differ] using makes)
      · intro other rests
        have differ : other ≠ thread := by
          rintro rfl
          simp at rests
        show Function.update state.program thread (steps call) other = []
        rw [Function.update_of_ne differ]
        exact sound.idle other (by simpa [differ] using rests)

theorem sound_of_reachable
    (ordered : ∀ call, Ordered rank ∅ (erase (steps call)))
    (covered : ∀ call, Checked (permitted call) ∅ (steps call))
    (reached : (machine steps allowed).Reachable state) :
    state.Sound rank permitted := by
  apply Machine.reachable_preserves (Sound rank permitted) sound_init reached
  intro earlier action later sound stepped
  have disciplined : later.locks.Disciplined rank := by
    rcases step_locks stepped with same | ⟨taken, moved⟩
    · rw [same]
      exact sound.disciplined
    · exact sound.disciplined.step ordered moved
  exact sound.step covered disciplined stepped

omit [DecidableEq Thread] [DecidableEq Mutex] in
/-- A thread that is about to access a location holds what permits that. -/
theorem Sound.permitted_at (sound : state.Sound rank permitted) {call : Call}
    (makes : state.making thread = some call) {location : Location}
    {kind : AccessKind} (here : state.At thread location kind) :
    permitted call location kind (state.held thread) := by
  obtain ⟨rest, program⟩ := here
  have checked := sound.checked thread call makes
  rw [program] at checked
  exact checked.1

omit [DecidableEq Thread] [DecidableEq Mutex] in
theorem eq_of_held {other : Thread} {mutex : Mutex}
    (here : mutex ∈ state.held thread) (there : mutex ∈ state.held other) :
    thread = other := by
  have same := Eq.trans (Eq.symm here) there
  exact Option.some.inj same

/-- A thread alone with the mutexes can go on to any point of its program. -/
theorem runs_alone (steps : Call → List (MemoryStep Mutex Location))
    (allowed : Thread → Call → Bool) {before after : List (MemoryStep Mutex Location)}
    (program : state.program thread = before ++ after)
    (ordered : Ordered rank (state.held thread) (erase (state.program thread)))
    (alone : ∀ mutex other, state.owner mutex = some other → other = thread) :
    ∃ final, (machine steps allowed).run state
        (List.replicate before.length (.advance thread)) = some final ∧
      final.program thread = after ∧
      (∀ other ≠ thread, final.program other = state.program other) ∧
      final.making = state.making := by
  induction before generalizing state with
  | nil => exact ⟨state, rfl, program, fun _ _ => rfl, rfl⟩
  | cons first before induction =>
      have goes : ∀ moved : MemoryState Thread Mutex Location Call,
          state.advance thread = some (moved.setProgram thread (before ++ after)) →
          moved.program = state.program → moved.making = state.making →
          Ordered rank (moved.held thread) (erase (before ++ after)) →
          (∀ mutex other, moved.owner mutex = some other → other = thread) →
          ∃ final, (machine steps allowed).run state
              (List.replicate (first :: before).length (.advance thread)) =
                some final ∧
            final.program thread = after ∧
            (∀ other ≠ thread, final.program other = state.program other) ∧
            final.making = state.making := by
        intro moved advanced sameProgram sameMaking movedOrdered movedAlone
        have own : (moved.setProgram thread (before ++ after)).program thread =
            before ++ after := Function.update_self _ _ _
        obtain ⟨final, ran, reached, others, making⟩ := induction own
          (by rw [own]; exact movedOrdered) movedAlone
        refine ⟨final, Machine.run_cons_eq_some.mpr ⟨_, advanced, ran⟩, reached,
          fun other differ => ?_, making.trans sameMaking⟩
        rw [others other differ, ← sameProgram]
        exact Function.update_of_ne differ _ _
      rw [program] at ordered
      cases first with
      | access location kind =>
          exact goes state (by simp [advance, program]) rfl rfl ordered alone
      | lock step =>
          cases step with
          | acquire mutex =>
              have free : state.owner mutex = none := by
                cases owner : state.owner mutex with
                | none => rfl
                | some other =>
                    have own := alone mutex other owner
                    subst own
                    exact absurd (ordered.1 mutex owner) (lt_irrefl _)
              have grown : (state.setOwner mutex (some thread)).held thread =
                  insert mutex (state.held thread) :=
                state.locks.held_setOwner_self thread mutex
              refine goes (state.setOwner mutex (some thread))
                (by simp [advance, program, free]) rfl rfl
                (grown ▸ ordered.2) fun key other owns => ?_
              rcases eq_or_ne key mutex with rfl | apart
              · simpa [setOwner, eq_comm] using owns
              · exact alone key other (by simpa [setOwner, apart] using owns)
          | release mutex =>
              have shrunk : (state.setOwner mutex none).held thread =
                  state.held thread \ {mutex} :=
                state.locks.held_setOwner_none thread mutex
              refine goes (state.setOwner mutex none)
                (by simp [advance, program]) rfl rfl (shrunk ▸ ordered.2)
                fun key other owns => ?_
              rcases eq_or_ne key mutex with rfl | apart
              · simp [setOwner] at owns
              · exact alone key other (by simpa [setOwner, apart] using owns)
          | block =>
              exact goes state (by simp [advance, program]) rfl rfl ordered alone

/-- A call that accesses a location races with one that starts with a
conflicting access of it. -/
theorem race_reached
    (ordered : ∀ call, Ordered rank ∅ (erase (steps call)))
    {other : Thread} (distinct : thread ≠ other) {call otherCall : Call}
    (callAllowed : allowed thread call = true)
    (otherAllowed : allowed other otherCall = true)
    {location : Location} {kind otherKind : AccessKind}
    (accesses : .access location kind ∈ steps call)
    {rest : List (MemoryStep Mutex Location)}
    (starts : steps otherCall = .access location otherKind :: rest)
    (conflicts : kind.Conflicts otherKind) :
    ∃ state, (machine steps allowed).Reachable state ∧
      state.making thread = some call ∧ state.making other = some otherCall ∧
      state.Race thread other := by
  obtain ⟨before, after, split⟩ := List.append_of_mem accesses
  let first : MemoryState Thread Mutex Location Call :=
    beginCall steps init thread call
  let second := beginCall steps first other otherCall
  have called : (machine steps allowed).step init (.call thread call) =
      some first := call_eq_some.mpr ⟨⟨rfl, callAllowed⟩, rfl⟩
  have idle : first.program other = [] := Function.update_of_ne distinct.symm _ _
  have calledOther : (machine steps allowed).step first
      (.call other otherCall) = some second :=
    call_eq_some.mpr ⟨⟨idle, otherAllowed⟩, rfl⟩
  have own : second.program thread = steps call :=
    (Function.update_of_ne distinct _ _).trans (Function.update_self _ _ _)
  have nothing : second.held thread = ∅ := by
    ext mutex
    simp [held, second, first, beginCall, setProgram, init]
  obtain ⟨final, ran, reached, others, making⟩ :=
    second.runs_alone steps allowed (own.trans split)
      (by rw [own, nothing]; exact ordered call)
      (fun mutex owner owns => by
        simp [second, first, beginCall, setProgram, init] at owns)
  refine ⟨final, ?_, ?_, ?_, location, kind, otherKind, ⟨after, ?_⟩,
    ⟨rest, ?_⟩, conflicts⟩
  · exact ((Machine.Reachable.init.step _ called).step _ calledOther).run ran
  · rw [making]
    exact (Function.update_of_ne distinct _ _).trans
      (Function.update_self _ _ _)
  · rw [making]
    exact Function.update_self _ _ _
  · exact reached
  · rw [others other distinct.symm]
    exact (Function.update_self _ _ _).trans starts

end Soundness

end MemoryState

end Library
