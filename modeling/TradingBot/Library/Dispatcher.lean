import TradingBot.Library.Trace

namespace Library

/-! A server that takes waiting entries one at a time, none of them outranked
by another, and what its log says about their order. -/

inductive Handling (α : Type*) where
  | pushed (entry : α)
  | taken (entry : α)
  | executed (entry : α)
  deriving DecidableEq

namespace Handling

variable {α : Type*}

def pushed? : Handling α → Option α
  | .pushed entry => some entry
  | _ => none

def taken? : Handling α → Option α
  | .taken entry => some entry
  | _ => none

def executed? : Handling α → Option α
  | .executed entry => some entry
  | _ => none

end Handling

structure Dispatcher (α : Type*) where
  waiting : List α
  serving : Option α

section Dispatching

variable {α : Type*}

def pushedIn (log : List (Handling α)) : List α :=
  log.filterMap Handling.pushed?

def takenIn (log : List (Handling α)) : List α :=
  log.filterMap Handling.taken?

def executedIn (log : List (Handling α)) : List α :=
  log.filterMap Handling.executed?

theorem pushedIn_append (first second : List (Handling α)) :
    pushedIn (first ++ second) = pushedIn first ++ pushedIn second :=
  List.filterMap_append

theorem pushedIn_concat (log : List (Handling α)) (handling : Handling α) :
    pushedIn (log ++ [handling]) = pushedIn log ++ handling.pushed?.toList :=
  filterMap_concat _ log handling

theorem takenIn_concat (log : List (Handling α)) (handling : Handling α) :
    takenIn (log ++ [handling]) = takenIn log ++ handling.taken?.toList :=
  filterMap_concat _ log handling

theorem executedIn_concat (log : List (Handling α)) (handling : Handling α) :
    executedIn (log ++ [handling]) =
      executedIn log ++ handling.executed?.toList :=
  filterMap_concat _ log handling

variable (outranks : α → α → Prop)

/-- The log accounts for every entry and for the order among them. -/
structure Dispatcher.Accounted (dispatcher : Dispatcher α)
    (log : List (Handling α)) : Prop where
  conserved : (pushedIn log).Perm
    (dispatcher.waiting ++ dispatcher.serving.toList ++ executedIn log)
  served : takenIn log = executedIn log ++ dispatcher.serving.toList
  late : ∀ entry other, Handling.taken entry ∈ log →
    other ∈ dispatcher.waiting → outranks other entry →
      [Handling.taken entry, Handling.pushed other].Sublist log
  ordered : ∀ entry other, [entry, other].Sublist (takenIn log) →
    outranks other entry →
      [Handling.taken entry, Handling.pushed other].Sublist log

/-- A step of the server, with the handlings it shows. -/
inductive Dispatcher.Serves [BEq α] :
    Dispatcher α → List (Handling α) → Dispatcher α → Prop
  | idle (dispatcher : Dispatcher α) : Serves dispatcher [] dispatcher
  | push {waiting : List α} {serving : Option α} (entry : α) :
      Serves { waiting, serving } [.pushed entry]
        { waiting := waiting ++ [entry], serving }
  | take {waiting : List α} {entry : α} (member : entry ∈ waiting)
      (top : ∀ other ∈ waiting, ¬ outranks other entry) :
      Serves { waiting, serving := none } [.taken entry]
        { waiting := waiting.erase entry, serving := some entry }
  | execute {waiting : List α} (entry : α) :
      Serves { waiting, serving := some entry } [.executed entry]
        { waiting, serving := none }

theorem taken_mem_of_mem_takenIn {log : List (Handling α)} {entry : α}
    (member : entry ∈ takenIn log) : Handling.taken entry ∈ log := by
  obtain ⟨handling, listed, taken⟩ := List.mem_filterMap.mp member
  cases handling with
  | taken other =>
      cases taken
      exact listed
  | _ => cases taken

namespace Dispatcher

variable {outranks} {dispatcher next : Dispatcher α} {waiting : List α}
  {serving : Option α} {log seen : List (Handling α)}

theorem accounted_idle :
    Accounted outranks { waiting := [], serving := none } [] where
  conserved := List.Perm.refl _
  served := rfl
  late := by simp
  ordered := by simp [takenIn]

/-- A handling that takes nothing leaves the order of the taken entries. -/
theorem Accounted.ordered_of_silent
    (accounted : Accounted outranks dispatcher log) {handling : Handling α}
    (silent : handling.taken? = none) (first second : α)
    (sub : [first, second].Sublist (takenIn (log ++ [handling])))
    (urgent : outranks second first) :
    [Handling.taken first, Handling.pushed second].Sublist
      (log ++ [handling]) := by
  rw [takenIn_concat, silent, Option.toList_none, List.append_nil] at sub
  exact (accounted.ordered first second sub urgent).trans
    (List.sublist_append_left _ _)

theorem Accounted.push
    (accounted : Accounted outranks { waiting, serving } log) (entry : α) :
    Accounted outranks { waiting := waiting ++ [entry], serving }
      (log ++ [.pushed entry]) where
  conserved := by
    have moved : (serving.toList ++ executedIn log ++ [entry]).Perm
        ([entry] ++ (serving.toList ++ executedIn log)) :=
      List.perm_append_comm
    have pushed := accounted.conserved.append_right [entry]
    rw [pushedIn_concat, executedIn_concat]
    refine pushed.trans ?_
    simpa [Handling.pushed?, Handling.executed?] using moved.append_left waiting
  served := by
    rw [takenIn_concat, executedIn_concat]
    simpa [Handling.taken?, Handling.executed?] using accounted.served
  late := by
    intro taken other listed waits urgent
    have listed : Handling.taken taken ∈ log := by simpa using listed
    rw [pair_sublist_concat]
    rcases List.mem_append.mp waits with waits | last
    · exact .inl (accounted.late taken other listed waits urgent)
    · rw [List.mem_singleton.mp last]
      exact .inr ⟨listed, rfl⟩
  ordered := accounted.ordered_of_silent rfl

theorem Accounted.take [BEq α] [LawfulBEq α]
    (accounted : Accounted outranks { waiting, serving := none } log)
    {entry : α} (member : entry ∈ waiting)
    (top : ∀ other ∈ waiting, ¬ outranks other entry) :
    Accounted outranks
      { waiting := waiting.erase entry, serving := some entry }
      (log ++ [.taken entry]) where
  conserved := by
    have moved : waiting.Perm (waiting.erase entry ++ [entry]) :=
      (List.perm_cons_erase member).trans (List.perm_append_singleton _ _).symm
    rw [pushedIn_concat, executedIn_concat]
    simpa [Handling.pushed?, Handling.executed?] using
      accounted.conserved.trans (by simpa using moved.append_right _)
  served := by
    rw [takenIn_concat, executedIn_concat]
    simpa [Handling.taken?, Handling.executed?] using accounted.served
  late := by
    intro taken other listed waits urgent
    have waited := List.mem_of_mem_erase waits
    rcases List.mem_append.mp listed with listed | last
    · exact (accounted.late taken other listed waited urgent).trans
        (List.sublist_append_left _ _)
    · cases List.mem_singleton.mp last
      exact absurd urgent (top other waited)
  ordered := by
    intro first second sub urgent
    rw [takenIn_concat, Handling.taken?, Option.toList_some,
      pair_sublist_concat] at sub
    refine List.Sublist.trans ?_ (List.sublist_append_left log _)
    rcases sub with sub | ⟨earlier, rfl⟩
    · exact accounted.ordered first second sub urgent
    · exact accounted.late first second (taken_mem_of_mem_takenIn earlier)
        member urgent

theorem Accounted.execute {entry : α}
    (accounted : Accounted outranks { waiting, serving := some entry } log) :
    Accounted outranks { waiting, serving := none }
      (log ++ [.executed entry]) where
  conserved := by
    have moved : (waiting ++ [entry] ++ executedIn log).Perm
        (waiting ++ (executedIn log ++ [entry])) := by
      rw [List.append_assoc]
      exact List.perm_append_comm.append_left waiting
    rw [pushedIn_concat, executedIn_concat]
    simpa [Handling.pushed?, Handling.executed?] using
      accounted.conserved.trans moved
  served := by
    rw [takenIn_concat, executedIn_concat]
    simpa [Handling.taken?, Handling.executed?] using accounted.served
  late := by
    intro taken other listed waits urgent
    have listed : Handling.taken taken ∈ log := by simpa using listed
    exact (accounted.late taken other listed waits urgent).trans
      (List.sublist_append_left _ _)
  ordered := accounted.ordered_of_silent rfl

theorem Accounted.serves [BEq α] [LawfulBEq α]
    (accounted : Accounted outranks dispatcher log)
    (serves : Serves outranks dispatcher seen next) :
    Accounted outranks next (log ++ seen) := by
  cases serves with
  | idle => rwa [List.append_nil]
  | push entry => exact accounted.push entry
  | take member top => exact accounted.take member top
  | execute entry => exact accounted.execute

/-- Of two executed entries, the one executed last can only outrank the other
if it was pushed after the other had been taken. -/
theorem Accounted.executed_in_order
    (accounted : Accounted outranks dispatcher log) {entry other : α}
    (executed : [Handling.executed entry, Handling.executed other].Sublist log)
    (urgent : outranks other entry) :
    [Handling.taken entry, Handling.pushed other].Sublist log := by
  have inOrder : [entry, other].Sublist (executedIn log) :=
    executed.filterMap Handling.executed?
  apply accounted.ordered entry other _ urgent
  rw [accounted.served]
  exact inOrder.trans (List.sublist_append_left _ _)

end Dispatcher

end Dispatching

end Library
