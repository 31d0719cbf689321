import Mathlib.Data.List.DropRight
import Mathlib.Data.List.Induction
import Mathlib.Data.List.Infix

namespace Library

/-! Lists as traces, oldest entry first: what holds all along them, what every
entry gives after the entries before it, and windows on the last entries. -/

theorem filterMap_concat {α β : Type*} (choose : α → Option β)
    (entries : List α) (entry : α) :
    (entries ++ [entry]).filterMap choose =
      entries.filterMap choose ++ (choose entry).toList := by
  rw [List.filterMap_append]
  cases chosen : choose entry <;> simp [chosen]

theorem pair_sublist_concat {first second last : α} {entries : List α} :
    [first, second].Sublist (entries ++ [last]) ↔
      [first, second].Sublist entries ∨ first ∈ entries ∧ second = last := by
  constructor
  · intro sub
    obtain ⟨front, back, split, inFront, inBack⟩ :=
      List.sublist_append_iff.mp sub
    rcases List.sublist_singleton.mp inBack with rfl | rfl
    · rw [List.append_nil] at split
      exact .inl (split ▸ inFront)
    · obtain ⟨rfl, same⟩ :=
        List.append_inj' (show [first] ++ [second] = _ from split) rfl
      exact .inr ⟨List.singleton_sublist.mp inFront, List.head_eq_of_cons_eq same⟩
  · intro either
    rcases either with earlier | ⟨member, rfl⟩
    · exact earlier.trans (List.sublist_append_left _ _)
    · exact (List.singleton_sublist.mpr member).append (List.Sublist.refl _)

section Prefixes

variable {α : Type*}

def EveryPrefix (property : List α → Prop) (entries : List α) : Prop :=
  ∀ earlier later, entries = earlier ++ later → property earlier

def EveryEntry (condition : List α → α → Prop) (entries : List α) : Prop :=
  ∀ earlier entry later, entries = earlier ++ entry :: later →
    condition earlier entry

theorem everyPrefix_iff_inits {property : List α → Prop} {entries : List α} :
    EveryPrefix property entries ↔ ∀ earlier ∈ entries.inits, property earlier := by
  simp only [EveryPrefix, List.mem_inits]
  constructor
  · rintro every earlier ⟨later, split⟩
    exact every earlier later split.symm
  · intro every earlier later split
    exact every earlier ⟨later, split.symm⟩

instance {property : List α → Prop} [DecidablePred property]
    (entries : List α) : Decidable (EveryPrefix property entries) :=
  decidable_of_iff _ everyPrefix_iff_inits.symm

theorem EveryPrefix.append {property : List α → Prop} {first second : List α}
    (every : EveryPrefix property (first ++ second)) :
    EveryPrefix property first := by
  intro earlier later split
  exact every earlier (later ++ second) (by rw [split, List.append_assoc])

theorem EveryPrefix.whole {property : List α → Prop} {entries : List α}
    (every : EveryPrefix property entries) : property entries :=
  every entries [] (List.append_nil _).symm

theorem everyEntry_nil (condition : List α → α → Prop) :
    EveryEntry condition [] := by
  intro earlier entry later split
  simp at split

theorem everyEntry_concat {condition : List α → α → Prop} {entries : List α}
    {entry : α} :
    EveryEntry condition (entries ++ [entry]) ↔
      EveryEntry condition entries ∧ condition entries entry := by
  constructor
  · intro every
    refine ⟨fun earlier other later split => ?_, every entries entry [] rfl⟩
    exact every earlier other (later ++ [entry]) (by simp [split])
  · intro every earlier other later split
    obtain ⟨before, last⟩ := every
    induction later using List.reverseRecOn with
    | nil =>
        obtain ⟨rfl, same⟩ := List.append_inj' split rfl
        cases same
        exact last
    | append_singleton later final _ =>
        rw [← List.cons_append, ← List.append_assoc] at split
        obtain ⟨same, _⟩ := List.append_inj' split rfl
        exact before earlier other later same

/-- A property holds all along a trace exactly if no entry breaks it. -/
theorem everyPrefix_iff {property : List α → Prop}
    {condition : List α → α → Prop} (start : property [])
    (step : ∀ earlier entry, property earlier →
      (property (earlier ++ [entry]) ↔ condition earlier entry))
    (entries : List α) :
    EveryPrefix property entries ↔ EveryEntry condition entries := by
  constructor
  · intro every earlier entry later split
    rw [← step earlier entry (every earlier (entry :: later) split)]
    exact every (earlier ++ [entry]) later (by simpa using split)
  · intro every earlier later split
    induction earlier using List.reverseRecOn generalizing later with
    | nil => exact start
    | append_singleton earlier entry induction =>
        rw [List.append_assoc, List.singleton_append] at split
        rw [step earlier entry (induction (entry :: later) split)]
        exact every earlier entry later split

theorem everyPrefix_filterMap {β : Type*} {choose : α → Option β}
    {property : List β → Prop} (entries : List α) :
    EveryPrefix (fun earlier => property (earlier.filterMap choose)) entries ↔
      EveryPrefix property (entries.filterMap choose) := by
  constructor
  · intro every earlier later split
    obtain ⟨before, after, rfl, rfl, _⟩ := List.filterMap_eq_append_iff.mp split
    exact every before after rfl
  · intro every earlier later split
    rw [split, List.filterMap_append] at every
    exact every _ _ rfl

end Prefixes

section EachAfter

variable {α β : Type*}

/-- The outputs of all entries, each computed from the entries before it. -/
def eachAfter (output : List α → α → List β) : List α → List β
  | [] => []
  | entry :: rest =>
      output [] entry ++
        eachAfter (fun earlier => output (entry :: earlier)) rest

variable (output : List α → α → List β)

@[simp] theorem eachAfter_nil : eachAfter output [] = [] := rfl

theorem eachAfter_append (first second : List α) :
    eachAfter output (first ++ second) =
      eachAfter output first ++
        eachAfter (fun earlier => output (first ++ earlier)) second := by
  induction first generalizing output with
  | nil => rfl
  | cons entry rest induction =>
      simp only [List.cons_append, eachAfter, induction, List.append_assoc]

theorem eachAfter_concat (entries : List α) (entry : α) :
    eachAfter output (entries ++ [entry]) =
      eachAfter output entries ++ output entries entry := by
  simp [eachAfter_append, eachAfter]

theorem filterMap_eachAfter {γ : Type*} (choose : β → Option γ)
    (entries : List α) :
    (eachAfter output entries).filterMap choose =
      eachAfter (fun earlier entry => (output earlier entry).filterMap choose)
        entries := by
  induction entries using List.reverseRecOn with
  | nil => rfl
  | append_singleton rest entry induction =>
      rw [eachAfter_concat, eachAfter_concat, List.filterMap_append, induction]

/-- Outputs of the same lengths agree exactly if they agree entry by entry. -/
theorem eachAfter_eq_iff {other : List α → α → List β}
    (lengths : ∀ earlier entry,
      (output earlier entry).length = (other earlier entry).length)
    (entries : List α) :
    eachAfter output entries = eachAfter other entries ↔
      EveryEntry (fun earlier entry => output earlier entry = other earlier entry)
        entries := by
  induction entries using List.reverseRecOn with
  | nil => simp [everyEntry_nil]
  | append_singleton entries entry induction =>
      rw [eachAfter_concat, eachAfter_concat, everyEntry_concat, ← induction]
      constructor
      · intro same
        exact List.append_inj' same (lengths entries entry)
      · intro same
        rw [same.1, same.2]

end EachAfter

section Window

variable {α : Type*} (entries : List α)

@[simp] theorem length_rtake (size : Nat) :
    (entries.rtake size).length = min size entries.length := by
  rw [List.rtake, List.length_drop]
  omega

theorem map_rtake {β : Type*} (change : α → β) (size : Nat) :
    (entries.rtake size).map change = (entries.map change).rtake size := by
  rw [List.rtake, List.map_drop, List.rtake, List.length_map]

theorem rtake_rtake (size other : Nat) :
    (entries.rtake size).rtake other = entries.rtake (min other size) := by
  rw [List.rtake, length_rtake, List.rtake, List.rtake, List.drop_drop]
  congr 1
  omega

theorem rtake_min_length (size : Nat) :
    entries.rtake (min size entries.length) = entries.rtake size := by
  rw [List.rtake, List.rtake]
  congr 1
  omega

/-- A window keeps the last entry. -/
theorem getLast?_rtake {size : Nat} (positive : 0 < size) :
    (entries.rtake size).getLast? = entries.getLast? := by
  induction entries using List.reverseRecOn with
  | nil => simp
  | append_singleton rest entry induction =>
      obtain ⟨fewer, rfl⟩ := Nat.exists_eq_succ_of_ne_zero positive.ne'
      rw [List.rtake_concat_succ, List.getLast?_concat, List.getLast?_concat]

/-- A full window loses its oldest entry to a new one. -/
theorem rtake_concat (size : Nat) (entry : α) :
    (entries ++ [entry]).rtake size =
      if size < (entries.rtake size ++ [entry]).length then
        (entries.rtake size ++ [entry]).tail
      else entries.rtake size ++ [entry] := by
  cases size with
  | zero => simp
  | succ fewer =>
      rw [List.rtake_concat_succ, List.length_append, length_rtake,
        List.length_singleton]
      split
      next full =>
          have enough : fewer + 1 ≤ entries.length := by omega
          rw [List.rtake, List.rtake, ← List.drop_one, List.drop_append_of_le_length,
            List.drop_drop]
          · congr 2
            omega
          · rw [List.length_drop]
            omega
      next room =>
          have small : entries.length ≤ fewer := by omega
          rw [List.rtake, List.rtake, Nat.sub_eq_zero_of_le small,
            Nat.sub_eq_zero_of_le (by omega)]

end Window

end Library
