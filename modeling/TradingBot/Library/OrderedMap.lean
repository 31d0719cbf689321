import Mathlib.Algebra.BigOperators.Group.Finset.Piecewise
import Mathlib.Tactic.Abel

namespace Library

/-! Ordered maps: one entry changed in place, and sums over the entries. -/

variable {κ ν : Type*} {cmp : κ → κ → Ordering} [Std.TransCmp cmp]
  [DecidableEq κ] {map : Std.ExtTreeMap κ ν cmp} {k : κ}

theorem getElem?_change_of_fixed {change : ν → ν}
    (fixed : ∀ entry ∈ map[k]?, change entry = entry) (other : κ) :
    ((map[other]?).map fun entry =>
        if other = k then change entry else entry) = map[other]? := by
  cases found : map[other]? with
  | none => rfl
  | some entry =>
      rw [Option.map_some]
      apply congrArg some
      split
      next same => exact fixed entry (same ▸ found)
      next => rfl

variable [Std.LawfulEqCmp cmp]

theorem getElem?_insert_eq_ite (value : ν) (other : κ) :
    (map.insert k value)[other]? =
      if other = k then some value else map[other]? := by
  rw [Std.ExtTreeMap.getElem?_insert]
  rcases eq_or_ne other k with rfl | differ
  · simp
  · simp [differ, differ.symm]

omit [DecidableEq κ] in
theorem mem_insert_iff {value : ν} {other : κ} :
    other ∈ map.insert k value ↔ other = k ∨ other ∈ map := by
  rw [Std.ExtTreeMap.mem_insert, Std.LawfulEqCmp.compare_eq_iff_eq,
    eq_comm (a := k)]

/-- Storing a changed entry changes it and no other. -/
theorem getElem?_insert_change {value : ν} (found : map[k]? = some value)
    (change : ν → ν) (other : κ) :
    (map.insert k (change value))[other]? =
      (map[other]?).map fun entry =>
        if other = k then change entry else entry := by
  rw [getElem?_insert_eq_ite]
  rcases eq_or_ne other k with rfl | differ
  · simp [found]
  · simp [differ]

/-- A map whose entry of one key is changed, if it has one. -/
theorem getElem?_of_changed {after : Std.ExtTreeMap κ ν cmp} {change : ν → ν}
    (absent : map[k]? = none → after = map)
    (present : ∀ entry, map[k]? = some entry →
      after = map.insert k (change entry)) (other : κ) :
    after[other]? =
      (map[other]?).map fun entry =>
        if other = k then change entry else entry := by
  cases found : map[k]? with
  | none =>
      rw [absent found]
      exact (getElem?_change_of_fixed (by simp [found]) other).symm
  | some entry =>
      rw [present entry found]
      exact getElem?_insert_change found change other

/-- Storing a value changes nothing exactly if it is already there. -/
theorem insert_eq_self_iff {value : ν} :
    map.insert k value = map ↔ map[k]? = some value := by
  constructor
  · intro same
    rw [← same, getElem?_insert_eq_ite, if_pos rfl]
  · intro found
    apply Std.ExtTreeMap.ext_getElem?
    intro other
    rw [getElem?_insert_eq_ite]
    split
    next same => rw [same, found]
    next => rfl

/-- Storing another value under a key that is there keeps its place. -/
theorem toList_insert_of_mem {value : ν} (found : map[k]? = some value)
    (changed : ν) :
    (map.insert k changed).toList =
      map.toList.map fun entry =>
        (entry.1, if entry.1 = k then changed else entry.2) := by
  have mapped : map.insert k changed =
      map.map fun other value => if other = k then changed else value := by
    apply Std.ExtTreeMap.ext_getElem?
    intro other
    rw [getElem?_insert_eq_ite, Std.ExtTreeMap.getElem?_map]
    split
    next same => rw [same, found, Option.map_some]
    next => exact Option.map_id'.symm
  rw [mapped, Std.ExtTreeMap.toList_map]

theorem getElem?_modify_eq_map (change : ν → ν) (other : κ) :
    (map.modify k change)[other]? =
      (map[other]?).map fun entry =>
        if other = k then change entry else entry := by
  rw [Std.ExtTreeMap.getElem?_modify]
  rcases eq_or_ne other k with rfl | differ
  · simp
  · simp [differ, differ.symm]

/-- Changes of different entries commute. -/
theorem modify_comm {first second : κ} (differ : first ≠ second)
    (change other : ν → ν) :
    (map.modify first change).modify second other =
      (map.modify second other).modify first change := by
  apply Std.ExtTreeMap.ext_getElem?
  intro k
  simp only [getElem?_modify_eq_map, Option.map_map]
  refine Option.map_congr fun entry _ => ?_
  rcases eq_or_ne k first with rfl | apart
  · simp [differ]
  · simp [apart]

/-- A sum over the entries of a map is a sum over any set of keys that covers
its own, absent keys counting nothing. -/
theorem sum_toList_eq {M : Type*} [AddCommMonoid M] {keys : Finset κ}
    (covered : ∀ k v, map[k]? = some v → k ∈ keys) (value : κ → ν → M) :
    (map.toList.map fun entry => value entry.1 entry.2).sum =
      ∑ k ∈ keys, (map[k]?).elim 0 (value k) := by
  have within : map.keys.toFinset ⊆ keys := by
    intro k member
    have present : k ∈ map := Std.ExtTreeMap.mem_keys.mp (by simpa using member)
    exact covered k map[k] (Std.ExtTreeMap.getElem?_eq_some_getElem present)
  have absent : ∀ k ∈ keys, k ∉ map.keys.toFinset →
      (map[k]?).elim 0 (value k) = 0 := by
    intro k _ missing
    have missing : k ∉ map := by simpa using missing
    simp [missing]
  rw [← Finset.sum_subset within absent,
    List.sum_toFinset _ Std.ExtTreeMap.nodup_keys,
    ← Std.ExtTreeMap.map_fst_toList_eq_keys, List.map_map]
  congr 1
  apply List.map_congr_left
  intro entry member
  have found : map[entry.1]? = some entry.2 :=
    Std.ExtTreeMap.mem_toList_iff_getElem?_eq_some.mp member
  simp [found]

/-- Storing a value replaces what its key counted. -/
theorem sum_toList_insert {M : Type*} [AddCommGroup M] (value : ν → M)
    (stored : ν) :
    ((map.insert k stored).toList.map fun entry => value entry.2).sum =
      (map.toList.map fun entry => value entry.2).sum +
        (value stored - (map[k]?).elim 0 value) := by
  let keys := insert k map.keys.toFinset
  have covered : ∀ key v, map[key]? = some v → key ∈ keys := by
    intro key v found
    have present : key ∈ map := Std.ExtTreeMap.mem_iff_isSome_getElem?.mpr (by simp [found])
    simp [keys, present]
  have coveredAfter : ∀ key v, (map.insert k stored)[key]? = some v →
      key ∈ keys := by
    intro key v found
    rw [getElem?_insert_eq_ite] at found
    split at found
    next same => simp [keys, same]
    next => exact covered key v found
  have others : ∀ key ∈ keys.erase k,
      ((map.insert k stored)[key]?).elim 0 value = (map[key]?).elim 0 value := by
    intro key member
    rw [getElem?_insert_eq_ite, if_neg (Finset.ne_of_mem_erase member)]
  have member : k ∈ keys := Finset.mem_insert_self _ _
  rw [sum_toList_eq coveredAfter fun _ => value,
    sum_toList_eq covered fun _ => value, ← Finset.add_sum_erase keys _ member,
    ← Finset.add_sum_erase keys _ member, Finset.sum_congr rfl others,
    getElem?_insert_eq_ite, if_pos rfl]
  simp only [Option.elim_some]
  abel

theorem modify_eq_insert {value : ν} (found : map[k]? = some value)
    (change : ν → ν) : map.modify k change = map.insert k (change value) := by
  apply Std.ExtTreeMap.ext_getElem?
  intro other
  rw [getElem?_modify_eq_map, getElem?_insert_change found]

omit [DecidableEq κ] in
/-- Changing an entry twice is changing it by both changes. -/
theorem insert_insert {value changed : ν} :
    (map.insert k value).insert k changed = map.insert k changed := by
  classical
  apply Std.ExtTreeMap.ext_getElem?
  intro other
  rw [getElem?_insert_eq_ite, getElem?_insert_eq_ite, getElem?_insert_eq_ite]
  split <;> rfl

section Traversal

omit [DecidableEq κ] [Std.LawfulEqCmp cmp]

/-- The entry an iterator reaches next: the first one after the last it has
visited, or the first of all. -/
def nextEntry (map : Std.ExtTreeMap κ ν cmp) (visited : Option κ) :
    Option (κ × ν) :=
  map.toList.find? fun entry =>
    visited.all fun last => (cmp last entry.1).isLT

/-- An iterator that has visited the first entries comes to the next one. -/
theorem nextEntry_eq_head? {visited rest : List (κ × ν)}
    (split : map.toList = visited ++ rest) :
    nextEntry map (visited.getLast?.map Prod.fst) = rest.head? := by
  have ordered : (visited ++ rest).Pairwise fun first second =>
      cmp first.1 second.1 = .lt := by
    rw [← split]
    exact Std.ExtTreeMap.ordered_keys_toList
  rw [nextEntry, split]
  cases visited using List.reverseRecOn with
  | nil => cases rest <;> simp
  | append_singleton before last =>
      obtain ⟨visitedOrdered, _, across⟩ := List.pairwise_append.mp ordered
      have passed : ∀ entry ∈ before ++ [last],
          ¬ (cmp last.1 entry.1).isLT = true := by
        intro entry member
        rcases List.mem_append.mp member with earlier | same
        · have below : cmp entry.1 last.1 = .lt :=
            (List.pairwise_append.mp visitedOrdered).2.2 entry earlier last
              List.mem_cons_self
          simp [Std.OrientedCmp.gt_of_lt below]
        · have itself : cmp last.1 last.1 = .eq := Std.ReflCmp.compare_self
          simp [List.mem_singleton.mp same, itself]
      rw [List.getLast?_concat, Option.map_some, List.find?_append]
      simp only [Option.all_some]
      rw [List.find?_eq_none.mpr passed]
      cases rest with
      | nil => rfl
      | cons entry rest =>
          have above : cmp last.1 entry.1 = .lt :=
            across last (by simp) entry List.mem_cons_self
          simp [above]

end Traversal

end Library
