import Mathlib.Algebra.BigOperators.Group.Finset.Piecewise

namespace Library

/-! Lists grouped by a key: the sums of the groups, and the records that match
the entries of a group. -/

section Group

variable {α κ M : Type*} [DecidableEq κ] [AddCommMonoid M]

/-- The part of a sum that one key contributes. -/
def groupSum (key : α → κ) (value : α → M) (entries : List α) (k : κ) : M :=
  ((entries.filter fun entry => decide (key entry = k)).map value).sum

variable {key : α → κ} {value : α → M}

@[simp] theorem groupSum_nil (k : κ) : groupSum key value [] k = 0 := rfl

theorem groupSum_append (first second : List α) (k : κ) :
    groupSum key value (first ++ second) k =
      groupSum key value first k + groupSum key value second k := by
  simp [groupSum]

theorem groupSum_singleton (entry : α) (k : κ) :
    groupSum key value [entry] k = if key entry = k then value entry else 0 := by
  simp only [groupSum, List.filter_cons, List.filter_nil]
  split <;> simp_all

theorem groupSum_cons (entry : α) (rest : List α) (k : κ) :
    groupSum key value (entry :: rest) k =
      (if key entry = k then value entry else 0) +
        groupSum key value rest k := by
  rw [← List.singleton_append, groupSum_append, groupSum_singleton]

theorem groupSum_perm {first second : List α} (reordered : first.Perm second)
    (k : κ) : groupSum key value first k = groupSum key value second k :=
  ((reordered.filter _).map _).sum_eq

theorem groupSum_erase [BEq α] [LawfulBEq α] {entries : List α} {entry : α}
    (member : entry ∈ entries) (k : κ) :
    groupSum key value entries k =
      (if key entry = k then value entry else 0) +
        groupSum key value (entries.erase entry) k := by
  rw [groupSum_perm (List.perm_cons_erase member), groupSum_cons]

theorem groupSum_congr {first second : α → M} {entries : List α} {k : κ}
    (agree : ∀ entry ∈ entries, key entry = k → first entry = second entry) :
    groupSum key first entries k = groupSum key second entries k := by
  unfold groupSum
  congr 1
  apply List.map_congr_left
  intro entry member
  simp only [List.mem_filter, decide_eq_true_eq] at member
  exact agree entry member.1 member.2

theorem sum_groupSum {keys : Finset κ} {entries : List α}
    (covered : ∀ entry ∈ entries, key entry ∈ keys) :
    ∑ k ∈ keys, groupSum key value entries k = (entries.map value).sum := by
  induction entries with
  | nil => simp
  | cons entry rest induction =>
      simp only [groupSum_cons, Finset.sum_add_distrib, List.map_cons,
        List.sum_cons]
      rw [induction fun other member => covered other (List.mem_cons_of_mem _ member),
        Finset.sum_ite_eq, if_pos (covered entry List.mem_cons_self)]

end Group

section Matching

variable {α β κ : Type*} [DecidableEq κ] {key : α → κ} {tag : β → κ}
  {R : α → β → Prop} {entries : List α} {records : List β} {k : κ}

omit [DecidableEq κ] in
theorem exists_of_forall₂ (matched : List.Forall₂ R entries records)
    {record : β} (member : record ∈ records) :
    ∃ entry ∈ entries, R entry record := by
  induction matched with
  | nil => cases member
  | @cons entry head _ _ related _ induction =>
      rcases List.mem_cons.mp member with rfl | later
      · exact ⟨entry, List.mem_cons_self, related⟩
      · obtain ⟨other, listed, relatedLater⟩ := induction later
        exact ⟨other, List.mem_cons_of_mem _ listed, relatedLater⟩

theorem filter_tag_eq_nil (matched : List.Forall₂ R entries records)
    (tagged : ∀ entry record, R entry record → tag record = key entry)
    (absent : ∀ entry ∈ entries, key entry ≠ k) :
    records.filter (fun record => decide (tag record = k)) = [] := by
  induction matched with
  | nil => rfl
  | @cons entry record _ _ related _ induction =>
      have differ : tag record ≠ k := by
        rw [tagged entry record related]
        exact absent entry List.mem_cons_self
      rw [List.filter_cons_of_neg (by simpa using differ)]
      exact induction fun other member => absent other (List.mem_cons_of_mem _ member)

/-- Where keys are distinct, an entry's key picks out exactly its record. -/
theorem filter_tag_eq_singleton (matched : List.Forall₂ R entries records)
    (tagged : ∀ entry record, R entry record → tag record = key entry)
    (distinct : (entries.map key).Nodup) {entry : α}
    (member : entry ∈ entries) :
    ∃ record, R entry record ∧
      records.filter (fun record => decide (tag record = key entry)) =
        [record] := by
  induction matched with
  | nil => cases member
  | @cons head record _ _ related matched induction =>
      rw [List.map_cons, List.nodup_cons] at distinct
      have own := tagged head record related
      rcases List.mem_cons.mp member with rfl | member
      · refine ⟨record, related, ?_⟩
        rw [List.filter_cons_of_pos (by simpa using own),
          filter_tag_eq_nil matched tagged]
        intro other later same
        exact distinct.1 (List.mem_map.mpr ⟨other, later, same⟩)
      · obtain ⟨later, relatedLater, found⟩ := induction distinct.2 member
        refine ⟨later, relatedLater, ?_⟩
        have differ : tag record ≠ key entry := by
          rw [own]
          intro same
          exact distinct.1 (List.mem_map.mpr ⟨entry, member, same.symm⟩)
        rw [List.filter_cons_of_neg (by simpa using differ)]
        exact found

end Matching

end Library
