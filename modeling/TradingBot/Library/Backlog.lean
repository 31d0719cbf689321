import Mathlib.Data.Multiset.AddSub

namespace Library

universe u

/-! What can be taken out of a bag, a foremost element at a time. -/

variable {Entry : Type u} [DecidableEq Entry] (before : Entry → Entry → Prop)

def Foremost (bag : Multiset Entry) (entry : Entry) : Prop :=
  entry ∈ bag ∧ ∀ other ∈ bag, before entry other

/-- The entries come out in this order, and the rest is left. -/
inductive Released : Multiset Entry → List Entry → Multiset Entry → Prop
  | nil (bag : Multiset Entry) : Released bag [] bag
  | cons {bag left : Multiset Entry} {entry : Entry} {released : List Entry}
      (foremost : Foremost before bag entry)
      (rest : Released (bag.erase entry) released left) :
      Released bag (entry :: released) left

/-- The releases of a bag are its sorted enumerations, as far as they go. -/
structure Enumerates (bag : Multiset Entry) (released : List Entry)
    (left : Multiset Entry) : Prop where
  whole : bag = released + left
  sorted : released.Pairwise before
  ahead : ∀ first ∈ released, ∀ second ∈ left, before first second

variable {before} {bag left : Multiset Entry} {released : List Entry}

theorem Released.enumerates (releases : Released before bag released left) :
    Enumerates before bag released left := by
  induction releases with
  | nil bag => exact ⟨by simp, by simp, by simp⟩
  | cons foremost rest enumerates =>
      obtain ⟨member, least⟩ := foremost
      have whole := Multiset.cons_erase member
      rw [enumerates.whole] at whole
      refine ⟨?_, ?_, ?_⟩
      · rw [← whole, ← Multiset.cons_coe, Multiset.cons_add]
      · refine List.pairwise_cons.mpr ⟨fun other later => ?_, enumerates.sorted⟩
        exact least other (by simp [← whole, later])
      · intro first among second remains
        rcases List.mem_cons.mp among with rfl | later
        · exact least second (by simp [← whole, remains])
        · exact enumerates.ahead first later second remains

theorem Enumerates.releases (refl : ∀ entry, before entry entry)
    (enumerates : Enumerates before bag released left) :
    Released before bag released left := by
  induction released generalizing bag with
  | nil =>
      obtain ⟨rfl, _, _⟩ := enumerates
      rw [Multiset.coe_nil, Multiset.zero_add]
      exact .nil left
  | cons entry rest induction =>
      obtain ⟨rfl, sorted, ahead⟩ := enumerates
      obtain ⟨least, sorted⟩ := List.pairwise_cons.mp sorted
      refine .cons ⟨by simp, fun other member => ?_⟩ (induction ⟨?_, sorted, ?_⟩)
      · rcases Multiset.mem_add.mp member with among | remains
        · rcases List.mem_cons.mp (Multiset.mem_coe.mp among) with rfl | later
          · exact refl other
          · exact least other later
        · exact ahead entry (by simp) other remains
      · rw [← Multiset.cons_coe, Multiset.cons_add, Multiset.erase_cons_head]
      · exact fun first later => ahead first (by simp [later])

end Library
