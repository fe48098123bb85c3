import Mathlib.Data.Set.Card
import Pivotal.Async.Pool

/-! Resources that are each free or lent to one borrower. -/
namespace Async

variable {ι ρ : Type}

/-- No resource is lost or used twice: each of `all` is free, once, or lent, to one borrower. -/
structure Allocated (all free : List ρ) (lent : ι → Option ρ) : Prop where
  nodup : free.Nodup
  exclusive : ∀ i j x, lent i = some x → lent j = some x → i = j
  disjoint : ∀ x ∈ free, ∀ i, lent i ≠ some x
  covers : ∀ x, x ∈ all ↔ x ∈ free ∨ ∃ i, lent i = some x

namespace Allocated

variable {all free : List ρ} {lent : ι → Option ρ}

/-- Before anything is lent. -/
theorem initial (h : all.Nodup) : Allocated all all fun _ : ι => none :=
  ⟨h, nofun, nofun, by simp⟩

/-- The free resources and the borrowers are as many as there are resources. -/
theorem length_add_ncard (hall : all.Nodup) (h : Allocated all free lent) :
    free.length + Set.ncard {i | (lent i).isSome} = all.length := by
  classical
  have hfree : ∀ x ∈ free, x ∈ all := fun x hx => (h.covers x).mpr (.inl hx)
  have himage : Set.image lent {i | (lent i).isSome} =
      ↑((all.toFinset \ free.toFinset).map Function.Embedding.some) := by
    ext o
    simp only [Set.mem_image, Set.mem_ofPred_eq, Finset.coe_map, Function.Embedding.some_apply,
      Finset.coe_sdiff, List.coe_toFinset, Set.mem_sdiff]
    constructor
    · rintro ⟨i, hi, rfl⟩
      obtain ⟨x, hx⟩ := Option.isSome_iff_exists.mp hi
      exact ⟨x, ⟨(h.covers x).mpr (.inr ⟨i, hx⟩), fun hmem => h.disjoint x hmem i hx⟩, hx.symm⟩
    · rintro ⟨x, ⟨hx, hnot⟩, rfl⟩
      obtain ⟨i, hi⟩ := ((h.covers x).mp hx).resolve_left hnot
      exact ⟨i, by simp [hi], hi⟩
  have hinj : Set.InjOn lent {i | (lent i).isSome} := by
    intro i hi j hj hij
    obtain ⟨x, hx⟩ := Option.isSome_iff_exists.mp hi
    exact h.exclusive i j x hx (hij ▸ hx)
  have hcard : Set.ncard {i | (lent i).isSome} = (all.toFinset \ free.toFinset).card := by
    rw [← hinj.ncard_image, himage, Set.ncard_coe_finset, Finset.card_map]
  have hsub : free.toFinset ⊆ all.toFinset := by
    intro x hx
    simpa using hfree x (by simpa using hx)
  have hle := Finset.card_le_card hsub
  rw [List.toFinset_card_of_nodup h.nodup, List.toFinset_card_of_nodup hall] at hle
  rw [hcard, Finset.card_sdiff_of_subset hsub, List.toFinset_card_of_nodup h.nodup,
    List.toFinset_card_of_nodup hall]
  omega

variable [DecidableEq ι] {i j : ι} {x : ρ}

/-- A free resource is lent. -/
theorem take {free' : List ρ} (h : Allocated all free lent) (hfree : free.Perm (x :: free'))
    (hi : lent i = none) : Allocated all free' (Function.update lent i (some x)) := by
  have hnodup := List.nodup_cons.mp (hfree.nodup_iff.mp h.nodup)
  have hx : x ∈ free := hfree.mem_iff.mpr (List.mem_cons_self ..)
  have hfree' : ∀ y ∈ free', y ∈ free := fun y hy => hfree.mem_iff.mpr (List.mem_cons_of_mem _ hy)
  refine ⟨hnodup.2, ?_, ?_, ?_⟩
  · intro j k y hj hk
    rcases update_eq_some.mp hj with ⟨hji, hxy⟩ | ⟨-, hlent⟩
    · cases hxy
      rcases update_eq_some.mp hk with ⟨hki, -⟩ | ⟨-, hlent⟩
      · rw [hji, hki]
      · exact (h.disjoint x hx k hlent).elim
    · rcases update_eq_some.mp hk with ⟨-, hxy⟩ | ⟨-, hlent'⟩
      · cases hxy
        exact (h.disjoint x hx j hlent).elim
      · exact h.exclusive j k y hlent hlent'
  · intro y hy j hj
    rcases update_eq_some.mp hj with ⟨-, hxy⟩ | ⟨-, hj⟩
    · cases hxy
      exact hnodup.1 hy
    · exact h.disjoint y (hfree' y hy) j hj
  · intro y
    rw [h.covers, hfree.mem_iff, List.mem_cons]
    constructor
    · rintro ((rfl | hy) | ⟨j, hj⟩)
      · exact .inr ⟨i, Function.update_self ..⟩
      · exact .inl hy
      · have hji : j ≠ i := by
          rintro rfl
          rw [hi] at hj
          cases hj
        exact .inr ⟨j, update_eq_some.mpr (.inr ⟨hji, hj⟩)⟩
    · rintro (hy | ⟨j, hj⟩)
      · exact .inl (.inr hy)
      · rcases update_eq_some.mp hj with ⟨-, hxy⟩ | ⟨-, hj⟩
        · cases hxy
          exact .inl (.inl rfl)
        · exact .inr ⟨j, hj⟩

/-- A lent resource comes back. -/
theorem give (h : Allocated all free lent) (hi : lent i = some x) {free' : List ρ}
    (hfree : free'.Perm (x :: free)) : Allocated all free' (Function.update lent i none) := by
  have hx : x ∉ free := fun hx => h.disjoint x hx i hi
  refine ⟨hfree.nodup_iff.mpr (List.nodup_cons.mpr ⟨hx, h.nodup⟩), ?_, ?_, ?_⟩
  · intro j k y hj hk
    exact h.exclusive j k y (of_update_none hj).2 (of_update_none hk).2
  · intro y hy j hj
    obtain ⟨hji, hj⟩ := of_update_none hj
    rcases List.mem_cons.mp (hfree.mem_iff.mp hy) with rfl | hy
    · exact hji (h.exclusive j i y hj hi)
    · exact h.disjoint y hy j hj
  · intro y
    rw [h.covers, hfree.mem_iff, List.mem_cons]
    constructor
    · rintro (hy | ⟨j, hj⟩)
      · exact .inl (.inr hy)
      · by_cases hji : j = i
        · subst hji
          rw [hi] at hj
          cases hj
          exact .inl (.inl rfl)
        · exact .inr ⟨j, update_eq_some.mpr (.inr ⟨hji, hj⟩)⟩
    · rintro ((rfl | hy) | ⟨j, hj⟩)
      · exact .inr ⟨i, hi⟩
      · exact .inl hy
      · exact .inr ⟨j, (of_update_none hj).2⟩

/-- A lent resource goes from one borrower to another, and is never free. -/
theorem pass (h : Allocated all free lent) (hi : lent i = some x) (hj : lent j = none) :
    Allocated all free (Function.update (Function.update lent i none) j (some x)) := by
  have hgiven := h.give hi (List.Perm.refl (x :: free))
  refine hgiven.take (List.Perm.refl _) ?_
  have hji : j ≠ i := by
    rintro rfl
    rw [hi] at hj
    cases hj
  rwa [Function.update_of_ne hji]

end Allocated
end Async
