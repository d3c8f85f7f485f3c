import Mathlib.Data.Finset.Basic
import Mathlib.Data.Finset.Insert
import Mathlib.Logic.Function.Basic

/-!
# Who holds what

Exclusive resources handed out from a shared set. `held` says which resource
each place holds; `Exact taken held` says that the set of taken resources is
exactly what is held and that no resource is held in two places. The three
ways a well-behaved step changes the books (take a free resource, give one
back, move one from place to place) each keep `Exact`.
-/

namespace Holding

variable {ι α : Type*}

structure Exact (taken : Finset α) (held : ι → Option α) : Prop where
  mem_iff : ∀ a, a ∈ taken ↔ ∃ i, held i = some a
  inj : ∀ {i j a}, held i = some a → held j = some a → i = j

namespace Exact

variable {taken : Finset α} {held : ι → Option α}

theorem empty : Exact (∅ : Finset α) (fun _ : ι => none) where
  mem_iff a := by simp
  inj h := by simp at h

theorem not_held (h : Exact taken held) {a : α} (ha : a ∉ taken) (i : ι) :
    held i ≠ some a := fun hi => ha ((h.mem_iff a).mpr ⟨i, hi⟩)

variable [DecidableEq ι] [DecidableEq α]

/-- Place `i`, holding nothing, takes the free resource `a`. -/
theorem take (h : Exact taken held) {i : ι} {a : α} (ha : a ∉ taken)
    (hi : held i = none) : Exact (insert a taken) (Function.update held i (some a)) where
  mem_iff b := by
    rw [Finset.mem_insert, h.mem_iff b]
    constructor
    · rintro (rfl | ⟨j, hj⟩)
      · exact ⟨i, Function.update_self ..⟩
      · refine ⟨j, ?_⟩
        rw [Function.update_of_ne (by rintro rfl; rw [hi] at hj; cases hj)]
        exact hj
    · rintro ⟨j, hj⟩
      by_cases hji : j = i
      · rw [hji, Function.update_self] at hj
        exact Or.inl (Option.some.inj hj).symm
      · rw [Function.update_of_ne hji] at hj
        exact Or.inr ⟨j, hj⟩
  inj {j k b} hj hk := by
    by_cases hji : j = i <;> by_cases hki : k = i
    · rw [hji, hki]
    · rw [hji, Function.update_self] at hj
      rw [Function.update_of_ne hki] at hk
      exact absurd (Option.some.inj hj ▸ hk) (h.not_held ha k)
    · rw [hki, Function.update_self] at hk
      rw [Function.update_of_ne hji] at hj
      exact absurd (Option.some.inj hk ▸ hj) (h.not_held ha j)
    · rw [Function.update_of_ne hji] at hj
      rw [Function.update_of_ne hki] at hk
      exact h.inj hj hk

/-- Place `i` gives its resource back. -/
theorem release (h : Exact taken held) {i : ι} {a : α} (hi : held i = some a) :
    Exact (taken.erase a) (Function.update held i none) where
  mem_iff b := by
    rw [Finset.mem_erase, h.mem_iff b]
    constructor
    · rintro ⟨hne, j, hj⟩
      refine ⟨j, ?_⟩
      rw [Function.update_of_ne (by
        rintro rfl; exact hne (Option.some.inj (hj.symm.trans hi)))]
      exact hj
    · rintro ⟨j, hj⟩
      have hji : j ≠ i := by rintro rfl; rw [Function.update_self] at hj; cases hj
      rw [Function.update_of_ne hji] at hj
      exact ⟨by rintro rfl; exact hji (h.inj hj hi), j, hj⟩
  inj {j k b} hj hk := by
    have hji : j ≠ i := by rintro rfl; rw [Function.update_self] at hj; cases hj
    have hki : k ≠ i := by rintro rfl; rw [Function.update_self] at hk; cases hk
    rw [Function.update_of_ne hji] at hj
    rw [Function.update_of_ne hki] at hk
    exact h.inj hj hk

/-- A resource changes places: put down at `i` and picked up at the empty
place `j`. Nothing is given back in between. -/
theorem move (h : Exact taken held) {i j : ι} {a : α} (hij : i ≠ j)
    (hi : held i = some a) (hj : held j = none) :
    Exact taken (Function.update (Function.update held i none) j (some a)) := by
  have hmem : a ∈ taken := (h.mem_iff a).mpr ⟨i, hi⟩
  have hfree : Function.update held i none j = none := by
    rw [Function.update_of_ne hij.symm]; exact hj
  have := (h.release hi).take (i := j) (Finset.notMem_erase a taken) hfree
  rwa [Finset.insert_erase hmem] at this

end Exact

end Holding
