import Mathlib.Data.List.Nodup

/-!
# Python dictionaries and slices

A `dict` is the list of its items in the order of insertion: setting a key that is
there keeps its place, a new key goes to the end. An update sets the items one after
the other, so for each key the last of them counts (`lookup_dictUpdate`).

`slices k l` are the pieces of a list `l` that the steps of `range(0, len(l), k)` cut
off it: none is empty or longer than `k`, and together they are the list.
-/

namespace Py

/-! ## Dictionaries -/

section Dict

variable {κ ν : Type} [DecidableEq κ]

def dictSet (k : κ) (v : ν) : List (κ × ν) → List (κ × ν)
  | [] => [(k, v)]
  | (k', v') :: d => if k' = k then (k, v) :: d else (k', v') :: dictSet k v d

def dictUpdate (d items : List (κ × ν)) : List (κ × ν) :=
  items.foldl (fun d item => dictSet item.1 item.2 d) d

theorem lookup_cons_eq (k k' : κ) (v : ν) (d : List (κ × ν)) :
    ((k, v) :: d).lookup k' = if k' = k then some v else d.lookup k' := by
  by_cases hk : k' = k
  · rw [if_pos hk, hk, List.lookup_cons_self]
  · rw [if_neg hk, List.lookup_cons, beq_false_of_ne hk]

/-- In a `dict`, an item is there exactly if it is found. -/
theorem lookup_eq_some_iff_mem {d : List (κ × ν)} (h : (d.map Prod.fst).Nodup) {k : κ} {v : ν} :
    d.lookup k = some v ↔ (k, v) ∈ d := by
  induction d with
  | nil => simp
  | cons item d ih =>
      obtain ⟨k₀, v₀⟩ := item
      obtain ⟨hnot, hd⟩ := List.nodup_cons.mp h
      rw [lookup_cons_eq, List.mem_cons, Prod.mk.injEq]
      by_cases hk : k = k₀
      · subst hk
        have hother : (k, v) ∉ d := fun hmem => hnot (List.mem_map.mpr ⟨_, hmem, rfl⟩)
        simp [hother, eq_comm]
      · rw [if_neg hk, ih hd]
        simp [hk]

theorem lookup_dictSet (k k' : κ) (v : ν) (d : List (κ × ν)) :
    (dictSet k v d).lookup k' = if k' = k then some v else d.lookup k' := by
  induction d with
  | nil => exact lookup_cons_eq k k' v []
  | cons item d ih =>
      obtain ⟨k₀, v₀⟩ := item
      rw [dictSet, lookup_cons_eq k₀]
      by_cases h₀ : k₀ = k
      · subst h₀
        rw [if_pos rfl, lookup_cons_eq]
        split_ifs <;> rfl
      · rw [if_neg h₀, lookup_cons_eq, ih]
        split_ifs with hk hk'
        · exact absurd (hk.symm.trans hk') h₀
        · rfl
        · rfl
        · rfl

theorem keys_dictSet (k : κ) (v : ν) (d : List (κ × ν)) :
    (dictSet k v d).map Prod.fst =
      if k ∈ d.map Prod.fst then d.map Prod.fst else d.map Prod.fst ++ [k] := by
  induction d with
  | nil => rfl
  | cons item d ih =>
      obtain ⟨k₀, v₀⟩ := item
      rw [dictSet]
      by_cases h₀ : k₀ = k
      · simp [h₀]
      · rw [if_neg h₀, List.map_cons, ih, List.map_cons]
        by_cases hk : k ∈ d.map Prod.fst
        · rw [if_pos hk, if_pos (List.mem_cons_of_mem _ hk)]
        · rw [if_neg hk, if_neg (by simpa [Ne.symm h₀] using hk), List.cons_append]

theorem nodup_dictSet {k : κ} {v : ν} {d : List (κ × ν)} (h : (d.map Prod.fst).Nodup) :
    ((dictSet k v d).map Prod.fst).Nodup := by
  rw [keys_dictSet]
  split_ifs with hk
  · exact h
  · exact List.nodup_append.mpr ⟨h, List.nodup_singleton k, fun a ha b hb => by
      rw [List.mem_singleton.mp hb]
      exact fun hak => hk (hak ▸ ha)⟩

theorem mem_dictSet {k : κ} {v : ν} {d : List (κ × ν)} {item : κ × ν}
    (h : item ∈ dictSet k v d) : item = (k, v) ∨ item ∈ d := by
  induction d with
  | nil => exact Or.inl (List.mem_singleton.mp h)
  | cons item₀ d ih =>
      obtain ⟨k₀, v₀⟩ := item₀
      rw [dictSet] at h
      split_ifs at h with h₀
      · exact (List.mem_cons.mp h).imp_right (List.mem_cons_of_mem _)
      · rcases List.mem_cons.mp h with rfl | h
        · exact Or.inr List.mem_cons_self
        · exact (ih h).imp_right (List.mem_cons_of_mem _)

/-- The last item set for a key counts. -/
theorem lookup_dictUpdate (d items : List (κ × ν)) (k : κ) :
    (dictUpdate d items).lookup k = (items.reverse.lookup k).or (d.lookup k) := by
  induction items generalizing d with
  | nil => rfl
  | cons item items ih =>
      rw [dictUpdate, List.foldl_cons]
      refine (ih _).trans ?_
      rw [List.reverse_cons, List.lookup_append, Option.or_assoc, lookup_dictSet]
      congr 1
      rw [lookup_cons_eq item.1 k item.2 []]
      split_ifs <;> rfl

theorem nodup_dictUpdate {d items : List (κ × ν)} (h : (d.map Prod.fst).Nodup) :
    ((dictUpdate d items).map Prod.fst).Nodup := by
  induction items generalizing d with
  | nil => exact h
  | cons item items ih => exact ih (nodup_dictSet h)

theorem mem_dictUpdate {d items : List (κ × ν)} {item : κ × ν} (h : item ∈ dictUpdate d items) :
    item ∈ d ∨ item ∈ items := by
  induction items generalizing d with
  | nil => exact Or.inl h
  | cons item₀ items ih =>
      rcases ih h with h | h
      · rcases mem_dictSet h with rfl | h
        · exact Or.inr List.mem_cons_self
        · exact Or.inl h
      · exact Or.inr (List.mem_cons_of_mem _ h)

/-- An item of the update replaces what was there for its key. -/
theorem mem_dictUpdate_iff {d items : List (κ × ν)} (hd : (d.map Prod.fst).Nodup)
    (hitems : (items.map Prod.fst).Nodup) {k : κ} {v : ν} (h : (k, v) ∈ items) (v' : ν) :
    (k, v') ∈ dictUpdate d items ↔ v' = v := by
  have hlast : items.reverse.lookup k = some v := by
    refine (lookup_eq_some_iff_mem ?_).mpr (List.mem_reverse.mpr h)
    rwa [List.map_reverse, List.nodup_reverse]
  rw [← lookup_eq_some_iff_mem (nodup_dictUpdate hd), lookup_dictUpdate, hlast, Option.some_or,
    Option.some.injEq, eq_comm]

end Dict

/-! ## Slices -/

section Slices

variable {α : Type}

/-- `l[start : start + k] for start in range(0, len(l), k)`. -/
def slices (k : Nat) (l : List α) : List (List α) :=
  (List.range ((l.length + (k - 1)) / k)).map fun i => (l.drop (k * i)).take k

theorem flatten_slices {k : Nat} (hk : 0 < k) (l : List α) : (slices k l).flatten = l := by
  have hpieces : ∀ n, ((List.range n).map fun i => (l.drop (k * i)).take k).flatten =
      l.take (k * n) := by
    intro n
    induction n with
    | zero => simp
    | succ n ih =>
        rw [List.range_succ, List.map_append, List.flatten_append, ih, Nat.mul_succ, List.take_add]
        simp
  have hall : l.length ≤ k * ((l.length + (k - 1)) / k) := by
    have hdiv := Nat.div_add_mod (l.length + (k - 1)) k
    have hmod := Nat.mod_lt (l.length + (k - 1)) hk
    omega
  rw [slices, hpieces, List.take_of_length_le hall]

theorem length_slice {k : Nat} (hk : 0 < k) {l piece : List α} (h : piece ∈ slices k l) :
    0 < piece.length ∧ piece.length ≤ k := by
  obtain ⟨i, hi, rfl⟩ := List.mem_map.mp h
  rw [List.mem_range, Nat.lt_div_iff_mul_lt hk] at hi
  rw [List.length_take, List.length_drop, Nat.mul_comm]
  omega

end Slices

end Py
