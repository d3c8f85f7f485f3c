import Mathlib.Algebra.BigOperators.Group.Finset.Basic
import Mathlib.Algebra.GroupWithZero.Nat
import Mathlib.Data.Finmap

/-!
# Counters and censuses

What the accounting arguments share: a 64-bit counter that sticks at its
maximum, how a census of a list changes when one member changes, and the sum
over a finite map when one entry is written.
-/

namespace Counting

/-! ## A counter that sticks -/

def satAdd (a b : UInt64) : UInt64 :=
  if a.toNat + b.toNat < 2 ^ 64 then a + b else UInt64.ofNat (2 ^ 64 - 1)

theorem toNat_satAdd (a b : UInt64) :
    (satAdd a b).toNat = min (a.toNat + b.toNat) (2 ^ 64 - 1) := by
  rw [satAdd]
  split
  case isTrue h => rw [UInt64.toNat_add, Nat.mod_eq_of_lt h]; omega
  case isFalse h => rw [UInt64.toNat_ofNat']; omega

theorem le_satAdd (a b : UInt64) : a ≤ satAdd a b := by
  have ha := a.toNat_lt
  rw [UInt64.le_iff_toNat_le, toNat_satAdd]
  omega

/-- One more, as long as the counter has not stuck. -/
theorem toNat_satAdd_one {a : UInt64} (h : (satAdd a 1).toNat < 2 ^ 64 - 1) :
    (satAdd a 1).toNat = a.toNat + 1 := by
  rw [toNat_satAdd] at h ⊢
  simp only [UInt64.toNat_one] at h ⊢
  omega

/-! ## One member of a list changes -/

/-- The census of `p` loses the old member and gains the new one. -/
theorem countP_set {α : Type*} {l : List α} {i : Nat} {old : α} (h : l[i]? = some old)
    (p : α → Bool) (new : α) :
    (l.set i new).countP p + (if p old then 1 else 0) =
      l.countP p + (if p new then 1 else 0) := by
  obtain ⟨hi, hold⟩ := List.getElem?_eq_some_iff.mp h
  rw [List.countP_set hi, hold]
  by_cases hp : p old = true
  · have : 0 < l.countP p := List.countP_pos_iff.mpr ⟨old, hold ▸ List.getElem_mem hi, hp⟩
    simp only [hp, if_true]
    omega
  · simp only [hp, Bool.false_eq_true, if_false]
    omega

/-- The list around one of its members. -/
theorem split_of_getElem {α : Type*} {l : List α} {i : Nat} {old : α} (h : l[i]? = some old) :
    ∃ before after, l = before ++ old :: after ∧
      ∀ new, l.set i new = before ++ new :: after := by
  obtain ⟨hi, hold⟩ := List.getElem?_eq_some_iff.mp h
  refine ⟨l.take i, l.drop (i + 1), ?_, fun new => List.set_eq_take_cons_drop new hi⟩
  rw [← hold, ← List.drop_eq_getElem_cons hi, List.take_append_drop]

theorem of_getElem_set {α : Type*} {l : List α} {i j : Nat} {new a : α}
    (h : (l.set i new)[j]? = some a) : j = i ∧ a = new ∨ j ≠ i ∧ l[j]? = some a := by
  by_cases hji : j = i
  · subst hji
    have hlt : j < l.length := by
      rw [← List.length_set]
      exact (List.getElem?_eq_some_iff.mp h).1
    rw [List.getElem?_set_self hlt] at h
    exact Or.inl ⟨rfl, (Option.some.inj h).symm⟩
  · rw [List.getElem?_set_ne (Ne.symm hji)] at h
    exact Or.inr ⟨hji, h⟩

theorem of_getElem_concat {α : Type*} {l : List α} {new a : α} {j : Nat}
    (h : (l ++ [new])[j]? = some a) : l[j]? = some a ∨ a = new := by
  rw [List.getElem?_append] at h
  split at h
  · exact Or.inl h
  · exact Or.inr (List.mem_singleton.mp (List.mem_of_getElem? h))

theorem forall_of_forall_set {α : Type*} {l : List α} {i : Nat} {old new : α} {P : α → Prop}
    (h : l[i]? = some old) (hset : ∀ a ∈ l.set i new, P a) (hold : P new → P old) :
    ∀ a ∈ l, P a := by
  obtain ⟨before, after, hl, hnew⟩ := split_of_getElem h
  rw [hnew, List.forall_mem_append, List.forall_mem_cons] at hset
  rw [hl, List.forall_mem_append, List.forall_mem_cons]
  exact ⟨hset.1, hold hset.2.1, hset.2.2⟩

theorem forall_set {α : Type*} {l : List α} {i : Nat} {new : α} {P : α → Prop}
    (h : ∀ a ∈ l, P a) (hnew : P new) : ∀ a ∈ l.set i new, P a := by
  intro a ha
  rcases List.mem_or_eq_of_mem_set ha with hmem | rfl
  · exact h a hmem
  · exact hnew

/-- What is read off a list stays if it reads the same off the new member. -/
theorem filterMap_set {α β : Type*} {l : List α} {i : Nat} {old new : α} {f : α → Option β}
    (h : l[i]? = some old) (hf : f new = f old) : (l.set i new).filterMap f = l.filterMap f := by
  obtain ⟨before, after, hl, hset⟩ := split_of_getElem h
  rw [hset, hl, List.filterMap_append, List.filterMap_append, List.filterMap_cons,
    List.filterMap_cons, hf]

/-- And it loses the old member's part if the new one has none. -/
theorem perm_filterMap_set {α β : Type*} {l : List α} {i : Nat} {old new : α} {f : α → Option β}
    {b : β} (h : l[i]? = some old) (hold : f old = some b) (hnew : f new = none) :
    List.Perm (l.filterMap f) (b :: (l.set i new).filterMap f) := by
  obtain ⟨before, after, hl, hset⟩ := split_of_getElem h
  rw [hset, hl, List.filterMap_append, List.filterMap_append, List.filterMap_cons_some hold,
    List.filterMap_cons_none hnew]
  exact List.perm_middle

/-! ## A census taken part by part -/

/-- A list is shared out, each member to one part at most, and weighed part by
part. -/
theorem sum_map_filterMap {ι α β : Type*} (parts : Finset ι) (part : ι → α → Option β)
    (f : β → Nat) (g : α → Nat) {l : List α}
    (hshare : ∀ a ∈ l, ∑ i ∈ parts, (part i a).elim 0 f = g a) :
    ∑ i ∈ parts, ((l.filterMap (part i)).map f).sum = (l.map g).sum := by
  induction l with
  | nil => simp
  | cons a l ih =>
      have hcons : ∀ i, (((a :: l).filterMap (part i)).map f).sum =
          (part i a).elim 0 f + ((l.filterMap (part i)).map f).sum := by
        intro i
        cases ha : part i a with
        | none => simp [ha]
        | some b => simp [List.filterMap_cons_some ha]
      simp only [hcons, Finset.sum_add_distrib]
      rw [hshare a List.mem_cons_self, ih fun b hb => hshare b (List.mem_cons_of_mem a hb),
        List.map_cons, List.sum_cons]

theorem sum_map_toNat {α : Type*} (p : α → Bool) (l : List α) :
    (l.map fun a => (p a).toNat).sum = l.countP p := by
  induction l with
  | nil => rfl
  | cons a l ih =>
      rw [List.map_cons, List.sum_cons, ih, List.countP_cons, Nat.add_comm]
      cases p a <;> rfl

/-- A census by position. -/
theorem countP_eq_card {α : Type*} (p : α → Bool) (l : List α) :
    l.countP p = ((Finset.range l.length).filter fun i => (l[i]?).any p).card := by
  induction l using List.reverseRecOn with
  | nil => rfl
  | append_singleton l a ih =>
      have hold : (Finset.range l.length).filter (fun i => ((l ++ [a])[i]?).any p) =
          (Finset.range l.length).filter fun i => (l[i]?).any p := by
        refine Finset.filter_congr fun i hi => ?_
        rw [List.getElem?_append_left (Finset.mem_range.mp hi)]
      rw [List.countP_append, List.length_append, List.length_singleton, Finset.range_add_one,
        Finset.filter_insert, List.getElem?_concat_length, hold, ih]
      cases ha : p a with
      | false => simp [ha]
      | true => simp [ha]

theorem mem_positions {α : Type*} {p : α → Bool} {l : List α} {i : Nat} :
    i ∈ (Finset.range l.length).filter (fun i => (l[i]?).any p) ↔
      ∃ a, l[i]? = some a ∧ p a = true := by
  rw [Finset.mem_filter, Finset.mem_range]
  constructor
  · rintro ⟨hi, hany⟩
    rw [List.getElem?_eq_getElem hi] at hany
    exact ⟨l[i], List.getElem?_eq_getElem hi, hany⟩
  · rintro ⟨a, ha, hp⟩
    exact ⟨(List.getElem?_eq_some_iff.mp ha).1, by rw [ha]; exact hp⟩

/-- Two censuses agree if the members counted are matched one to one. -/
theorem countP_eq_of_matching {α β : Type*} {l : List α} {l' : List β} {p : α → Bool}
    {q : β → Bool} {f : Nat → Option Nat} (hinj : ∀ {i j k}, f i = some k → f j = some k → i = j)
    (hto : ∀ i a, l[i]? = some a → p a = true → ∃ k b, f i = some k ∧ l'[k]? = some b ∧ q b = true)
    (hback : ∀ k b, l'[k]? = some b → q b = true →
      ∃ i a, l[i]? = some a ∧ p a = true ∧ f i = some k) : l.countP p = l'.countP q := by
  rw [countP_eq_card, countP_eq_card]
  refine Finset.card_bij (fun i _ => (f i).getD 0) (fun i hi => ?_) (fun i hi j hj heq => ?_)
    fun k hk => ?_
  · obtain ⟨a, ha, hpa⟩ := mem_positions.mp hi
    obtain ⟨k, b, hk, hb, hqb⟩ := hto i a ha hpa
    rw [hk]
    exact mem_positions.mpr ⟨b, hb, hqb⟩
  · obtain ⟨a, ha, hpa⟩ := mem_positions.mp hi
    obtain ⟨a', ha', hpa'⟩ := mem_positions.mp hj
    obtain ⟨k, -, hk, -⟩ := hto i a ha hpa
    obtain ⟨k', -, hk', -⟩ := hto j a' ha' hpa'
    rw [hk, hk', Option.getD_some, Option.getD_some] at heq
    exact hinj hk (heq ▸ hk')
  · obtain ⟨b, hb, hqb⟩ := mem_positions.mp hk
    obtain ⟨i, a, ha, hpa, hi⟩ := hback k b hb hqb
    exact ⟨i, mem_positions.mpr ⟨a, ha, hpa⟩, by rw [hi]; rfl⟩

/-! ## Sums over a finite map -/

section Sums

variable {α : Type*} {β : Type*} [DecidableEq α]

theorem keys_insert (s : Finmap fun _ : α => β) (a : α) (b : β) :
    (s.insert a b).keys = insert a s.keys := by
  ext x
  rw [Finmap.mem_keys, Finmap.mem_insert, Finset.mem_insert, Finmap.mem_keys]

def sumOver (f : β → Nat) (s : Finmap fun _ : α => β) : Nat :=
  ∑ a ∈ s.keys, (s.lookup a).elim 0 f

@[simp]
theorem sumOver_empty (f : β → Nat) : sumOver f (∅ : Finmap fun _ : α => β) = 0 := by
  rw [sumOver, Finmap.keys_empty, Finset.sum_empty]

/-- Writing an entry trades its old value for the new one. -/
theorem sumOver_insert (f : β → Nat) (s : Finmap fun _ : α => β) (a : α) (b : β) :
    sumOver f (s.insert a b) + (s.lookup a).elim 0 f = sumOver f s + f b := by
  have hrest : ∀ keys : Finset α, a ∉ keys →
      ∑ x ∈ keys, ((s.insert a b).lookup x).elim 0 f = ∑ x ∈ keys, (s.lookup x).elim 0 f := by
    intro keys ha
    refine Finset.sum_congr rfl fun x hx => ?_
    rw [Finmap.lookup_insert_of_ne s (by rintro rfl; exact ha hx)]
  rw [sumOver, sumOver, keys_insert]
  by_cases ha : a ∈ s.keys
  · rw [Finset.insert_eq_of_mem ha, ← Finset.insert_erase ha,
      Finset.sum_insert (Finset.notMem_erase a _), Finset.sum_insert (Finset.notMem_erase a _),
      hrest _ (Finset.notMem_erase a _), Finmap.lookup_insert]
    simp only [Option.elim_some]
    omega
  · have hnone : s.lookup a = none := Finmap.lookup_eq_none.mpr (mt Finmap.mem_keys.mpr ha)
    rw [Finset.sum_insert ha, hrest _ ha, Finmap.lookup_insert, hnone]
    simp only [Option.elim_some, Option.elim_none]
    omega

end Sums

end Counting
