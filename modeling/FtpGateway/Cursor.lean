import Mathlib.Algebra.Order.Ring.Nat
import Mathlib.Data.Int.CardIntervalMod
import Mathlib.Data.Nat.ModEq

/-!
# A wrapping cursor over a ring of slots

A search that starts wherever the last one left off: a counter of modulus `M`
is bumped once per try and each value is reduced to one of `n` slots. As long
as the counter does not wrap inside a search, or its modulus is a multiple of
`n`, `n` tries see every slot; otherwise they see one slot twice and miss
another (`covers_iff`). Over a long time the slots are seen equally often, up to
one more for each turn of the counter (`times_eq`, `times_le`).
-/

namespace Cursor

/-- The slot of the `i`-th try. -/
def slot (M n c i : Nat) : Nat := (c + i) % M % n

/-- `n` tries see all `n` slots. -/
def Covers (M n c : Nat) : Prop := ∀ r < n, ∃ i < n, slot M n c i = r

variable {M n c : Nat}

theorem slot_lt (hn : 0 < n) (i : Nat) : slot M n c i < n := Nat.mod_lt _ hn

theorem exists_mod_eq (c : Nat) {r : Nat} (hr : r < n) : ∃ i < n, (c + i) % n = r := by
  have hn : 0 < n := Nat.lt_of_le_of_lt (Nat.zero_le r) hr
  have hc : c % n < n := Nat.mod_lt c hn
  refine ⟨(r + (n - c % n)) % n, Nat.mod_lt _ hn, ?_⟩
  calc (c + (r + (n - c % n)) % n) % n
      = (c % n + (r + (n - c % n))) % n := by rw [Nat.add_mod_mod, Nat.mod_add_mod]
    _ = (r + n) % n := by congr 1; omega
    _ = r := by rw [Nat.add_mod_right, Nat.mod_eq_of_lt hr]

theorem covers_of_no_wrap (h : c + n ≤ M) : Covers M n c := by
  intro r hr
  obtain ⟨i, hi, hmod⟩ := exists_mod_eq c hr
  refine ⟨i, hi, ?_⟩
  rw [slot, Nat.mod_eq_of_lt (by omega : c + i < M)]
  exact hmod

theorem covers_of_dvd (h : n ∣ M) : Covers M n c := by
  intro r hr
  obtain ⟨i, hi, hmod⟩ := exists_mod_eq c hr
  exact ⟨i, hi, by rw [slot, Nat.mod_mod_of_dvd _ h]; exact hmod⟩

/-! ## What a wrap inside a search misses -/

/-- Before the wrap the slots run up to `M % n - 1`, counted backwards. -/
theorem slot_before_wrap (hcM : c < M) (hwrap : M < c + n) (hn : n ≤ M) {i : Nat}
    (hi : c + i < M) :
    slot M n c i =
      if M - (c + i) ≤ M % n then M % n - (M - (c + i)) else n + M % n - (M - (c + i)) := by
  have hdecomp := Nat.div_add_mod M n
  have hlt : M % n < n := Nat.mod_lt M (by omega)
  have hpos : 0 < M / n := Nat.div_pos hn (by omega)
  obtain ⟨q, hq⟩ : ∃ q, M / n = q + 1 := ⟨M / n - 1, by omega⟩
  rw [hq, Nat.mul_succ] at hdecomp
  rw [slot, Nat.mod_eq_of_lt hi]
  split
  case isTrue hj =>
    rw [show c + i = M % n - (M - (c + i)) + n * (q + 1) by rw [Nat.mul_succ]; omega,
      Nat.add_mul_mod_self_left, Nat.mod_eq_of_lt (by omega)]
    rw [Nat.mul_succ]; omega
  case isFalse hj =>
    rw [show c + i = n + M % n - (M - (c + i)) + n * q by omega,
      Nat.add_mul_mod_self_left, Nat.mod_eq_of_lt (by omega)]
    omega

theorem slot_after_wrap (hcM : c < M) (hn : n ≤ M) {i : Nat} (hi : i < n)
    (hge : M ≤ c + i) : slot M n c i = c + i - M := by
  rw [slot, Nat.mod_eq_sub_mod hge, Nat.mod_eq_of_lt (by omega : c + i - M < M),
    Nat.mod_eq_of_lt (by omega)]

theorem not_covers_of_wrap (hcM : c < M) (hn : n ≤ M) (hwrap : M < c + n) (hdvd : ¬ n ∣ M) :
    ¬ Covers M n c := by
  intro hcov
  have hlt : M % n < n := Nat.mod_lt M (by omega)
  have hrem : 0 < M % n := Nat.pos_of_ne_zero fun h => hdvd (Nat.dvd_of_mod_eq_zero h)
  -- `M - c` tries come before the wrap; the slot missed is the last one if
  -- their slots all lie below the remainder, else the first one past both runs
  obtain ⟨i, hi, hslot⟩ :=
    hcov (if M - c ≤ M % n then n - 1 else max (M % n) (n - (M - c))) (by split <;> omega)
  by_cases hge : M ≤ c + i
  · rw [slot_after_wrap hcM hn hi hge] at hslot
    split at hslot <;> omega
  · rw [slot_before_wrap hcM hwrap hn (by omega)] at hslot
    by_cases hfew : M - c ≤ M % n
    · rw [if_pos hfew] at hslot
      split at hslot <;> omega
    · rw [if_neg hfew] at hslot
      split at hslot <;> omega

/-- **Exactly when a search of `n` tries is complete.** -/
theorem covers_iff (hcM : c < M) (hn : n ≤ M) : Covers M n c ↔ c + n ≤ M ∨ n ∣ M := by
  constructor
  · intro hcov
    by_contra hno
    rw [not_or, Nat.not_le] at hno
    exact not_covers_of_wrap hcM hn hno.1 hno.2 hcov
  · rintro (h | h)
    · exact covers_of_no_wrap h
    · exact covers_of_dvd h

/-! ## How often a slot is seen -/

/-- How often slot `r` is seen by `m` tries. -/
def times (M n c m r : Nat) : Nat := Nat.count (fun i => slot M n c i = r) m

section Times

variable {m r r' : Nat}

theorem times_of_no_wrap (hn : 0 < n) (hr : r < n) (hm : m ≤ M) :
    times M n 0 m r = m / n + if r < m % n then 1 else 0 := by
  have hcount := Nat.count_modEq_card m hn r
  rw [Nat.mod_eq_of_lt hr] at hcount
  rw [← hcount, times, Nat.count, Nat.count]
  refine List.countP_congr fun i hi => ?_
  have hi : i < M := Nat.lt_of_lt_of_le (List.mem_range.mp hi) hm
  rw [slot, Nat.zero_add, Nat.mod_eq_of_lt hi]
  simp only [decide_eq_true_eq, Nat.ModEq, Nat.mod_eq_of_lt hr]

theorem slot_add_turns (q i : Nat) : slot M n 0 (M * q + i) = slot M n 0 i := by
  rw [slot, slot, Nat.zero_add, Nat.zero_add, Nat.mul_add_mod]

theorem times_turns (q : Nat) : times M n 0 (M * q) r = q * times M n 0 M r := by
  induction q with
  | zero => simp [times]
  | succ q ih =>
      rw [Nat.mul_succ, times, Nat.count_add, ← times, ih, Nat.succ_mul]
      simp only [slot_add_turns]
      rfl

/-- Every full turn of the counter favours the first `M % n` slots. -/
theorem times_eq (hM : 0 < M) (hn : 0 < n) (hr : r < n) :
    times M n 0 m r = m / M * (M / n + if r < M % n then 1 else 0) +
      (m % M / n + if r < m % M % n then 1 else 0) := by
  conv_lhs => rw [← Nat.div_add_mod m M]
  rw [times, Nat.count_add, ← times, times_turns]
  simp only [slot_add_turns]
  rw [← times, times_of_no_wrap hn hr (Nat.le_refl M),
    times_of_no_wrap hn hr (Nat.le_of_lt (Nat.mod_lt m hM))]

theorem times_le (hM : 0 < M) (hr : r < n) (hr' : r' < n) :
    times M n 0 m r ≤ times M n 0 m r' + m / M + 1 := by
  have hn : 0 < n := Nat.lt_of_le_of_lt (Nat.zero_le r) hr
  have hle : m / M * (M / n + if r < M % n then 1 else 0) ≤ m / M * (M / n) + m / M := by
    rw [← Nat.mul_succ]
    exact Nat.mul_le_mul_left _ (by split <;> omega)
  have hge : m / M * (M / n) ≤ m / M * (M / n + if r' < M % n then 1 else 0) :=
    Nat.mul_le_mul_left _ (Nat.le_add_right _ _)
  have hone : (if r < m % M % n then 1 else 0) ≤ 1 := by split <;> omega
  rw [times_eq hM hn hr, times_eq hM hn hr']
  omega

end Times

end Cursor
