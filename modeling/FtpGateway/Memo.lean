import Mathlib.Data.List.Basic
import Mathlib.Logic.Function.Basic

/-!
# A table of answers that go stale

A table remembers, for each key, the last value written and when. Read at a
moment `now`, an entry counts only while it is younger than a fixed age. The
log of all writes says what such a read has to give (`fresh`): the table is one
way to answer it (`tableOf_snoc`), and it stays right when its keys are
encoded, as long as no two keys share a code.
-/

namespace Memo

variable {κ κ' ν : Type*}

structure Write (κ ν : Type*) where
  key : κ
  value : ν
  time : Nat

namespace Write

/-- The same write under an encoded key. -/
def encode (code : κ → κ') (w : Write κ ν) : Write κ' ν := ⟨code w.key, w.value, w.time⟩

end Write

/-- The log was written in the order of its times, all of them past. -/
structure Dated (log : List (Write κ ν)) (now : Nat) : Prop where
  sorted : log.Pairwise fun w w' => w.time ≤ w'.time
  past : ∀ w ∈ log, w.time ≤ now

namespace Dated

variable {log : List (Write κ ν)} {now : Nat}

theorem nil (now : Nat) : Dated ([] : List (Write κ ν)) now :=
  ⟨List.Pairwise.nil, fun _ h => (by cases h)⟩

theorem later {now' : Nat} (h : Dated log now) (hle : now ≤ now') : Dated log now' :=
  ⟨h.sorted, fun w hw => Nat.le_trans (h.past w hw) hle⟩

theorem snoc (h : Dated log now) (key : κ) (v : ν) : Dated (log ++ [⟨key, v, now⟩]) now where
  sorted := by
    rw [List.pairwise_append]
    refine ⟨h.sorted, List.pairwise_singleton .., fun w hw w' hw' => ?_⟩
    rw [List.mem_singleton.mp hw']
    exact h.past w hw
  past w hw := by
    rcases List.mem_append.mp hw with hw | hw
    · exact h.past w hw
    · exact Nat.le_of_eq (congrArg Write.time (List.mem_singleton.mp hw))

end Dated

section Log

variable [DecidableEq κ] [DecidableEq κ']

/-- The last write of a key; the log has the oldest first. -/
def last (key : κ) (log : List (Write κ ν)) : Option (Write κ ν) :=
  (log.filter (·.key = key)).getLast?

/-- What a read at `now` has to give. -/
def fresh (age now : Nat) (key : κ) (log : List (Write κ ν)) : Option ν :=
  (last key log).bind fun w => if now - w.time < age then some w.value else none

variable {log : List (Write κ ν)} {key : κ} {age now : Nat}

@[simp]
theorem last_nil (key : κ) : last key ([] : List (Write κ ν)) = none := rfl

theorem last_snoc (key : κ) (log : List (Write κ ν)) (w : Write κ ν) :
    last key (log ++ [w]) = if w.key = key then some w else last key log := by
  rw [last, List.filter_append]
  split
  case isTrue h => simp [h]
  case isFalse h => simp [h, last]

theorem mem_of_last {w : Write κ ν} (h : last key log = some w) : w ∈ log ∧ w.key = key := by
  have hmem := List.mem_filter.mp (List.mem_of_getLast? h)
  exact ⟨hmem.1, by simpa using hmem.2⟩

theorem mem_of_fresh {v : ν} (h : fresh age now key log = some v) :
    ∃ w ∈ log, w.key = key ∧ w.value = v ∧ now - w.time < age := by
  obtain ⟨w, hlast, hw⟩ := Option.bind_eq_some_iff.mp h
  split at hw
  case isFalse => cases hw
  case isTrue hage =>
    obtain ⟨hmem, hkey⟩ := mem_of_last hlast
    exact ⟨w, hmem, hkey, Option.some.inj hw, hage⟩

/-- The last write of a key is its youngest. -/
theorem Dated.le_last (h : Dated log now) {w : Write κ ν} (hw : w ∈ log) :
    ∃ l, last w.key log = some l ∧ w.time ≤ l.time := by
  have hmem : w ∈ log.filter (·.key = w.key) := List.mem_filter.mpr ⟨hw, by simp⟩
  have hne := List.ne_nil_of_mem hmem
  refine ⟨_, List.getLast?_eq_some_getLast hne, ?_⟩
  have hsorted := h.sorted.filter (·.key = w.key)
  rw [← List.dropLast_append_getLast hne] at hmem hsorted
  rcases List.mem_append.mp hmem with hinit | hlast
  · exact (List.pairwise_append.mp hsorted).2.2 w hinit _ (List.mem_singleton_self _)
  · exact Nat.le_of_eq (congrArg Write.time (List.mem_singleton.mp hlast))

/-- A read gives nothing exactly when every write of the key is too old. -/
theorem Dated.fresh_eq_none_iff (h : Dated log now) :
    fresh age now key log = none ↔ ∀ w ∈ log, w.key = key → w.time + age ≤ now := by
  constructor
  · rintro hnone w hw rfl
    obtain ⟨l, hlast, hle⟩ := h.le_last hw
    rw [fresh, hlast, Option.bind_some] at hnone
    split at hnone
    case isTrue => cases hnone
    case isFalse hage =>
      have := h.past l (mem_of_last hlast).1
      omega
  · intro hold
    rw [Option.eq_none_iff_forall_not_mem]
    intro v hv
    obtain ⟨w, hw, hkey, -, hage⟩ := mem_of_fresh hv
    have := hold w hw hkey
    omega

/-- An encoding that tells keys apart changes no read. -/
theorem last_encode {code : κ → κ'} (hcode : Function.Injective code) (key : κ)
    (log : List (Write κ ν)) :
    last (code key) (log.map (Write.encode code)) = (last key log).map (Write.encode code) := by
  rw [last, List.filter_map, last, List.getLast?_map]
  congr 3
  funext w
  simp [Write.encode, hcode.eq_iff]

end Log

/-! ## The table -/

section Table

variable [DecidableEq κ]

/-- What a table holds after the writes of a log. -/
def tableOf (log : List (Write κ ν)) : κ → Option (Write κ ν) := fun key => last key log

theorem tableOf_snoc (log : List (Write κ ν)) (w : Write κ ν) :
    tableOf (log ++ [w]) = Function.update (tableOf log) w.key (some w) := by
  funext key
  rw [tableOf, last_snoc]
  by_cases h : key = w.key
  · rw [if_pos h.symm, h, Function.update_self]
  · rw [if_neg (Ne.symm h), Function.update_of_ne h, tableOf]

end Table

end Memo
