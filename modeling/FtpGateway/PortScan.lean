import Mathlib.Data.UInt
import FtpGateway.Cursor
import FtpGateway.Ports

/-!
# One `allocate` on its own

The loop of `PortManager::allocate` when no other session touches the pool in
between: `allocateFrom` is the run of the atomic steps of `Ports` that one
session takes by itself (`allocate_steps`). Which ports it tries depends on the
cursor only; it tries all of them, and so finds a free port whenever there is
one, exactly when the cursor does not wrap inside the search or the size of the
range divides the `2 ^ 32` values of the cursor (`allocate_complete_iff`).
-/

namespace FtpGateway

namespace PortManager

theorem eq_iff {m m' : PortManager} :
    m = m' ↔ m.inUse = m'.inUse ∧ m.range = m'.range ∧ m.nextOffset = m'.nextOffset := by
  cases m; cases m'; simp

instance : DecidableEq PortManager := fun _ _ => decidable_of_iff _ eq_iff.symm

/-! ## The loop -/

/-- The loop with `left` candidates to try. `bindOk` is the outcome of
`TcpListener::bind` for each port. -/
def allocateFrom (bindOk : UInt16 → Bool) : Nat → PortManager → PortManager × Option UInt16
  | 0, m => (m, none)
  | left + 1, m =>
      let port := m.nextPort
      let m := m.advance
      if port ∈ m.inUse then allocateFrom bindOk left m
      else if bindOk port then (m.reserve port, some port)
      -- taken by another process: the reservation is undone
      else allocateFrom bindOk left ((m.reserve port).release port)

def allocate (m : PortManager) (bindOk : UInt16 → Bool) : PortManager × Option UInt16 :=
  allocateFrom bindOk m.rangeSize.toNat m

/-- A port `allocate` can hand out. -/
def Usable (m : PortManager) (bindOk : UInt16 → Bool) (p : UInt16) : Prop :=
  p ∉ m.inUse ∧ bindOk p = true

instance (m : PortManager) (bindOk : UInt16 → Bool) (p : UInt16) :
    Decidable (m.Usable bindOk p) := inferInstanceAs (Decidable (_ ∧ _))

/-- The candidate of the `i`-th try. -/
def candidate (m : PortManager) (i : Nat) : UInt16 :=
  m.range.start + ((m.nextOffset + UInt32.ofNat i) % m.rangeSize).toUInt16

@[simp]
theorem candidate_zero (m : PortManager) : m.candidate 0 = m.nextPort := by
  simp [candidate, nextPort, offset]

theorem candidate_advance (m : PortManager) (i : Nat) :
    m.advance.candidate i = m.candidate (i + 1) := by
  have hsum : m.nextOffset + 1 + UInt32.ofNat i = m.nextOffset + UInt32.ofNat (i + 1) := by
    rw [UInt32.ofNat_add, UInt32.add_assoc, UInt32.add_comm 1]
    rfl
  simp only [candidate, advance, rangeSize, hsum]

theorem release_reserve {m : PortManager} {p : UInt16} (h : p ∉ m.inUse) :
    (m.reserve p).release p = m := by
  simp [reserve, release, Finset.erase_insert h]

@[simp] theorem advance_inUse (m : PortManager) : m.advance.inUse = m.inUse := rfl

@[simp] theorem advance_range (m : PortManager) : m.advance.range = m.range := rfl

/-- What the loop leaves behind: the first usable candidate reserved, or
everything but the cursor as it was. -/
inductive Scanned (bindOk : UInt16 → Bool) (m : PortManager) (left : Nat) :
    PortManager × Option UInt16 → Prop where
  | found (i : Nat) (m' : PortManager) (hi : i < left) (huse : m.Usable bindOk (m.candidate i))
      (hset : m'.inUse = insert (m.candidate i) m.inUse) :
      Scanned bindOk m left (m', some (m.candidate i))
  | exhausted (m' : PortManager) (hall : ∀ i < left, ¬ m.Usable bindOk (m.candidate i))
      (hset : m'.inUse = m.inUse) : Scanned bindOk m left (m', none)

theorem Scanned.of_advance {bindOk : UInt16 → Bool} {m : PortManager} {left : Nat}
    {r : PortManager × Option UInt16} (hno : ¬ m.Usable bindOk m.nextPort)
    (h : Scanned bindOk m.advance left r) : Scanned bindOk m (left + 1) r := by
  cases h with
  | found i m' hi huse hset =>
      rw [candidate_advance] at huse hset ⊢
      exact .found (i + 1) m' (by omega) huse hset
  | exhausted m' hall hset =>
      refine .exhausted m' (fun i hi => ?_) hset
      cases i with
      | zero => rw [candidate_zero]; exact hno
      | succ i => rw [← candidate_advance]; exact hall i (by omega)

theorem allocateFrom_scanned (bindOk : UInt16 → Bool) (left : Nat) (m : PortManager) :
    Scanned bindOk m left (allocateFrom bindOk left m) := by
  induction left generalizing m with
  | zero => exact .exhausted m (fun i hi => absurd hi (Nat.not_lt_zero i)) rfl
  | succ left ih =>
      simp only [allocateFrom]
      split
      case isTrue hmem => exact .of_advance (fun h => h.1 hmem) (ih m.advance)
      case isFalse hfree =>
        split
        case isTrue hbind =>
          have huse : m.Usable bindOk (m.candidate 0) := by
            rw [candidate_zero]
            exact ⟨hfree, hbind⟩
          have hfound : Scanned bindOk m (left + 1)
              (m.advance.reserve m.nextPort, some (m.candidate 0)) :=
            .found 0 _ (by omega) huse (by rw [candidate_zero]; rfl)
          rwa [candidate_zero] at hfound
        case isFalse hbind =>
          rw [release_reserve hfree]
          exact .of_advance (fun h => hbind h.2) (ih m.advance)

/-- Where a session is after its `allocate`. -/
def pcAfter : Option UInt16 → Pc
  | some port => .replying port
  | none => .picking 0

theorem foldlM_portStep {m m' : PortManager} {ss ss' : SessionPorts} {act : PortAct}
    (hstep : portStep m ss act = some (m', ss')) (acts : List PortAct) :
    (act :: acts).foldlM (fun s act => portStep s.1 s.2 act) (m, ss) =
      acts.foldlM (fun s act => portStep s.1 s.2 act) (m', ss') := by
  rw [List.foldlM_cons, hstep]
  rfl

/-- The loop is what the atomic steps of one session do when no other session
steps in between. -/
theorem allocate_steps (bindOk : UInt16 → Bool) (left : Nat) (m : PortManager)
    (active : Option UInt16) :
    ∃ acts : List PortAct,
      acts.foldlM (fun s act => portStep s.1 s.2 act) (m, ⟨active, .picking left⟩) =
        some ((allocateFrom bindOk left m).1,
          ⟨active, pcAfter (allocateFrom bindOk left m).2⟩) := by
  induction left generalizing m with
  | zero => exact ⟨[], rfl⟩
  | succ left ih =>
      have hpick : portStep m ⟨active, .picking (left + 1)⟩ .fetchAdd =
          some (m.advance, ⟨active, .picked left m.nextPort⟩) := rfl
      by_cases hmem : m.nextPort ∈ m.advance.inUse
      · obtain ⟨acts, hacts⟩ := ih m.advance
        have hinsert : portStep m.advance ⟨active, .picked left m.nextPort⟩ .insert =
            some (m.advance, ⟨active, .picking left⟩) := if_pos hmem
        refine ⟨.fetchAdd :: .insert :: acts, ?_⟩
        rw [foldlM_portStep hpick, foldlM_portStep hinsert, hacts, allocateFrom, if_pos hmem]
      · have hinsert : portStep m.advance ⟨active, .picked left m.nextPort⟩ .insert =
            some (m.advance.reserve m.nextPort, ⟨active, .reserved left m.nextPort⟩) := if_neg hmem
        cases hbind : bindOk m.nextPort with
        | true =>
            have hbound : portStep (m.advance.reserve m.nextPort)
                ⟨active, .reserved left m.nextPort⟩ (.bind true) =
                some (m.advance.reserve m.nextPort, ⟨active, .replying m.nextPort⟩) := rfl
            refine ⟨[.fetchAdd, .insert, .bind true], ?_⟩
            rw [foldlM_portStep hpick, foldlM_portStep hinsert, foldlM_portStep hbound, allocateFrom,
              if_neg hmem, if_pos hbind]
            rfl
        | false =>
            obtain ⟨acts, hacts⟩ := ih m.advance
            have hbound : portStep (m.advance.reserve m.nextPort)
                ⟨active, .reserved left m.nextPort⟩ (.bind false) =
                some (m.advance.reserve m.nextPort, ⟨active, .bindFailed left m.nextPort⟩) := rfl
            have hundo : portStep (m.advance.reserve m.nextPort)
                ⟨active, .bindFailed left m.nextPort⟩ .undo =
                some ((m.advance.reserve m.nextPort).release m.nextPort, ⟨active, .picking left⟩) :=
              rfl
            refine ⟨.fetchAdd :: .insert :: .bind false :: .undo :: acts, ?_⟩
            rw [foldlM_portStep hpick, foldlM_portStep hinsert, foldlM_portStep hbound,
              foldlM_portStep hundo, release_reserve hmem, hacts, allocateFrom, if_neg hmem,
              if_neg (by simp [hbind]), release_reserve hmem]

/-! ## The candidates of a search -/

theorem toNat_rangeSize_eq_len {m : PortManager} (h : m.range.start ≤ m.range.end) :
    m.rangeSize.toNat = m.range.len.toNat := by
  rw [toNat_rangeSize h, PortRange.toNat_len h]

theorem len_pos {r : PortRange} (h : r.start ≤ r.end) : 0 < r.len.toNat := by
  rw [PortRange.toNat_len h]; omega

theorem toNat_candidate {m : PortManager} (h : m.range.start ≤ m.range.end) (i : Nat) :
    (m.candidate i).toNat = m.range.start.toNat +
      Cursor.slot (2 ^ 32) m.range.len.toNat m.nextOffset.toNat i := by
  have hle : m.range.start.toNat ≤ m.range.end.toNat := UInt16.le_iff_toNat_le.mp h
  have he := m.range.end.toNat_lt
  have hoff : ((m.nextOffset + UInt32.ofNat i) % m.rangeSize).toNat =
      Cursor.slot (2 ^ 32) m.range.len.toNat m.nextOffset.toNat i := by
    rw [UInt32.toNat_mod, toNat_rangeSize_eq_len h, UInt32.toNat_add, Cursor.slot]
    simp
  have hlt := Cursor.slot_lt (M := 2 ^ 32) (c := m.nextOffset.toNat) (len_pos h) i
  rw [PortRange.toNat_len h] at hlt hoff ⊢
  rw [candidate, UInt16.toNat_add, UInt32.toNat_toUInt16, hoff]
  omega

theorem candidate_contains {m : PortManager} (h : m.range.start ≤ m.range.end) (i : Nat) :
    m.range.contains (m.candidate i) = true := by
  have hle : m.range.start.toNat ≤ m.range.end.toNat := UInt16.le_iff_toNat_le.mp h
  have hnat := toNat_candidate h i
  have hlt := Cursor.slot_lt (M := 2 ^ 32) (c := m.nextOffset.toNat) (len_pos h) i
  rw [PortRange.toNat_len h] at hlt hnat
  simp only [PortRange.contains, Bool.and_eq_true, decide_eq_true_eq, UInt16.le_iff_toNat_le]
  omega

theorem candidate_eq_iff {m : PortManager} (h : m.range.start ≤ m.range.end) {p : UInt16}
    (hp : m.range.contains p = true) (i : Nat) :
    m.candidate i = p ↔ Cursor.slot (2 ^ 32) m.range.len.toNat m.nextOffset.toNat i =
      p.toNat - m.range.start.toNat := by
  simp only [PortRange.contains, Bool.and_eq_true, decide_eq_true_eq,
    UInt16.le_iff_toNat_le] at hp
  rw [← UInt16.toNat_inj, toNat_candidate h]
  omega

theorem exists_candidate {m : PortManager} (h : m.range.start ≤ m.range.end) {p : UInt16}
    (hp : m.range.contains p = true)
    (hcov : Cursor.Covers (2 ^ 32) m.range.len.toNat m.nextOffset.toNat) :
    ∃ i < m.range.len.toNat, m.candidate i = p := by
  have hin := hp
  simp only [PortRange.contains, Bool.and_eq_true, decide_eq_true_eq,
    UInt16.le_iff_toNat_le] at hin
  obtain ⟨i, hi, hslot⟩ := hcov (p.toNat - m.range.start.toNat)
    (by rw [PortRange.toNat_len h]; omega)
  exact ⟨i, hi, (candidate_eq_iff h hp i).mpr hslot⟩

/-! ## Completeness -/

/-- What a caller of `allocate` relies on: a port is handed out exactly when
one can be, it is one of those, and a failed search changes no reservation. -/
def Complete (m : PortManager) (bindOk : UInt16 → Bool) : Prop :=
  ((m.allocate bindOk).2.isSome = true ↔
    ∃ p, m.range.contains p = true ∧ m.Usable bindOk p) ∧
  (∀ p, (m.allocate bindOk).2 = some p → m.range.contains p = true ∧ m.Usable bindOk p) ∧
  ((m.allocate bindOk).2 = none → (m.allocate bindOk).1.inUse = m.inUse)

theorem allocate_scanned {m : PortManager} (h : m.range.start ≤ m.range.end)
    (bindOk : UInt16 → Bool) : Scanned bindOk m m.range.len.toNat (m.allocate bindOk) := by
  rw [allocate, toNat_rangeSize_eq_len h]
  exact allocateFrom_scanned bindOk _ m

/-- Safe on every input, and complete exactly when a usable port is among the
candidates whenever there is one at all. -/
theorem complete_iff_tried {m : PortManager} (h : m.range.start ≤ m.range.end)
    (bindOk : UInt16 → Bool) :
    m.Complete bindOk ↔
      ((∃ p, m.range.contains p = true ∧ m.Usable bindOk p) →
        ∃ i < m.range.len.toNat, m.Usable bindOk (m.candidate i)) := by
  have hscan := allocate_scanned h bindOk
  rw [Complete]
  generalize m.allocate bindOk = r at hscan ⊢
  cases hscan with
  | found i m' hi huse hset =>
      have hport := candidate_contains h i
      refine ⟨fun _ _ => ⟨i, hi, huse⟩, fun _ => ⟨?_, ?_, fun hnone => nomatch hnone⟩⟩
      · exact ⟨fun _ => ⟨_, hport, huse⟩, fun _ => rfl⟩
      · intro p hp
        obtain rfl := Option.some.inj hp
        exact ⟨hport, huse⟩
  | exhausted m' hall hset =>
      constructor
      · intro hcomplete hex
        exact absurd (hcomplete.1.mpr hex) Bool.false_ne_true
      · intro himp
        refine ⟨⟨fun hsome => (nomatch hsome), fun hex => ?_⟩, fun p hp => (nomatch hp),
          fun _ => hset⟩
        obtain ⟨i, hi, huse⟩ := himp hex
        exact absurd huse (hall i hi)

theorem complete_of_covers {m : PortManager} (h : m.range.start ≤ m.range.end)
    (hcov : Cursor.Covers (2 ^ 32) m.range.len.toNat m.nextOffset.toNat)
    (bindOk : UInt16 → Bool) : m.Complete bindOk := by
  rw [complete_iff_tried h]
  rintro ⟨p, hp, huse⟩
  obtain ⟨i, hi, rfl⟩ := exists_candidate h hp hcov
  exact ⟨i, hi, huse⟩

/-- A slot the search does not see is a port it does not find, were it the
only one left. -/
theorem covers_of_complete {range : PortRange} {cursor : UInt32} (h : range.start ≤ range.end)
    (hall : ∀ bindOk, (⟨∅, range, cursor⟩ : PortManager).Complete bindOk) :
    Cursor.Covers (2 ^ 32) range.len.toNat cursor.toNat := by
  have hle : range.start.toNat ≤ range.end.toNat := UInt16.le_iff_toNat_le.mp h
  have he := range.end.toNat_lt
  intro r hr
  rw [PortRange.toNat_len h] at hr
  let p : UInt16 := UInt16.ofNat (range.start.toNat + r)
  have hpn : p.toNat = range.start.toNat + r := by
    rw [UInt16.toNat_ofNat']
    exact Nat.mod_eq_of_lt (by omega)
  have hp : range.contains p = true := by
    simp only [PortRange.contains, Bool.and_eq_true, decide_eq_true_eq, UInt16.le_iff_toNat_le]
    omega
  obtain ⟨i, hi, -, hbind⟩ := (complete_iff_tried h _).mp (hall fun q => q == p)
    ⟨p, hp, Finset.notMem_empty _, beq_self_eq_true p⟩
  have hslot := (candidate_eq_iff (m := ⟨∅, range, cursor⟩) h hp i).mp (beq_iff_eq.mp hbind)
  simp only at hslot
  exact ⟨i, hi, by omega⟩

/-- **Exactly when `allocate` is complete.** For one set and one assignment of
bind outcomes: the search does not wrap the cursor, or the range divides its
values evenly, or nothing is usable, or something usable is seen. For all of
them: one of the first two. -/
theorem allocate_complete_iff (range : PortRange) (cursor : UInt32)
    (h : range.start < range.end) :
    (∀ inUse bindOk, (⟨inUse, range, cursor⟩ : PortManager).Complete bindOk ↔
      cursor.toNat + range.len.toNat ≤ 2 ^ 32 ∨ range.len.toNat ∣ 2 ^ 32 ∨
      ∀ p, range.contains p = true → p ∉ inUse → bindOk p = true →
        ∃ q, range.contains q = true ∧ q ∉ inUse ∧ bindOk q = true ∧
          ∃ i < range.len.toNat,
            (cursor.toNat + i) % 2 ^ 32 % range.len.toNat = q.toNat - range.start.toNat) ∧
    ((∀ inUse bindOk, (⟨inUse, range, cursor⟩ : PortManager).Complete bindOk) ↔
      cursor.toNat + range.len.toNat ≤ 2 ^ 32 ∨ range.len.toNat ∣ 2 ^ 32) := by
  have hle : range.start ≤ range.end := UInt16.le_of_lt h
  have hcov : Cursor.Covers (2 ^ 32) range.len.toNat cursor.toNat ↔
      cursor.toNat + range.len.toNat ≤ 2 ^ 32 ∨ range.len.toNat ∣ 2 ^ 32 := by
    have he := range.end.toNat_lt
    refine Cursor.covers_iff cursor.toNat_lt ?_
    rw [PortRange.toNat_len hle]; omega
  refine ⟨fun inUse bindOk => ⟨fun hcomplete => ?_, ?_⟩, fun hall => ?_, fun hcond => ?_⟩
  · refine .inr (.inr fun p hp hfree hbind => ?_)
    obtain ⟨i, hi, hq, hqb⟩ := (complete_iff_tried hle bindOk).mp hcomplete ⟨p, hp, hfree, hbind⟩
    have hqc := candidate_contains (m := ⟨inUse, range, cursor⟩) hle i
    have hslot := (candidate_eq_iff hle hqc i).mp rfl
    simp only [Cursor.slot] at hslot
    exact ⟨_, hqc, hq, hqb, i, hi, hslot⟩
  · intro hcond
    rw [← or_assoc, ← hcov] at hcond
    rcases hcond with hcond | hseen
    · exact complete_of_covers (m := ⟨inUse, range, cursor⟩) hle hcond bindOk
    · refine (complete_iff_tried hle bindOk).mpr ?_
      rintro ⟨p, hp, hfree, hbind⟩
      obtain ⟨q, hq, hqfree, hqbind, i, hi, hslot⟩ := hseen p hp hfree hbind
      have hcand : (⟨inUse, range, cursor⟩ : PortManager).candidate i = q := by
        rw [candidate_eq_iff hle hq, Cursor.slot]
        exact hslot
      exact ⟨i, hi, hcand ▸ ⟨hqfree, hqbind⟩⟩
  · exact hcov.mp (covers_of_complete hle fun bindOk => hall ∅ bindOk)
  · intro inUse bindOk
    exact complete_of_covers (m := ⟨inUse, range, cursor⟩) hle (hcov.mpr hcond) bindOk

theorem allocate_complete_iff_three :
    (19600 : UInt16) < 19602 ∧
    (∀ inUse bindOk,
      (⟨inUse, ⟨19600, 19602⟩, 4294967293⟩ : PortManager).Complete bindOk) := by
  refine ⟨by decide, ((allocate_complete_iff ⟨19600, 19602⟩ 4294967293 (by decide)).2).mpr ?_⟩
  exact Or.inl (by decide)

/-! ## Every cursor is reached

Allocations whose guard is dropped again move the cursor one by one, so after
enough of them it is near its wrap. -/

/-- `allocate`, and the guard dropped right away. -/
def allocateAndDrop (m : PortManager) (bindOk : UInt16 → Bool) : PortManager :=
  match m.allocate bindOk with
  | (m', some port) => m'.release port
  | (m', none) => m'

theorem allocateAndDrop_empty {range : PortRange} (h : range.start ≤ range.end)
    (cursor : UInt32) :
    (⟨∅, range, cursor⟩ : PortManager).allocateAndDrop (fun _ => true) =
      ⟨∅, range, cursor + 1⟩ := by
  obtain ⟨left, hleft⟩ : ∃ left, (⟨∅, range, cursor⟩ : PortManager).rangeSize.toNat = left + 1 :=
    ⟨_, toNat_rangeSize h⟩
  simp [allocateAndDrop, allocate, hleft, allocateFrom, advance, reserve, release]

theorem iterate_allocateAndDrop {range : PortRange} (h : range.start ≤ range.end) (k : Nat) :
    (fun m : PortManager => m.allocateAndDrop fun _ => true)^[k] (.new range) =
      ⟨∅, range, UInt32.ofNat k⟩ := by
  induction k with
  | zero => rfl
  | succ k ih =>
      rw [Function.iterate_succ_apply', ih, allocateAndDrop_empty h, UInt32.ofNat_add]
      rfl

/-- With the first two ports of three in use and the cursor at its last value,
the search tries the first port twice and never the free third one. -/
theorem wrapped_search_misses_free_port :
    let m := (fun m : PortManager => m.allocateAndDrop fun _ => true)^[2 ^ 32 - 4]
      (.new ⟨19600, 19602⟩)
    let m' := ((m.allocate fun _ => true).1.allocate fun _ => true).1.allocateAndDrop fun _ => true
    m' = ⟨{19600, 19601}, ⟨19600, 19602⟩, 4294967295⟩ ∧
      m'.range.contains 19602 = true ∧ m'.Usable (fun _ => true) 19602 ∧
      (m'.allocate fun _ => true).2 = none ∧ ¬ m'.Complete fun _ => true := by
  intro m m'
  have hm : m = ⟨∅, ⟨19600, 19602⟩, 4294967292⟩ :=
    iterate_allocateAndDrop (by decide) (2 ^ 32 - 4)
  have hm' : m' = ⟨{19600, 19601}, ⟨19600, 19602⟩, 4294967295⟩ := by
    simp only [m', hm]
    decide +kernel
  rw [hm']
  have hnone : ((⟨{19600, 19601}, ⟨19600, 19602⟩, 4294967295⟩ : PortManager).allocate
      fun _ => true).2 = none := by decide +kernel
  have huse : (⟨{19600, 19601}, ⟨19600, 19602⟩, 4294967295⟩ : PortManager).Usable
      (fun _ => true) 19602 := by decide +kernel
  refine ⟨rfl, rfl, huse, hnone, fun hcomplete => ?_⟩
  have hsome := hcomplete.1.mpr ⟨19602, rfl, huse⟩
  rw [hnone] at hsome
  cases hsome

end PortManager

end FtpGateway
