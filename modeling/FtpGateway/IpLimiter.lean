import FtpGateway.Config
import FtpGateway.Counting

/-!
# Connections of one client address

`server/ip_limiter.rs`: how many connections an address may hold at once. Each
accepted connection holds a guard for the length of its session, and dropping
the guard gives the place back. The entry of an address is made before its
count is compared with the limit and removed by the drop that takes it to
zero.

A run is any order of acquisitions and drops (`LimWorld.run`). The invariant
(`LimWorld.Exact`) is that the map holds the census of the live guards and
nothing else; what an address sees of a run is the run of its own calls alone
(`LimWorld.run_filter`).

`usize` counts are natural numbers: they stay between 0 and `maxPerIp`.
-/

namespace FtpGateway

/-! ## The limiter -/

structure IpLimiter where
  counts : Finmap fun _ : IpAddr => Nat
  maxPerIp : Nat

/-- `counted` is whether the guard has the map to give its place back to. -/
structure IpGuard where
  counted : Bool
  ip : IpAddr
deriving Repr, DecidableEq

namespace IpLimiter

def new (maxPerIp : Nat) : IpLimiter := ⟨∅, maxPerIp⟩

/-- `counts.entry(ip).or_insert(0)`. -/
def enter (l : IpLimiter) (ip : IpAddr) : IpLimiter :=
  match l.counts.lookup ip with
  | some _ => l
  | none => { l with counts := l.counts.insert ip 0 }

def tryAcquire (l : IpLimiter) (ip : IpAddr) : IpLimiter × Option IpGuard :=
  if l.maxPerIp = 0 then (l, some ⟨false, ip⟩)
  else
    let l := l.enter ip
    let count := (l.counts.lookup ip).getD 0
    if count ≥ l.maxPerIp then (l, none)
    else ({ l with counts := l.counts.insert ip (count + 1) }, some ⟨true, ip⟩)

/-- `Drop for IpConnectionGuard`. -/
def drop (l : IpLimiter) (guard : IpGuard) : IpLimiter :=
  if !guard.counted then l
  else
    match l.counts.lookup guard.ip with
    | none => l
    | some count =>
        if count - 1 = 0 then { l with counts := l.counts.erase guard.ip }
        else { l with counts := l.counts.insert guard.ip (count - 1) }

/-! ## One call -/

/-- The entry of an address with `n` live guards. -/
def entryOf (n : Nat) : Option Nat := if n = 0 then none else some n

variable {l : IpLimiter} {ip other : IpAddr} {n : Nat}

@[simp]
theorem enter_maxPerIp (l : IpLimiter) (ip : IpAddr) : (l.enter ip).maxPerIp = l.maxPerIp := by
  rw [enter]; split <;> rfl

theorem enter_lookup_self (l : IpLimiter) (ip : IpAddr) :
    (l.enter ip).counts.lookup ip = some ((l.counts.lookup ip).getD 0) := by
  unfold enter
  cases hentry : l.counts.lookup ip with
  | some count => rw [hentry]; rfl
  | none => exact Finmap.lookup_insert _

theorem enter_lookup_of_ne (h : other ≠ ip) :
    (l.enter ip).counts.lookup other = l.counts.lookup other := by
  unfold enter
  split
  · rfl
  · exact Finmap.lookup_insert_of_ne _ h

/-- The answer depends on the limit and the address's own entry. -/
theorem tryAcquire_snd (l : IpLimiter) (ip : IpAddr) :
    (l.tryAcquire ip).2 =
      if l.maxPerIp = 0 then some ⟨false, ip⟩
      else if (l.counts.lookup ip).getD 0 ≥ l.maxPerIp then none else some ⟨true, ip⟩ := by
  unfold tryAcquire
  dsimp only
  rw [enter_lookup_self, enter_maxPerIp, Option.getD_some]
  split_ifs <;> rfl

/-- So does the entry afterwards. -/
theorem tryAcquire_lookup_self (l : IpLimiter) (ip : IpAddr) :
    (l.tryAcquire ip).1.counts.lookup ip =
      if l.maxPerIp = 0 then l.counts.lookup ip
      else if (l.counts.lookup ip).getD 0 ≥ l.maxPerIp then some ((l.counts.lookup ip).getD 0)
      else some ((l.counts.lookup ip).getD 0 + 1) := by
  unfold tryAcquire
  dsimp only
  rw [enter_lookup_self, enter_maxPerIp, Option.getD_some]
  split_ifs
  · rfl
  · exact enter_lookup_self l ip
  · exact Finmap.lookup_insert _

theorem tryAcquire_lookup_of_ne (h : other ≠ ip) :
    (l.tryAcquire ip).1.counts.lookup other = l.counts.lookup other := by
  unfold tryAcquire
  dsimp only
  split_ifs
  · rfl
  · exact enter_lookup_of_ne h
  · rw [Finmap.lookup_insert_of_ne _ h, enter_lookup_of_ne h]

@[simp]
theorem tryAcquire_maxPerIp (l : IpLimiter) (ip : IpAddr) :
    (l.tryAcquire ip).1.maxPerIp = l.maxPerIp := by
  unfold tryAcquire
  dsimp only
  split_ifs <;> simp

theorem drop_lookup_self (l : IpLimiter) (guard : IpGuard) :
    (l.drop guard).counts.lookup guard.ip =
      if !guard.counted then l.counts.lookup guard.ip
      else (l.counts.lookup guard.ip).bind fun count =>
        if count - 1 = 0 then none else some (count - 1) := by
  unfold drop
  split_ifs
  · rfl
  · cases hentry : l.counts.lookup guard.ip with
    | none => exact hentry
    | some count =>
        dsimp only [Option.bind_some]
        split_ifs
        · exact Finmap.lookup_erase _ _
        · exact Finmap.lookup_insert _

theorem drop_lookup_of_ne {guard : IpGuard} (h : other ≠ guard.ip) :
    (l.drop guard).counts.lookup other = l.counts.lookup other := by
  unfold drop
  split_ifs
  · rfl
  · cases l.counts.lookup guard.ip with
    | none => rfl
    | some count =>
        dsimp only
        split_ifs
        · exact Finmap.lookup_erase_ne h
        · exact Finmap.lookup_insert_of_ne _ h

@[simp]
theorem drop_maxPerIp (l : IpLimiter) (guard : IpGuard) :
    (l.drop guard).maxPerIp = l.maxPerIp := by
  unfold drop
  split_ifs
  · rfl
  · cases l.counts.lookup guard.ip with
    | none => rfl
    | some count =>
        dsimp only
        split_ifs <;> rfl

theorem getD_entryOf (n : Nat) : (entryOf n).getD 0 = n := by
  unfold entryOf
  split_ifs with h
  · exact h.symm
  · rfl

/-! ## Calls under a limit -/

/-- At the limit nothing happens: the entry is there already. -/
theorem tryAcquire_full (hmax : 0 < l.maxPerIp) (h : l.counts.lookup ip = entryOf n)
    (hn : l.maxPerIp ≤ n) : l.tryAcquire ip = (l, none) := by
  have hentry : l.counts.lookup ip = some n := by rw [h, entryOf, if_neg (by omega)]
  have hsame : l.enter ip = l := by rw [enter, hentry]
  unfold tryAcquire
  rw [if_neg (by omega)]
  dsimp only
  rw [hsame, hentry, Option.getD_some, if_pos hn]

/-- The entry of `ip` becomes that of `n` guards, and nothing else changes. -/
structure Counts (l l' : IpLimiter) (ip : IpAddr) (n : Nat) : Prop where
  maxPerIp : l'.maxPerIp = l.maxPerIp
  self : l'.counts.lookup ip = entryOf n
  others : ∀ other, other ≠ ip → l'.counts.lookup other = l.counts.lookup other

theorem tryAcquire_free (hmax : 0 < l.maxPerIp) (h : l.counts.lookup ip = entryOf n)
    (hn : n < l.maxPerIp) :
    (l.tryAcquire ip).2 = some ⟨true, ip⟩ ∧ Counts l (l.tryAcquire ip).1 ip (n + 1) := by
  have hzero : ¬ l.maxPerIp = 0 := by omega
  have hbelow : ¬ (l.counts.lookup ip).getD 0 ≥ l.maxPerIp := by
    rw [h, getD_entryOf]
    omega
  refine ⟨?_, tryAcquire_maxPerIp l ip, ?_, fun other => tryAcquire_lookup_of_ne⟩
  · rw [tryAcquire_snd, if_neg hzero, if_neg hbelow]
  · rw [tryAcquire_lookup_self, if_neg hzero, if_neg hbelow, h, getD_entryOf]
    rfl

theorem drop_counts {guard : IpGuard} (hcounted : guard.counted = true)
    (h : l.counts.lookup guard.ip = entryOf (n + 1)) : Counts l (l.drop guard) guard.ip n := by
  refine ⟨drop_maxPerIp l guard, ?_, fun other => drop_lookup_of_ne⟩
  rw [drop_lookup_self, hcounted, h]
  rfl

end IpLimiter

/-! ## Runs -/

inductive LimAct where
  | acquire (ip : IpAddr)
  | drop (guard : IpGuard)
deriving Repr, DecidableEq

def LimAct.ip : LimAct → IpAddr
  | .acquire ip => ip
  | .drop guard => guard.ip

/-- The limiter, the live guards, and what each call of `try_acquire` has
answered so far. -/
structure LimWorld where
  limiter : IpLimiter
  guards : List IpGuard
  answers : List (IpAddr × Bool)

namespace LimWorld

def init (maxPerIp : Nat) : LimWorld := ⟨.new maxPerIp, [], []⟩

/-- Only a live guard can be dropped. -/
def step (w : LimWorld) : LimAct → Option LimWorld
  | .acquire ip =>
      let (limiter, guard) := w.limiter.tryAcquire ip
      some ⟨limiter, guard.toList ++ w.guards, w.answers ++ [(ip, guard.isSome)]⟩
  | .drop guard =>
      if guard ∈ w.guards then
        some ⟨w.limiter.drop guard, w.guards.erase guard, w.answers⟩
      else none

def run (w : LimWorld) : List LimAct → Option LimWorld
  | [] => some w
  | act :: rest => (w.step act).bind fun w' => w'.run rest

theorem step_acquire (w : LimWorld) (ip : IpAddr) :
    w.step (.acquire ip) = some ⟨(w.limiter.tryAcquire ip).1,
      (w.limiter.tryAcquire ip).2.toList ++ w.guards,
      w.answers ++ [(ip, (w.limiter.tryAcquire ip).2.isSome)]⟩ :=
  rfl

/-- Live guards of an address. -/
def live (w : LimWorld) (ip : IpAddr) : Nat := w.guards.countP (·.ip = ip)

variable {w w' : LimWorld} {act : LimAct}

/-- Under a limit, the map is the census of the live guards. -/
structure Exact (w : LimWorld) : Prop where
  counted : ∀ guard ∈ w.guards, guard.counted = true
  census : ∀ ip, w.limiter.counts.lookup ip = IpLimiter.entryOf (w.live ip)
  le_max : ∀ ip, w.live ip ≤ w.limiter.maxPerIp

/-- Without one, nobody is counted. -/
structure Unlimited (w : LimWorld) : Prop where
  uncounted : ∀ guard ∈ w.guards, guard.counted = false
  counts : w.limiter.counts = ∅

theorem live_erase {guard : IpGuard} (h : guard ∈ w.guards) (ip : IpAddr) :
    w.live ip = (w.guards.erase guard).countP (·.ip = ip) + if guard.ip = ip then 1 else 0 := by
  rw [live, (List.perm_cons_erase h).countP_eq, List.countP_cons]
  simp only [decide_eq_true_eq]

/-- One step under a limit: a refused call changes nothing, any other moves the
count of its own address by one. -/
inductive LimTurn (w w' : LimWorld) : LimAct → Prop where
  | refuse (ip : IpAddr) (hfull : w.live ip = w.limiter.maxPerIp)
      (hlimiter : w'.limiter = w.limiter) (hguards : w'.guards = w.guards)
      (hanswers : w'.answers = w.answers ++ [(ip, false)]) : LimTurn w w' (.acquire ip)
  | grant (ip : IpAddr) (hfree : w.live ip < w.limiter.maxPerIp)
      (hcounts : IpLimiter.Counts w.limiter w'.limiter ip (w.live ip + 1))
      (hguards : w'.guards = ⟨true, ip⟩ :: w.guards)
      (hanswers : w'.answers = w.answers ++ [(ip, true)]) : LimTurn w w' (.acquire ip)
  | drop (guard : IpGuard) (hmem : guard ∈ w.guards)
      (hcounts : IpLimiter.Counts w.limiter w'.limiter guard.ip (w.live guard.ip - 1))
      (hguards : w'.guards = w.guards.erase guard)
      (hanswers : w'.answers = w.answers) : LimTurn w w' (.drop guard)

theorem live_pos {guard : IpGuard} (h : guard ∈ w.guards) : 0 < w.live guard.ip :=
  List.countP_pos_iff.mpr ⟨guard, h, by simp⟩

theorem Exact.turn (h : w.Exact) (hmax : 0 < w.limiter.maxPerIp) (hstep : w.step act = some w') :
    LimTurn w w' act := by
  cases act with
  | acquire ip =>
      rcases Nat.lt_or_ge (w.live ip) w.limiter.maxPerIp with hfree | hfull
      · obtain ⟨hanswer, hcounts⟩ := IpLimiter.tryAcquire_free hmax (h.census ip) hfree
        rw [step_acquire, hanswer] at hstep
        obtain rfl := Option.some.inj hstep
        exact .grant ip hfree hcounts rfl rfl
      · rw [step_acquire, IpLimiter.tryAcquire_full hmax (h.census ip) hfull] at hstep
        obtain rfl := Option.some.inj hstep
        exact .refuse ip (Nat.le_antisymm (h.le_max ip) hfull) rfl rfl rfl
  | drop guard =>
      rw [step] at hstep
      split at hstep
      case isFalse => cases hstep
      case isTrue hmem =>
        obtain rfl := Option.some.inj hstep
        refine .drop guard hmem (IpLimiter.drop_counts (h.counted guard hmem) ?_) rfl rfl
        rw [h.census, Nat.sub_add_cancel (live_pos hmem)]

theorem Exact.step (h : w.Exact) (hmax : 0 < w.limiter.maxPerIp) (hstep : w.step act = some w') :
    w'.Exact ∧ w'.limiter.maxPerIp = w.limiter.maxPerIp := by
  cases h.turn hmax hstep with
  | refuse ip hfull hlimiter hguards hanswers =>
      refine ⟨⟨by rw [hguards]; exact h.counted, fun other => ?_, fun other => ?_⟩, by rw [hlimiter]⟩
      · rw [live, hguards, hlimiter]; exact h.census other
      · rw [live, hguards, hlimiter]; exact h.le_max other
  | grant ip hfree hcounts hguards hanswers =>
      have hlive : ∀ other, w'.live other = w.live other + if ip = other then 1 else 0 := by
        intro other
        rw [live, hguards, List.countP_cons]
        simp only [decide_eq_true_eq, live]
      refine ⟨⟨?_, fun other => ?_, fun other => ?_⟩, hcounts.maxPerIp⟩
      · rw [hguards, List.forall_mem_cons]
        exact ⟨rfl, h.counted⟩
      · rw [hlive]
        by_cases hip : ip = other
        · rw [if_pos hip, ← hip, hcounts.self]
        · rw [if_neg hip, hcounts.others other (Ne.symm hip), h.census, Nat.add_zero]
      · rw [hlive, hcounts.maxPerIp]
        split
        case isTrue hip => rw [← hip]; exact hfree
        case isFalse => exact h.le_max other
  | drop guard hmem hcounts hguards hanswers =>
      have hlive : ∀ other, w.live other = w'.live other + if guard.ip = other then 1 else 0 := by
        intro other
        rw [live_erase hmem, live, hguards]
      refine ⟨⟨?_, fun other => ?_, fun other => ?_⟩, hcounts.maxPerIp⟩
      · rw [hguards]
        exact fun g hg => h.counted g (List.mem_of_mem_erase hg)
      · by_cases hip : guard.ip = other
        · subst hip
          rw [hcounts.self, hlive guard.ip, if_pos rfl, Nat.add_sub_cancel]
        · rw [hcounts.others other (Ne.symm hip), h.census, hlive other, if_neg hip, Nat.add_zero]
      · rw [hcounts.maxPerIp]
        exact Nat.le_trans (by rw [hlive other]; exact Nat.le_add_right _ _) (h.le_max other)

theorem exact_init (maxPerIp : Nat) : (init maxPerIp).Exact where
  counted := fun _ h => (by cases h)
  census := fun _ => Finmap.lookup_empty _
  le_max := fun _ => Nat.zero_le _

theorem Exact.run {acts : List LimAct} (h : w.Exact) (hmax : 0 < w.limiter.maxPerIp)
    (hrun : w.run acts = some w') : w'.Exact ∧ w'.limiter.maxPerIp = w.limiter.maxPerIp := by
  induction acts generalizing w with
  | nil =>
      obtain rfl := Option.some.inj hrun
      exact ⟨h, rfl⟩
  | cons act rest ih =>
      obtain ⟨w₁, hstep, hrest⟩ := Option.bind_eq_some_iff.mp hrun
      obtain ⟨h₁, hsame⟩ := h.step hmax hstep
      rw [← hsame]
      exact ih h₁ (hsame ▸ hmax) hrest

/-! ## Without a limit -/

theorem Unlimited.step (h : w.Unlimited) (hmax : w.limiter.maxPerIp = 0)
    (hstep : w.step act = some w') : w'.Unlimited ∧ w'.limiter = w.limiter := by
  cases act with
  | acquire ip =>
      have hfree : w.limiter.tryAcquire ip = (w.limiter, some ⟨false, ip⟩) := by
        rw [IpLimiter.tryAcquire, if_pos hmax]
      rw [step_acquire, hfree] at hstep
      obtain rfl := Option.some.inj hstep
      exact ⟨⟨List.forall_mem_cons.mpr ⟨rfl, h.uncounted⟩, h.counts⟩, rfl⟩
  | drop guard =>
      rw [LimWorld.step] at hstep
      split at hstep
      case isFalse => cases hstep
      case isTrue hmem =>
        have hsame : w.limiter.drop guard = w.limiter := by
          rw [IpLimiter.drop, h.uncounted guard hmem]
          rfl
        rw [hsame] at hstep
        obtain rfl := Option.some.inj hstep
        exact ⟨⟨fun g hg => h.uncounted g (List.mem_of_mem_erase hg), h.counts⟩, rfl⟩

theorem Unlimited.run {acts : List LimAct} (h : w.Unlimited) (hmax : w.limiter.maxPerIp = 0)
    (hrun : w.run acts = some w') : w'.Unlimited ∧ w'.limiter = w.limiter := by
  induction acts generalizing w with
  | nil =>
      obtain rfl := Option.some.inj hrun
      exact ⟨h, rfl⟩
  | cons act rest ih =>
      obtain ⟨w₁, hstep, hrest⟩ := Option.bind_eq_some_iff.mp hrun
      obtain ⟨h₁, hsame⟩ := h.step hmax hstep
      rw [← hsame]
      exact ih h₁ (hsame ▸ hmax) hrest

/-! ## One address at a time -/

/-- `w'` is what `ip` sees of `w`. -/
structure SeenBy (ip : IpAddr) (w w' : LimWorld) : Prop where
  maxPerIp : w'.limiter.maxPerIp = w.limiter.maxPerIp
  entry : w'.limiter.counts.lookup ip = w.limiter.counts.lookup ip
  guards : w'.guards = w.guards.filter (·.ip = ip)
  answers : w'.answers = w.answers.filter (·.1 = ip)

theorem SeenBy.answer {ip : IpAddr} (h : SeenBy ip w w') :
    (w'.limiter.tryAcquire ip).2 = (w.limiter.tryAcquire ip).2 := by
  rw [IpLimiter.tryAcquire_snd, IpLimiter.tryAcquire_snd, h.maxPerIp, h.entry]

/-- Another address's step is not seen. -/
theorem SeenBy.other {ip : IpAddr} {w₁ : LimWorld} (h : SeenBy ip w w') (hact : act.ip ≠ ip)
    (hstep : w.step act = some w₁) : SeenBy ip w₁ w' := by
  cases act with
  | acquire other =>
      have hne : ip ≠ other := Ne.symm hact
      rw [step_acquire] at hstep
      obtain rfl := Option.some.inj hstep
      refine ⟨?_, ?_, ?_, ?_⟩
      · rw [h.maxPerIp, IpLimiter.tryAcquire_maxPerIp]
      · rw [h.entry, IpLimiter.tryAcquire_lookup_of_ne hne]
      · have hnone : (w.limiter.tryAcquire other).2.toList.filter (·.ip = ip) = [] := by
          rw [IpLimiter.tryAcquire_snd]
          split_ifs <;> simp [Ne.symm hne]
        rw [List.filter_append, hnone, h.guards]
        rfl
      · rw [List.filter_append, h.answers]
        simp [Ne.symm hne]
  | drop guard =>
      have hne : ip ≠ guard.ip := Ne.symm hact
      rw [LimWorld.step] at hstep
      split at hstep
      case isFalse => cases hstep
      case isTrue hmem =>
        obtain rfl := Option.some.inj hstep
        refine ⟨?_, ?_, ?_, h.answers⟩
        · rw [h.maxPerIp, IpLimiter.drop_maxPerIp]
        · rw [h.entry, IpLimiter.drop_lookup_of_ne hne]
        · have hnot : guard ∉ w.guards.filter (·.ip = ip) := by simp [Ne.symm hne]
          rw [h.guards, ← List.erase_filter, List.erase_of_not_mem hnot]

/-- A step of its own goes the same way. -/
theorem SeenBy.own {ip : IpAddr} {w₁ : LimWorld} (h : SeenBy ip w w') (hact : act.ip = ip)
    (hstep : w.step act = some w₁) : ∃ w₂, w'.step act = some w₂ ∧ SeenBy ip w₁ w₂ := by
  cases act with
  | acquire caller =>
      obtain rfl : caller = ip := hact
      rw [step_acquire] at hstep
      obtain rfl := Option.some.inj hstep
      refine ⟨_, step_acquire w' caller, ?_, ?_, ?_, ?_⟩
      · rw [IpLimiter.tryAcquire_maxPerIp, IpLimiter.tryAcquire_maxPerIp, h.maxPerIp]
      · rw [IpLimiter.tryAcquire_lookup_self, IpLimiter.tryAcquire_lookup_self, h.maxPerIp, h.entry]
      · have hall : (w.limiter.tryAcquire caller).2.toList.filter (·.ip = caller) =
            (w.limiter.tryAcquire caller).2.toList := by
          rw [IpLimiter.tryAcquire_snd]
          split_ifs <;> simp
        rw [List.filter_append, hall, h.answer, h.guards]
      · rw [List.filter_append, h.answer, h.answers]
        simp
  | drop guard =>
      obtain rfl : guard.ip = ip := hact
      rw [LimWorld.step] at hstep
      split at hstep
      case isFalse => cases hstep
      case isTrue hmem =>
        obtain rfl := Option.some.inj hstep
        have hmem' : guard ∈ w'.guards := by
          rw [h.guards, List.mem_filter]
          exact ⟨hmem, by simp⟩
        refine ⟨⟨w'.limiter.drop guard, w'.guards.erase guard, w'.answers⟩, ?_, ?_, ?_, ?_,
          h.answers⟩
        · rw [LimWorld.step, if_pos hmem']
        · rw [IpLimiter.drop_maxPerIp, IpLimiter.drop_maxPerIp, h.maxPerIp]
        · rw [IpLimiter.drop_lookup_self, IpLimiter.drop_lookup_self, h.entry]
        · rw [h.guards, List.erase_filter]

theorem run_filter {ip : IpAddr} {acts : List LimAct} (h : SeenBy ip w w') {w₁ : LimWorld}
    (hrun : w.run acts = some w₁) :
    ∃ w₂, w'.run (acts.filter (·.ip = ip)) = some w₂ ∧ SeenBy ip w₁ w₂ := by
  induction acts generalizing w w' with
  | nil =>
      obtain rfl := Option.some.inj hrun
      exact ⟨w', rfl, h⟩
  | cons act rest ih =>
      obtain ⟨next, hstep, hrest⟩ := Option.bind_eq_some_iff.mp hrun
      by_cases hact : act.ip = ip
      · obtain ⟨next', hstep', hseen⟩ := h.own hact hstep
        obtain ⟨w₂, hrun', hw₂⟩ := ih hseen hrest
        refine ⟨w₂, ?_, hw₂⟩
        rw [List.filter_cons_of_pos (by simpa using hact), run, hstep']
        exact hrun'
      · obtain ⟨w₂, hrun', hw₂⟩ := ih (h.other hact hstep) hrest
        refine ⟨w₂, ?_, hw₂⟩
        rw [List.filter_cons_of_neg (by simpa using hact)]
        exact hrun'

/-- **The limit.** In every state reached by any order of calls and drops: with
a limit, the map holds for each address the number of its live guards, at
least 1 and at most the limit, and no other entry; a call is refused exactly
at the limit, and then changes nothing; a drop finds a count to lower. Without
one, every call succeeds and the map stays empty. And an address gets the
answers it would get if it were alone. -/
theorem ip_limit_exact (maxPerIp : Nat) (acts : List LimAct) (w : LimWorld)
    (hrun : (init maxPerIp).run acts = some w) :
    (0 < maxPerIp →
      (∀ ip, w.limiter.counts.lookup ip = if w.live ip = 0 then none else some (w.live ip)) ∧
      (∀ ip count, w.limiter.counts.lookup ip = some count → 1 ≤ count ∧ count ≤ maxPerIp) ∧
      (∀ ip, (w.limiter.tryAcquire ip).2 = none ↔ w.live ip = maxPerIp) ∧
      (∀ ip, (w.limiter.tryAcquire ip).2 = none → (w.limiter.tryAcquire ip).1 = w.limiter) ∧
      ∀ guard ∈ w.guards, ∃ count, w.limiter.counts.lookup guard.ip = some count ∧ 1 ≤ count) ∧
    (maxPerIp = 0 → w.limiter.counts = ∅ ∧ ∀ ip, (w.limiter.tryAcquire ip).2.isSome = true) ∧
    ∀ ip, ∃ alone, (init maxPerIp).run (acts.filter (·.ip = ip)) = some alone ∧
      alone.answers = w.answers.filter (·.1 = ip) ∧ alone.live ip = w.live ip ∧
      (alone.limiter.tryAcquire ip).2 = (w.limiter.tryAcquire ip).2 := by
  refine ⟨fun hmax => ?_, fun hmax => ?_, fun ip => ?_⟩
  · obtain ⟨h, hsame⟩ := (exact_init maxPerIp).run hmax hrun
    have hsame : w.limiter.maxPerIp = maxPerIp := hsame
    have hpos : 0 < w.limiter.maxPerIp := hsame ▸ hmax
    have hanswer : ∀ ip, (w.limiter.tryAcquire ip).2 = none ↔ w.live ip = maxPerIp := by
      intro ip
      rw [IpLimiter.tryAcquire_snd, if_neg (Nat.ne_of_gt hpos), h.census, IpLimiter.getD_entryOf,
        hsame]
      have hle := h.le_max ip
      rw [hsame] at hle
      split
      case isTrue hfull => simp [Nat.le_antisymm hle hfull]
      case isFalse hfree => simp [Nat.ne_of_lt (Nat.lt_of_not_le hfree)]
    refine ⟨h.census, fun ip count hentry => ?_, hanswer, fun ip hnone => ?_, fun guard hguard => ?_⟩
    · have hle := h.le_max ip
      rw [h.census, IpLimiter.entryOf] at hentry
      split at hentry
      · cases hentry
      · obtain rfl := Option.some.inj hentry
        exact ⟨Nat.pos_of_ne_zero ‹_›, hsame ▸ hle⟩
    · have hfull := (hanswer ip).mp hnone
      rw [IpLimiter.tryAcquire_full hpos (h.census ip) (by omega)]
    · have hlive := live_pos hguard
      refine ⟨w.live guard.ip, ?_, hlive⟩
      rw [h.census, IpLimiter.entryOf, if_neg (Nat.ne_of_gt hlive)]
  · have hinit : (init maxPerIp).Unlimited := ⟨fun _ h => (by cases h), rfl⟩
    obtain ⟨h, hsame⟩ := hinit.run hmax hrun
    have hzero : w.limiter.maxPerIp = 0 := by rw [hsame]; exact hmax
    refine ⟨h.counts, fun ip => ?_⟩
    rw [IpLimiter.tryAcquire_snd, if_pos hzero]
    rfl
  · have hinit : SeenBy ip (init maxPerIp) (init maxPerIp) := ⟨rfl, rfl, rfl, rfl⟩
    obtain ⟨alone, halone, hseen⟩ := run_filter hinit hrun
    refine ⟨alone, halone, hseen.answers, ?_, hseen.answer⟩
    rw [live, hseen.guards, List.countP_filter]
    simp [live]

/-- A limit of one, two addresses, and a place given back. -/
def twoClients : List LimAct :=
  [.acquire (.v4 ⟨10, 0, 0, 1⟩), .acquire (.v4 ⟨10, 0, 0, 1⟩), .acquire (.v4 ⟨10, 0, 0, 2⟩),
    .drop ⟨true, .v4 ⟨10, 0, 0, 1⟩⟩, .acquire (.v4 ⟨10, 0, 0, 1⟩)]

theorem ip_limit_exact_two_clients :
    ∃ w, (init 1).run twoClients = some w ∧
      w.answers.map Prod.snd = [true, false, true, true] ∧ w.live (.v4 ⟨10, 0, 0, 1⟩) = 1 ∧
      (w.limiter.tryAcquire (.v4 ⟨10, 0, 0, 1⟩)).1 = w.limiter :=
  ⟨_, rfl, rfl, rfl, ((ip_limit_exact 1 twoClients _ rfl).1 (by decide)).2.2.2.1 _ rfl⟩

end LimWorld

end FtpGateway
