import Mathlib.Data.List.ProdSigma
import FtpGateway.RotatorHealth
import FtpGateway.Sources

/-!
# How many series the snapshot has

`render_rotation_metrics` writes a few lines for every entry of
`snapshot().transfers`, and both it and the README say that source addresses
times backends bounds them. Entries are made by sessions; nothing takes one
away, a refresh that removes the address included.

`NoStale` is what the bound needs: an entry of an address that is not listed
has a transfer in flight. Three kinds of step can break it (`TidyStep`): a
refresh that removes an address with an idle entry, a session that goes on
with an address removed since, and the end of the last transfer of a removed
address.
-/

namespace FtpGateway

open Str

/-- Transfers in flight, as the snapshot shows them. -/
def SlotState.active (slot : SlotState) : Nat := slot.capacity - slot.availablePermits

/-- The sessions go to the backends in `names`. -/
def RotAct.StartsIn (names : List Text) : RotAct → Prop
  | .start name _ _ => name ∈ names
  | _ => True

namespace RotWorld

variable {w w' : RotWorld} {act : RotAct} {acts : List RotAct} {names : List Text}

def NoStale (w : RotWorld) : Prop :=
  ∀ name source slot, w.rot.slot? name source = some slot →
    source ∈ w.rot.sources ∨ 0 < slot.active

/-- The step leaves no entry behind. -/
def TidyStep (w : RotWorld) : RotAct → Prop
  | .setSources l => ∀ name source slot, w.rot.slot? name source = some slot →
      source ∈ l ∨ 0 < slot.active
  | .refreshOnce (some (ip :: rest)) => ∀ name source slot,
      w.rot.slot? name source = some slot → source ∈ ip :: rest ∨ 0 < slot.active
  | .start name _ source => source ∈ w.rot.sources ∨
      ∃ slot, w.rot.slot? name source = some slot ∧ 0 < slot.active
  | .drop i => ∀ name source slot, w.calls[i]? = some (.holding name source) →
      w.rot.slot? name source = some slot → source ∈ w.rot.sources ∨ 1 < slot.active
  | _ => True

/-! ## One step -/

theorem NoStale.of_rewrites {name : Text} {source : Ipv4Addr}
    {g : BackendState → BackendState} {f : SlotState → SlotState} (h : w.NoStale)
    (hrw : w.rot.Rewrites w'.rot name g)
    (hg : ∀ b : BackendState, (g b).slots = (b.modifySlot source f).slots)
    (hf : ∀ slot, w.rot.slot? name source = some slot → source ∈ w.rot.sources ∨
      0 < (f slot).active) : w'.NoStale := by
  intro n s slot hslot
  rw [Rotator.slot?_eq, lookup_of_rewrites hrw hg] at hslot
  rw [hrw.sources]
  split_ifs at hslot with hns
  · obtain ⟨old, hold, rfl⟩ := Option.map_eq_some_iff.mp hslot
    rw [hns.2]
    exact hf old (by rw [Rotator.slot?_eq, hold])
  · exact h n s slot (by rw [Rotator.slot?_eq, hslot])

/-- A write that does not lower the transfers in flight. -/
theorem NoStale.of_active_le {name : Text} {source : Ipv4Addr}
    {g : BackendState → BackendState} {f : SlotState → SlotState} (h : w.NoStale)
    (hrw : w.rot.Rewrites w'.rot name g)
    (hg : ∀ b : BackendState, (g b).slots = (b.modifySlot source f).slots)
    (hf : ∀ slot, slot.active ≤ (f slot).active) : w'.NoStale := by
  refine h.of_rewrites hrw hg fun slot hslot => ?_
  rcases h name source slot hslot with hin | hpos
  · exact .inl hin
  · exact .inr (Nat.lt_of_lt_of_le hpos (hf slot))

theorem slot?_of_keepsBooks (h : KeepsBooks w w') (name : Text) (source : Ipv4Addr) :
    w'.rot.slot? name source = w.rot.slot? name source := by
  rw [Rotator.slot?_eq, Rotator.slot?_eq, h.backend]

theorem noStale_relist_iff {l : List Ipv4Addr} (hkeep : KeepsBooks w w')
    (hnew : w'.rot.sources = sortDedup l) :
    w'.NoStale ↔ ∀ name source slot, w.rot.slot? name source = some slot →
      source ∈ l ∨ 0 < slot.active := by
  unfold NoStale
  simp only [slot?_of_keepsBooks hkeep, hnew, mem_sortDedup]

theorem noStale_start_iff {name : Text} {source : Ipv4Addr} {c : Nat} (h : w.NoStale)
    (hrw : w.rot.Rewrites w'.rot name fun b => b.openSlot c source) :
    w'.NoStale ↔ source ∈ w.rot.sources ∨
      ∃ slot, w.rot.slot? name source = some slot ∧ 0 < slot.active := by
  have hlook : ∀ n s, w'.rot.slot? n s = if n = name ∧ s = source then
      some ((w.rot.slot? name source).getD (.new c)) else w.rot.slot? n s := by
    intro n s
    rw [Rotator.slot?_eq, lookup_of_opens hrw, Rotator.slot?_eq, Rotator.slot?_eq]
  constructor
  · intro h'
    have hnew := h' name source _ (by rw [hlook, if_pos ⟨rfl, rfl⟩])
    rw [hrw.sources] at hnew
    rcases hnew with hin | hpos
    · exact .inl hin
    · cases hslot : w.rot.slot? name source with
      | some slot =>
          rw [hslot] at hpos
          exact .inr ⟨slot, rfl, hpos⟩
      | none =>
          rw [hslot, Option.getD_none, SlotState.active, SlotState.new, Nat.sub_self] at hpos
          cases hpos
  · intro hok n s slot hslot
    rw [hlook] at hslot
    rw [hrw.sources]
    split_ifs at hslot with hns
    · rw [hns.2]
      rcases hok with hin | ⟨old, hold, hpos⟩
      · exact .inl hin
      · rw [hold, Option.getD_some] at hslot
        exact .inr (Option.some.inj hslot ▸ hpos)
    · exact h n s slot hslot

theorem noStale_drop_iff {name : Text} {source : Ipv4Addr} (h : w.NoStale)
    (hrw : w.rot.Rewrites w'.rot name fun b => b.modifySlot source SlotState.givePermit) :
    w'.NoStale ↔ ∀ slot, w.rot.slot? name source = some slot →
      source ∈ w.rot.sources ∨ 1 < slot.active := by
  have hgive : ∀ slot : SlotState, 0 < slot.givePermit.active ↔ 1 < slot.active := by
    intro slot
    show 0 < slot.capacity - (slot.availablePermits + 1) ↔ 1 < slot.capacity - slot.availablePermits
    omega
  constructor
  · intro h' slot hslot
    have hnew := h' name source slot.givePermit (by
      rw [Rotator.slot?_eq] at hslot ⊢
      rw [lookup_of_rewrites hrw (fun _ => rfl), if_pos ⟨rfl, rfl⟩, hslot]
      rfl)
    rw [hrw.sources, hgive] at hnew
    exact hnew
  · intro hok
    refine h.of_rewrites hrw (fun _ => rfl) fun slot hslot => ?_
    rw [hgive]
    exact hok slot hslot

/-- The steps that keep `NoStale` are the tidy ones. -/
theorem noStale_step_iff (h : w.NoStale) (hstep : w.step act = some w') :
    w'.NoStale ↔ w.TidyStep act := by
  cases step_turn hstep with
  | start name capacity source hrw hcalls => exact noStale_start_iff h hrw
  | grant i name capacity source slot hi hslot hfree hrw hcalls =>
      refine iff_of_true (h.of_active_le hrw (fun _ => rfl) fun slot => ?_) trivial
      exact Nat.sub_le_sub_left (Nat.sub_le _ _) _
  | commit i name capacity source hi hrw hcalls =>
      exact iff_of_true (h.of_active_le (f := SlotState.started) hrw
        (fun b => BackendState.advanceCycle_slots _ capacity) fun slot => Nat.le_refl _) trivial
  | timeout i name capacity source hi hrw hcalls =>
      exact iff_of_true (h.of_active_le hrw (fun _ => rfl) fun slot => Nat.le_refl _) trivial
  | cancel i name capacity source hi hrot hcalls =>
      refine iff_of_true ?_ trivial
      unfold NoStale
      rwa [hrot]
  | drop i name source hi hrw hcalls =>
      rw [noStale_drop_iff h hrw]
      constructor
      · intro hok name' source' slot hi' hslot
        rw [hi, Option.some.injEq, Call.holding.injEq] at hi'
        obtain ⟨rfl, rfl⟩ := hi'
        exact hok slot hslot
      · intro hok slot hslot
        exact hok name source slot hi hslot
  | health act hact hkeep =>
      have hsame : w'.rot.sources = w.rot.sources → w'.NoStale := by
        intro hsources name source slot hslot
        rw [slot?_of_keepsBooks hkeep] at hslot
        rw [hsources]
        exact h name source slot hslot
      cases act with
      | setSources l =>
          refine noStale_relist_iff hkeep ?_
          obtain rfl := Option.some.inj hstep
          exact Rotator.setSources_sources w.rot l
      | refreshOnce listing =>
          match listing with
          | none => exact iff_of_true (hsame (by rw [← Option.some.inj hstep]; rfl)) trivial
          | some [] => exact iff_of_true (hsame (by rw [← Option.some.inj hstep]; rfl)) trivial
          | some (ip :: rest) =>
              refine noStale_relist_iff hkeep ?_
              obtain rfl := Option.some.inj hstep
              exact Rotator.setSources_sources w.rot (ip :: rest)
      | reportConnectFailure source k now =>
          rcases step_sources hstep with hs | ⟨l, hl, -⟩ | ⟨l, -, hl, -⟩
          · exact iff_of_true (hsame hs) trivial
          · cases hl
          · cases hl
      | markUnhealthy source now =>
          exact iff_of_true (hsame (by rw [← Option.some.inj hstep]; rfl)) trivial
      | start => cases hact
      | grant => cases hact
      | commit => cases hact
      | timeout => cases hact
      | cancel => cases hact
      | drop => cases hact

theorem noStale_init (sources : List Ipv4Addr) : (init sources).NoStale := by
  intro name source slot hslot
  rw [Rotator.slot?, init, Rotator.new, Finmap.lookup_empty] at hslot
  cases hslot

/-- A run keeps `NoStale` exactly when all its steps are tidy. -/
theorem always_noStale_iff (hw : w.NoStale) :
    Always NoStale w acts ↔ StepsMeet TidyStep w acts := by
  constructor
  · intro h pre act post w₁ w₂ hacts hpre hstep
    have h₁ : w₁.NoStale := h pre (act :: post) w₁ hacts hpre
    exact (noStale_step_iff h₁ hstep).mp (h.next hacts hpre hstep)
  · intro h
    exact h.always hw fun w w' act hw hok hstep => (noStale_step_iff hw hstep).mpr hok

/-! ## The backends of the entries -/

/-- Every entry is one of a configured backend. -/
def Configured (names : List Text) (w : RotWorld) : Prop :=
  ∀ name source slot, w.rot.slot? name source = some slot → name ∈ names

theorem Configured.of_rewrites {name : Text} {source : Ipv4Addr}
    {g : BackendState → BackendState} {f : SlotState → SlotState} (h : Configured names w)
    (hrw : w.rot.Rewrites w'.rot name g)
    (hg : ∀ b : BackendState, (g b).slots = (b.modifySlot source f).slots) :
    Configured names w' := by
  intro n s slot hslot
  rw [Rotator.slot?_eq, lookup_of_rewrites hrw hg] at hslot
  split_ifs at hslot with hns
  · obtain ⟨old, hold, -⟩ := Option.map_eq_some_iff.mp hslot
    rw [hns.1]
    exact h name source old (by rw [Rotator.slot?_eq, hold])
  · exact h n s slot (by rw [Rotator.slot?_eq, hslot])

theorem Configured.step (h : Configured names w) (hact : act.StartsIn names)
    (hstep : w.step act = some w') : Configured names w' := by
  cases step_turn hstep with
  | start name capacity source hrw hcalls =>
      intro n s slot hslot
      rw [Rotator.slot?_eq, lookup_of_opens hrw] at hslot
      split_ifs at hslot with hns
      · rw [hns.1]
        exact hact
      · exact h n s slot (by rw [Rotator.slot?_eq, hslot])
  | grant i name capacity source slot hi hslot hfree hrw => exact h.of_rewrites hrw fun _ => rfl
  | commit i name capacity source hi hrw =>
      exact h.of_rewrites (f := SlotState.started) hrw
        fun b => BackendState.advanceCycle_slots _ capacity
  | timeout i name capacity source hi hrw => exact h.of_rewrites hrw fun _ => rfl
  | cancel i name capacity source hi hrot =>
      unfold Configured
      rwa [hrot]
  | drop i name source hi hrw => exact h.of_rewrites hrw fun _ => rfl
  | health act hact hkeep =>
      intro name source slot hslot
      rw [slot?_of_keepsBooks hkeep] at hslot
      exact h name source slot hslot

theorem configured_init (names : List Text) (sources : List Ipv4Addr) :
    Configured names (init sources) := by
  intro name source slot hslot
  rw [Rotator.slot?, init, Rotator.new, Finmap.lookup_empty] at hslot
  cases hslot

end RotWorld

/-! ## Counting entries -/

namespace RotWorld

/-- The entries that count: the address is listed, or nothing is in flight. -/
def counted (w : RotWorld) (now : Nat) : List SourceTransferStat :=
  (w.rot.snapshotAt now).transfers.filter fun s => s.source ∈ w.rot.sources ∨ s.active = 0

theorem length_counted_le {w : RotWorld} {names : List Text} (hstale : w.NoStale)
    (hnames : Configured names w) (now : Nat) :
    (w.counted now).length ≤ w.rot.sources.length * names.length := by
  have hnodup : ((w.counted now).map fun s => (s.backend, s.source)).Nodup :=
    (w.rot.transfers_nodup now).sublist (List.filter_sublist.map _)
  have hsub : ((w.counted now).map fun s => (s.backend, s.source)) ⊆
      names ×ˢ w.rot.sources := by
    intro pair hpair
    obtain ⟨s, hs, rfl⟩ := List.mem_map.mp hpair
    rw [counted, List.mem_filter, decide_eq_true_eq] at hs
    obtain ⟨name, source, slot, hslot, rfl⟩ := Rotator.mem_transfers.mp hs.1
    refine List.mem_product.mpr ⟨hnames name source slot hslot, ?_⟩
    rcases hs.2 with hin | hidle
    · exact hin
    · rcases hstale name source slot hslot with hin | hpos
      · exact hin
      · exact absurd hidle (Nat.ne_of_gt hpos)
  have hle := (List.subperm_of_subset hnodup hsub).length_le
  rwa [List.length_map, List.length_product, Nat.mul_comm] at hle

/-- **The series stay within addresses times backends in every run of tidy
steps**, whatever else its sessions, drops and refreshes do. The steps this
leaves out are exactly those after which an entry of an unlisted address with
nothing in flight stays in the map. -/
theorem series_bounded_of_tidy (names : List Text) (sources : List Ipv4Addr) (acts : List RotAct)
    (hnames : ∀ act ∈ acts, act.StartsIn names) :
    (Always NoStale (init sources) acts ↔ StepsMeet TidyStep (init sources) acts) ∧
    (StepsMeet TidyStep (init sources) acts →
      Always (fun w => ∀ now, (w.counted now).length ≤ w.rot.sources.length * names.length)
        (init sources) acts) := by
  refine ⟨always_noStale_iff (noStale_init sources), fun htidy pre post w hacts hrun now => ?_⟩
  have hstale := (always_noStale_iff (noStale_init sources)).mpr htidy pre post w hacts hrun
  have hsteps : StepsMeet (fun _ act => act.StartsIn names) (init sources) acts :=
    fun pre act post _ _ hacts _ _ => hnames act (by rw [hacts]; simp)
  have hconf : Configured names w :=
    hsteps.always (configured_init names sources)
      (fun _ _ _ hw hok hstep => hw.step hok hstep) pre post w hacts hrun
  exact length_counted_le hstale hconf now

theorem stepsMeet_nil (ok : RotWorld → RotAct → Prop) (w : RotWorld) : StepsMeet ok w [] := by
  intro pre act post w₁ w₂ hacts
  cases pre <;> cases hacts

theorem stepsMeet_cons {ok : RotWorld → RotAct → Prop} {w w' : RotWorld} {act : RotAct}
    {rest : List RotAct} (hok : ok w act) (hstep : w.step act = some w')
    (hrest : StepsMeet ok w' rest) : StepsMeet ok w (act :: rest) := by
  intro pre act' post w₁ w₂ hacts hpre htaken
  cases pre with
  | nil =>
      obtain ⟨rfl, rfl⟩ := List.cons.inj hacts
      obtain rfl := Option.some.inj hpre
      exact hok
  | cons first pre =>
      rw [List.cons_append, List.cons.injEq] at hacts
      obtain ⟨rfl, rfl⟩ := hacts
      rw [run, hstep, Option.bind_some] at hpre
      exact hrest pre act' post w₁ w₂ rfl hpre htaken

/-- One transfer from a listed address, and a refresh that finds nothing. -/
def oneTransfer : List RotAct :=
  [.start ['b'] 1 ⟨10, 0, 0, 1⟩, .grant 0, .commit 0, .refreshOnce (some []), .drop 0]

theorem series_bounded_of_tidy_one_transfer :
    Always (fun w => ∀ now, (w.counted now).length ≤ w.rot.sources.length * 1)
      (init [⟨10, 0, 0, 1⟩]) oneTransfer := by
  refine (series_bounded_of_tidy [['b']] [⟨10, 0, 0, 1⟩] oneTransfer
    (by simp [oneTransfer, RotAct.StartsIn])).2 ?_
  refine stepsMeet_cons (.inl (List.mem_singleton.mpr rfl)) rfl (stepsMeet_cons trivial rfl
    (stepsMeet_cons trivial rfl (stepsMeet_cons trivial rfl (stepsMeet_cons ?_ rfl
      (stepsMeet_nil _ _)))))
  intro name source slot hcall _
  obtain ⟨-, rfl⟩ := Call.holding.inj (Option.some.inj hcall)
  exact .inl (List.mem_singleton.mpr rfl)

/-- One transfer from each of two addresses, the second listed in the place of
the first. -/
def movedHouse : List RotAct :=
  [.start ['b'] 1 ⟨10, 0, 0, 1⟩, .grant 0, .commit 0, .drop 0,
    .refreshOnce (some [⟨10, 0, 0, 2⟩]),
    .start ['b'] 1 ⟨10, 0, 0, 2⟩, .grant 1, .commit 1, .drop 1]

theorem two_le_length_counted {w : RotWorld} (now : Nat) (name : Text) (source source' : Ipv4Addr)
    {slot slot' : SlotState} (hne : source ≠ source')
    (hslot : w.rot.slot? name source = some slot) (hidle : slot.active = 0)
    (hslot' : w.rot.slot? name source' = some slot') (hidle' : slot'.active = 0) :
    2 ≤ (w.counted now).length := by
  have hmem : ∀ source slot, w.rot.slot? name source = some slot → slot.active = 0 →
      Rotator.stat name source slot ∈ w.counted now := by
    intro source slot hslot hidle
    rw [counted, List.mem_filter, decide_eq_true_eq]
    exact ⟨Rotator.mem_transfers.mpr ⟨name, source, slot, hslot, rfl⟩, .inr hidle⟩
  have hnodup : [Rotator.stat name source slot, Rotator.stat name source' slot'].Nodup := by
    simp [Rotator.stat, hne]
  have hsub : [Rotator.stat name source slot, Rotator.stat name source' slot'] ⊆ w.counted now := by
    simp [hmem source slot hslot hidle, hmem source' slot' hslot' hidle']
  exact (List.subperm_of_subset hnodup hsub).length_le

/-- With one address, one backend and no call under way there are two series. -/
theorem series_outlive_removed_source :
    (∀ act ∈ movedHouse, act.StartsIn [['b']]) ∧
    ∃ w : RotWorld, (init [⟨10, 0, 0, 1⟩]).run movedHouse = some w ∧
      w.calls = [.done, .done] ∧ w.rot.sources.length * 1 = 1 ∧ 2 ≤ (w.counted 0).length := by
  refine ⟨by simp [movedHouse, RotAct.StartsIn], _, rfl, rfl, rfl, ?_⟩
  exact two_le_length_counted 0 ['b'] ⟨10, 0, 0, 1⟩ ⟨10, 0, 0, 2⟩ (by decide) rfl rfl rfl rfl

end RotWorld

end FtpGateway
