import Mathlib.Data.List.Rotate
import FtpGateway.Glob
import FtpGateway.RotatorRuns

/-!
# Where the source addresses come from

`backend/source.rs` and the two functions of the rotator that call it: the
host's interface addresses are filtered by name and kind, sorted and freed of
duplicates; `start` refuses an empty selection, and a refresh that finds
nothing keeps the list it has.

So the list a run works with is never empty and always in ascending order
(`Rotator.Listed`), and one list stands for one set of addresses: comparing
the lists, as `set_sources` does, compares the sets. What `candidates` hands
out is a part of that list turned to the backend's rotation index.
-/

namespace FtpGateway

open Str

/-! ## Selecting -/

structure InterfaceAddr where
  interface : Text
  ip : Ipv4Addr
deriving Repr, DecidableEq

namespace Ipv4Addr

def isLoopback (ip : Ipv4Addr) : Bool := ip.a = 127

def isLinkLocal (ip : Ipv4Addr) : Bool := ip.a = 169 && ip.b = 254

end Ipv4Addr

/-- `BUILT_IN_VIRTUAL_INTERFACES`. -/
def builtInVirtualInterfaces : List Text :=
  ["lo".toList, "docker*".toList, "br-*".toList, "veth*".toList, "virbr*".toList, "cni*".toList,
    "flannel*".toList, "cali*".toList, "tun*".toList, "tap*".toList, "tailscale*".toList,
    "wg*".toList]

/-- The interface itself, or the one its name is an alias of. -/
def matchesName (pattern name : Text) : Bool :=
  globMatch pattern name ||
    (splitOnce ':' name).any fun (interface, _) => globMatch pattern interface

def matchesAny (patterns : List Text) (name : Text) : Bool :=
  patterns.any fun pattern => matchesName (trim pattern) name

/-- The three filters of `select_sources`. -/
def selects (config : BackendSourceConfig) (addr : InterfaceAddr) : Bool :=
  !addr.ip.isUnspecified &&
    (if !config.includeInterfaces.isEmpty then matchesAny config.includeInterfaces addr.interface
      else
        !addr.ip.isLoopback && !addr.ip.isLinkLocal &&
          !builtInVirtualInterfaces.any fun pattern => matchesName pattern addr.interface) &&
    !matchesAny config.excludeInterfaces addr.interface

def selectSources (addrs : List InterfaceAddr) (config : BackendSourceConfig) : List Ipv4Addr :=
  sortDedup ((addrs.filter (selects config)).map InterfaceAddr.ip)

/-- `listing` is what the `InterfaceLister` came to. -/
def resolveSources (listing : Except IoKind (List InterfaceAddr)) (config : BackendSourceConfig) :
    Except IoKind (List Ipv4Addr) :=
  listing.map fun addrs => selectSources addrs config

inductive StartError where
  | listing (k : IoKind)
  -- `no usable source addresses (include_interfaces: .., exclude_interfaces: ..)`
  | noUsableSources (includeInterfaces excludeInterfaces : List Text)
deriving Repr, DecidableEq

namespace Rotator

def start (listing : Except IoKind (List InterfaceAddr)) (config : BackendSourceConfig) :
    Except StartError Rotator :=
  match resolveSources listing config with
  | .error k => .error (.listing k)
  | .ok [] => .error (.noUsableSources config.includeInterfaces config.excludeInterfaces)
  | .ok (ip :: rest) => .ok (new (ip :: rest))

/-- `refresh_once` with its listing. -/
def refreshFrom (r : Rotator) (listing : Except IoKind (List InterfaceAddr))
    (config : BackendSourceConfig) : Rotator :=
  r.refreshOnce (resolveSources listing config).toOption

end Rotator

/-! ## One list for one set -/

theorem sortDedup_pairwise (sources : List Ipv4Addr) :
    (sortDedup sources).Pairwise (· < ·) := by
  have hle : (sortDedup sources).Pairwise (· ≤ ·) :=
    (List.pairwise_insertionSort (· ≤ ·) sources).sublist (List.dedup_sublist _)
  have hne : (sortDedup sources).Pairwise (· ≠ ·) := List.nodup_dedup _
  exact (hle.and hne).imp fun h => lt_of_le_of_ne h.1 h.2

theorem sortDedup_eq_of_mem_iff {l₁ l₂ : List Ipv4Addr} (h : ∀ ip, ip ∈ l₁ ↔ ip ∈ l₂) :
    sortDedup l₁ = sortDedup l₂ := by
  refine (sortDedup_pairwise l₁).eq_of_mem_iff (sortDedup_pairwise l₂) fun ip => ?_
  rw [mem_sortDedup, mem_sortDedup, h]

theorem sortDedup_eq_self {l : List Ipv4Addr} (h : l.Pairwise (· < ·)) : sortDedup l = l :=
  (sortDedup_pairwise l).eq_of_mem_iff h fun _ => mem_sortDedup

theorem eq_sortDedup_iff {l sources : List Ipv4Addr} (h : sources.Pairwise (· < ·)) :
    sources = sortDedup l ↔ {ip | ip ∈ l} = {ip | ip ∈ sources} := by
  rw [Set.ext_iff]
  constructor
  · rintro rfl ip
    exact mem_sortDedup.symm
  · intro hset
    rw [← sortDedup_eq_self h]
    exact sortDedup_eq_of_mem_iff fun ip => (hset ip).symm

theorem sortDedup_ne_nil {l : List Ipv4Addr} (h : l ≠ []) : sortDedup l ≠ [] := by
  obtain ⟨ip, hip⟩ := List.exists_mem_of_ne_nil l h
  exact List.ne_nil_of_mem (mem_sortDedup.mpr hip)

/-- The addresses a listing has for us: its order and duplicates do not matter. -/
def selectedSet (addrs : List InterfaceAddr) (config : BackendSourceConfig) : Set Ipv4Addr :=
  {ip | ∃ addr ∈ addrs, selects config addr = true ∧ addr.ip = ip}

theorem mem_selectSources {addrs : List InterfaceAddr} {config : BackendSourceConfig}
    {ip : Ipv4Addr} : ip ∈ selectSources addrs config ↔ ip ∈ selectedSet addrs config := by
  simp only [selectSources, mem_sortDedup, List.mem_map, List.mem_filter, and_assoc]
  exact Iff.rfl

theorem selectSources_set (addrs : List InterfaceAddr) (config : BackendSourceConfig) :
    {ip | ip ∈ selectSources addrs config} = selectedSet addrs config :=
  Set.ext fun _ => mem_selectSources

theorem selectSources_ne_nil {addrs : List InterfaceAddr} {config : BackendSourceConfig} :
    selectSources addrs config ≠ [] ↔ (selectedSet addrs config).Nonempty := by
  constructor
  · intro h
    obtain ⟨ip, hip⟩ := List.exists_mem_of_ne_nil _ h
    exact ⟨ip, mem_selectSources.mp hip⟩
  · rintro ⟨ip, hip⟩
    exact List.ne_nil_of_mem (mem_selectSources.mpr hip)

/-! ## The list over a run -/

/-- `set_sources` is called by `refresh_once` and by nothing else. -/
def RotAct.ofProcess : RotAct → Bool
  | .setSources _ => false
  | _ => true

namespace Rotator

variable {r : Rotator}

/-- A list to rotate through. -/
structure Listed (r : Rotator) : Prop where
  ne_nil : r.sources ≠ []
  ascending : r.sources.Pairwise (· < ·)

theorem setSources_sources (r : Rotator) (l : List Ipv4Addr) :
    (r.setSources l).1.sources = sortDedup l := by
  unfold setSources
  dsimp only
  split_ifs with h
  · exact h
  · rfl

theorem setSources_changed (h : r.Listed) (l : List Ipv4Addr) :
    (r.setSources l).2 = true ↔ {ip | ip ∈ l} ≠ {ip | ip ∈ r.sources} := by
  rw [ne_eq, ← eq_sortDedup_iff h.ascending, setSources]
  split_ifs with hsame
  · simp [hsame]
  · simp [hsame]

theorem Listed.of_sortDedup {l : List Ipv4Addr} (hl : l ≠ []) (h : r.sources = sortDedup l) :
    r.Listed where
  ne_nil := by rw [h]; exact sortDedup_ne_nil hl
  ascending := by rw [h]; exact sortDedup_pairwise l

theorem Listed.of_start {listing : Except IoKind (List InterfaceAddr)}
    {config : BackendSourceConfig} (h : start listing config = .ok r) : r.Listed := by
  unfold start at h
  split at h
  · cases h
  · cases h
  case h_3 ip rest _ =>
    obtain rfl := Except.ok.inj h
    exact .of_sortDedup (List.cons_ne_nil ip rest) rfl

/-- A selection that is not empty goes to `set_sources`. -/
theorem refreshFrom_ok {addrs : List InterfaceAddr} {config : BackendSourceConfig}
    (hne : (selectedSet addrs config).Nonempty) :
    r.refreshFrom (.ok addrs) config = (r.setSources (selectSources addrs config)).1 := by
  rw [← selectSources_ne_nil] at hne
  obtain ⟨ip, rest, hsel⟩ := List.exists_cons_of_ne_nil hne
  show r.refreshOnce (some (selectSources addrs config)) = _
  rw [hsel]
  rfl

/-- Nothing else changes anything. -/
theorem refreshFrom_keeps {listing : Except IoKind (List InterfaceAddr)}
    {config : BackendSourceConfig}
    (h : ∀ addrs, listing = .ok addrs → ¬ (selectedSet addrs config).Nonempty) :
    r.refreshFrom listing config = r := by
  cases listing with
  | error k => rfl
  | ok addrs =>
      have hnil := h addrs rfl
      rw [← selectSources_ne_nil, not_not] at hnil
      show r.refreshOnce (some (selectSources addrs config)) = r
      rw [hnil]
      rfl

theorem Listed.refreshFrom_sources_ne_iff (h : r.Listed)
    (listing : Except IoKind (List InterfaceAddr)) (config : BackendSourceConfig) :
    (r.refreshFrom listing config).sources ≠ r.sources ↔
      ∃ addrs, listing = .ok addrs ∧ (selectedSet addrs config).Nonempty ∧
        selectedSet addrs config ≠ {ip | ip ∈ r.sources} := by
  constructor
  · intro hchanged
    by_contra hnone
    apply hchanged
    by_cases hsel : ∃ addrs, listing = .ok addrs ∧ (selectedSet addrs config).Nonempty
    · obtain ⟨addrs, rfl, hne⟩ := hsel
      have hset : selectedSet addrs config = {ip | ip ∈ r.sources} := by
        by_contra hdiff
        exact hnone ⟨addrs, rfl, hne, hdiff⟩
      rw [refreshFrom_ok hne, setSources_sources]
      exact ((eq_sortDedup_iff h.ascending).mpr (by rw [selectSources_set, hset])).symm
    · rw [refreshFrom_keeps fun addrs hok hne => hsel ⟨addrs, hok, hne⟩]
  · rintro ⟨addrs, rfl, hne, hdiff⟩ hsame
    rw [refreshFrom_ok hne, setSources_sources] at hsame
    apply hdiff
    rw [← selectSources_set]
    exact (eq_sortDedup_iff h.ascending).mp hsame.symm

end Rotator

namespace RotWorld

variable {w w' : RotWorld} {act : RotAct}

/-- What a step can do to the list. -/
theorem step_sources (h : w.step act = some w') :
    w'.rot.sources = w.rot.sources ∨
    (∃ l, act = .setSources l ∧ w'.rot.sources = sortDedup l) ∨
    ∃ l, l ≠ [] ∧ act = .refreshOnce (some l) ∧ w'.rot.sources = sortDedup l := by
  cases step_turn h with
  | start name capacity source hrw => exact .inl hrw.sources
  | grant i name capacity source slot hi hslot hfree hrw => exact .inl hrw.sources
  | commit i name capacity source hi hrw => exact .inl hrw.sources
  | timeout i name capacity source hi hrw => exact .inl hrw.sources
  | cancel i name capacity source hi hrot => exact .inl (by rw [hrot])
  | drop i name source hi hrw => exact .inl hrw.sources
  | health act hact =>
      cases act with
      | setSources l =>
          obtain rfl := Option.some.inj h
          exact .inr (.inl ⟨l, rfl, Rotator.setSources_sources w.rot l⟩)
      | refreshOnce listing =>
          obtain rfl := Option.some.inj h
          match listing with
          | none => exact .inl rfl
          | some [] => exact .inl rfl
          | some (ip :: rest) =>
              exact .inr (.inr ⟨ip :: rest, List.cons_ne_nil ip rest, rfl,
                Rotator.setSources_sources w.rot (ip :: rest)⟩)
      | reportConnectFailure source k now =>
          obtain rfl := Option.some.inj h
          left
          simp only [Rotator.reportConnectFailure]
          split <;> rfl
      | markUnhealthy source now =>
          obtain rfl := Option.some.inj h
          exact .inl rfl
      | start => cases hact
      | grant => cases hact
      | commit => cases hact
      | timeout => cases hact
      | cancel => cases hact
      | drop => cases hact

theorem listed_step (hw : w.rot.Listed) (hact : act.ofProcess = true)
    (h : w.step act = some w') : w'.rot.Listed := by
  rcases step_sources h with hsame | ⟨l, rfl, -⟩ | ⟨l, hl, -, hnew⟩
  · exact ⟨hsame ▸ hw.ne_nil, hsame ▸ hw.ascending⟩
  · cases hact
  · exact .of_sortDedup hl hnew

theorem listed_run {acts : List RotAct} (hw : w.rot.Listed)
    (hacts : ∀ act ∈ acts, act.ofProcess = true) (h : w.run acts = some w') : w'.rot.Listed := by
  induction acts generalizing w with
  | nil =>
      obtain rfl := Option.some.inj h
      exact hw
  | cons act rest ih =>
      obtain ⟨w₁, hstep, hrest⟩ := Option.bind_eq_some_iff.mp h
      rw [List.forall_mem_cons] at hacts
      exact ih (listed_step hw hacts.1 hstep) hacts.2 hrest

end RotWorld

/-! ## Candidates -/

namespace Rotator

variable {r : Rotator} {name : Text} {now : Nat} {ip : Ipv4Addr}

theorem filterMap_getElem?_range (l : List Ipv4Addr) :
    ((List.range l.length).filterMap fun i => l[i]?) = l := by
  induction l with
  | nil => rfl
  | cons ip l ih =>
      rw [List.length_cons, List.range_succ_eq_map, List.filterMap_cons, List.filterMap_map]
      simp only [List.getElem?_cons_zero, Function.comp_def, List.getElem?_cons_succ, ih]

/-- The list turned to the rotation index. -/
theorem ordered_eq_rotate (r : Rotator) (name : Text) :
    r.ordered name = r.sources.rotate ((r.backend name).advances % r.sources.length) := by
  have hlen := List.length_rotate r.sources ((r.backend name).advances % r.sources.length)
  rw [ordered, RotWorld.getD_advances, ← filterMap_getElem?_range (r.sources.rotate _), hlen]
  refine List.filterMap_congr fun i hi => ?_
  rw [List.getElem?_rotate (List.mem_range.mp hi), Nat.add_comm]

/-- The healthy part of the list, or all of it. -/
theorem candidatesAt_cases (h : r.Listed) (name : Text) (now : Nat) :
    ((∃ ip ∈ r.sources, r.isUnhealthy ip now = false) ∧
      r.candidatesAt name now = (r.ordered name).filter fun ip => !r.isUnhealthy ip now) ∨
    ((∀ ip ∈ r.sources, r.isUnhealthy ip now = true) ∧
      r.candidatesAt name now = r.ordered name) := by
  have hlen : r.sources.length ≠ 0 := fun h0 => h.ne_nil (List.length_eq_zero_iff.mp h0)
  have hmem : ∀ ip, ip ∈ r.ordered name ↔ ip ∈ r.sources := by
    intro ip
    rw [ordered_eq_rotate, List.mem_rotate]
  unfold candidatesAt
  rw [if_neg hlen]
  dsimp only
  split_ifs with hempty
  · right
    refine ⟨fun ip hip => ?_, rfl⟩
    rw [List.isEmpty_iff, List.filter_eq_nil_iff] at hempty
    simpa using hempty ip ((hmem ip).mpr hip)
  · left
    refine ⟨?_, rfl⟩
    rw [List.isEmpty_iff] at hempty
    obtain ⟨ip, hip⟩ := List.exists_mem_of_ne_nil _ hempty
    rw [List.mem_filter] at hip
    exact ⟨ip, (hmem ip).mp hip.1, by simpa using hip.2⟩

/-- What a candidate list is for: there is something to try, nothing is tried
twice, a source out of favour only when all are, and the order is the list's,
from the rotation index on and round. -/
structure Usable (r : Rotator) (name : Text) (now : Nat) (candidates : List Ipv4Addr) : Prop where
  ne_nil : candidates ≠ []
  nodup : candidates.Nodup
  healthy_mem : ∀ ip ∈ r.sources, r.isUnhealthy ip now = false → ip ∈ candidates
  unhealthy_mem : ∀ ip ∈ candidates, r.isUnhealthy ip now = true →
    ∀ other ∈ r.sources, r.isUnhealthy other now = true
  cyclic : candidates.Sublist
    (r.sources.rotate ((r.backend name).advances % r.sources.length))

theorem usable_candidatesAt (h : r.Listed) (name : Text) (now : Nat) :
    r.Usable name now (r.candidatesAt name now) := by
  have hnodup : (r.ordered name).Nodup := by
    rw [ordered_eq_rotate, List.nodup_rotate]
    exact h.ascending.imp ne_of_lt
  have hmem : ∀ ip, ip ∈ r.ordered name ↔ ip ∈ r.sources := by
    intro ip
    rw [ordered_eq_rotate, List.mem_rotate]
  rcases candidatesAt_cases h name now with ⟨⟨ip, hip, hhealthy⟩, heq⟩ | ⟨hall, heq⟩
  · rw [heq]
    refine ⟨?_, hnodup.filter _, ?_, ?_, ?_⟩
    · exact List.ne_nil_of_mem (List.mem_filter.mpr ⟨(hmem ip).mpr hip, by rw [hhealthy]; rfl⟩)
    · intro other hother hok
      exact List.mem_filter.mpr ⟨(hmem other).mpr hother, by rw [hok]; rfl⟩
    · intro other hother hbad
      rw [List.mem_filter, hbad] at hother
      cases hother.2
    · rw [← ordered_eq_rotate]
      exact List.filter_sublist
  · rw [heq]
    refine ⟨?_, hnodup, fun other hother _ => (hmem other).mpr hother, fun _ _ _ => hall, ?_⟩
    · obtain ⟨ip, hip⟩ := List.exists_mem_of_ne_nil _ h.ne_nil
      exact List.ne_nil_of_mem ((hmem ip).mpr hip)
    · rw [← ordered_eq_rotate]

end Rotator

/-- **There is always something to try.** From a start that succeeded, whatever
the refreshes list, the sessions report and the transfers do: the list is not
empty and in ascending order; a refresh changes it exactly when its selection
is not empty and is another set, and then `set_sources` returns true and the
list is the selection; and every candidate list is usable. -/
theorem candidates_always_usable (listing : Except IoKind (List InterfaceAddr))
    (config : BackendSourceConfig) (r : Rotator) (acts : List RotAct) (w : RotWorld)
    (hstart : Rotator.start listing config = .ok r) (hacts : ∀ act ∈ acts, act.ofProcess = true)
    (hrun : RotWorld.run ⟨r, []⟩ acts = some w) :
    w.rot.sources ≠ [] ∧ w.rot.sources.Pairwise (· < ·) ∧
    (∀ listing', (w.rot.refreshFrom listing' config).sources ≠ w.rot.sources ↔
      ∃ addrs, listing' = .ok addrs ∧ (selectedSet addrs config).Nonempty ∧
        selectedSet addrs config ≠ {ip | ip ∈ w.rot.sources}) ∧
    (∀ addrs, (selectedSet addrs config).Nonempty →
      w.rot.refreshFrom (.ok addrs) config =
        (w.rot.setSources (selectSources addrs config)).1 ∧
      {ip | ip ∈ (w.rot.refreshFrom (.ok addrs) config).sources} = selectedSet addrs config ∧
      ((w.rot.setSources (selectSources addrs config)).2 = true ↔
        selectedSet addrs config ≠ {ip | ip ∈ w.rot.sources})) ∧
    ∀ name now, w.rot.Usable name now (w.rot.candidatesAt name now) := by
  have hlisted : w.rot.Listed := RotWorld.listed_run (Rotator.Listed.of_start hstart) hacts hrun
  refine ⟨hlisted.ne_nil, hlisted.ascending,
    fun listing' => hlisted.refreshFrom_sources_ne_iff listing' config,
    fun addrs hne => ⟨Rotator.refreshFrom_ok hne, ?_, ?_⟩, Rotator.usable_candidatesAt hlisted⟩
  · rw [Rotator.refreshFrom_ok hne, Rotator.setSources_sources, ← selectSources_set]
    exact Set.ext fun ip => mem_sortDedup
  · rw [Rotator.setSources_changed hlisted, selectSources_set]

/-- Two network cards, and a third address later. -/
def twoCards : List InterfaceAddr :=
  [⟨"ens6".toList, ⟨10, 0, 2, 20⟩⟩, ⟨"ens5".toList, ⟨10, 0, 1, 10⟩⟩,
    ⟨"lo".toList, ⟨127, 0, 0, 1⟩⟩, ⟨"ens5".toList, ⟨10, 0, 1, 10⟩⟩]

def rotateConfig : BackendSourceConfig := ⟨.rotate, [], [], 30⟩

theorem candidates_always_usable_two_cards :
    ∃ r w, Rotator.start (.ok twoCards) rotateConfig = .ok r ∧
      RotWorld.run ⟨r, []⟩ [.refreshOnce none,
        .reportConnectFailure ⟨10, 0, 1, 10⟩ .timedOut 5, .start ['b'] 1 ⟨10, 0, 2, 20⟩] = some w ∧
      w.rot.candidatesAt ['b'] 6 = [⟨10, 0, 2, 20⟩] ∧
      ∀ name now, w.rot.Usable name now (w.rot.candidatesAt name now) :=
  ⟨_, _, rfl, rfl, by decide +kernel, (candidates_always_usable (.ok twoCards) rotateConfig _
    [.refreshOnce none, .reportConnectFailure ⟨10, 0, 1, 10⟩ .timedOut 5,
      .start ['b'] 1 ⟨10, 0, 2, 20⟩] _ rfl (by decide) rfl).2.2.2.2⟩

/-- A listing with nothing usable selects another set, the empty one, and the
list stays. -/
theorem empty_selection_keeps_sources :
    ∃ r, Rotator.start (.ok twoCards) rotateConfig = .ok r ∧
      selectedSet [] rotateConfig ≠ {ip | ip ∈ r.sources} ∧
      (r.refreshFrom (.ok []) rotateConfig).sources = r.sources := by
  refine ⟨_, rfl, fun hset => ?_, rfl⟩
  have hmem : (⟨10, 0, 1, 10⟩ : Ipv4Addr) ∈ selectedSet [] rotateConfig := by
    rw [hset]
    show (⟨10, 0, 1, 10⟩ : Ipv4Addr) ∈ _
    decide +kernel
  obtain ⟨addr, haddr, -⟩ := hmem
  cases haddr

end FtpGateway
