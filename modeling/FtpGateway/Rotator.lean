import Mathlib.Data.Char
import Mathlib.Data.Finset.Sort
import Mathlib.Data.List.Lex
import Mathlib.Data.List.Sort
import FtpGateway.Config
import FtpGateway.Counting

/-!
# The source rotator

`backend/rotator.rs`: which local address a new session connects from, how many
transfers one address may have open to one backend, and which addresses are
left out for a while. Every critical section is one function of the locked
state. The maps that `snapshot` walks are finite maps; `unhealthy` is only ever
looked up, so it is a function. Instants are milliseconds.

`usize` values are natural numbers here: the counts are bounded by the number
of transfers started. The two totals are `u64` and stick at their maximum.
-/

namespace FtpGateway

open Str Counting

/-! ## Addresses in order -/

namespace Ipv4Addr

def toNat (ip : Ipv4Addr) : Nat :=
  ((ip.a.toNat * 256 + ip.b.toNat) * 256 + ip.c.toNat) * 256 + ip.d.toNat

theorem toNat_injective : Function.Injective toNat := by
  rintro ⟨a, b, c, d⟩ ⟨a', b', c', d'⟩ h
  have := a.toNat_lt; have := b.toNat_lt; have := c.toNat_lt; have := d.toNat_lt
  have := a'.toNat_lt; have := b'.toNat_lt; have := c'.toNat_lt; have := d'.toNat_lt
  simp only [toNat] at h
  simp only [mk.injEq, ← UInt8.toNat_inj]
  omega

instance : LinearOrder Ipv4Addr := LinearOrder.lift' toNat toNat_injective

end Ipv4Addr

/-- `sort` and `dedup`. -/
def sortDedup (sources : List Ipv4Addr) : List Ipv4Addr :=
  (sources.insertionSort (· ≤ ·)).dedup

@[simp]
theorem mem_sortDedup {sources : List Ipv4Addr} {ip : Ipv4Addr} :
    ip ∈ sortDedup sources ↔ ip ∈ sources := by
  rw [sortDedup, List.mem_dedup, List.mem_insertionSort]

/-! ## The state -/

/-- Data-transfer accounting for one (backend, source address) pair. Entries
are never removed, so the semaphore a call has cloned is the one in the entry:
its free permits are kept here. -/
structure SlotState where
  availablePermits : Nat
  capacity : Nat
  startedTotal : UInt64
  slotTimeoutsTotal : UInt64
deriving Repr, DecidableEq

namespace SlotState

def new (capacity : Nat) : SlotState := ⟨capacity, capacity, 0, 0⟩

def takePermit (slot : SlotState) : SlotState :=
  { slot with availablePermits := slot.availablePermits - 1 }

def givePermit (slot : SlotState) : SlotState :=
  { slot with availablePermits := slot.availablePermits + 1 }

def started (slot : SlotState) : SlotState :=
  { slot with startedTotal := satAdd slot.startedTotal 1 }

def timedOut (slot : SlotState) : SlotState :=
  { slot with slotTimeoutsTotal := satAdd slot.slotTimeoutsTotal 1 }

end SlotState

structure BackendState where
  advances : Nat
  startedInCycle : Nat
  slots : Finmap fun _ : Ipv4Addr => SlotState

def BackendState.default : BackendState := ⟨0, 0, ∅⟩

structure Rotator where
  sources : List Ipv4Addr
  unhealthy : Ipv4Addr → Option Nat
  backends : Finmap fun _ : Text => BackendState

/-- `UNHEALTHY_FOR`. -/
def unhealthyFor : Nat := 60000

namespace Rotator

def new (sources : List Ipv4Addr) : Rotator := ⟨sortDedup sources, fun _ => none, ∅⟩

/-! ## Sources and their health -/

def setSources (r : Rotator) (sources : List Ipv4Addr) : Rotator × Bool :=
  let sources := sortDedup sources
  if r.sources = sources then (r, false)
  else
    ({ r with
        unhealthy := fun ip => if ip ∈ sources then r.unhealthy ip else none
        sources := sources }, true)

/-- One re-listing, `listing` being what `resolve_sources` came to. -/
def refreshOnce (r : Rotator) (listing : Option (List Ipv4Addr)) : Rotator :=
  match listing with
  | none => r
  | some [] => r
  | some (ip :: rest) => (r.setSources (ip :: rest)).1

def isUnhealthy (r : Rotator) (ip : Ipv4Addr) (now : Nat) : Bool :=
  (r.unhealthy ip).any fun until_ => now < until_

/-- The backend's current source and the rest in order. -/
def ordered (r : Rotator) (backend : Text) : List Ipv4Addr :=
  let start := ((r.backends.lookup backend).map (·.advances)).getD 0 % r.sources.length
  (List.range r.sources.length).filterMap fun i => r.sources[(start + i) % r.sources.length]?

def candidatesAt (r : Rotator) (backend : Text) (now : Nat) : List Ipv4Addr :=
  if r.sources.length = 0 then []
  else
    let healthy := (r.ordered backend).filter fun ip => !r.isUnhealthy ip now
    if healthy.isEmpty then r.ordered backend else healthy

def markUnhealthyAt (r : Rotator) (source : Ipv4Addr) (now : Nat) : Rotator :=
  { r with unhealthy := Function.update r.unhealthy source (some (now + unhealthyFor)) }

/-- The kinds of error that look like the source's fault. -/
def sourceFault : IoKind → Bool
  | .addrNotAvailable => true
  | .networkUnreachable => true
  | .hostUnreachable => true
  | .timedOut => true
  | .permissionDenied => true
  | _ => false

def reportConnectFailure (r : Rotator) (source : Ipv4Addr) (k : IoKind) (now : Nat) :
    Rotator × Bool :=
  if sourceFault k then (r.markUnhealthyAt source now, true) else (r, false)

/-! ## Data slots -/

def slot? (r : Rotator) (backend : Text) (source : Ipv4Addr) : Option SlotState :=
  (r.backends.lookup backend).bind fun b => b.slots.lookup source

/-- `backends.entry(backend).or_default()`, rewritten. -/
def modifyBackend (r : Rotator) (backend : Text) (f : BackendState → BackendState) : Rotator :=
  { r with backends := r.backends.insert backend (f ((r.backends.lookup backend).getD .default)) }

end Rotator

namespace BackendState

/-- `slots.get_mut(&source)`, rewritten. -/
def modifySlot (b : BackendState) (source : Ipv4Addr) (f : SlotState → SlotState) :
    BackendState :=
  match b.slots.lookup source with
  | some slot => { b with slots := b.slots.insert source (f slot) }
  | none => b

/-- `slots.entry(source).or_insert_with(..)`. -/
def openSlot (b : BackendState) (capacity : Nat) (source : Ipv4Addr) : BackendState :=
  match b.slots.lookup source with
  | some _ => b
  | none => { b with slots := b.slots.insert source (.new capacity) }

/-- One data connection more for the rotation. -/
def advanceCycle (b : BackendState) (capacity : Nat) : BackendState :=
  if b.startedInCycle + 1 ≥ capacity then
    { b with startedInCycle := 0, advances := b.advances + 1 }
  else { b with startedInCycle := b.startedInCycle + 1 }

end BackendState

namespace Rotator

/-- The first critical section of `acquire_data_slot`. -/
def openSlot (r : Rotator) (backend : Text) (capacity : Nat) (source : Ipv4Addr) : Rotator :=
  r.modifyBackend backend fun b => b.openSlot capacity source

/-- The one after a timeout. -/
def slotTimedOut (r : Rotator) (backend : Text) (source : Ipv4Addr) : Rotator :=
  match r.backends.lookup backend with
  | some b =>
      { r with backends := r.backends.insert backend (b.modifySlot source SlotState.timedOut) }
  | none => r

/-- The one after the permit was granted. -/
def commitSlot (r : Rotator) (backend : Text) (capacity : Nat) (source : Ipv4Addr) : Rotator :=
  r.modifyBackend backend fun b => (b.modifySlot source SlotState.started).advanceCycle capacity

/-- A permit of the pair's semaphore goes out, or comes back. -/
def takePermit (r : Rotator) (backend : Text) (source : Ipv4Addr) : Rotator :=
  r.modifyBackend backend fun b => b.modifySlot source SlotState.takePermit

def givePermit (r : Rotator) (backend : Text) (source : Ipv4Addr) : Rotator :=
  r.modifyBackend backend fun b => b.modifySlot source SlotState.givePermit

end Rotator

/-! ## What an operation does to the books

Read through `backend`, an entry that is not there yet is the default one, so
every critical section rewrites the books of one backend and nothing else. -/

namespace Rotator

def backend (r : Rotator) (name : Text) : BackendState :=
  (r.backends.lookup name).getD .default

theorem slot?_eq (r : Rotator) (name : Text) (source : Ipv4Addr) :
    r.slot? name source = (r.backend name).slots.lookup source := by
  rw [slot?, backend]
  cases r.backends.lookup name with
  | none => rfl
  | some b => rfl

/-- Only the books of the backend `name` are rewritten, by `f`. -/
structure Rewrites (r r' : Rotator) (name : Text) (f : BackendState → BackendState) : Prop where
  sources : r'.sources = r.sources
  unhealthy : r'.unhealthy = r.unhealthy
  backend : r'.backend = Function.update r.backend name (f (r.backend name))

theorem modifyBackend_rewrites (r : Rotator) (name : Text) (f : BackendState → BackendState) :
    Rewrites r (r.modifyBackend name f) name f where
  sources := rfl
  unhealthy := rfl
  backend := by
    funext other
    by_cases h : other = name
    · rw [h, Function.update_self, Rotator.backend, modifyBackend, Finmap.lookup_insert]
      rfl
    · rw [Function.update_of_ne h, Rotator.backend, modifyBackend,
        Finmap.lookup_insert_of_ne _ h]
      rfl

end Rotator

namespace BackendState

theorem lookup_modifySlot (b : BackendState) (source other : Ipv4Addr)
    (f : SlotState → SlotState) :
    (b.modifySlot source f).slots.lookup other =
      if other = source then (b.slots.lookup source).map f else b.slots.lookup other := by
  cases hs : b.slots.lookup source with
  | none =>
      simp only [modifySlot, hs]
      split
      case isTrue h => rw [h, hs]; rfl
      case isFalse => rfl
  | some slot =>
      simp only [modifySlot, hs]
      split
      case isTrue h => rw [h, Finmap.lookup_insert]; rfl
      case isFalse h => rw [Finmap.lookup_insert_of_ne _ h]

@[simp]
theorem modifySlot_advances (b : BackendState) (source : Ipv4Addr) (f : SlotState → SlotState) :
    (b.modifySlot source f).advances = b.advances := by
  rw [modifySlot]; split <;> rfl

@[simp]
theorem modifySlot_startedInCycle (b : BackendState) (source : Ipv4Addr)
    (f : SlotState → SlotState) : (b.modifySlot source f).startedInCycle = b.startedInCycle := by
  rw [modifySlot]; split <;> rfl

theorem lookup_openSlot (b : BackendState) (capacity : Nat) (source other : Ipv4Addr) :
    (b.openSlot capacity source).slots.lookup other =
      if other = source then some ((b.slots.lookup source).getD (.new capacity))
      else b.slots.lookup other := by
  cases hs : b.slots.lookup source with
  | none =>
      simp only [openSlot, hs]
      split
      case isTrue h => rw [h, Finmap.lookup_insert]; rfl
      case isFalse h => rw [Finmap.lookup_insert_of_ne _ h]
  | some slot =>
      simp only [openSlot, hs]
      split
      case isTrue h => rw [h, hs]; rfl
      case isFalse => rfl

@[simp]
theorem openSlot_advances (b : BackendState) (capacity : Nat) (source : Ipv4Addr) :
    (b.openSlot capacity source).advances = b.advances := by
  rw [openSlot]; split <;> rfl

@[simp]
theorem openSlot_startedInCycle (b : BackendState) (capacity : Nat) (source : Ipv4Addr) :
    (b.openSlot capacity source).startedInCycle = b.startedInCycle := by
  rw [openSlot]; split <;> rfl

@[simp]
theorem advanceCycle_slots (b : BackendState) (capacity : Nat) :
    (b.advanceCycle capacity).slots = b.slots := by
  rw [advanceCycle]; split <;> rfl

/-! ### Transfers started, over all sources -/

def startedSum (b : BackendState) : Nat := sumOver (fun slot => slot.startedTotal.toNat) b.slots

/-- A write that leaves the pair's total alone. -/
theorem startedSum_modifySlot (b : BackendState) (source : Ipv4Addr) {f : SlotState → SlotState}
    (hf : ∀ slot, (f slot).startedTotal = slot.startedTotal) :
    (b.modifySlot source f).startedSum = b.startedSum := by
  cases hs : b.slots.lookup source with
  | none => simp only [modifySlot, hs]
  | some slot =>
      have := sumOver_insert (fun slot => slot.startedTotal.toNat) b.slots source (f slot)
      rw [hs, Option.elim_some, hf] at this
      simp only [modifySlot, hs, startedSum]
      omega

theorem startedSum_openSlot (b : BackendState) (capacity : Nat) (source : Ipv4Addr) :
    (b.openSlot capacity source).startedSum = b.startedSum := by
  cases hs : b.slots.lookup source with
  | some slot => simp only [openSlot, hs]
  | none =>
      have := sumOver_insert (fun slot => slot.startedTotal.toNat) b.slots source (.new capacity)
      rw [hs, Option.elim_none] at this
      simpa [openSlot, hs, startedSum, SlotState.new] using this

/-- A transfer started, the pair's counter not stuck yet. -/
theorem startedSum_started {b : BackendState} {source : Ipv4Addr} {slot : SlotState}
    (hs : b.slots.lookup source = some slot)
    (hsat : slot.started.startedTotal.toNat < 2 ^ 64 - 1) :
    (b.modifySlot source SlotState.started).startedSum = b.startedSum + 1 := by
  have hone : slot.started.startedTotal.toNat = slot.startedTotal.toNat + 1 :=
    toNat_satAdd_one hsat
  have := sumOver_insert (fun slot => slot.startedTotal.toNat) b.slots source slot.started
  rw [hs, Option.elim_some] at this
  simp only [modifySlot, hs, startedSum]
  omega

end BackendState

namespace Rotator

theorem openSlot_rewrites (r : Rotator) (name : Text) (capacity : Nat) (source : Ipv4Addr) :
    Rewrites r (r.openSlot name capacity source) name fun b => b.openSlot capacity source :=
  modifyBackend_rewrites r name _

theorem takePermit_rewrites (r : Rotator) (name : Text) (source : Ipv4Addr) :
    Rewrites r (r.takePermit name source) name fun b =>
      b.modifySlot source SlotState.takePermit :=
  modifyBackend_rewrites r name _

theorem givePermit_rewrites (r : Rotator) (name : Text) (source : Ipv4Addr) :
    Rewrites r (r.givePermit name source) name fun b =>
      b.modifySlot source SlotState.givePermit :=
  modifyBackend_rewrites r name _

theorem commitSlot_rewrites (r : Rotator) (name : Text) (capacity : Nat) (source : Ipv4Addr) :
    Rewrites r (r.commitSlot name capacity source) name fun b =>
      (b.modifySlot source SlotState.started).advanceCycle capacity :=
  modifyBackend_rewrites r name _

theorem slotTimedOut_rewrites (r : Rotator) (name : Text) (source : Ipv4Addr) :
    Rewrites r (r.slotTimedOut name source) name fun b =>
      b.modifySlot source SlotState.timedOut := by
  cases hb : r.backends.lookup name with
  | none =>
      have hself : r.slotTimedOut name source = r := by rw [slotTimedOut, hb]
      have hdef : r.backend name = .default := by rw [backend, hb]; rfl
      rw [hself]
      refine ⟨rfl, rfl, ?_⟩
      rw [eq_comm, Function.update_eq_self_iff, hdef]
      rfl
  | some b =>
      have hmod : r.slotTimedOut name source =
          r.modifyBackend name fun b => b.modifySlot source SlotState.timedOut := by
        simp only [slotTimedOut, modifyBackend, hb, Option.getD_some]
      rw [hmod]
      exact modifyBackend_rewrites r name _

end Rotator

/-! ## Snapshots -/

structure SourceHealth where
  source : Ipv4Addr
  unhealthy : Bool
deriving Repr, DecidableEq

structure SourceTransferStat where
  backend : Text
  source : Ipv4Addr
  capacity : Nat
  active : Nat
  startedTotal : UInt64
  slotTimeoutsTotal : UInt64
deriving Repr, DecidableEq

structure RotatorSnapshot where
  sources : List SourceHealth
  transfers : List SourceTransferStat
deriving Repr, DecidableEq

namespace RotatorSnapshot

/-- What a snapshot lists for a pair. -/
def entriesOf (snapshot : RotatorSnapshot) (backend : Text) (source : Ipv4Addr) :
    List SourceTransferStat :=
  snapshot.transfers.filter fun s => s.backend = backend ∧ s.source = source

/-- What a snapshot reports as active for a pair, listed or not. -/
def activeOf (snapshot : RotatorSnapshot) (backend : Text) (source : Ipv4Addr) : Nat :=
  ((snapshot.entriesOf backend source).map (·.active)).sum

end RotatorSnapshot

namespace Rotator

def stat (backend : Text) (source : Ipv4Addr) (slot : SlotState) : SourceTransferStat :=
  ⟨backend, source, slot.capacity, slot.capacity - slot.availablePermits, slot.startedTotal,
    slot.slotTimeoutsTotal⟩

def snapshotAt (r : Rotator) (now : Nat) : RotatorSnapshot where
  sources := r.sources.map fun source => ⟨source, r.isUnhealthy source now⟩
  transfers := (r.backends.keys.sort (· ≤ ·)).flatMap fun backend =>
    (((r.backends.lookup backend).getD .default).slots.keys.sort (· ≤ ·)).filterMap fun source =>
      (r.slot? backend source).map (stat backend source)

theorem mem_transfers {r : Rotator} {now : Nat} {s : SourceTransferStat} :
    s ∈ (r.snapshotAt now).transfers ↔
      ∃ backend source slot, r.slot? backend source = some slot ∧ s = stat backend source slot := by
  simp only [snapshotAt, List.mem_flatMap, List.mem_filterMap, Finset.mem_sort, Finmap.mem_keys,
    Option.map_eq_some_iff]
  constructor
  · rintro ⟨backend, -, source, -, slot, hslot, rfl⟩
    exact ⟨backend, source, slot, hslot, rfl⟩
  · rintro ⟨backend, source, slot, hslot, rfl⟩
    have hbind := hslot
    rw [slot?, Option.bind_eq_some_iff] at hbind
    obtain ⟨b, hb, hs⟩ := hbind
    refine ⟨backend, Finmap.mem_iff.mpr ⟨b, hb⟩, source, ?_, slot, hslot, rfl⟩
    rw [hb]
    exact Finmap.mem_iff.mpr ⟨slot, hs⟩

/-- The snapshot has one entry for a pair. -/
theorem transfers_nodup (r : Rotator) (now : Nat) :
    ((r.snapshotAt now).transfers.map fun s => (s.backend, s.source)).Nodup := by
  rw [List.Nodup, List.pairwise_map]
  refine List.pairwise_flatMap.mpr ⟨fun name _ => ?_, ?_⟩
  · rw [List.pairwise_filterMap]
    refine (Finset.sort_nodup _ _).imp fun hne => ?_
    rintro s hs s' hs' heq
    obtain ⟨slot, -, rfl⟩ := Option.map_eq_some_iff.mp hs
    obtain ⟨slot', -, rfl⟩ := Option.map_eq_some_iff.mp hs'
    exact hne (Prod.mk.inj heq).2
  · refine (Finset.sort_nodup _ _).imp fun hne => ?_
    rintro s hs s' hs' heq
    rw [List.mem_filterMap] at hs hs'
    obtain ⟨source, -, hs⟩ := hs
    obtain ⟨source', -, hs'⟩ := hs'
    obtain ⟨slot, -, rfl⟩ := Option.map_eq_some_iff.mp hs
    obtain ⟨slot', -, rfl⟩ := Option.map_eq_some_iff.mp hs'
    exact hne (Prod.mk.inj heq).1

/-- A pair is listed, once, if and only if it has been entered. -/
theorem entriesOf_snapshotAt (r : Rotator) (now : Nat) (backend : Text) (source : Ipv4Addr) :
    (r.snapshotAt now).entriesOf backend source =
      ((r.slot? backend source).map (stat backend source)).toList := by
  unfold RotatorSnapshot.entriesOf
  cases hslot : r.slot? backend source with
  | none =>
      rw [Option.map_none, Option.toList_none, List.filter_eq_nil_iff]
      intro s hs heq
      obtain ⟨backend', source', slot, hslot', rfl⟩ := mem_transfers.mp hs
      obtain ⟨rfl, rfl⟩ : backend' = backend ∧ source' = source := of_decide_eq_true heq
      rw [hslot] at hslot'
      cases hslot'
  | some slot =>
      have hmem : stat backend source slot ∈ (r.snapshotAt now).transfers :=
        mem_transfers.mpr ⟨backend, source, slot, hslot, rfl⟩
      have honly : ∀ s ∈ (r.snapshotAt now).transfers,
          (s.backend = backend ∧ s.source = source) ↔ s = stat backend source slot := by
        intro s hs
        constructor
        · rintro ⟨rfl, rfl⟩
          exact List.inj_on_of_nodup_map (r.transfers_nodup now) hs hmem rfl
        · rintro rfl
          exact ⟨rfl, rfl⟩
      rw [List.filter_congr fun s hs => decide_eq_decide.mpr (honly s hs),
        List.filter_eq, List.count_eq_one_of_mem ((r.transfers_nodup now).of_map _) hmem]
      rfl

end Rotator

end FtpGateway
