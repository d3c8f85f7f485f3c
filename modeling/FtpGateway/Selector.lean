import FtpGateway.Config
import FtpGateway.Cursor

/-!
# Which backend a session gets

`backend/selector.rs`: the backends take turns. The selector counts its calls in
an `AtomicUsize`, which wraps, and takes the count modulo the number of
backends. A selector without a backend cannot be made.
-/

namespace FtpGateway

structure BackendSelector where
  backends : List BackendConfig
  -- `next`
  nextIndex : UInt64
  nonempty : backends ≠ []

namespace BackendSelector

/-- `none` is the failed assertion. -/
def new (backends : List BackendConfig) : Option BackendSelector :=
  if h : backends ≠ [] then some ⟨backends, 0, h⟩ else none

def index (s : BackendSelector) : Nat := s.nextIndex.toNat % s.backends.length

theorem index_lt (s : BackendSelector) : s.index < s.backends.length :=
  Nat.mod_lt _ (List.length_pos_iff.mpr s.nonempty)

def next (s : BackendSelector) : BackendConfig × BackendSelector :=
  (s.backends.get ⟨s.index, s.index_lt⟩, { s with nextIndex := s.nextIndex + 1 })

@[simp]
theorem next_backends (s : BackendSelector) : s.next.2.backends = s.backends := rfl

@[simp]
theorem next_nextIndex (s : BackendSelector) : s.next.2.nextIndex = s.nextIndex + 1 := rfl

theorem new_isSome {isFile : Str.Text → Bool} {c : Config} (h : c.validate isFile = .ok ()) :
    (new c.backends).isSome = true := by
  rw [new]
  split
  · rfl
  · rename_i hempty
    rw [not_ne_iff] at hempty
    rw [Config.validate, hempty] at h
    cases h

/-- The turn of call `k`, counted from 0, of a fresh selector. -/
theorem next_fst {s : BackendSelector} {k : Nat} (hs : s.nextIndex = UInt64.ofNat k) :
    s.backends[Cursor.slot (2 ^ 64) s.backends.length 0 k]? = some s.next.1 := by
  have hslot : Cursor.slot (2 ^ 64) s.backends.length 0 k = s.index := by
    rw [Cursor.slot, Nat.zero_add, index, hs, UInt64.toNat_ofNat']
  rw [hslot]
  exact List.getElem?_eq_getElem s.index_lt

end BackendSelector

end FtpGateway
