import Mathlib.Data.List.DropRight
import FtpGateway.Session.Guards
import FtpGateway.Session.Outcome

/-!
# When a PASV port is free again

A `STOR` takes the session's port guard, accepts the client's data connection on
it and logs `PASV port released`. The guard is a local of the block that handles
the command, so the port goes back to the pool at the end of that block, after
the transfer: whenever the line is logged the port is still held, and it is held
while bytes are relayed (`port_free_after_report_iff`).
-/

namespace FtpGateway

open Str Interact

/-! ## Reports -/

/-- What has happened since the client's latest line. -/
def sinceLine (h : History Io) : History Io := h.rtakeWhile fun e => !Event.isClientLine e

/-- The port a `STOR` reports as released: one it has waited for the client on. -/
def storReport (h : History Io) : Event → Option UInt16
  | ⟨.log (.portReleased port), _⟩ =>
      if (sinceLine h).any (fun e => e.req = .awaitClientData port) then some port else none
  | _ => none

/-- A `PASV` or `EPSV` that succeeds. -/
def Event.isAllocated : Event → Bool
  | ⟨.allocate, some _⟩ => true
  | _ => false

def Event.isRelease : Event → Bool
  | ⟨.release _, _⟩ => true
  | _ => false

/-- From the report of a `STOR` on, until the next `PASV` that succeeds, the
session does not hold the port. -/
def FreeAfterReport (H : History Io) : Prop :=
  ∀ h e t port, H = h ++ e :: t → storReport h e = some port →
    ∀ d rest, t = d ++ rest → d.any Event.isAllocated = false →
      heldPort (h ++ e :: d) ≠ some port

section Reports

variable {h d rest : History Io} {e : Event} {port : UInt16}

theorem eq_log_of_storReport (hreport : storReport h e = some port) :
    ∃ u, e = ⟨.log (.portReleased port), u⟩ := by
  obtain ⟨r, a⟩ := e
  cases r with
  | log l =>
      cases l with
      | portReleased p =>
          simp only [storReport] at hreport
          split at hreport
          · obtain rfl := Option.some.inj hreport
            exact ⟨a, rfl⟩
          · cases hreport
      | _ => cases hreport
  | _ => cases hreport

/-- Whatever the report says, the port is held. -/
theorem held_of_storReport (hstep : GuardStep h e) (hreport : storReport h e = some port) :
    heldPort (h ++ [e]) = some port := by
  obtain ⟨u, rfl⟩ := eq_log_of_storReport hreport
  rw [heldPort_append_single, ← port_guardsAt]
  exact hstep.2

/-- A port is held until it is released. -/
theorem held_until_release (hall : Always GuardStep (h ++ d)) (hheld : heldPort h = some port)
    (hno : d.any Event.isRelease = false) : heldPort (h ++ d) = some port := by
  induction d using List.reverseRecOn with
  | nil => simpa using hheld
  | append_singleton d e ih =>
      rw [← List.append_assoc] at hall ⊢
      rw [List.any_append, Bool.or_eq_false_iff] at hno
      obtain ⟨hall, hstep⟩ := always_append_single.mp hall
      have hwas := ih hall hno.1
      rw [heldPort_append_single]
      obtain ⟨r, a⟩ := e
      cases r with
      | allocate =>
          have hnone : (guardsAt (h ++ d)).port = none := hstep.2
          rw [port_guardsAt, hwas] at hnone
          cases hnone
      | release p => exact absurd hno.2 (by simp [Event.isRelease])
      | _ => exact hwas

end Reports

/-- **A port that is reported as released is not free.** The session that
reports it for a `STOR` still holds it, until it is released at the end of the
command, and through every relay. So the port is free from the report on exactly
in the runs without one. -/
theorem port_free_after_report_iff (w : World) (cfg : SessionConfig) (n : Nat) :
    (FreeAfterReport (history w cfg n) ↔
      ∀ h e t, history w cfg n = h ++ e :: t → storReport h e = none) ∧
    (∀ h e t port, history w cfg n = h ++ e :: t → storReport h e = some port →
      ∀ d rest, t = d ++ rest → d.any Event.isRelease = false →
        heldPort (h ++ e :: d) = some port) ∧
    ∀ h client tls run t, history w cfg n = h ++ ⟨.relay client tls, run⟩ :: t →
      heldPort h ≠ none := by
  obtain ⟨hall, -⟩ := session_guards w cfg n
  have hheld : ∀ h e t port, history w cfg n = h ++ e :: t → storReport h e = some port →
      ∀ d rest, t = d ++ rest → d.any Event.isRelease = false →
        heldPort (h ++ e :: d) = some port := by
    rintro h e _ port heq hreport d rest rfl hno
    rw [List.append_cons]
    refine held_until_release ?_ (held_of_storReport (hall h e _ heq) hreport) hno
    rw [heq, List.append_cons, ← List.append_assoc] at hall
    exact hall.of_append
  refine ⟨⟨fun hfree h e t heq => ?_, fun hnone h e t port heq hreport => ?_⟩, hheld, ?_⟩
  · by_contra hreport
    obtain ⟨port, hreport⟩ := Option.ne_none_iff_exists'.mp hreport
    exact hfree h e t port heq hreport [] t rfl rfl (hheld h e t port heq hreport [] t rfl rfl)
  · rw [hnone h e t heq] at hreport
    cases hreport
  · intro h client tls run t heq
    have hstep := hall h _ t heq
    rw [← port_guardsAt]
    exact hstep.2.2.2

/-- One upload of two bytes. -/
def wholeUpload : Script where
  client := [Script.chunk "PASV\r\nSTOR a\r\n".toList]
  backend := ["220 hi\r\n", "227 ok (10,0,0,2,8,8)\r\n", "150 go\r\n", "226 done\r\n"].map
    fun reply => Script.chunk reply.toList
  data := sampleArrival
  relay := ⟨0, [⟨1, .up, [.read [1, 2], .wrote 2, .read [], .shut], [.read [], .shut]⟩]⟩

def wholeUploadHistory : History Io := history wholeUpload.world (sampleSession false) 2

/-- Where in `wholeUploadHistory` the report is. -/
def reportAt : Nat := wholeUploadHistory.findIdx fun e => e.req = .log (.portReleased 50000)

/-- **The port of an upload is reported as released and held all along.** -/
theorem reported_port_still_held : ¬FreeAfterReport wholeUploadHistory := by
  intro hfree
  have hsplit : wholeUploadHistory = wholeUploadHistory.take reportAt
      ++ wholeUploadHistory.get ⟨reportAt, by decide +kernel⟩
        :: wholeUploadHistory.drop (reportAt + 1) := by
    simp
  exact hfree _ _ _ 50000 hsplit (by decide +kernel) [] _ rfl rfl (by decide +kernel)

end FtpGateway
