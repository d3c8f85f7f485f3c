import FtpGateway.Config

/-!
# Accepting the client's data connection

`accept_client_data` of `server/session.rs`, poll by poll. `tokio::time::timeout`
polls the accept loop first and its timer second, so a poll takes every
connection that is ready, up to the first acceptable one, and ends the wait if
there was none and the deadline has passed. The deadline is fixed when the wait
starts.
-/

namespace FtpGateway

/-- A connection to a PASV port. Peers may reuse an address, so each has a
number of its own. -/
structure Arrival where
  id : Nat
  peer : SocketAddr
deriving Repr, DecidableEq

/-- One poll of the wait: the connections ready to be accepted, in order of
arrival, and the error `accept` gives after them, if any. -/
structure AcceptPoll where
  now : Nat
  ready : List Arrival
  failed : Option IoKind
deriving Repr, DecidableEq

inductive AcceptResult where
  | accepted (a : Arrival)
  | failed (k : IoKind)
  | elapsed
  | pending
deriving Repr, DecidableEq

structure AcceptOutcome where
  rejected : List Arrival
  result : AcceptResult
deriving Repr, DecidableEq

def fits (expectedIp : Option IpAddr) (a : Arrival) : Bool :=
  match expectedIp with
  | some expected => a.peer.ip = expected
  | none => true

/-- The accept loop over what is ready: the connections it rejects and the one
it returns. -/
def acceptReady (expectedIp : Option IpAddr) : List Arrival → List Arrival × Option Arrival
  | [] => ([], none)
  | a :: rest =>
      if fits expectedIp a then ([], some a)
      else
        let (rejected, found) := acceptReady expectedIp rest
        (a :: rejected, found)

def acceptClientData (expectedIp : Option IpAddr) (deadline : Nat) :
    List AcceptPoll → AcceptOutcome
  | [] => ⟨[], .pending⟩
  | p :: ps =>
      match acceptReady expectedIp p.ready with
      | (rejected, some a) => ⟨rejected, .accepted a⟩
      | (rejected, none) =>
          match p.failed with
          | some k => ⟨rejected, .failed k⟩
          | none =>
              if deadline ≤ p.now then ⟨rejected, .elapsed⟩
              else
                let rest := acceptClientData expectedIp deadline ps
                ⟨rejected ++ rest.rejected, rest.result⟩

/-! ## What the wait comes to -/

/-- Everything that arrived during a list of polls, in order. -/
def arrivals (polls : List AcceptPoll) : List Arrival := polls.flatMap (·.ready)

theorem acceptReady_some {expectedIp : Option IpAddr} {ready rejected : List Arrival}
    {a : Arrival} (h : acceptReady expectedIp ready = (rejected, some a)) :
    fits expectedIp a = true ∧ (∀ x ∈ rejected, fits expectedIp x = false)
      ∧ ∃ rest, ready = rejected ++ a :: rest := by
  induction ready generalizing rejected with
  | nil => simp [acceptReady] at h
  | cons b rest ih =>
      simp only [acceptReady] at h
      split at h
      · rename_i hb
        obtain ⟨rfl, hab⟩ := Prod.mk.inj h
        obtain rfl := Option.some.inj hab
        exact ⟨hb, by simp, rest, rfl⟩
      · rename_i hb
        obtain ⟨rfl, hfound⟩ := Prod.mk.inj h
        obtain ⟨ha, hrej, rest', hrest⟩ := ih (Prod.ext rfl hfound)
        refine ⟨ha, fun x hx => ?_, rest', by rw [List.cons_append, ← hrest]⟩
        rcases List.mem_cons.mp hx with rfl | hx
        · simpa using hb
        · exact hrej x hx

theorem acceptReady_none {expectedIp : Option IpAddr} {ready rejected : List Arrival}
    (h : acceptReady expectedIp ready = (rejected, none)) :
    rejected = ready ∧ ∀ x ∈ ready, fits expectedIp x = false := by
  induction ready generalizing rejected with
  | nil =>
      obtain ⟨rfl, -⟩ := Prod.mk.inj h
      exact ⟨rfl, by simp⟩
  | cons b rest ih =>
      simp only [acceptReady] at h
      split at h
      · simp at h
      · rename_i hb
        obtain ⟨rfl, hfound⟩ := Prod.mk.inj h
        obtain ⟨hrej, hall⟩ := ih (Prod.ext rfl hfound)
        refine ⟨congrArg (b :: ·) hrej, fun x hx => ?_⟩
        rcases List.mem_cons.mp hx with rfl | hx
        · simpa using hb
        · exact hall x hx

/-- **The connection used is the first acceptable one.** Everything that
arrived before it was rejected, and none of the polls before it had found the
deadline passed. -/
theorem acceptClientData_accepted {expectedIp : Option IpAddr} {deadline : Nat}
    {polls : List AcceptPoll} {a : Arrival}
    (h : (acceptClientData expectedIp deadline polls).result = .accepted a) :
    fits expectedIp a = true
      ∧ ∃ pre p post after, polls = pre ++ p :: post
        ∧ arrivals pre ++ p.ready =
            (acceptClientData expectedIp deadline polls).rejected ++ a :: after
        ∧ (∀ x ∈ (acceptClientData expectedIp deadline polls).rejected,
            fits expectedIp x = false)
        ∧ ∀ q ∈ pre, q.now < deadline := by
  induction polls with
  | nil => simp [acceptClientData] at h
  | cons p ps ih =>
      simp only [acceptClientData] at h ⊢
      split at h
      · rename_i rejected b hready
        obtain rfl := AcceptResult.accepted.inj h
        obtain ⟨hfit, hrej, rest, hrest⟩ := acceptReady_some hready
        exact ⟨hfit, [], p, ps, rest, rfl, by simpa [arrivals] using hrest, hrej, by simp⟩
      · rename_i rejected hready
        obtain ⟨rfl, hnone⟩ := acceptReady_none hready
        split at h
        · simp at h
        · split at h
          · simp at h
          · rename_i hfailed hlive
            obtain ⟨hfit, pre, q, post, after, hps, harr, hrej, hpre⟩ := ih h
            simp only [hlive, if_false]
            refine ⟨hfit, p :: pre, q, post, after, by rw [hps]; rfl, ?_, ?_, ?_⟩
            · simp only [arrivals, List.flatMap_cons, List.append_assoc] at harr ⊢
              rw [harr]
            · intro x hx
              rcases List.mem_append.mp hx with hx | hx
              · exact hnone x hx
              · exact hrej x hx
            · intro r hr
              rcases List.mem_cons.mp hr with rfl | hr
              · omega
              · exact hpre r hr

/-- **Rejected connections do not stretch the wait.** It is over at the first
poll at or after the deadline: nothing later is looked at. -/
theorem acceptClientData_deadline {expectedIp : Option IpAddr} {deadline : Nat}
    {pre post : List AcceptPoll} {p : AcceptPoll} (hp : deadline ≤ p.now) :
    acceptClientData expectedIp deadline (pre ++ p :: post) =
        acceptClientData expectedIp deadline (pre ++ [p])
      ∧ (acceptClientData expectedIp deadline (pre ++ [p])).result ≠ .pending := by
  induction pre with
  | nil =>
      refine ⟨by simp only [List.nil_append, acceptClientData, hp, if_true], ?_⟩
      simp only [List.nil_append, acceptClientData, hp, if_true]
      split
      · simp
      · split <;> simp
  | cons q pre ih =>
      simp only [List.cons_append, acceptClientData]
      split
      · exact ⟨rfl, by simp⟩
      · split
        · exact ⟨rfl, by simp⟩
        · split
          · exact ⟨rfl, by simp⟩
          · rw [ih.1]
            exact ⟨rfl, ih.2⟩

/-! ## Who comes to a wait -/

/-- The polls of a wait that nobody ends by being let in: the last one is the
first at which `accept` fails or the deadline has passed. -/
def waitedPolls (deadline : Nat) : List AcceptPoll → List AcceptPoll
  | [] => []
  | p :: ps =>
      if p.failed = none ∧ p.now < deadline then p :: waitedPolls deadline ps else [p]

/-- Everyone who connects before the wait is over, in order. -/
def comers (deadline : Nat) (polls : List AcceptPoll) : List Arrival :=
  arrivals (waitedPolls deadline polls)

theorem acceptReady_eq (expectedIp : Option IpAddr) (ready : List Arrival) :
    acceptReady expectedIp ready =
      (ready.takeWhile fun a => !fits expectedIp a, ready.find? (fits expectedIp)) := by
  induction ready with
  | nil => rfl
  | cons a rest ih =>
      cases hfit : fits expectedIp a <;> simp [acceptReady, hfit, ih]

theorem takeWhile_append_of_find? {α : Type} {p : α → Bool} (xs ys : List α) :
    (xs ++ ys).takeWhile (fun a => !p a) = match xs.find? p with
      | some _ => xs.takeWhile fun a => !p a
      | none => xs ++ ys.takeWhile fun a => !p a := by
  induction xs with
  | nil => rfl
  | cons x xs ih =>
      cases hx : p x with
      | true => simp [hx]
      | false =>
          simp only [List.cons_append, hx, Bool.not_false, List.takeWhile_cons_of_pos, ih,
            List.find?_cons_of_neg, Bool.false_eq_true, not_false_eq_true]
          cases xs.find? p <;> rfl

/-- **A wait takes the first who fits, and turns away everyone before**, or
everyone there is. -/
theorem acceptClientData_eq (expectedIp : Option IpAddr) (deadline : Nat)
    (polls : List AcceptPoll) :
    (acceptClientData expectedIp deadline polls).rejected =
        (comers deadline polls).takeWhile (fun a => !fits expectedIp a)
      ∧ ∀ a, (acceptClientData expectedIp deadline polls).result = .accepted a ↔
        (comers deadline polls).find? (fits expectedIp) = some a := by
  induction polls with
  | nil => simp [acceptClientData, comers, waitedPolls, arrivals]
  | cons p ps ih =>
      obtain ⟨ihrejected, ihresult⟩ := ih
      have hcomers : comers deadline (p :: ps) = p.ready ++
          if p.failed = none ∧ p.now < deadline then comers deadline ps else [] := by
        unfold comers
        rw [waitedPolls]
        split <;> simp [arrivals]
      rw [hcomers, takeWhile_append_of_find?, List.find?_append]
      simp only [acceptClientData, acceptReady_eq]
      cases hfound : p.ready.find? (fits expectedIp) with
      | some a => simp
      | none =>
          have hall : p.ready.takeWhile (fun a => !fits expectedIp a) = p.ready := by
            rw [List.takeWhile_eq_self_iff]
            simpa using List.find?_eq_none.mp hfound
          cases hfailed : p.failed with
          | some k => simp [hall]
          | none =>
              by_cases hdue : deadline ≤ p.now
              · have hover : ¬p.now < deadline := by omega
                simp [hall, hdue, hover]
              · have hlive : p.now < deadline := by omega
                simp [hall, hdue, hlive, ihrejected, ihresult]

end FtpGateway
