import FtpGateway.Config

/-!
# The data relay

`relay_bidirectional` and `copy_with_idle_timeout` of `pasv/relay.rs`, at the
level of polls. The executor polls the joined future again and again; a `Poll`
says at what instant, which of the two copy loops went first, and which I/O
operations of each loop completed during it, in order. Whatever a loop is then
waiting for is pending, and a loop that waits in its `select!` looks at its own
timer. A list of polls that no execution could produce (an operation completes
that the loop was not waiting for, the clock goes back, a poll after the relay
returned) has no outcome: `relayBidirectional` is `none` on it.

The rest of the file relates the loops to the raw list of completed
operations. `Copy.Tracks` is the invariant of one loop, `Copy.poll_spec` what
one poll of it can do.
-/

namespace FtpGateway

open Str

/-! ## One direction -/

inductive RelayError where
  -- `TimedOut`, "data connection idle timeout"
  | idleTimeout
  | io (k : IoKind)
deriving Repr, DecidableEq

/-- An operation of a copy loop that completed. `read []` is end of file. -/
inductive IoDone where
  | read (data : Bytes)
  | readErr (k : IoKind)
  | wrote (n : Nat)
  | writeErr (k : IoKind)
  | shut
  | shutErr (k : IoKind)
deriving Repr, DecidableEq

/-- `reading` is the `select!`, for bytes or the timer; `writing` is `write_all`, with
`rest` of a chunk of `chunk` bytes to go. -/
inductive CopyPc where
  | reading
  | writing (rest : Bytes) (chunk : Nat)
  | shutting
  | done
  | failed (e : RelayError)
deriving Repr, DecidableEq

/-- A copy loop, with everything it has read and everything its writer has
accepted. -/
structure Copy where
  pc : CopyPc
  deadline : Nat
  total : Nat
  input : Bytes
  output : Bytes
deriving Repr, DecidableEq

def relayBufferBytes : Nat := 65536

namespace Copy

def start (idleTimeout now : Nat) : Copy := ⟨.reading, now + idleTimeout, 0, [], []⟩

/-- One completed operation, and what the loop does up to its next await. -/
def complete (idleTimeout now : Nat) (c : Copy) : IoDone → Option Copy
  | .read data =>
      match c.pc with
      | .reading =>
          if data = [] then some { c with pc := .shutting }
          else if data.length ≤ relayBufferBytes then
            some { c with pc := .writing data data.length, input := c.input ++ data }
          else none
      | _ => none
  | .readErr k =>
      match c.pc with
      | .reading =>
          -- a TLS peer that just drops the connection counts as end of file
          some { c with pc := if k = .unexpectedEof then .shutting else .failed (.io k) }
      | _ => none
  | .wrote n =>
      match c.pc with
      | .writing rest chunk =>
          if n = rest.length then
            some { c with
              pc := .reading
              total := c.total + chunk
              deadline := now + idleTimeout
              output := c.output ++ rest }
          else if 0 < n ∧ n < rest.length then
            some { c with pc := .writing (rest.drop n) chunk, output := c.output ++ rest.take n }
          else none
      | _ => none
  | .writeErr k =>
      match c.pc with
      | .writing _ _ => some { c with pc := .failed (.io k) }
      | _ => none
  | .shut =>
      match c.pc with
      | .shutting => some { c with pc := .done }
      | _ => none
  | .shutErr k =>
      match c.pc with
      | .shutting => some { c with pc := .failed (.io k) }
      | _ => none

/-- With the read pending, `select!` polls the timer. -/
def checkTimer (now : Nat) (c : Copy) : Copy :=
  if c.pc = .reading ∧ c.deadline ≤ now then { c with pc := .failed .idleTimeout } else c

def poll (idleTimeout now : Nat) (c : Copy) (done : List IoDone) : Option Copy :=
  (done.foldlM (complete idleTimeout now) c).map (checkTimer now)

end Copy

/-! ## Both directions -/

/-- `up` is client to backend. -/
inductive Dir where
  | up
  | down
deriving Repr, DecidableEq

def Dir.other : Dir → Dir
  | .up => .down
  | .down => .up

structure Poll where
  now : Nat
  first : Dir
  up : List IoDone
  down : List IoDone
deriving Repr, DecidableEq

def Poll.of (p : Poll) : Dir → List IoDone
  | .up => p.up
  | .down => p.down

structure RelayState where
  up : Copy
  down : Copy
deriving Repr, DecidableEq

namespace RelayState

def start (idleTimeout now : Nat) : RelayState :=
  ⟨.start idleTimeout now, .start idleTimeout now⟩

def get (st : RelayState) : Dir → Copy
  | .up => st.up
  | .down => st.down

def set (st : RelayState) (c : Copy) : Dir → RelayState
  | .up => { st with up := c }
  | .down => { st with down := c }

end RelayState

/-- What `relay_bidirectional` returned, if it did, and the state it left. -/
structure RelayOutcome where
  result : Option (Except RelayError (Nat × Nat))
  final : RelayState
deriving Repr

/-- One poll of `try_join!`: it returns on the first error and otherwise when
both loops have returned. -/
def pollBoth (idleTimeout : Nat) (p : Poll) (st : RelayState) : Option RelayOutcome :=
  match (st.get p.first).poll idleTimeout p.now (p.of p.first) with
  | none => none
  | some c₁ =>
      let st₁ := st.set c₁ p.first
      match c₁.pc with
      | .failed e => if p.of p.first.other = [] then some ⟨some (.error e), st₁⟩ else none
      | _ =>
          match (st.get p.first.other).poll idleTimeout p.now (p.of p.first.other) with
          | none => none
          | some c₂ =>
              let st₂ := st₁.set c₂ p.first.other
              match c₂.pc with
              | .failed e => some ⟨some (.error e), st₂⟩
              | _ =>
                  if c₁.pc = .done ∧ c₂.pc = .done then
                    some ⟨some (.ok (st₂.up.total, st₂.down.total)), st₂⟩
                  else some ⟨none, st₂⟩

def relayRun (idleTimeout : Nat) : Nat → RelayState → List Poll → Option RelayOutcome
  | _, st, [] => some ⟨none, st⟩
  | clock, st, p :: ps =>
      if p.now < clock then none
      else
        match pollBoth idleTimeout p st with
        | none => none
        | some out =>
            match out.result with
            | none => relayRun idleTimeout p.now out.final ps
            | some _ => if ps = [] then some out else none

/-- `relay_bidirectional` started at instant `now`. -/
def relayBidirectional (idleTimeout now : Nat) (polls : List Poll) : Option RelayOutcome :=
  relayRun idleTimeout now (.start idleTimeout now) polls

@[simp] theorem Dir.other_other (d : Dir) : d.other.other = d := by
  cases d <;> rfl

theorem forall_dir {P : Dir → Prop} (d : Dir) : (∀ e, P e) ↔ P d ∧ P d.other := by
  constructor
  · exact fun h => ⟨h d, h d.other⟩
  · rintro ⟨h1, h2⟩ e
    cases d <;> cases e <;> assumption

@[simp] theorem RelayState.get_set_self (st : RelayState) (c : Copy) (d : Dir) :
    (st.set c d).get d = c := by
  cases d <;> rfl

@[simp] theorem RelayState.get_set_other (st : RelayState) (c : Copy) (d : Dir) :
    (st.set c d).get d.other = st.get d.other := by
  cases d <;> rfl

@[simp] theorem RelayState.get_set_other' (st : RelayState) (c : Copy) (d : Dir) :
    (st.set c d.other).get d = st.get d := by
  cases d <;> rfl

/-! ## What a poll and a run come to -/

/-- The ways in which a poll of both loops can go. -/
inductive PolledBoth (idleTimeout : Nat) (p : Poll) (st : RelayState) : RelayOutcome → Prop
  | firstFailed {c : Copy} {e : RelayError} :
      (st.get p.first).poll idleTimeout p.now (p.of p.first) = some c → c.pc = .failed e →
      p.of p.first.other = [] →
      PolledBoth idleTimeout p st ⟨some (.error e), st.set c p.first⟩
  | otherFailed {c₁ c₂ : Copy} {e : RelayError} :
      (st.get p.first).poll idleTimeout p.now (p.of p.first) = some c₁ →
      (∀ e, c₁.pc ≠ .failed e) →
      (st.get p.first.other).poll idleTimeout p.now (p.of p.first.other) = some c₂ →
      c₂.pc = .failed e →
      PolledBoth idleTimeout p st
        ⟨some (.error e), (st.set c₁ p.first).set c₂ p.first.other⟩
  | finished {c₁ c₂ : Copy} {st' : RelayState} :
      (st.get p.first).poll idleTimeout p.now (p.of p.first) = some c₁ → c₁.pc = .done →
      (st.get p.first.other).poll idleTimeout p.now (p.of p.first.other) = some c₂ →
      c₂.pc = .done → st' = (st.set c₁ p.first).set c₂ p.first.other →
      PolledBoth idleTimeout p st ⟨some (.ok (st'.up.total, st'.down.total)), st'⟩
  | pending {c₁ c₂ : Copy} :
      (st.get p.first).poll idleTimeout p.now (p.of p.first) = some c₁ →
      (∀ e, c₁.pc ≠ .failed e) →
      (st.get p.first.other).poll idleTimeout p.now (p.of p.first.other) = some c₂ →
      (∀ e, c₂.pc ≠ .failed e) → ¬(c₁.pc = .done ∧ c₂.pc = .done) →
      PolledBoth idleTimeout p st ⟨none, (st.set c₁ p.first).set c₂ p.first.other⟩

theorem polledBoth_of_pollBoth {idleTimeout : Nat} {p : Poll} {st : RelayState}
    {out : RelayOutcome} (h : pollBoth idleTimeout p st = some out) :
    PolledBoth idleTimeout p st out := by
  unfold pollBoth at h
  split at h
  · cases h
  rename_i c₁ hc₁
  split at h
  · rename_i e he
    split at h
    · rename_i hnil
      obtain rfl := Option.some.inj h
      exact .firstFailed hc₁ he hnil
    · cases h
  rename_i hok₁
  split at h
  · cases h
  rename_i c₂ hc₂
  split at h
  · rename_i e he
    obtain rfl := Option.some.inj h
    exact .otherFailed hc₁ hok₁ hc₂ he
  rename_i hok₂
  split at h
  · rename_i hdone
    obtain rfl := Option.some.inj h
    exact .finished hc₁ hdone.1 hc₂ hdone.2 rfl
  · rename_i hnot
    obtain rfl := Option.some.inj h
    exact .pending hc₁ hok₁ hc₂ hok₂ hnot

theorem relayRun_cons {idleTimeout clock : Nat} {st : RelayState} {p : Poll} {ps : List Poll}
    {out : RelayOutcome} (h : relayRun idleTimeout clock st (p :: ps) = some out) :
    clock ≤ p.now ∧ ∃ out₁, pollBoth idleTimeout p st = some out₁
      ∧ ((out₁.result = none ∧ relayRun idleTimeout p.now out₁.final ps = some out)
        ∨ (out₁.result ≠ none ∧ ps = [] ∧ out = out₁)) := by
  simp only [relayRun] at h
  split at h
  · cases h
  rename_i hnow
  split at h
  · cases h
  rename_i out₁ hpoll
  refine ⟨by omega, out₁, hpoll, ?_⟩
  split at h
  · rename_i hnone
    exact Or.inl ⟨hnone, h⟩
  · rename_i r hsome
    split at h
    · rename_i hnil
      exact Or.inr ⟨by simp [hsome], hnil, (Option.some.inj h).symm⟩
    · cases h

/-! ## The raw record of one direction -/

/-- What completed in one direction over a list of polls. -/
def eventsOf (d : Dir) (polls : List Poll) : List IoDone := polls.flatMap (·.of d)

theorem eventsOf_append_single (d : Dir) (pre : List Poll) (p : Poll) :
    eventsOf d (pre ++ [p]) = eventsOf d pre ++ p.of d := by
  simp [eventsOf]

/-- Bytes that came in. -/
def bytesRead : List IoDone → Nat
  | [] => 0
  | .read data :: es => data.length + bytesRead es
  | _ :: es => bytesRead es

/-- Bytes that went out. -/
def bytesWrote : List IoDone → Nat
  | [] => 0
  | .wrote n :: es => n + bytesWrote es
  | _ :: es => bytesWrote es

def IoDone.isEnd : IoDone → Bool
  | .read data => data = []
  | .readErr _ => true
  | _ => false

def IoDone.isError : IoDone → Bool
  | .readErr k => k ≠ .unexpectedEof
  | .writeErr _ => true
  | .shutErr _ => true
  | _ => false

/-- The input has ended, by end of file or by an error. -/
def hasEnded (es : List IoDone) : Bool := es.any IoDone.isEnd

def hasError (es : List IoDone) : Bool := es.any IoDone.isError

/-- Nothing is in flight and more may come: the direction is waiting for its
next byte. -/
def Waiting (es : List IoDone) : Prop := hasEnded es = false ∧ bytesRead es = bytesWrote es

theorem bytesRead_append (es fs : List IoDone) :
    bytesRead (es ++ fs) = bytesRead es + bytesRead fs := by
  induction es with
  | nil => simp [bytesRead]
  | cons e es ih => cases e <;> simp [bytesRead, ih, Nat.add_assoc]

theorem bytesWrote_append (es fs : List IoDone) :
    bytesWrote (es ++ fs) = bytesWrote es + bytesWrote fs := by
  induction es with
  | nil => simp [bytesWrote]
  | cons e es ih => cases e <;> simp [bytesWrote, ih, Nat.add_assoc]

namespace Copy

/-- The ways in which an operation can complete, and what each makes of the
loop. -/
inductive Completes (idleTimeout now : Nat) (c : Copy) : IoDone → Copy → Prop
  | eof : c.pc = .reading →
      Completes idleTimeout now c (.read []) { c with pc := .shutting }
  | chunk {data : Bytes} : c.pc = .reading → data ≠ [] → data.length ≤ relayBufferBytes →
      Completes idleTimeout now c (.read data)
        { c with pc := .writing data data.length, input := c.input ++ data }
  | dropped : c.pc = .reading →
      Completes idleTimeout now c (.readErr .unexpectedEof) { c with pc := .shutting }
  | readFailed {k : IoKind} : c.pc = .reading → k ≠ .unexpectedEof →
      Completes idleTimeout now c (.readErr k) { c with pc := .failed (.io k) }
  | drained {rest : Bytes} {chunk : Nat} : c.pc = .writing rest chunk →
      Completes idleTimeout now c (.wrote rest.length)
        { c with
          pc := .reading
          total := c.total + chunk
          deadline := now + idleTimeout
          output := c.output ++ rest }
  | partly {rest : Bytes} {chunk n : Nat} : c.pc = .writing rest chunk → 0 < n →
      n < rest.length → Completes idleTimeout now c (.wrote n)
        { c with pc := .writing (rest.drop n) chunk, output := c.output ++ rest.take n }
  | writeFailed {rest : Bytes} {chunk : Nat} {k : IoKind} : c.pc = .writing rest chunk →
      Completes idleTimeout now c (.writeErr k) { c with pc := .failed (.io k) }
  | shut : c.pc = .shutting → Completes idleTimeout now c .shut { c with pc := .done }
  | shutFailed {k : IoKind} : c.pc = .shutting →
      Completes idleTimeout now c (.shutErr k) { c with pc := .failed (.io k) }

theorem completes_of_complete {idleTimeout now : Nat} {c c' : Copy} {e : IoDone}
    (h : c.complete idleTimeout now e = some c') : Completes idleTimeout now c e c' := by
  cases e with
  | read data =>
      cases hpc : c.pc <;> simp only [complete, hpc, reduceCtorEq] at h
      split at h
      · rename_i hnil
        obtain rfl := Option.some.inj h
        exact hnil ▸ .eof hpc
      · rename_i hne
        split at h
        · rename_i hlen
          obtain rfl := Option.some.inj h
          exact .chunk hpc hne hlen
        · cases h
  | readErr k =>
      cases hpc : c.pc <;> simp only [complete, hpc, reduceCtorEq] at h
      obtain rfl := Option.some.inj h
      by_cases hk : k = .unexpectedEof
      · rw [if_pos hk, hk]
        exact .dropped hpc
      · rw [if_neg hk]
        exact .readFailed hpc hk
  | wrote n =>
      cases hpc : c.pc <;> simp only [complete, hpc, reduceCtorEq] at h
      split at h
      · rename_i hall
        obtain rfl := Option.some.inj h
        exact hall ▸ .drained hpc
      · split at h
        · rename_i hlt
          obtain rfl := Option.some.inj h
          exact .partly hpc hlt.1 hlt.2
        · cases h
  | writeErr k =>
      cases hpc : c.pc <;> simp only [complete, hpc, reduceCtorEq] at h
      obtain rfl := Option.some.inj h
      exact .writeFailed hpc
  | shut =>
      cases hpc : c.pc <;> simp only [complete, hpc, reduceCtorEq] at h
      obtain rfl := Option.some.inj h
      exact .shut hpc
  | shutErr k =>
      cases hpc : c.pc <;> simp only [complete, hpc, reduceCtorEq] at h
      obtain rfl := Option.some.inj h
      exact .shutFailed hpc

/-- The state of a loop told from its completed operations `es`, the last of
which (or the start) was at instant `last`. -/
structure Tracks (idleTimeout : Nat) (es : List IoDone) (last : Nat) (c : Copy) : Prop where
  input_length : c.input.length = bytesRead es
  output_length : c.output.length = bytesWrote es
  state : match c.pc with
    | .reading => Waiting es ∧ hasError es = false ∧ c.deadline = last + idleTimeout
    | .writing rest _ => rest ≠ [] ∧ bytesWrote es + rest.length = bytesRead es
        ∧ hasEnded es = false ∧ hasError es = false
    | .shutting => hasEnded es = true ∧ hasError es = false
    | .done => hasEnded es = true ∧ hasError es = false
    | .failed e => e ≠ .idleTimeout ∧ hasError es = true

theorem Tracks.start (idleTimeout now : Nat) :
    Tracks idleTimeout [] now (.start idleTimeout now) :=
  ⟨rfl, rfl, ⟨rfl, rfl⟩, rfl, rfl⟩

/-- Short of a failure, a loop waits for its next byte in its `select!` and
nowhere else. -/
theorem Tracks.waiting_iff {idleTimeout last : Nat} {es : List IoDone} {c : Copy}
    (ht : c.Tracks idleTimeout es last) (herr : hasError es = false) :
    Waiting es ↔ c.pc = .reading := by
  have hst := ht.state
  cases hpc : c.pc with
  | reading =>
      rw [hpc] at hst
      exact ⟨fun _ => rfl, fun _ => hst.1⟩
  | writing rest chunk =>
      rw [hpc] at hst
      obtain ⟨hne, hsum, -⟩ := hst
      refine ⟨fun hw => ?_, fun h => by cases h⟩
      have hlen : 0 < rest.length := List.length_pos_of_ne_nil hne
      have := hw.2
      omega
  | shutting =>
      rw [hpc] at hst
      refine ⟨fun hw => ?_, fun h => by cases h⟩
      cases hw.1.symm.trans hst.1
  | done =>
      rw [hpc] at hst
      refine ⟨fun hw => ?_, fun h => by cases h⟩
      cases hw.1.symm.trans hst.1
  | failed e =>
      rw [hpc] at hst
      cases hst.2.symm.trans herr

theorem complete_tracks {idleTimeout now last : Nat} {es : List IoDone} {c c' : Copy}
    {e : IoDone} (ht : c.Tracks idleTimeout es last)
    (h : c.complete idleTimeout now e = some c') :
    c'.Tracks idleTimeout (es ++ [e]) now := by
  obtain ⟨hin, hout, hst⟩ := ht
  cases completes_of_complete h with
  | eof hpc =>
      rw [hpc] at hst
      obtain ⟨-, herr, -⟩ := hst
      refine ⟨?_, ?_, ?_, ?_⟩
      · simp [bytesRead_append, bytesRead, hin]
      · simp [bytesWrote_append, bytesWrote, hout]
      · simp [hasEnded, IoDone.isEnd]
      · simpa [hasError, IoDone.isError] using herr
  | chunk hpc hne hlen =>
      rw [hpc] at hst
      obtain ⟨⟨hend, heq⟩, herr, -⟩ := hst
      refine ⟨?_, ?_, hne, ?_, ?_, ?_⟩
      · simp [bytesRead_append, bytesRead, hin]
      · simp [bytesWrote_append, bytesWrote, hout]
      · simp [bytesRead_append, bytesWrote_append, bytesRead, bytesWrote, heq]
      · simpa [hasEnded, IoDone.isEnd, hne] using hend
      · simpa [hasError, IoDone.isError] using herr
  | dropped hpc =>
      rw [hpc] at hst
      obtain ⟨-, herr, -⟩ := hst
      refine ⟨?_, ?_, ?_, ?_⟩
      · simp [bytesRead_append, bytesRead, hin]
      · simp [bytesWrote_append, bytesWrote, hout]
      · simp [hasEnded, IoDone.isEnd]
      · simpa [hasError, IoDone.isError] using herr
  | readFailed hpc hk =>
      exact ⟨by simpa [bytesRead_append, bytesRead] using hin,
        by simpa [bytesWrote_append, bytesWrote] using hout, by simp,
        by simp [hasError, IoDone.isError, hk]⟩
  | drained hpc =>
      rw [hpc] at hst
      obtain ⟨-, hsum, hend, herr⟩ := hst
      refine ⟨?_, ?_, ⟨?_, ?_⟩, ?_, rfl⟩
      · simp [bytesRead_append, bytesRead, hin]
      · simp [bytesWrote_append, bytesWrote, hout]
      · simpa [hasEnded, IoDone.isEnd] using hend
      · simp [bytesRead_append, bytesWrote_append, bytesRead, bytesWrote, hsum]
      · simpa [hasError, IoDone.isError] using herr
  | partly hpc hpos hlt =>
      rw [hpc] at hst
      obtain ⟨-, hsum, hend, herr⟩ := hst
      refine ⟨?_, ?_, ?_, ?_, ?_, ?_⟩
      · simp [bytesRead_append, bytesRead, hin]
      · simp [bytesWrote_append, bytesWrote, hout]; omega
      · exact List.ne_nil_of_length_pos (by simp; omega)
      · simp [bytesRead_append, bytesWrote_append, bytesRead, bytesWrote]; omega
      · simpa [hasEnded, IoDone.isEnd] using hend
      · simpa [hasError, IoDone.isError] using herr
  | writeFailed hpc =>
      exact ⟨by simpa [bytesRead_append, bytesRead] using hin,
        by simpa [bytesWrote_append, bytesWrote] using hout, by simp,
        by simp [hasError, IoDone.isError]⟩
  | shut hpc =>
      rw [hpc] at hst
      obtain ⟨hend, herr⟩ := hst
      exact ⟨by simpa [bytesRead_append, bytesRead] using hin,
        by simpa [bytesWrote_append, bytesWrote] using hout,
        by simp_all [hasEnded], by simp_all [hasError, IoDone.isError]⟩
  | shutFailed hpc =>
      exact ⟨by simpa [bytesRead_append, bytesRead] using hin,
        by simpa [bytesWrote_append, bytesWrote] using hout, by simp,
        by simp [hasError, IoDone.isError]⟩

theorem completes_track {idleTimeout now last : Nat} {es new : List IoDone} {c c' : Copy}
    (ht : c.Tracks idleTimeout es last)
    (h : new.foldlM (complete idleTimeout now) c = some c') :
    c'.Tracks idleTimeout (es ++ new) (if new = [] then last else now) := by
  induction new generalizing es last c with
  | nil =>
      obtain rfl : c = c' := by simpa using h
      simpa using ht
  | cons e new ih =>
      rw [List.foldlM_cons, Option.bind_eq_bind, Option.bind_eq_some_iff] at h
      obtain ⟨c₁, hc₁, hrest⟩ := h
      have := ih (complete_tracks ht hc₁) hrest
      simpa using this

/-! ## Invariants of one loop, over whole relays -/

/-- Every operation that completes keeps `P`, and so does the timer. -/
structure Kept (idleTimeout : Nat) (P : List IoDone → Copy → Prop) : Prop where
  start : ∀ now, P [] (.start idleTimeout now)
  step : ∀ {now es e c c'}, P es c → Completes idleTimeout now c e c' → P (es ++ [e]) c'
  timer : ∀ {es c}, P es c → c.pc = .reading → P es { c with pc := .failed .idleTimeout }

variable {idleTimeout : Nat} {P : List IoDone → Copy → Prop}

theorem Kept.completes (hk : Kept idleTimeout P) {now : Nat} {es new : List IoDone}
    {c c' : Copy} (hp : P es c) (h : new.foldlM (complete idleTimeout now) c = some c') :
    P (es ++ new) c' := by
  induction new generalizing es c with
  | nil =>
      obtain rfl : c = c' := by simpa using h
      simpa using hp
  | cons e new ih =>
      rw [List.foldlM_cons, Option.bind_eq_bind, Option.bind_eq_some_iff] at h
      obtain ⟨c₁, hc₁, hrest⟩ := h
      simpa using ih (hk.step hp (completes_of_complete hc₁)) hrest

theorem Kept.poll (hk : Kept idleTimeout P) {now : Nat} {es new : List IoDone}
    {c c' : Copy} (hp : P es c) (h : c.poll idleTimeout now new = some c') :
    P (es ++ new) c' := by
  simp only [Copy.poll, Option.map_eq_some_iff] at h
  obtain ⟨c₁, hfold, rfl⟩ := h
  have hp₁ : P (es ++ new) c₁ := hk.completes hp hfold
  unfold checkTimer
  split
  · rename_i hdue
    exact hk.timer hp₁ hdue.1
  · exact hp₁

theorem Kept.both (hk : Kept idleTimeout P) {pre : List Poll} {p : Poll} {st : RelayState}
    {c₁ c₂ : Copy} (hp : ∀ d, P (eventsOf d pre) (st.get d))
    (hc₁ : (st.get p.first).poll idleTimeout p.now (p.of p.first) = some c₁)
    (hc₂ : (st.get p.first.other).poll idleTimeout p.now (p.of p.first.other) = some c₂)
    (d : Dir) :
    P (eventsOf d (pre ++ [p])) (((st.set c₁ p.first).set c₂ p.first.other).get d) := by
  revert d
  refine (forall_dir p.first).mpr ⟨?_, ?_⟩
  · simpa [eventsOf_append_single] using hk.poll (hp p.first) hc₁
  · simpa [eventsOf_append_single] using hk.poll (hp p.first.other) hc₂

theorem Kept.pollBoth (hk : Kept idleTimeout P) {pre : List Poll} {p : Poll}
    {st : RelayState} {out : RelayOutcome} (hp : ∀ d, P (eventsOf d pre) (st.get d))
    (h : pollBoth idleTimeout p st = some out) (d : Dir) :
    P (eventsOf d (pre ++ [p])) (out.final.get d) := by
  revert d
  cases polledBoth_of_pollBoth h with
  | firstFailed hc _ hnil =>
      refine (forall_dir p.first).mpr ⟨?_, ?_⟩
      · simpa [eventsOf_append_single] using hk.poll (hp p.first) hc
      · simpa [eventsOf_append_single, hnil] using hp p.first.other
  | otherFailed hc₁ _ hc₂ _ => exact hk.both hp hc₁ hc₂
  | finished hc₁ _ hc₂ _ heq => exact heq ▸ hk.both hp hc₁ hc₂
  | pending hc₁ _ hc₂ _ _ => exact hk.both hp hc₁ hc₂

theorem Kept.relayRun (hk : Kept idleTimeout P) {clock : Nat} {pre polls : List Poll}
    {st : RelayState} {out : RelayOutcome} (hp : ∀ d, P (eventsOf d pre) (st.get d))
    (h : relayRun idleTimeout clock st polls = some out) (d : Dir) :
    P (eventsOf d (pre ++ polls)) (out.final.get d) := by
  induction polls generalizing pre clock st with
  | nil =>
      obtain rfl := Option.some.inj h
      simpa using hp d
  | cons p ps ih =>
      obtain ⟨-, out₁, hpoll, ⟨-, hrest⟩ | ⟨-, rfl, rfl⟩⟩ := relayRun_cons h
      · simpa using ih (hk.pollBoth hp hpoll) hrest
      · exact hk.pollBoth hp hpoll d

/-- An invariant of the loop holds of both loops at any point of a relay, and
however it ends. -/
theorem Kept.relay (hk : Kept idleTimeout P) {now : Nat} {polls : List Poll}
    {out : RelayOutcome} (h : relayBidirectional idleTimeout now polls = some out) (d : Dir) :
    P (eventsOf d polls) (out.final.get d) := by
  have hstart : ∀ d, P (eventsOf d []) ((RelayState.start idleTimeout now).get d) := by
    intro d
    cases d <;> exact hk.start now
  exact hk.relayRun hstart h d

end Copy

end FtpGateway
