import FtpGateway.Relay

/-!
# The relay as a pipe

However its operations complete, a copy loop passes on what it reads and
nothing else: at any time, what its writer has accepted and what it still holds
are together exactly what it has read (`Copy.Pipe`). So whatever reaches a
backend data connection came in on the client's (`isPrefix_relay_output`).

`Copy.Ledger` keeps the books: the bytes the writer accepted never run ahead
of the bytes read, the loop's total is what it has read and passed on, and it
is done only after its input has ended and its writer has been shut down.
Together they make the relay a faithful pipe in both directions
(`relay_faithful`).
-/

namespace FtpGateway

open Str

/-- The bytes that came in. -/
def dataRead (es : List IoDone) : Bytes :=
  es.flatMap fun
    | .read data => data
    | _ => []

theorem dataRead_append (es fs : List IoDone) :
    dataRead (es ++ fs) = dataRead es ++ dataRead fs :=
  List.flatMap_append

theorem length_dataRead (es : List IoDone) : (dataRead es).length = bytesRead es := by
  induction es with
  | nil => rfl
  | cons e es ih => cases e <;> simp [dataRead, bytesRead, ← ih]

/-- End of file. A TLS peer that drops the connection without `close_notify`
gives it too. -/
def IoDone.isEof : IoDone → Bool
  | .read data => data = []
  | .readErr k => k = .unexpectedEof
  | _ => false

namespace Copy

/-- A loop that has read exactly the data of `es`. -/
structure Pipe (es : List IoDone) (c : Copy) : Prop where
  input : c.input = dataRead es
  passed : match c.pc with
    | .writing rest _ => c.output ++ rest = c.input
    | .failed _ => c.output <+: c.input
    | _ => c.output = c.input

theorem completes_pipe {idleTimeout now : Nat} {es : List IoDone} {c c' : Copy} {e : IoDone}
    (hp : c.Pipe es) (h : Completes idleTimeout now c e c') : c'.Pipe (es ++ [e]) := by
  obtain ⟨hin, hst⟩ := hp
  cases h with
  | eof hpc =>
      rw [hpc] at hst
      exact ⟨by simpa [dataRead] using hin, hst⟩
  | chunk hpc hne hlen =>
      rw [hpc] at hst
      exact ⟨by simp [dataRead, hin], by simp [show c.output = c.input from hst]⟩
  | dropped hpc =>
      rw [hpc] at hst
      exact ⟨by simpa [dataRead] using hin, hst⟩
  | readFailed hpc hk =>
      rw [hpc] at hst
      exact ⟨by simpa [dataRead] using hin, hst ▸ List.prefix_refl _⟩
  | drained hpc =>
      rw [hpc] at hst
      exact ⟨by simpa [dataRead] using hin, hst⟩
  | partly hpc hpos hlt =>
      rw [hpc] at hst
      exact ⟨by simpa [dataRead] using hin, by simpa using hst⟩
  | writeFailed hpc =>
      rw [hpc] at hst
      exact ⟨by simpa [dataRead] using hin, ⟨_, hst⟩⟩
  | shut hpc =>
      rw [hpc] at hst
      exact ⟨by simpa [dataRead] using hin, hst⟩
  | shutFailed hpc =>
      rw [hpc] at hst
      exact ⟨by simpa [dataRead] using hin, hst ▸ List.prefix_refl _⟩

theorem kept_pipe (idleTimeout : Nat) : Kept idleTimeout Pipe where
  start _ := ⟨rfl, rfl⟩
  step := completes_pipe
  timer := by
    rintro es c ⟨hin, hst⟩ hpc
    rw [hpc] at hst
    exact ⟨hin, hst ▸ List.prefix_refl _⟩

theorem Pipe.isPrefix_output {es : List IoDone} {c : Copy} (hp : c.Pipe es) :
    c.output <+: dataRead es := by
  obtain ⟨hin, hst⟩ := hp
  rw [← hin]
  cases hpc : c.pc with
  | writing rest chunk =>
      rw [hpc] at hst
      exact ⟨rest, hst⟩
  | failed e =>
      rw [hpc] at hst
      exact hst
  | reading => rw [hpc] at hst; exact hst ▸ List.prefix_refl _
  | shutting => rw [hpc] at hst; exact hst ▸ List.prefix_refl _
  | done => rw [hpc] at hst; exact hst ▸ List.prefix_refl _

theorem completes_output_length {idleTimeout now : Nat} {es : List IoDone} {c c' : Copy}
    {e : IoDone} (hout : c.output.length = bytesWrote es)
    (h : Completes idleTimeout now c e c') : c'.output.length = bytesWrote (es ++ [e]) := by
  rw [bytesWrote_append, ← hout]
  cases h with
  | drained hpc => simp [bytesWrote]
  | partly hpc hpos hlt =>
      simp only [bytesWrote, List.length_append, List.length_take]
      omega
  | _ => rfl

/-- The books of a loop that has gone through `es`. -/
structure Ledger (es : List IoDone) (c : Copy) : Prop extends Pipe es c where
  output_length : c.output.length = bytesWrote es
  behind : ∀ fs, fs <+: es → bytesWrote fs ≤ bytesRead fs
  counted : match c.pc with
    | .reading => c.total = c.input.length
    | .writing _ chunk => c.total + chunk = c.input.length
    | .shutting => c.total = c.input.length ∧ ∃ fs e, es = fs ++ [e] ∧ e.isEof
    | .done => c.total = c.input.length ∧ ∃ fs e, es = fs ++ [e, .shut] ∧ e.isEof
    | .failed _ => True

theorem completes_ledger {idleTimeout now : Nat} {es : List IoDone} {c c' : Copy} {e : IoDone}
    (hl : c.Ledger es) (h : Completes idleTimeout now c e c') : c'.Ledger (es ++ [e]) := by
  obtain ⟨hp, hout, hbehind, hst⟩ := hl
  have hp' : c'.Pipe (es ++ [e]) := completes_pipe hp h
  have hout' : c'.output.length = bytesWrote (es ++ [e]) := completes_output_length hout h
  refine ⟨hp', hout', fun fs hfs => ?_, ?_⟩
  · rcases List.prefix_concat_iff.mp hfs with rfl | hfs
    · rw [← hout', ← length_dataRead]
      exact hp'.isPrefix_output.length_le
    · exact hbehind fs hfs
  · cases h with
    | eof hpc =>
        rw [hpc] at hst
        exact ⟨hst, es, .read [], rfl, rfl⟩
    | chunk hpc hne hlen =>
        rw [hpc] at hst
        show c.total + _ = _
        rw [List.length_append, show c.total = c.input.length from hst]
    | dropped hpc =>
        rw [hpc] at hst
        exact ⟨hst, es, .readErr .unexpectedEof, rfl, rfl⟩
    | readFailed hpc hk => trivial
    | drained hpc =>
        rw [hpc] at hst
        exact hst
    | partly hpc hpos hlt =>
        rw [hpc] at hst
        exact hst
    | writeFailed hpc => trivial
    | shut hpc =>
        rw [hpc] at hst
        obtain ⟨htot, fs, e, rfl, he⟩ := hst
        exact ⟨htot, fs, e, by simp, he⟩
    | shutFailed hpc => trivial

theorem kept_ledger (idleTimeout : Nat) : Kept idleTimeout Ledger where
  start _ := ⟨⟨rfl, rfl⟩, rfl, by rintro fs hfs; simp [List.prefix_nil.mp hfs, bytesWrote], rfl⟩
  step := completes_ledger
  timer hl hpc := ⟨(kept_pipe idleTimeout).timer hl.toPipe hpc, hl.output_length, hl.behind, trivial⟩

/-- What the writer had accepted when the loop had gone through the first part
`fs` of its operations had been read by then. -/
theorem Ledger.isPrefix_take {es fs : List IoDone} {c : Copy} (hl : c.Ledger es)
    (hfs : fs <+: es) : c.output.take (bytesWrote fs) <+: dataRead fs := by
  have hread : dataRead fs <+: dataRead es := by
    obtain ⟨gs, rfl⟩ := hfs
    rw [dataRead_append]
    exact List.prefix_append _ _
  have htake : c.output.take (bytesWrote fs) <+: dataRead es :=
    (List.take_prefix _ _).trans hl.isPrefix_output
  refine List.prefix_of_prefix_length_le htake hread ?_
  rw [length_dataRead, List.length_take]
  exact (Nat.min_le_left _ _).trans (hl.behind fs hfs)

theorem Ledger.done {es : List IoDone} {c : Copy} (hl : c.Ledger es) (hpc : c.pc = .done) :
    c.output = dataRead es ∧ c.total = (dataRead es).length
      ∧ ∃ fs e, es = fs ++ [e, .shut] ∧ e.isEof := by
  have hpass := hl.passed
  have hcount := hl.counted
  rw [hpc] at hpass hcount
  rw [← hl.input]
  exact ⟨hpass, hcount⟩

end Copy

/-! ## Both directions -/

/-- Both loops have read exactly what completed during `polls`. -/
def RelayState.Pipe (polls : List Poll) (st : RelayState) : Prop :=
  ∀ d, (st.get d).Pipe (eventsOf d polls)

theorem relayBidirectional_pipe {idleTimeout start : Nat} {polls : List Poll}
    {out : RelayOutcome} (h : relayBidirectional idleTimeout start polls = some out) :
    out.final.Pipe polls :=
  (Copy.kept_pipe idleTimeout).relay h

/-- **Nothing is written that was not read.** In each direction, at any point of
a relay and however it ends. -/
theorem isPrefix_relay_output {idleTimeout start : Nat} {polls : List Poll} {out : RelayOutcome}
    (h : relayBidirectional idleTimeout start polls = some out) (d : Dir) :
    (out.final.get d).output <+: dataRead (eventsOf d polls) :=
  (relayBidirectional_pipe h d).isPrefix_output

theorem pollBoth_ok {idleTimeout : Nat} {p : Poll} {st : RelayState} {out : RelayOutcome}
    {r : Nat × Nat} (h : pollBoth idleTimeout p st = some out)
    (hok : out.result = some (.ok r)) :
    (∀ d, (out.final.get d).pc = .done) ∧ r = (out.final.up.total, out.final.down.total) := by
  cases polledBoth_of_pollBoth h with
  | firstFailed => cases hok
  | otherFailed => cases hok
  | finished _ hdone₁ _ hdone₂ heq =>
      subst heq
      refine ⟨(forall_dir p.first).mpr ⟨by simpa using hdone₁, by simpa using hdone₂⟩, ?_⟩
      exact (Except.ok.inj (Option.some.inj hok)).symm
  | pending => cases hok

theorem relayRun_ok {idleTimeout clock : Nat} {polls : List Poll} {st : RelayState}
    {out : RelayOutcome} {r : Nat × Nat} (h : relayRun idleTimeout clock st polls = some out)
    (hok : out.result = some (.ok r)) :
    (∀ d, (out.final.get d).pc = .done) ∧ r = (out.final.up.total, out.final.down.total) := by
  induction polls generalizing clock st with
  | nil =>
      obtain rfl := Option.some.inj h
      cases hok
  | cons p ps ih =>
      obtain ⟨-, out₁, hpoll, ⟨-, hrest⟩ | ⟨-, rfl, rfl⟩⟩ := relayRun_cons h
      · exact ih hrest
      · exact pollBoth_ok hpoll hok

/-- **The relay is a faithful pipe.** At any point of a relay, even between two
operations of one poll, what a side has been sent is the start of what came in
on the other side. If the relay returns `Ok((up, down))` then each input has
ended, the whole of it has been passed on before the writer was shut down, and
the two numbers are the lengths. -/
theorem relay_faithful {idleTimeout start : Nat} {polls : List Poll} {out : RelayOutcome}
    (h : relayBidirectional idleTimeout start polls = some out) :
    (∀ d, (out.final.get d).output.length = bytesWrote (eventsOf d polls)
        ∧ (out.final.get d).output <+: dataRead (eventsOf d polls)
        ∧ ∀ es, es <+: eventsOf d polls →
            (out.final.get d).output.take (bytesWrote es) <+: dataRead es)
      ∧ ∀ up down, out.result = some (.ok (up, down)) →
          up = (dataRead (eventsOf .up polls)).length
            ∧ down = (dataRead (eventsOf .down polls)).length
            ∧ ∀ d, (out.final.get d).output = dataRead (eventsOf d polls)
                ∧ ∃ es e, eventsOf d polls = es ++ [e, .shut] ∧ e.isEof := by
  have hledger := (Copy.kept_ledger idleTimeout).relay h
  refine ⟨fun d => ⟨(hledger d).output_length, isPrefix_relay_output h d,
    fun es hes => (hledger d).isPrefix_take hes⟩, fun up down hok => ?_⟩
  obtain ⟨hdone, htotals⟩ := relayRun_ok h hok
  obtain ⟨rfl, rfl⟩ := Prod.mk.inj htotals
  refine ⟨((hledger .up).done (hdone .up)).2.1, ((hledger .down).done (hdone .down)).2.1,
    fun d => ?_⟩
  obtain ⟨hall, -, hend⟩ := (hledger d).done (hdone d)
  exact ⟨hall, hend⟩

/-- Two bytes go up in two writes while one comes down; the backend drops its
TLS connection without `close_notify`. -/
def smallTransfer : List Poll :=
  [⟨0, .up, [.read [1, 2], .wrote 1], [.read [3]]⟩,
    ⟨1, .down, [.wrote 1, .read []], [.wrote 1, .readErr .unexpectedEof]⟩,
    ⟨2, .up, [.shut], [.shut]⟩]

theorem relay_faithful_smallTransfer :
    ∃ out, relayBidirectional 10 0 smallTransfer = some out ∧ out.result = some (.ok (2, 1))
      ∧ 2 = (dataRead (eventsOf .up smallTransfer)).length
      ∧ 1 = (dataRead (eventsOf .down smallTransfer)).length
      ∧ ∀ d, (out.final.get d).output = dataRead (eventsOf d smallTransfer)
          ∧ ∃ es e, eventsOf d smallTransfer = es ++ [e, .shut] ∧ e.isEof := by
  have hrun : relayBidirectional 10 0 smallTransfer = some ⟨some (.ok (2, 1)),
      ⟨.done, 11, 2, [1, 2], [1, 2]⟩, ⟨.done, 11, 1, [3], [3]⟩⟩ := rfl
  exact ⟨_, hrun, rfl, (relay_faithful hrun).2 2 1 rfl⟩

end FtpGateway
