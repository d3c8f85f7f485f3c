import FtpGateway.Session.Outcome

/-!
# A session with an orderly backend

An orderly backend says its banner and then, for each command it gets, the
replies to that command, in this order and nothing else (`Backend.answers`). At
any point of a session it *owes* the banner and the replies to the commands it
has got; what the session has read of them are the lines it was handed.

`Balanced` is the invariant that keeps the two together: what is owed and not
read yet is what the phase of the session waits for (`Due`). The commands and
their replies enter through `Backend.Shape`, which says how many replies each
command may get for that to hold.
-/

namespace FtpGateway

open Str Interact

/-! ## Lines that can be read -/

/-- One line, with its line feed and within the limit. -/
def WholeLine (limit : Nat) (t : Text) : Prop :=
  ∃ body, '\n' ∉ body ∧ t = body ++ ['\n'] ∧ (utf8 t).length ≤ limit

theorem WholeLine.bytes {limit : Nat} {t : Text} (ht : WholeLine limit t) :
    ∃ body, lf ∉ body ∧ utf8 t = body ++ [lf] ∧ body.length < limit := by
  obtain ⟨body, hno, rfl, hlen⟩ := ht
  have hutf : utf8 (body ++ ['\n']) = utf8 body ++ [lf] := utf8_append body ['\n']
  refine ⟨utf8 body, fun hmem => hno (lf_mem_utf8.mp hmem), hutf, ?_⟩
  rw [hutf, List.length_append] at hlen
  exact hlen

theorem WholeLine.ne_nil {limit : Nat} {t : Text} (ht : WholeLine limit t) : t ≠ [] := by
  obtain ⟨body, -, rfl, -⟩ := ht
  simp

theorem WholeLine.endsWithNewline {limit : Nat} {t : Text} (ht : WholeLine limit t) :
    endsWithNewline t = true := by
  obtain ⟨body, -, rfl, -⟩ := ht
  simp [FtpGateway.endsWithNewline]

/-- The first line of what comes is the first line that was said. -/
theorem prefix_line {body body' rest more : Bytes} (hno : lf ∉ body) (hno' : lf ∉ body')
    (hp : body ++ lf :: rest <+: body' ++ lf :: more) : body = body' ∧ rest <+: more := by
  induction body generalizing body' with
  | nil =>
      cases body' with
      | nil => exact ⟨rfl, by simpa using hp⟩
      | cons b body' =>
          obtain ⟨hb, -⟩ := List.cons_prefix_cons.mp hp
          simp [hb] at hno'
  | cons x body ih =>
      cases body' with
      | nil =>
          obtain ⟨hx, -⟩ := List.cons_prefix_cons.mp hp
          simp [hx] at hno
      | cons b body' =>
          obtain ⟨rfl, htail⟩ := List.cons_prefix_cons.mp hp
          simp only [List.mem_cons, not_or] at hno hno'
          obtain ⟨rfl, hrest⟩ := ih hno.2 hno'.2 htail
          exact ⟨rfl, hrest⟩

theorem length_le_of_prefix_line {body body' more : Bytes} (hno : lf ∉ body)
    (hp : body <+: body' ++ lf :: more) : body.length ≤ body'.length := by
  by_contra hlt
  have hline : body' ++ [lf] <+: body' ++ lf :: more := ⟨more, by simp⟩
  have hshort : body' ++ [lf] <+: body :=
    List.prefix_of_prefix_length_le hline hp (by simp; omega)
  exact hno (hshort.subset (by simp))

/-- A read that finds the first of the lines that were said. -/
theorem handed_whole {limit : Nat} {p rest : Bytes} {r : LineRead} {l : Text} {more : Bytes}
    (hl : WholeLine limit l) (hr : Handed limit none p r rest) (hp : p <+: utf8 l ++ more) :
    r = .text l ∧ p = utf8 l ++ rest ∧ rest <+: more := by
  obtain ⟨body', hno', hutf, hlen'⟩ := hl.bytes
  have hp' : p <+: body' ++ lf :: more := by rwa [hutf, List.append_assoc] at hp
  cases hr with
  | line hno hlen =>
      obtain ⟨rfl, hrest⟩ := prefix_line hno hno' hp'
      refine ⟨?_, by rw [hutf]; simp, hrest⟩
      rw [← hutf, decodeLine, decodeUtf8_utf8]
  | @full body _ hno hlen =>
      have hshort : body.length ≤ body'.length :=
        length_le_of_prefix_line hno ((List.prefix_append body rest).trans hp')
      omega

/-- A read that finds nothing. -/
theorem handed_nothing {limit : Nat} {stop : Option ReadAns} {r : LineRead} {rest : Bytes}
    (hr : Handed limit stop [] r rest) : ∀ t, r = .text t → t = [] := by
  have hdecode : decodeLine [] = .text [] := rfl
  generalize hp : ([] : Bytes) = p at hr
  intro t ht
  cases hr with
  | line hno hlen => simp at hp
  | full hno hlen =>
      obtain ⟨rfl, -⟩ := List.append_eq_nil_iff.mp hp.symm
      exact (LineRead.text.inj (hdecode.symm.trans ht)).symm
  | eof hno hlen =>
      subst hp
      exact (LineRead.text.inj (hdecode.symm.trans ht)).symm
  | err k => cases ht
  | elapsed => cases ht

theorem handed_text {cfg : SessionConfig} {ph : Phase} {l : Text}
    (hl : WholeLine cfg.maxBytes l) : ph.handed cfg (.text l) = .text l := by
  unfold Phase.handed
  split
  · rfl
  · simp [checkBound, hl.endsWithNewline]

/-! ## Orderly backends -/

/-- What a backend says: its banner, and its replies to the command it gets as
the `k`th. -/
structure Backend where
  banner : List Text
  replies : Nat → List Text

namespace Backend

/-- The replies to the next command. -/
def next (b : Backend) (h : History Io) : List Text :=
  b.replies (writesTo Conn.isBackend h).length

/-- Everything the backend is to have said. -/
def owed (b : Backend) (h : History Io) : List Text :=
  b.banner ++ (List.range (writesTo Conn.isBackend h).length).flatMap b.replies

/-- The backend says what it owes, in order, and takes every command. A read
comes back without data only if nothing more is owed. -/
def answers (b : Backend) (h : History Io) : Event → Bool
  | ⟨.read (.backend _), .data x xs⟩ =>
      decide (received Conn.isBackend h ++ x :: xs <+: said (b.owed h))
  | ⟨.read (.backend _), _⟩ => decide (received Conn.isBackend h = said (b.owed h))
  | ⟨.write (.backend _) _, .error _⟩ => false
  | _ => true

theorem owed_of_no_write (b : Backend) {h : History Io} {e : Event}
    (he : e.writeOut Conn.isBackend = none) : b.owed (h ++ [e]) = b.owed h := by
  simp [owed, he]

theorem owed_write (b : Backend) (h : History Io) (tls : Bool) (bytes : Bytes)
    (a : Except IoKind Unit) :
    b.owed (h ++ [⟨.write (.backend tls) bytes, a⟩]) = b.owed h ++ b.next h := by
  simp [owed, next, List.range_succ]

end Backend

/-- The PASV port the session holds. -/
def heldPort (h : History Io) : Option UInt16 :=
  h.foldl (fun held e => match e with
    | ⟨.allocate, a⟩ => a
    | ⟨.release _, _⟩ => none
    | _ => held) none

theorem heldPort_append_single (h : History Io) (e : Event) :
    heldPort (h ++ [e]) = match e with
      | ⟨.allocate, a⟩ => a
      | ⟨.release _, _⟩ => none
      | _ => heldPort h := by
  rw [heldPort, List.foldl_append]
  rfl

theorem held_eq_heldPort {cfg : SessionConfig} {h : History Io} {s : Ctl}
    (hp : Reaches cfg h s) : s.held = heldPort h := by
  induction hp with
  | nil => rfl
  | snoc hp ht ih =>
      rw [heldPort_append_single, ← ih]
      cases ht with
      | read a hc hno hlen hstop => cases a <;> rfl
      | book he => cases he <;> rfl
      | _ => rfl

/-- The commands of the negotiation. -/
def negotiationCommands : List Bytes :=
  [Negotiation.auth, .pbsz, .prot].map fun k => withCrLf k.command

def isStorCommand (b : Bytes) : Bool := (decodeUtf8 b).any isStor

@[simp] theorem isStorCommand_utf8 (t : Text) : isStorCommand (utf8 t) = isStor t := by
  simp [isStorCommand, decodeUtf8_utf8]

/-- The rest of a reply of the kind `read_reply_code` reads, with the code of
its first line once that was read. -/
inductive Coded (limit : Nat) : Option Bytes → List Text → Prop where
  | last {code : Option Bytes} {t : Text} {digits : Bytes} (hw : WholeLine limit t)
      (hends : EndsReply digits code t) : Coded limit code [t]
  | more {code : Option Bytes} {t : Text} {code' : Bytes} {rest : List Text}
      (hw : WholeLine limit t) (hmore : ContinuesReply code t code')
      (hrest : Coded limit (some code') rest) : Coded limit code (t :: rest)

/-- Exactly one line. -/
def OneLine (limit : Nat) (ls : List Text) : Prop := ∃ t, ls = [t] ∧ WholeLine limit t

/-- The replies to a `STOR`: a preliminary one and the last one, or only a
refusal, where `R` allows refusals. -/
def StorReplies (limit : Nat) (R : Prop) (ls : List Text) : Prop :=
  (∃ r f, ls = [r, f] ∧ WholeLine limit r ∧ WholeLine limit f ∧ r.head? = some '1')
    ∨ (∃ r, ls = [r] ∧ WholeLine limit r ∧ r.head? ≠ some '1' ∧ R)

/-- The replies of a backend that a session can keep up with. `P` allows a
refused `STOR` without TLS. -/
def Backend.Shape (b : Backend) (cfg : SessionConfig) (P : Prop) (h : History Io) :
    Event → Prop
  | ⟨.write (.backend _) bytes, _⟩ =>
      if bytes ∈ negotiationCommands then Coded cfg.maxBytes none (b.next h)
      else if isStorCommand bytes = true ∧ heldPort h ≠ none then
        StorReplies cfg.maxBytes (cfg.backendTls = true ∨ P) (b.next h)
      else OneLine cfg.maxBytes (b.next h)
  | _ => True

theorem continuesReply_unique {code : Option Bytes} {t : Text} {c c' : Bytes}
    (h : ContinuesReply code t c) (h' : ContinuesReply code t c') : c = c' := by
  cases code with
  | none =>
      have heq := h.2.2.symm.trans h'.2.2
      exact (Prod.mk.inj (Option.some.inj heq)).1
  | some first => exact h.2.2.1.symm.trans h'.2.2.1

/-- A reply does not go on after its last line. -/
theorem not_continuesReply_of_endsReply {code : Option Bytes} {t : Text} {digits c : Bytes}
    (hends : EndsReply digits code t) : ¬ContinuesReply code t c := by
  rintro ⟨-, -, hmore⟩
  obtain ⟨-, -, sep, hcode, hlast⟩ := hends
  cases code with
  | none =>
      have hsame := hcode.symm.trans hmore
      exact hlast (Prod.mk.inj (Option.some.inj hsame)).2
  | some first =>
      obtain ⟨-, digits', sep', hcode', hnot⟩ := hmore
      obtain ⟨rfl, rfl⟩ := Prod.mk.inj (Option.some.inj (hcode.symm.trans hcode'))
      exact hnot ⟨hlast.1.symm, hlast.2⟩

section Coded

variable {limit : Nat} {code : Option Bytes} {l : Text} {due : List Text}

theorem Coded.head (h : Coded limit code due) :
    ∃ l rest, due = l :: rest ∧ WholeLine limit l := by
  cases h with
  | last hw hends => exact ⟨_, _, rfl, hw⟩
  | more hw hmore hrest => exact ⟨_, _, rfl, hw⟩

theorem Coded.tail_of_continues {code' : Bytes} (h : Coded limit code (l :: due))
    (hmore : ContinuesReply code l code') : Coded limit (some code') due := by
  cases h with
  | last hw hends => exact absurd hmore (not_continuesReply_of_endsReply hends)
  | more hw hmore' hrest => exact continuesReply_unique hmore' hmore ▸ hrest

theorem Coded.nil_of_ends {digits : Bytes} (h : Coded limit code (l :: due))
    (hends : EndsReply digits code l) : due = [] := by
  cases h with
  | last hw hends => rfl
  | more hw hmore hrest => exact absurd hmore (not_continuesReply_of_endsReply hends)

end Coded

/-! ## What a phase waits for -/

/-- The lines a phase still has to read. `P` is the case of a refused `STOR`
whose last reply will never come. -/
def Due (cfg : SessionConfig) (P : Prop) (due : List Text) : Phase → Prop
  | .connecting | .banner | .ownReply _ | .forwarded _ => OneLine cfg.maxBytes due
  | .awaiting _ _ code => Coded cfg.maxBytes code due
  | .storSent _ => StorReplies cfg.maxBytes (cfg.backendTls = true ∨ P) due
  | .storReplying _ l => (l.head? = some '1' ∧ OneLine cfg.maxBytes due)
      ∨ (l.head? ≠ some '1' ∧ due = [] ∧ (cfg.backendTls = true ∨ P))
  | .shaking _ => OneLine cfg.maxBytes due
  | .relaying _ | .finalReply _ => OneLine cfg.maxBytes due ∨ (due = [] ∧ P)
  | .closing _ | .ended => True
  | _ => due = []

structure Balanced (cfg : SessionConfig) (b : Backend) (P : Prop) (h : History Io) (s : Ctl)
    (due : List Text) : Prop where
  owed : b.owed h = linesFrom Conn.isBackend h ++ due
  waits : Due cfg P due s.phase
  heard : received Conn.isBackend h = said (linesFrom Conn.isBackend h) ++ s.pending
  pending : s.pending <+: said due
  stop : s.stop ≠ none → due = []

/-- While the session is not over, it and the backend agree. -/
structure InStep (cfg : SessionConfig) (b : Backend) (P : Prop) (h : History Io) (s : Ctl) :
    Prop where
  resting : s.phase.reads cfg = none → s.stop = none
  agree : s.phase.isOver = false → ∃ due, Balanced cfg b P h s due

section Step

variable {cfg : SessionConfig} {b : Backend} {P : Prop} {h : History Io} {s : Ctl}
  {due : List Text}

theorem OneLine.ne_nil {limit : Nat} (h : OneLine limit due) : due ≠ [] := by
  obtain ⟨t, rfl, -⟩ := h
  simp

/-- A phase that reads waits for a whole line, unless its reply will never
come. -/
theorem Due.reads {ph : Phase} {c : Conn} (hdue : Due cfg P due ph)
    (hc : ph.reads cfg = some c) :
    (∃ l rest, due = l :: rest ∧ WholeLine cfg.maxBytes l)
      ∨ (due = [] ∧ P ∧ ∃ t, ph = .finalReply t) := by
  have hone : OneLine cfg.maxBytes due →
      ∃ l rest, due = l :: rest ∧ WholeLine cfg.maxBytes l := by
    rintro ⟨t, rfl, ht⟩
    exact ⟨t, [], rfl, ht⟩
  cases ph with
  | banner => exact Or.inl (hone hdue)
  | awaiting k t code => exact Or.inl (Coded.head hdue)
  | ownReply t => exact Or.inl (hone hdue)
  | forwarded t => exact Or.inl (hone hdue)
  | storSent t =>
      rcases hdue with ⟨r, f, rfl, hr, -, -⟩ | ⟨r, rfl, hr, -⟩
      · exact Or.inl ⟨r, [f], rfl, hr⟩
      · exact Or.inl ⟨r, [], rfl, hr⟩
  | finalReply t =>
      rcases hdue with hdue | ⟨hnil, hP⟩
      · exact Or.inl (hone hdue)
      · exact Or.inr ⟨hnil, hP, t, rfl⟩
  | _ => cases hc

theorem due_negotiated {k : Negotiation} {t : Text} {rest : Bytes}
    (hover : (Phase.negotiated k t rest).isOver = false) :
    Due cfg P [] (.negotiated k t rest) := by
  cases k with
  | pbsz => rfl
  | prot => rfl
  | auth =>
      simp only [Phase.negotiated] at hover ⊢
      split at hover
      · rename_i hnil
        rw [if_pos hnil]
        rfl
      · cases hover

/-- What a line makes of what is due. -/
theorem Due.line {ph ph' : Phase} {l : Text} {rest : Bytes} {due : List Text}
    (hl : WholeLine cfg.maxBytes l) (hdue : Due cfg P (l :: due) ph)
    (hnext : AfterLine cfg ph (.text l) rest ph') (hover : ph'.isOver = false) :
    Due cfg P due ph' := by
  have hone : OneLine cfg.maxBytes (l :: due) → due = [] := by
    rintro ⟨t, ht, -⟩
    exact (List.cons.inj ht).2
  cases hnext with
  | banner hne =>
      have hnil : due = [] := hone hdue
      split <;> exact hnil
  | bannerEof => cases hover
  | negotiationFailed hbad => cases hover
  | negotiationMore hmore => exact Coded.tail_of_continues hdue hmore
  | negotiated hends => exact Coded.nil_of_ends hdue hends ▸ due_negotiated hover
  | ownReply hne hend => exact hone hdue
  | ownReplyLost hlost => cases hover
  | forwarded hne => exact hone hdue
  | forwardedEof => cases hover
  | storSent hne =>
      rcases hdue with ⟨r, f, heq, -, hf, hhead⟩ | ⟨r, heq, -, hnot, hR⟩
      · obtain ⟨rfl, rfl⟩ := List.cons.inj heq
        exact Or.inl ⟨hhead, f, rfl, hf⟩
      · obtain ⟨rfl, rfl⟩ := List.cons.inj heq
        exact Or.inr ⟨hnot, rfl, hR⟩
  | storSentEof => cases hover
  | finalReply hne =>
      rcases hdue with hdue | ⟨hnil, -⟩
      · exact hone hdue
      · cases hnil
  | finalReplyEof => cases hover

/-- An exchange the backend has no part in. -/
theorem Balanced.skip {s' : Ctl} {e : Event} (hb : Balanced cfg b P h s due)
    (hw : e.writeOut Conn.isBackend = none) (hl : e.lineIn Conn.isBackend = none)
    (hr : e.bytesIn Conn.isBackend = []) (hpend : s'.pending = s.pending)
    (hstop : s'.stop = s.stop) (hdue : Due cfg P due s'.phase) :
    Balanced cfg b P (h ++ [e]) s' due where
  owed := by rw [b.owed_of_no_write hw, hb.owed]; simp [hl]
  waits := hdue
  heard := by rw [received_append, hb.heard, hpend]; simp [hl, hr]
  pending := hpend ▸ hb.pending
  stop := hstop ▸ hb.stop

/-- A command for the backend, sent when nothing else is due. -/
theorem Balanced.command {s' : Ctl} {tls : Bool} {bytes : Bytes} {a : Except IoKind Unit}
    (hb : Balanced cfg b P h s []) (hpend : s'.pending = s.pending) (hstop : s'.stop = none)
    (hdue : Due cfg P (b.next h) s'.phase) :
    Balanced cfg b P (h ++ [⟨.write (.backend tls) bytes, a⟩]) s' (b.next h) where
  owed := by rw [b.owed_write, hb.owed]; simp
  waits := hdue
  heard := by rw [received_append, hb.heard, hpend]; simp
  pending := by
    rw [hpend, List.prefix_nil.mp hb.pending]
    exact List.nil_prefix
  stop := fun hne => absurd hstop hne

theorem lf_mem_of_wholeLine {limit : Nat} {l : Text} (hl : WholeLine limit l) : lf ∈ utf8 l := by
  obtain ⟨body, -, hutf, -⟩ := hl.bytes
  simp [hutf]

theorem Balanced.read {c : Conn} {a : ReadAns} (hb : Balanced cfg b P h s due)
    (hc : s.phase.reads cfg = some c) (hno : lf ∉ s.pending)
    (hA : b.answers h ⟨.read c, a⟩ = true) : Balanced cfg b P (h ++ [⟨.read c, a⟩]) (s.take a) due := by
  obtain ⟨howed, hdue, hheard, hpend, hstop⟩ := hb
  have hback := reads_isBackend hc
  cases c with
  | client => simp at hback
  | backend tls =>
      have hquiet : received Conn.isBackend h = said (b.owed h) → due = [] := by
        intro hall
        rw [hheard, howed, said_append] at hall
        have hsaid : s.pending = said due := List.append_cancel_left hall
        rcases hdue.reads hc with ⟨l, rest, rfl, hl⟩ | ⟨hnil, -⟩
        · exact absurd (hsaid ▸ List.mem_append_left _ (lf_mem_of_wholeLine hl)) hno
        · exact hnil
      have howed' : b.owed (h ++ [⟨.read (.backend tls), a⟩])
          = linesFrom Conn.isBackend (h ++ [⟨.read (.backend tls), a⟩]) ++ due := by
        rw [b.owed_of_no_write (by simp), howed]
        simp
      cases a with
      | data x xs =>
          have hA : received Conn.isBackend h ++ x :: xs <+: said (b.owed h) := of_decide_eq_true hA
          rw [hheard, howed, said_append, List.append_assoc] at hA
          exact ⟨howed', hdue, by simp [hheard, Ctl.take],
            (List.prefix_append_right_inj _).mp hA, hstop⟩
      | eof => exact ⟨howed', hdue, by simp [hheard, Ctl.take], hpend, fun _ => hquiet (of_decide_eq_true hA)⟩
      | err k => exact ⟨howed', hdue, by simp [hheard, Ctl.take], hpend, fun _ => hquiet (of_decide_eq_true hA)⟩
      | elapsed => exact ⟨howed', hdue, by simp [hheard, Ctl.take], hpend, fun _ => hquiet (of_decide_eq_true hA)⟩

/-- Without its last reply an upload does not go on. -/
theorem isOver_of_nothing {t : Text} {r : LineRead} {rest : Bytes} {ph : Phase}
    (hr : ∀ l, r = .text l → l = []) (hnext : AfterLine cfg (.finalReply t) r rest ph) :
    ph.isOver = true := by
  cases hnext with
  | finalReply hne => exact absurd (hr _ rfl) hne
  | finalReplyEof => rfl
  | replyErr hph => rfl
  | replyElapsed hph => rfl

/-- The next line of the backend: the first of those that are due, or nothing
where nothing will come. -/
theorem Balanced.next_line {c : Conn} {r : LineRead} {rest : Bytes}
    (hb : Balanced cfg b P h s due) (hc : s.phase.reads cfg = some c)
    (hr : Handed cfg.maxBytes s.stop s.pending r rest) :
    (∃ l due', due = l :: due' ∧ WholeLine cfg.maxBytes l ∧ s.phase.handed cfg r = .text l
        ∧ s.pending = utf8 l ++ rest ∧ rest <+: said due')
      ∨ (P ∧ (∃ t, s.phase = .finalReply t) ∧ ∀ l, s.phase.handed cfg r = .text l → l = []) := by
  obtain ⟨howed, hdue, hheard, hpend, hstop⟩ := hb
  rcases hdue.reads hc with ⟨l, due', rfl, hl⟩ | ⟨rfl, hP, t, hph⟩
  · have hgo : s.stop = none := by
      by_contra hne
      exact absurd (hstop hne) (by simp)
    rw [hgo] at hr
    obtain ⟨rfl, hp, hrest⟩ := handed_whole hl hr hpend
    exact Or.inl ⟨l, due', rfl, hl, handed_text hl, hp, hrest⟩
  · rw [List.prefix_nil.mp hpend] at hr
    refine Or.inr ⟨hP, ⟨t, hph⟩, fun l hl => ?_⟩
    rw [hph] at hl
    exact handed_nothing hr l (checkBound_text hl).1

theorem Balanced.line {c : Conn} {r : LineRead} {rest : Bytes} {ph : Phase} {a : Unit}
    (hb : Balanced cfg b P h s due) (hc : s.phase.reads cfg = some c)
    (hr : Handed cfg.maxBytes s.stop s.pending r rest)
    (hnext : AfterLine cfg s.phase (s.phase.handed cfg r) rest ph) (hover : ph.isOver = false) :
    ∃ due', Balanced cfg b P (h ++ [⟨.line c (s.phase.handed cfg r), a⟩])
      ⟨ph, rest, none, s.held⟩ due' := by
  rcases hb.next_line hc hr with ⟨l, due', rfl, hl, htext, hp, hrest⟩ | ⟨-, ⟨t, hph⟩, hnone⟩
  · rw [htext] at hnext ⊢
    have hlines : linesFrom Conn.isBackend (h ++ [⟨.line c (.text l), a⟩])
        = linesFrom Conn.isBackend h ++ [l] := by
      have hback := reads_isBackend hc
      simp only [linesFrom_append, linesFrom_cons, Event.lineIn_text, hback]
      simp [hl.ne_nil]
    refine ⟨due', ?_, hb.waits.line hl hnext hover, ?_, hrest, fun hne => absurd rfl hne⟩
    · rw [b.owed_of_no_write (by simp), hb.owed, hlines]
      simp
    · rw [hlines, received_append, hb.heard, hp]
      simp
  · rw [hph] at hnext hnone
    rw [isOver_of_nothing hnone hnext] at hover
    cases hover

theorem not_mem_negotiationCommands_of_isForwardable {t : Text} (ht : isForwardable t = true) :
    utf8 t ∉ negotiationCommands := by
  intro hmem
  have hsub : negotiationCommands ⊆ ownCommands := by decide
  exact not_mem_ownCommands_of_isForwardable ht (hsub hmem)

/-- What a write to the client leaves due. -/
theorem Due.told {held : Option UInt16} {ph ok err : Phase} {bytes : Bytes}
    {a : Except IoKind Unit} (hdue : Due cfg P due ph)
    (hw : Writes cfg held ph .client bytes ok err) (hover : (onOk a ok err).isOver = false) :
    Due cfg P due (onOk a ok err) := by
  generalize hc : Conn.client = c at hw
  cases a with
  | error k => cases hw <;> cases hover
  | ok u =>
      cases hw with
      | unconnected => cases hover
      | closing b => cases hover
      | negotiate k banner => cases k <;> cases hc
      | greet banner => exact hdue
      | own hb => exact hdue
      | passive hstor hheld hb => cases hc
      | forward hfwd hstor => cases hc
      | stor hstor hheld => cases hc
      | reply =>
          simp only [onOk] at hover ⊢
          split at hover
          · cases hover
          · rename_i hquit
            rw [if_neg hquit]
            exact hdue
      | storReply =>
          simp only [onOk]
          rcases hdue with ⟨hone, hdue⟩ | ⟨hnot, hnil, hR⟩
          · rw [if_pos hone]
            split
            · exact hdue
            · exact Or.inl hdue
          · rw [if_neg hnot]
            split
            · exact hnil
            · rename_i htls
              exact Or.inr ⟨hnil, hR.resolve_left htls⟩
      | complete => exact hdue

theorem Balanced.write {c : Conn} {bytes : Bytes} {ok err : Phase} {a : Except IoKind Unit}
    (hb : Balanced cfg b P h s due) (hheld : s.held = heldPort h) (hstop : s.stop = none)
    (hw : Writes cfg s.held s.phase c bytes ok err) (hA : b.answers h ⟨.write c bytes, a⟩ = true)
    (hshape : b.Shape cfg P h ⟨.write c bytes, a⟩) (hover : (onOk a ok err).isOver = false) :
    ∃ due', Balanced cfg b P (h ++ [⟨.write c bytes, a⟩])
      { s with phase := onOk a ok err } due' := by
  have hdue := hb.waits
  cases c with
  | client =>
      exact ⟨due, hb.skip (by simp) (by simp) (by simp) rfl rfl (hdue.told hw hover)⟩
  | backend tls =>
      obtain rfl : a = .ok () := by
        cases a with
        | ok u => rfl
        | error k => cases hA
      simp only [Backend.Shape] at hshape
      have hcommand : ∀ ph, due = [] → Due cfg P (b.next h) ph → ∃ due',
          Balanced cfg b P (h ++ [⟨.write (.backend tls) bytes, .ok ()⟩]) { s with phase := ph }
            due' := by
        rintro ph rfl hnext
        exact ⟨_, hb.command rfl hstop hnext⟩
      generalize hph : s.phase = ph at hw hdue
      generalize hc : Conn.backend tls = c at hw
      cases hw with
      | unconnected => cases hc
      | closing b => cases hc
      | greet banner => cases hc
      | own hb => cases hc
      | reply => cases hc
      | storReply => cases hc
      | complete => cases hc
      | negotiate k banner =>
          rw [if_pos (by cases k <;> decide)] at hshape
          rw [← hc]
          exact hcommand (.awaiting k banner none) hdue hshape
      | @passive t command hstor hheld' hown =>
          have hno : withCrLf command ∉ negotiationCommands := by
            rcases hown with rfl | rfl <;> decide
          have hnot : isStorCommand (withCrLf command) = false := by
            rw [withCrLf, isStorCommand_utf8]
            rcases hown with rfl | rfl <;> decide
          rw [if_neg hno, if_neg (by simp [hnot])] at hshape
          rw [← hc]
          exact hcommand (.ownReply t) hdue hshape
      | @forward t hfwd hstor =>
          rw [if_neg (not_mem_negotiationCommands_of_isForwardable hfwd), isStorCommand_utf8,
            if_neg (fun hboth => hboth.2 (hheld ▸ hstor hboth.1))] at hshape
          rw [← hc]
          exact hcommand (.forwarded t) hdue hshape
      | @stor t hstor hheld' =>
          rw [if_neg (not_mem_negotiationCommands_of_isForwardable (isForwardable_of_isStor hstor)),
            isStorCommand_utf8, if_pos ⟨hstor, hheld ▸ hheld'⟩] at hshape
          rw [← hc]
          exact hcommand (.storSent t) hdue hshape

theorem reads_eq_none_of_writes {held : Option UInt16} {ph ok err : Phase} {c : Conn}
    {bytes : Bytes} (hw : Writes cfg held ph c bytes ok err) : ph.reads cfg = none := by
  cases hw <;> rfl

/-- An exchange that leaves the machine where it is, or changes its phase only. -/
theorem InStep.skip {s' : Ctl} {e : Event} (hs : InStep cfg b P h s)
    (hw : e.writeOut Conn.isBackend = none) (hl : e.lineIn Conn.isBackend = none)
    (hr : e.bytesIn Conn.isBackend = []) (hpend : s'.pending = s.pending)
    (hstop : s'.stop = s.stop) (hrest : s'.phase.reads cfg = none → s.phase.reads cfg = none)
    (hover : s'.phase.isOver = false → s.phase.isOver = false)
    (hdue : ∀ due, Due cfg P due s.phase → Due cfg P due s'.phase) :
    InStep cfg b P (h ++ [e]) s' where
  resting hnone := hstop ▸ hs.resting (hrest hnone)
  agree hgo := by
    obtain ⟨due, hb⟩ := hs.agree (hover hgo)
    exact ⟨due, hb.skip hw hl hr hpend hstop (hdue due hb.waits)⟩

/-- The step lemma: whatever the session does next, with an orderly backend it
stays in step. -/
theorem InStep.step {s' : Ctl} {e : Event} (hs : InStep cfg b P h s) (hA : b.answers h e = true)
    (hshape : b.Shape cfg P h e) (hheld : s.held = heldPort h) (ht : Trans cfg s e s') :
    InStep cfg b P (h ++ [e]) s' := by
  cases ht with
  | read a hc hno hlen hstop =>
      have hph := s.take_phase a
      refine ⟨fun hnone => ?_, fun hgo => ?_⟩
      · rw [hph, hc] at hnone
        cases hnone
      · obtain ⟨due, hb⟩ := hs.agree (hph ▸ hgo)
        exact ⟨due, hb.read hc hno hA⟩
  | line a hc hr hnext =>
      refine ⟨fun _ => rfl, fun hgo => ?_⟩
      obtain ⟨due, hb⟩ := hs.agree (not_isOver_of_reads hc)
      exact hb.line hc hr hnext hgo
  | write a hw =>
      have hnone := reads_eq_none_of_writes hw
      refine ⟨fun _ => hs.resting hnone, fun hgo => ?_⟩
      have hgo' : s.phase.isOver = false := by
        generalize hph : s.phase = ph at hw
        cases hw with
        | closing b => cases a <;> cases hgo
        | _ => rfl
      obtain ⟨due, hb⟩ := hs.agree hgo'
      exact hb.write hheld (hs.resting hnone) hw hA hshape hgo
  | clientRead a hph =>
      exact hs.skip rfl rfl (Event.bytesIn_off rfl a) rfl rfl id id fun _ hdue => hdue
  | @clientLine r ph a hph hnext =>
      have hnone : s.phase.reads cfg = none := by rw [hph]; rfl
      refine hs.skip rfl ?_ rfl rfl rfl
        (fun _ => hnone) (fun _ => by rw [hph]; rfl) fun due hdue => ?_
      · cases r <;> simp
      · rw [hph] at hdue
        cases hnext with
        | line hne => exact hdue
        | eof => trivial
        | tooLong => trivial
        | err => trivial
        | idle => trivial
  | connected source hph =>
      refine hs.skip rfl rfl rfl rfl rfl
        (fun hnone => by cases hnone) (fun _ => by rw [hph]; rfl) fun due hdue => ?_
      rw [hph] at hdue
      exact hdue
  | startTls a hph hpend =>
      refine hs.skip rfl rfl rfl rfl rfl
        (fun _ => by rw [hph]; rfl) (fun _ => by rw [hph]; rfl) fun due hdue => ?_
      rw [hph] at hdue
      cases a with
      | ok _ => exact hdue
      | error k => trivial
  | startDataTls a hph =>
      refine hs.skip rfl rfl rfl rfl rfl
        (fun _ => by rw [hph]; rfl) (fun _ => by rw [hph]; rfl) fun due hdue => ?_
      rw [hph] at hdue
      cases a with
      | ok _ => exact Or.inl hdue
      | error k => exact Or.inl hdue
  | relay client run hph =>
      refine hs.skip rfl rfl rfl rfl rfl
        (fun _ => by rw [hph]; rfl) (fun _ => by rw [hph]; rfl) fun due hdue => ?_
      rw [hph] at hdue
      exact hdue
  | succeeded a hph hl =>
      exact hs.skip rfl rfl rfl rfl rfl id id fun _ hdue => hdue
  | allocate a hph hstor hnone =>
      exact hs.skip rfl rfl rfl rfl rfl id id fun _ hdue => hdue
  | release port a hph =>
      exact hs.skip rfl rfl rfl rfl rfl id id fun _ hdue => hdue
  | book he =>
      exact hs.skip (he.silent _).1 (he.silent _).2.1 (he.silent _).2.2 rfl rfl id id
        fun _ hdue => hdue

theorem InStep.start (hbanner : OneLine cfg.maxBytes b.banner) : InStep cfg b P [] Ctl.start where
  resting _ := rfl
  agree _ := ⟨b.banner, by simp [Backend.owed], hbanner, rfl, List.nil_prefix,
    fun hne => absurd rfl hne⟩

end Step

/-- What an orderly backend does at each exchange. -/
def Backend.Orderly (b : Backend) (cfg : SessionConfig) (P : Prop) (h : History Io)
    (e : Event) : Prop :=
  b.answers h e = true ∧ b.Shape cfg P h e

/-- The run lemma. -/
theorem inStep_of_path {cfg : SessionConfig} {b : Backend} {P : Prop} {h : History Io} {s : Ctl}
    (hbanner : OneLine cfg.maxBytes b.banner) (hp : Reaches cfg h s)
    (hall : Always (b.Orderly cfg P) h) : InStep cfg b P h s :=
  hp.invariant (.start hbanner)
    (fun _ _ _ _ hp hs hA ht => hs.step hA.1 hA.2 (held_eq_heldPort hp) ht) hall

end FtpGateway
