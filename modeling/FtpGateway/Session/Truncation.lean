import Mathlib.Data.List.DropRight
import FtpGateway.Session.AllowList
import FtpGateway.Session.CompleteLine
import FtpGateway.Session.FailClosed
import FtpGateway.Session.Failure

/-!
# Lines cut off by end of file

A connection can end in the middle of a line. The readers of the gateway's own
commands look at how a line ends; `read_line_bounded` does not, and hands out
what it has. So the session takes a part of a line for a command, a reply or a
completion, exactly if a stream ends that way (`cutsOff`). If none does, it only
ever acts on whole lines (`only_whole_lines`).

For the client the argument is the account of `AllowList`: what a line is made
of and what came before it. For the backend it is an invariant of the control
machine, which knows what is pending and what ended the read.
-/

namespace FtpGateway

open Str Interact

/-! ## The end of a stream -/

/-- What follows the last line feed. -/
def lastPiece (b : Bytes) : Bytes := b.rtakeWhile (· ≠ lf)

/-- A stream that stops in the middle of a line, with a text that could be taken
for one. -/
def unfinished (b : Bytes) : Bool := lastPiece b ≠ [] && (decodeUtf8 (lastPiece b)).isSome

/-- A stream ends in the middle of a line that is not the reply to a command of
the gateway's own. -/
def cutsOff (h : History Io) : Event → Bool
  | ⟨.read .client, .eof⟩ => unfinished (received Conn.isClient h)
  | ⟨.read (.backend _), .eof⟩ => !answersOwn h && unfinished (received Conn.isBackend h)
  | _ => false

theorem lastPiece_append {base p : Bytes} (hbase : WholeLines base) (hp : lf ∉ p) :
    lastPiece (base ++ p) = p := by
  have hall : ∀ b ∈ p.reverse, decide (b ≠ lf) = true := by
    intro b hb
    refine decide_eq_true fun heq => hp ?_
    rw [← heq]
    exact List.mem_reverse.mp hb
  have hrest : base.reverse.takeWhile (fun b => decide (b ≠ lf)) = [] := by
    obtain ⟨ls, hls, rfl⟩ := hbase
    rcases ls.eq_nil_or_concat with rfl | ⟨ls, l, rfl⟩
    · rfl
    · obtain ⟨body, -, rfl⟩ := hls l (by simp)
      simp
  rw [lastPiece, List.rtakeWhile, List.reverse_append, List.takeWhile_append_of_pos hall, hrest,
    List.append_nil, List.reverse_reverse]

theorem unfinished_append {base : Bytes} {t : Text} (hbase : WholeLines base) (hne : t ≠ [])
    (hno : lf ∉ utf8 t) : unfinished (base ++ utf8 t) = true := by
  have hutf : utf8 t ≠ [] := fun hnil => hne (utf8_injective hnil)
  simp [unfinished, lastPiece_append hbase hno, hutf, decodeUtf8_utf8]

/-! ## Lines of the client -/

def Req.NoClientLine (r : Req) : Prop := ∀ x, r ≠ .line .client x

section Client

variable {w : World} {cfg : SessionConfig}

theorem serving_noClientLine (cfg : SessionConfig) : Serving cfg Req.NoClientLine where
  tell _ := by simp [Req.NoClientLine]
  read := by simp [Req.NoClientLine]
  line _ := by simp [Req.NoClientLine, SessionConfig.control]
  metric _ _ := by simp [Req.NoClientLine]
  log _ _ := by simp [Req.NoClientLine]
  allocate := by simp [Req.NoClientLine]
  release _ := by simp [Req.NoClientLine]
  releaseSlot := by simp [Req.NoClientLine]
  startDataTls := by simp [Req.NoClientLine]
  backstage r hr x heq := by
    subst heq
    exact hr
  forwards _ := by simp [Req.NoClientLine]
  awaits _ := by simp [Req.NoClientLine]
  rejects := by simp [Req.NoClientLine]
  relays _ _ := by simp [Req.NoClientLine]

/-- Elsewhere than in `nextLine` there is no line of the client's to account for. -/
theorem wp_alsoHandsOut {α : Type} {p : Sess α} {Q : α → History Io → Prop}
    {E : Leave → History Io → Prop} {h : History Io} (hask : p.Asks Req.NoClientLine)
    (hp : wp w.answer AllowedStep Q E p h) :
    wp w.answer (fun h e => AllowedStep h e ∧ HandsOut WholeLines h e) Q E p h :=
  wp_also hask (fun _ _ _ hr => handsOut_other hr) hp

theorem wp_round_handsOut {source : Option Ipv4Addr} {s : SessState} {h : History Io}
    (hb : Between s.clientBuf h) :
    wp w.answer (fun h e => AllowedStep h e ∧ HandsOut WholeLines h e)
      (fun s' h' => Between s'.clientBuf h') (fun _ _ => True) (round cfg source s) h := by
  have hserving := serving_noClientLine cfg
  have hdrop : ∀ e h', wp w.answer (fun h e => AllowedStep h e ∧ HandsOut WholeLines h e)
      (fun _ _ => True) (fun _ _ => True) (dropActive s.activePasv e) h' := fun e h' =>
    wp_alsoHandsOut (asks_dropActive hserving.release hserving.log s.activePasv e)
      (wp_free (asks_dropActive (fun _ => trivial) (fun _ _ => trivial) s.activePasv e) h')
  refine (wp_bind _).mpr ((wp_onExit _).mpr (wp_post (wp_nextLine_inHand hb)
    (fun x h₁ hi => ?_) fun e h₁ _ => hdrop e h₁))
  exact wp_alsoHandsOut (hserving.serve (fun _ _ => by simp [Req.NoClientLine]) source _) (wp_serve_between hi)

theorem always_handsOut (w : World) (cfg : SessionConfig) (n : Nat) :
    Always (HandsOut WholeLines) (history w cfg n) := by
  have hmetric : ∀ m h, AllowedStep h ⟨.metric m, ()⟩ ∧ HandsOut WholeLines h ⟨.metric m, ()⟩ :=
    fun m h => ⟨trivial, handsOut_other (by simp)⟩
  have hserving := serving_noClientLine cfg
  have hgreet := wp_alsoHandsOut (w := w) (asks_greet hserving.backstage hserving.tell cfg)
    wp_greet_between
  have hwp : wp w.answer (fun h e => AllowedStep h e ∧ HandsOut WholeLines h e)
      (fun _ _ => False) (fun _ _ => True) (handle cfg n) [] :=
    wp_handle (J := fun s => Between s.clientBuf) (hmetric _ _) hgreet
      (fun _ _ _ hb => wp_round_handsOut hb) (fun _ h _ => ⟨hmetric _ h, trivial⟩) n
  exact (run_of_wp hwp (always_nil _)).1.mono fun _ _ hstep => hstep.2

theorem Event.eq_clientLine {e : Event} {t : Text} (hline : e.lineIn Conn.isClient = some t) :
    ∃ u, e = ⟨.line .client (.text t), u⟩ ∧ t ≠ [] := by
  obtain ⟨r, a⟩ := e
  cases r with
  | line c x =>
      cases x with
      | text t' =>
          rw [Event.lineIn_text] at hline
          split at hline
          case isTrue hcond =>
            obtain rfl := Option.some.inj hline
            simp only [Bool.and_eq_true, Conn.isClient, decide_eq_true_eq] at hcond
            obtain ⟨rfl, hne⟩ := hcond
            exact ⟨a, rfl, by simpa using hne⟩
          case isFalse => cases hline
      | err k => cases hline
      | elapsed => cases hline
  | _ => cases hline

/-- No line of the client's is a part of one. -/
def WholeCommand (_ : History Io) (e : Event) : Prop :=
  ∀ t u, e = ⟨.line .client (.text t), u⟩ → t ≠ [] → endsWithNewline t = true

theorem always_wholeCommand {H : History Io} (hallowed : Always AllowedStep H)
    (hhands : Always (HandsOut WholeLines) H)
    (hwhole : Always (fun h e => cutsOff h e = false) H) : Always WholeCommand H := by
  intro h e rest heq t u he hne
  obtain ⟨base, buf, hbase, -, hacc, hend⟩ := hhands h e rest heq t u he hne
  rcases hend with hterm | ⟨hno, hclosed, rfl⟩
  · exact endsWithNewline_of_terminated hterm
  · obtain ⟨pre, post, rfl⟩ := List.append_of_mem hclosed
    have hcut := hwhole pre ⟨.read .client, .eof⟩ (post ++ e :: rest) (by rw [heq]; simp)
    rw [heq, List.append_cons pre] at hallowed
    have hsame := received_of_closed hallowed.of_append (by simp [ClientClosed])
    rw [List.append_cons pre, hsame] at hacc
    have hrec : received Conn.isClient pre = base ++ utf8 t := by simpa using hacc
    rw [cutsOff, hrec, unfinished_append hbase hne hno] at hcut
    cases hcut

end Client

/-! ## Lines of the backend -/

namespace Phase

/-- The client's command in progress. -/
def command? : Phase → Option Text
  | .command t | .ownReply t | .forwarded t | .storSent t | .shaking t | .relaying t
  | .finalReply t | .replying t _ | .storReplying t _ | .completing t _ => some t
  | _ => none

/-- The banner, before it is passed on. -/
def banner? : Phase → Option Text
  | .sending _ b | .awaiting _ b _ | .authOk b | .greeting b => some b
  | _ => none

end Phase

/-- The lines a phase works with are whole ones that were handed over, and what
is pending follows whole lines. -/
structure Whole (cfg : SessionConfig) (h : History Io) (s : Ctl) : Prop where
  account : s.phase.isOver = false →
    ∃ base, WholeLines base ∧ received Conn.isBackend h = base ++ s.pending
  stopped : s.stop = some .eof → s.phase.isOwn = false →
    s.pending = [] ∨ decodeUtf8 s.pending = none
  reading : s.phase.reads cfg = none → s.stop = none
  command : ∀ t, s.phase.command? = some t →
    (linesFrom Conn.isClient h).getLast? = some t ∧ endsWithNewline t = true
  banner : ∀ b, s.phase.banner? = some b →
    b ∈ linesFrom Conn.isBackend h ∧ endsWithNewline b = true
  reply : ∀ l, s.phase.toPass = some l →
    (linesFrom Conn.isBackend h).getLast? = some l ∧ endsWithNewline l = true

section Backend

variable {cfg : SessionConfig} {h : History Io} {s s' : Ctl} {e : Event} {ph ph' : Phase}

theorem WholeLines.append {base l : Bytes} (hbase : WholeLines base) (hl : Terminated l) :
    WholeLines (base ++ l) := by
  obtain ⟨ls, hls, rfl⟩ := hbase
  refine ⟨ls ++ [l], fun x hx => ?_, by simp⟩
  rcases List.mem_append.mp hx with hx | hx
  · exact hls x hx
  · exact List.mem_singleton.mp hx ▸ hl

/-- Replies that `read_line_bounded` reads do not answer a command of the
gateway's own. -/
theorem not_answersOwn {c : Conn} (hlast : LastCommand h ph) (hc : ph.reads cfg = some c)
    (hown : ph.isOwn = false) : answersOwn h = false := by
  have hcommand : ∀ t, isForwardable t = true →
      (writesTo Conn.isBackend h).getLast? = some (utf8 t) → answersOwn h = false := by
    intro t hfwd hsent
    simp [answersOwn, hsent, not_mem_ownCommands_of_isForwardable hfwd]
  cases ph with
  | banner =>
      have hnone : writesTo Conn.isBackend h = [] := hlast
      simp [answersOwn, hnone]
  | forwarded t | storSent t | finalReply t => exact hcommand t hlast.1 hlast.2
  | awaiting k b code | ownReply t => cases hown
  | _ => cases hc

/-- A line the session goes on with is a whole one. -/
theorem Whole.terminated {r : LineRead} {rest : Bytes} {t : Text} (hwhole : Whole cfg h s)
    (hr : Handed cfg.maxBytes s.stop s.pending r rest)
    (ht : s.phase.handed cfg r = .text t) (hne : t ≠ [])
    (hown : s.phase.isOwn = true → endsWithNewline t = true) : Terminated (utf8 t) := by
  have htext : r = .text t ∧ (s.phase.isOwn = false →
      ¬ ((utf8 t).length = cfg.maxBytes ∧ endsWithNewline t = false)) := by
    unfold Phase.handed at ht
    split at ht
    case isTrue ho => exact ⟨ht, fun hno => absurd hno (by simp [ho])⟩
    case isFalse ho => exact ⟨(checkBound_text ht).1, fun _ => (checkBound_text ht).2⟩
  obtain ⟨rfl, hbound⟩ := htext
  have hbare : lf ∉ utf8 t → s.phase.isOwn = false ∧ endsWithNewline t = false := by
    intro hno
    have hend := endsWithNewline_of_no_lf hno
    refine ⟨Bool.eq_false_iff.mpr fun ho => ?_, hend⟩
    rw [hown ho] at hend
    cases hend
  generalize hout : LineRead.text t = r at hr
  have hstop := hwhole.stopped
  generalize s.stop = stop at hr hstop
  generalize s.pending = pending at hr hstop
  cases hr with
  | @line body rest hno hlen => exact ⟨body, hno, (decodeLine_text hout.symm).symm⟩
  | @full body rest hno hlen =>
      have hutf := decodeLine_text hout.symm
      obtain ⟨ho, hend⟩ := hbare (hutf ▸ hno)
      exact absurd ⟨hutf ▸ hlen, hend⟩ (hbound ho)
  | @eof p hno hlen =>
      have hutf := decodeLine_text hout.symm
      obtain ⟨ho, -⟩ := hbare (hutf ▸ hno)
      rcases hstop rfl ho with hnil | hbad
      · exact absurd (utf8_injective (hutf ▸ hnil)) hne
      · rw [hutf, decodeUtf8_utf8] at hbad
        cases hbad
  | err k => cases hout
  | elapsed => cases hout

/-- An exchange that brings nothing and leads to a phase with no other lines. -/
theorem Whole.move (hwhole : Whole cfg h s) (hb : e.bytesIn Conn.isBackend = [])
    (hl : ∀ on, e.lineIn on = none) (hpend : s'.pending = s.pending) (hstop : s'.stop = s.stop)
    (hphase : s'.phase = s.phase ∨ s.phase.reads cfg = none)
    (hover : s'.phase.isOver = false → s.phase.isOver = false)
    (hcommand : ∀ t, s'.phase.command? = some t → s.phase.command? = some t)
    (hbanner : ∀ b, s'.phase.banner? = some b → s.phase.banner? = some b)
    (hreply : ∀ l, s'.phase.toPass = some l → s.phase.toPass = some l) :
    Whole cfg (h ++ [e]) s' := by
  have hrec : received Conn.isBackend (h ++ [e]) = received Conn.isBackend h := by simp [hb]
  have hlines : ∀ on, linesFrom on (h ++ [e]) = linesFrom on h := fun on => by simp [hl]
  constructor
  · rw [hrec, hpend]
    exact fun ho => hwhole.account (hover ho)
  · rw [hstop, hpend]
    rcases hphase with hsame | hreads
    · rw [hsame]
      exact hwhole.stopped
    · rw [hwhole.reading hreads]
      exact nofun
  · rw [hstop]
    rcases hphase with hsame | hreads
    · rw [hsame]
      exact hwhole.reading
    · exact fun _ => hwhole.reading hreads
  · rw [hlines]
    exact fun t ht => hwhole.command t (hcommand t ht)
  · rw [hlines]
    exact fun b hb => hwhole.banner b (hbanner b hb)
  · rw [hlines]
    exact fun l hl => hwhole.reply l (hreply l hl)

theorem keeps_lines {ph' : Phase}
    (hcommand : ph'.command? = none ∨ ph'.command? = ph.command?)
    (hbanner : ph'.banner? = none ∨ ph'.banner? = ph.banner?) (hpass : ph'.toPass = none) :
    (∀ t, ph'.command? = some t → ph.command? = some t) ∧
      (∀ b, ph'.banner? = some b → ph.banner? = some b) ∧
      ∀ l, ph'.toPass = some l → ph.toPass = some l := by
  refine ⟨fun t ht => ?_, fun b hb => ?_, fun l hl => ?_⟩
  · rcases hcommand with hnone | hsame
    · rw [hnone] at ht
      cases ht
    · rwa [← hsame]
  · rcases hbanner with hnone | hsame
    · rw [hnone] at hb
      cases hb
    · rwa [← hsame]
  · rw [hpass] at hl
    cases hl

/-- A write brings no new lines into play. -/
theorem Writes.keeps {held : Option UInt16} {c : Conn} {b : Bytes} {ok err : Phase}
    (hw : Writes cfg held ph c b ok err) (a : Except IoKind Unit) :
    ph.reads cfg = none ∧ ((onOk a ok err).isOver = false → ph.isOver = false) ∧
      (∀ t, (onOk a ok err).command? = some t → ph.command? = some t) ∧
      (∀ b, (onOk a ok err).banner? = some b → ph.banner? = some b) ∧
      ∀ l, (onOk a ok err).toPass = some l → ph.toPass = some l := by
  cases hw with
  | reply =>
      refine ⟨rfl, fun _ => rfl, ?_⟩
      cases a with
      | error k => exact keeps_lines (.inl rfl) (.inl rfl) rfl
      | ok x =>
          simp only [onOk]
          split
          all_goals exact keeps_lines (.inl rfl) (.inl rfl) rfl
  | storReply =>
      refine ⟨rfl, fun _ => rfl, ?_⟩
      cases a with
      | error k => exact keeps_lines (.inl rfl) (.inl rfl) rfl
      | ok x =>
          simp only [onOk]
          repeat' split
          all_goals first
            | exact keeps_lines (.inl rfl) (.inl rfl) rfl
            | exact keeps_lines (.inr rfl) (.inl rfl) rfl
  | closing b =>
      refine ⟨rfl, ?_, ?_⟩
      · cases a <;> exact id
      · cases a <;> exact keeps_lines (.inl rfl) (.inl rfl) rfl
  | _ =>
      refine ⟨rfl, fun _ => rfl, ?_⟩
      cases a <;> first
        | exact keeps_lines (.inl rfl) (.inl rfl) rfl
        | exact keeps_lines (.inr rfl) (.inl rfl) rfl
        | exact keeps_lines (.inl rfl) (.inr rfl) rfl

theorem Whole.read {c : Conn} (hwhole : Whole cfg h s) (hp : Reaches cfg h s) (a : ReadAns)
    (hc : s.phase.reads cfg = some c) (hno : lf ∉ s.pending) (hgo : s.stop = none)
    (hcut : cutsOff h ⟨.read c, a⟩ = false) : Whole cfg (h ++ [⟨.read c, a⟩]) (s.take a) := by
  obtain ⟨tls, rfl⟩ := Conn.eq_backend (reads_isBackend hc)
  obtain ⟨base, hbase, hacc⟩ := hwhole.account (not_isOver_of_reads hc)
  have hlines : ∀ on, linesFrom on (h ++ [⟨.read (.backend tls), a⟩]) = linesFrom on h :=
    fun on => by simp
  have hrec : received Conn.isBackend (h ++ [⟨.read (.backend tls), a⟩])
      = received Conn.isBackend h ++ Event.bytesIn Conn.isBackend ⟨.read (.backend tls), a⟩ := by
    simp
  constructor
  · rw [hrec, hacc]
    intro _
    refine ⟨base, hbase, ?_⟩
    cases a <;> simp [Ctl.take]
  · rw [s.take_phase a]
    intro hstop hown
    cases a with
    | eof =>
        rw [cutsOff, not_answersOwn (lastCommand_of_path hp) hc hown, hacc, unfinished,
          lastPiece_append hbase hno] at hcut
        simpa [Ctl.take, imp_iff_not_or] using hcut
    | data b rest =>
        have hwas : s.stop = some .eof := hstop
        rw [hgo] at hwas
        cases hwas
    | err k => cases hstop
    | elapsed => cases hstop
  · rw [s.take_phase a]
    intro hnone
    rw [hc] at hnone
    cases hnone
  · rw [s.take_phase a, hlines]
    exact hwhole.command
  · rw [s.take_phase a, hlines]
    exact hwhole.banner
  · rw [s.take_phase a, hlines]
    exact hwhole.reply

/-- What the session goes on with after a line of the backend: what it had, and
the line itself. -/
theorem lines_of_afterLine {r : LineRead} {rest : Bytes} (hnext : AfterLine cfg ph r rest ph') :
    (∀ t, ph'.command? = some t → ph.command? = some t) ∧
      (∀ b, ph'.banner? = some b → ph.banner? = some b ∨ r = .text b) ∧
      (ph'.isOver = false → ∃ t, r = .text t ∧ t ≠ [] ∧
        (ph.isOwn = true → endsWithNewline t = true)) := by
  cases hnext with
  | banner hne =>
      split
      all_goals exact ⟨(fun _ ht => by cases ht), fun b hb => .inr (by rw [Option.some.inj hb]),
        fun _ => ⟨_, rfl, hne, fun hown => by cases hown⟩⟩
  | negotiationMore hmore =>
      exact ⟨(fun _ ht => by cases ht), fun _ => .inl,
        fun _ => ⟨_, rfl, hmore.1, fun _ => hmore.2.1⟩⟩
  | @negotiated k b t code rest hends =>
      refine ⟨?_, ?_, fun _ => ⟨_, rfl, hends.1, fun _ => hends.2.1⟩⟩
      · intro t ht
        cases k with
        | auth =>
            simp only [Phase.negotiated] at ht
            split at ht <;> cases ht
        | pbsz | prot => cases ht
      · intro b hb
        cases k with
        | auth =>
            simp only [Phase.negotiated] at hb
            split at hb
            · exact .inl hb
            · cases hb
        | pbsz | prot => exact .inl hb
  | ownReply hne hend =>
      exact ⟨fun _ => id, (fun _ hb => by cases hb), fun _ => ⟨_, rfl, hne, fun _ => hend⟩⟩
  | forwarded hne | storSent hne | finalReply hne =>
      exact ⟨fun _ => id, (fun _ hb => by cases hb),
        fun _ => ⟨_, rfl, hne, fun hown => by cases hown⟩⟩
  | _ => exact ⟨(fun _ ht => by cases ht), (fun _ hb => by cases hb), (fun hgo => by cases hgo)⟩

theorem Whole.line {c : Conn} {r : LineRead} {rest : Bytes} {u : Unit} (hwhole : Whole cfg h s)
    (hc : s.phase.reads cfg = some c) (hr : Handed cfg.maxBytes s.stop s.pending r rest)
    (hnext : AfterLine cfg s.phase (s.phase.handed cfg r) rest ph') :
    Whole cfg (h ++ [⟨.line c (s.phase.handed cfg r), u⟩]) ⟨ph', rest, none, s.held⟩ := by
  obtain ⟨tls, rfl⟩ := Conn.eq_backend (reads_isBackend hc)
  obtain ⟨hcommand, hbanner, hgoes⟩ := lines_of_afterLine hnext
  obtain ⟨base, hbase, hacc⟩ := hwhole.account (not_isOver_of_reads hc)
  have hclient : linesFrom Conn.isClient (h ++ [⟨.line (.backend tls) (s.phase.handed cfg r), u⟩])
      = linesFrom Conn.isClient h := by
    cases s.phase.handed cfg r <;> simp
  have hterm : ∀ t, s.phase.handed cfg r = .text t → ph'.isOver = false →
      t ≠ [] ∧ Terminated (utf8 t) := by
    intro t ht hover
    obtain ⟨t', ht', hne, hown⟩ := hgoes hover
    obtain rfl : t' = t := LineRead.text.inj (ht'.symm.trans ht)
    exact ⟨hne, hwhole.terminated hr ht hne hown⟩
  have hlast : ∀ t, s.phase.handed cfg r = .text t → t ≠ [] →
      linesFrom Conn.isBackend (h ++ [⟨.line (.backend tls) (s.phase.handed cfg r), u⟩])
        = linesFrom Conn.isBackend h ++ [t] := by
    intro t ht hne
    generalize s.phase.handed cfg r = x at ht
    subst ht
    simp [hne]
  constructor
  · intro hover
    obtain ⟨t, ht, -, -⟩ := hgoes hover
    obtain ⟨-, hend⟩ := hterm t ht hover
    refine ⟨base ++ utf8 t, hbase.append hend, ?_⟩
    simp [hacc, pending_of_handed hr ht]
  · exact nofun
  · exact fun _ => rfl
  · rw [hclient]
    exact fun t ht => hwhole.command t (hcommand t ht)
  · intro b hb
    have hover : ph'.isOver = false := by cases ph' <;> first | rfl | cases hb
    rcases hbanner b hb with hwas | htext
    · obtain ⟨hmem, hend⟩ := hwhole.banner b hwas
      exact ⟨by simp [hmem], hend⟩
    · obtain ⟨hne, hend⟩ := hterm b htext hover
      rw [hlast b htext hne]
      exact ⟨by simp, endsWithNewline_of_terminated hend⟩
  · intro l hl
    have hover : ph'.isOver = false := by cases ph' <;> first | rfl | cases hl
    obtain ⟨htext, hne, -⟩ := toPass_of_line hnext hl
    rw [hlast l htext hne]
    exact ⟨by simp, endsWithNewline_of_terminated (hterm l htext hover).2⟩

theorem Whole.clientLine {r : LineRead} {u : Unit} (hwhole : Whole cfg h s)
    (hph : s.phase = .idle) (hnext : AfterClientLine r ph')
    (hcommand : WholeCommand h ⟨.line .client r, u⟩) :
    Whole cfg (h ++ [⟨.line .client r, u⟩]) { s with phase := ph' } := by
  have hrec : received Conn.isBackend (h ++ [⟨.line .client r, u⟩])
      = received Conn.isBackend h := by simp
  have hstop : s.stop = none := hwhole.reading (by rw [hph]; rfl)
  have hsilent : ph'.banner? = none ∧ ph'.toPass = none := by
    cases hnext <;> exact ⟨rfl, rfl⟩
  constructor
  · rw [hrec]
    exact fun _ => hwhole.account (by rw [hph]; rfl)
  · intro hwas
    rw [hstop] at hwas
    cases hwas
  · exact fun _ => hstop
  · intro t ht
    cases hnext with
    | line hne =>
        obtain rfl := Option.some.inj ht
        refine ⟨?_, hcommand _ u rfl hne⟩
        simp [hne]
    | _ => cases ht
  · intro b hb
    rw [hsilent.1] at hb
    cases hb
  · intro l hl
    rw [hsilent.2] at hl
    cases hl

theorem Whole.step (hwhole : Whole cfg h s) (hp : Reaches cfg h s)
    (he : cutsOff h e = false ∧ WholeCommand h e) (ht : Trans cfg s e s') :
    Whole cfg (h ++ [e]) s' := by
  cases ht with
  | read a hc hno hlen hstop => exact hwhole.read hp a hc hno hstop he.1
  | line u hc hr hnext => exact hwhole.line hc hr hnext
  | clientRead a hph =>
      exact hwhole.move (Event.bytesIn_off rfl a) (fun _ => rfl) rfl rfl (.inl rfl) id
        (fun _ => id) (fun _ => id) fun _ => id
  | clientLine u hph hnext => exact hwhole.clientLine hph hnext he.2
  | write a hw =>
      obtain ⟨hreads, hover, hcommand, hbanner, hreply⟩ := hw.keeps a
      exact hwhole.move rfl (fun _ => rfl) rfl rfl (.inr hreads) hover hcommand hbanner hreply
  | connected source hph =>
      exact hwhole.move rfl (fun _ => rfl) rfl rfl (.inr (by rw [hph]; rfl))
        (fun _ => by rw [hph]; rfl) nofun nofun nofun
  | startTls a hph hpend =>
      refine hwhole.move rfl (fun _ => rfl) rfl rfl (.inr (by rw [hph]; rfl))
        (fun _ => by rw [hph]; rfl) ?_ ?_ ?_
      · cases a <;> exact nofun
      · rw [hph]
        cases a with
        | ok u => exact fun _ => id
        | error k => exact nofun
      · cases a <;> exact nofun
  | startDataTls a hph =>
      refine hwhole.move rfl (fun _ => rfl) rfl rfl (.inr (by rw [hph]; rfl))
        (fun _ => by rw [hph]; rfl) ?_ ?_ ?_
      · rw [hph]
        cases a <;> exact fun _ => id
      all_goals cases a <;> exact nofun
  | relay client run hph =>
      refine hwhole.move rfl (fun _ => rfl) rfl rfl (.inr (by rw [hph]; rfl))
        (fun _ => by rw [hph]; rfl) ?_ nofun nofun
      rw [hph]
      exact fun _ => id
  | succeeded u hph hl =>
      exact hwhole.move rfl (fun _ => rfl) rfl rfl (.inl rfl) id (fun _ => id) (fun _ => id)
        fun _ => id
  | allocate a hph hstor hheld =>
      exact hwhole.move rfl (fun _ => rfl) rfl rfl (.inl rfl) id (fun _ => id) (fun _ => id)
        fun _ => id
  | release port u hph =>
      exact hwhole.move rfl (fun _ => rfl) rfl rfl (.inl rfl) id (fun _ => id) (fun _ => id)
        fun _ => id
  | book hbook =>
      exact hwhole.move (hbook.silent _).2.2 (fun on => (hbook.silent on).2.1) rfl rfl (.inl rfl)
        id (fun _ => id) (fun _ => id) fun _ => id

theorem whole_of_path (hp : Reaches cfg h s)
    (hwhole : Always (fun h e => cutsOff h e = false ∧ WholeCommand h e) h) : Whole cfg h s := by
  have hstart : Whole cfg [] Ctl.start := {
    account := fun _ => ⟨[], ⟨[], by simp, rfl⟩, rfl⟩
    stopped := fun hstop => by cases hstop
    reading := fun _ => rfl
    command := fun t ht => by cases ht
    banner := fun b hb => by cases hb
    reply := fun l hl => by cases hl }
  exact hp.invariant hstart (fun h s e s' hp hw he ht => hw.step hp he ht) hwhole

/-- Once its last line is on its way, a session is done with lines. -/
theorem silent_of_closing {b : Bytes} {m : Ctl} {t : History Io} (hp : Path (Trans cfg) m t s)
    (hclosing : m.phase = .closing b) :
    (s.phase = .closing b ∨ s.phase = .ended) ∧ (∀ on, linesFrom on t = []) ∧
      writesTo Conn.isBackend t = [] ∧ ∀ x ∈ writesTo Conn.isClient t, x = b := by
  induction hp with
  | nil => exact ⟨.inl hclosing, fun _ => rfl, rfl, nofun⟩
  | @snoc t s s' e hp ht ih =>
      obtain ⟨hph, hlines, hback, htold⟩ := ih
      have hover : s.phase.isOver = true := by
        rcases hph with hph | hph <;> rw [hph] <;> rfl
      rcases step_of_isOver hover ht with ⟨hsame, hw, hl⟩ | ⟨l, a, hwas, rfl, hended⟩
      · rw [hsame]
        exact ⟨hph, fun on => by simp [hlines, hl], by simp [hback, hw], by simpa [hw] using htold⟩
      · have hb : l = b := by
          rcases hph with hph | hph <;> rw [hwas] at hph <;> cases hph
          rfl
        refine ⟨.inr hended, fun on => by simp [hlines], by simp [hback], fun x hx => ?_⟩
        have hx' : x ∈ writesTo Conn.isClient t ∨ x = l := by simpa using hx
        exact hx'.elim (htold x) fun hx => hx.trans hb

/-- A part of a line is taken for the end of the connection. -/
theorem Whole.closing_of_cut {r : LineRead} {rest : Bytes} {t : Text}
    (hwhole : Whole cfg h s) (hr : Handed cfg.maxBytes s.stop s.pending r rest)
    (hnext : AfterLine cfg s.phase (s.phase.handed cfg r) rest ph')
    (htext : s.phase.handed cfg r = .text t) (hne : t ≠ []) (hcut : endsWithNewline t = false) :
    ph' = .closing serviceNotAvailable := by
  have hown : s.phase.isOwn = true := by
    by_contra hown
    have hterm := hwhole.terminated hr htext hne fun ho => absurd ho hown
    rw [endsWithNewline_of_terminated hterm] at hcut
    cases hcut
  rw [htext] at hnext
  generalize s.phase = ph at hnext hown
  cases hnext with
  | negotiationFailed hbad => rfl
  | negotiationMore hmore =>
      rw [hmore.2.1] at hcut
      cases hcut
  | negotiated hends =>
      rw [hends.2.1] at hcut
      cases hcut
  | ownReply hne hend =>
      rw [hend] at hcut
      cases hcut
  | ownReplyLost hlost => rfl
  | _ => cases hown

end Backend

/-! ## Whole sessions -/

/-- A session that acts on whole lines only. -/
structure OnlyWholeLines (cfg : SessionConfig) (H : History Io) : Prop where
  commands : ∀ t ∈ linesFrom Conn.isClient H, endsWithNewline t = true
  forwarded : ∀ h c b a rest, H = h ++ ⟨.write c b, a⟩ :: rest → Conn.isBackend c = true →
    b ∈ ownCommands ∨ ∃ t, (linesFrom Conn.isClient h).getLast? = some t ∧ b = utf8 t ∧
      endsWithNewline t = true
  relayed : ∀ h b a rest, H = h ++ ⟨.write .client b, a⟩ :: rest →
    IsGatewayReply cfg b ∨ ∃ l ∈ linesFrom Conn.isBackend h, b = utf8 l ∧ endsWithNewline l = true
  completed : ∀ h u rest, H = h ++ ⟨.metric .uploadSucceeded, u⟩ :: rest →
    ∃ l, (linesFrom Conn.isBackend h).getLast? = some l ∧ endsWithNewline l = true ∧
      (stripped l).head? = some '2'
  disconnected : ∀ h c t u rest, H = h ++ ⟨.line c (.text t), u⟩ :: rest → t ≠ [] →
    endsWithNewline t = false → (∀ on, linesFrom on rest = []) ∧
      writesTo Conn.isBackend rest = [] ∧
      ∀ b ∈ writesTo Conn.isClient rest, b = serviceNotAvailable

section Sessions

variable {cfg : SessionConfig} {h : History Io} {s s' : Ctl} {b : Bytes} {a : Except IoKind Unit}

theorem Whole.forwarded {c : Conn} (hwhole : Whole cfg h s)
    (ht : Trans cfg s ⟨.write c b, a⟩ s') (hc : Conn.isBackend c = true) :
    b ∈ ownCommands ∨ ∃ t, (linesFrom Conn.isClient h).getLast? = some t ∧ b = utf8 t ∧
      endsWithNewline t = true := by
  have hcommand := hwhole.command
  cases ht with
  | write _ hw =>
      generalize s.phase = ph at hw hcommand
      cases hw with
      | negotiate k banner => exact .inl (by cases k <;> decide)
      | passive hstor hheld hb => exact .inl (by rcases hb with rfl | rfl <;> decide)
      | @forward t hfwd hstor =>
          obtain ⟨hlast, hend⟩ := hcommand t rfl
          exact .inr ⟨t, hlast, rfl, hend⟩
      | @stor t hstor hheld =>
          obtain ⟨hlast, hend⟩ := hcommand t rfl
          exact .inr ⟨t, hlast, rfl, hend⟩
      | _ => cases hc
  | book he => cases he

theorem Whole.relayed (hwhole : Whole cfg h s) (hp : Reaches cfg h s)
    (ht : Trans cfg s ⟨.write .client b, a⟩ s') :
    IsGatewayReply cfg b ∨ ∃ l ∈ linesFrom Conn.isBackend h, b = utf8 l ∧
      endsWithNewline l = true := by
  have hbanner := hwhole.banner
  have hpass : ∀ l, s.phase.toPass = some l → l ∈ linesFrom Conn.isBackend h ∧
      endsWithNewline l = true := fun l hl =>
    ⟨List.mem_of_getLast? (hwhole.reply l hl).1, (hwhole.reply l hl).2⟩
  cases ht with
  | write _ hw =>
      generalize hph : s.phase = ph at hw hbanner hpass
      generalize hc : Conn.client = c at hw
      cases hw with
      | unconnected => exact .inl (.inr (.inl (.inl rfl)))
      | closing b => exact .inl (isGatewayReply_of_closing hp hph)
      | negotiate k banner => cases k <;> cases hc
      | greet banner =>
          obtain ⟨hmem, hend⟩ := hbanner banner rfl
          exact .inr ⟨banner, hmem, rfl, hend⟩
      | own hb => exact .inl (.inl hb)
      | @reply t l | @storReply t l | @complete t l =>
          obtain ⟨hmem, hend⟩ := hpass l rfl
          exact .inr ⟨l, hmem, rfl, hend⟩
      | _ => cases hc
  | book he => cases he

end Sessions

/-- **A session acts on whole lines only**, if no stream ends in the middle of a
line, the replies to the gateway's own commands apart. -/
theorem only_whole_lines (w : World) (cfg : SessionConfig) (n : Nat)
    (hstreams : Always (fun h e => !cutsOff h e) (history w cfg n)) :
    OnlyWholeLines cfg (history w cfg n) := by
  have hwhole : Always (fun h e => cutsOff h e = false) (history w cfg n) :=
    hstreams.mono fun h e he => by simpa using he
  have hcommand := always_wholeCommand (always_allowedStep w cfg n) (always_handsOut w cfg n) hwhole
  have hall : Always (fun h e => cutsOff h e = false ∧ WholeCommand h e) (history w cfg n) :=
    fun h e t heq => ⟨hwhole h e t heq, hcommand h e t heq⟩
  have hat : ∀ {h e rest}, history w cfg n = h ++ e :: rest →
      ∃ s₁ s₂ s, Whole cfg h s₁ ∧ Reaches cfg h s₁ ∧ Trans cfg s₁ e s₂ ∧
        Path (Trans cfg) s₂ rest s := by
    intro h e rest heq
    obtain ⟨s₁, s₂, s, hs₁, hstep, hrest, -⟩ := session_at heq
    rw [heq] at hall
    exact ⟨s₁, s₂, s, whole_of_path hs₁ hall.of_append, hs₁, hstep, hrest⟩
  constructor
  · intro t hmem
    obtain ⟨e, he, hline⟩ := List.mem_filterMap.mp hmem
    obtain ⟨h, rest, heq⟩ := List.append_of_mem he
    obtain ⟨u, rfl, hne⟩ := Event.eq_clientLine hline
    exact hcommand h _ rest heq t u rfl hne
  · intro h c b a rest heq hc
    obtain ⟨s₁, s₂, s, hw, -, hstep, -⟩ := hat heq
    exact hw.forwarded hstep hc
  · intro h b a rest heq
    obtain ⟨s₁, s₂, s, hw, hs₁, hstep, -⟩ := hat heq
    exact hw.relayed hs₁ hstep
  · intro h u rest heq
    obtain ⟨s₁, s₂, s, hw, -, hstep, -⟩ := hat heq
    cases hstep with
    | @succeeded t l _ hph hl =>
        obtain ⟨hlast, hend⟩ := hw.reply l (by rw [hph]; rfl)
        exact ⟨l, hlast, hend, hl⟩
    | book he =>
        cases he with
        | metric hm => exact absurd rfl hm
  · intro h c t u rest heq hne hcut
    obtain ⟨s₁, s₂, s, hw, -, hstep, hrest⟩ := hat heq
    have hclosing : s₂.phase = .closing serviceNotAvailable := by
      generalize he : (⟨.line c (.text t), u⟩ : Event) = e at hstep
      cases hstep with
      | @line c' r rest' ph' _ hc hr hnext =>
          have hreq := congrArg Exchange.req he
          simp only [Req.line.injEq] at hreq
          exact hw.closing_of_cut hr hnext hreq.2.symm hne hcut
      | clientLine _ hph hnext =>
          cases he
          rw [hcommand h _ rest heq t _ rfl hne] at hcut
          cases hcut
      | book hbook =>
          subst he
          cases hbook
      | _ => cases he
    obtain ⟨-, hlines, hback, htold⟩ := silent_of_closing hrest hclosing
    exact ⟨hlines, hback, htold⟩

/-- A client that leaves after a whole line, with a backend that does not. -/
def politeClient : Script where
  client := [Script.chunk "NOOP\r\nNO".toList, Script.chunk "OP\r\n".toList, .eof]
  backend := [Script.chunk "220 hi\r\n".toList, Script.chunk "200 ok\r\n200 ok\r\n".toList]
  data := sampleArrival
  relay := ⟨0, []⟩

theorem only_whole_lines_polite :
    (history politeClient.world (sampleSession false) 3).any Script.isClientEof = true ∧
      writesTo Conn.isBackend (history politeClient.world (sampleSession false) 3)
        = [utf8 "NOOP\r\n".toList, utf8 "NOOP\r\n".toList] ∧
      OnlyWholeLines (sampleSession false) (history politeClient.world (sampleSession false) 3) :=
  ⟨by decide +kernel, by decide +kernel, only_whole_lines _ _ _ (always_of_check (by decide +kernel))⟩

/-- An upload whose backend goes away in the middle of its last reply. -/
def cutCompletion : Script where
  client := [Script.chunk "PASV\r\nSTOR a\r\n".toList]
  backend := [Script.chunk "220 hi\r\n".toList, Script.chunk "227 ok (10,0,0,2,8,73)\r\n".toList,
    Script.chunk "150 go\r\n2".toList, .eof]
  data := sampleArrival
  relay := ⟨0, [⟨1, .up, [.read [1, 2], .wrote 2, .read [], .shut], [.read [], .shut]⟩]⟩

/-- A client that goes away in the middle of a command. -/
def cutCommand : Script where
  client := [Script.chunk "STOR report.t".toList, .eof]
  backend := [Script.chunk "220 hi\r\n".toList]
  data := sampleArrival
  relay := ⟨0, []⟩

/-- **Parts of lines are acted on**: half a file name is passed on to the
backend, and one digit of a reply counts as a completed upload. -/
theorem cut_off_lines_acted_on :
    (¬OnlyWholeLines (sampleSession false) (history cutCommand.world (sampleSession false) 2) ∧
      writesTo Conn.isBackend (history cutCommand.world (sampleSession false) 2)
        = [utf8 "STOR report.t".toList]) ∧
    (linesFrom Conn.isBackend (history cutCompletion.world (sampleSession false) 3)).getLast?
        = some "2".toList ∧
      (history cutCompletion.world (sampleSession false) 3).any
        (fun e => e.req = .metric .uploadSucceeded) = true ∧
      (writesTo Conn.isClient (history cutCompletion.world (sampleSession false) 3)).getLast?
        = some (utf8 "2".toList) := by
  refine ⟨⟨fun hwhole => ?_, by decide +kernel⟩, by decide +kernel, by decide +kernel,
    by decide +kernel⟩
  have hend := hwhole.commands "STOR report.t".toList (by decide +kernel)
  exact absurd hend (by decide)

end FtpGateway
