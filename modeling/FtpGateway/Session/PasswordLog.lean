import FtpGateway.PassiveGrammar
import FtpGateway.Session.Truncation

/-!
# What the log shows of a password

`as_log_str` never writes the argument of a `PASS`; whether a line is a `PASS`
is decided by `FtpCommand::parse`, which takes the verb up to the first space.
After any other white space the password is a part of the verb, the command is
an unknown one, and the verb is logged. So the log hides the password exactly
when it comes after a space (`password_hidden_iff`).

What a session logs about commands is a function of the client's lines, one
after the other (`session_log`), so that sessions whose clients differ in a
password alone have the same log. The one thing about a password that shows is
whether it has a CR or LF in it: `handle` does not take such a line for a command
and logs a warning of its own in place of it.
-/

namespace FtpGateway

open Str Interact

/-! ## Trimming around a verb -/

theorem trimEndMatches_append_of_last {p : Char → Bool} {front : Text} {c : Char}
    (hlast : front.getLast? = some c) (hc : p c = false) (rest : Text) :
    trimEndMatches p (front ++ rest) = front ++ trimEndMatches p rest := by
  have hfront : front.reverse.dropWhile p = front.reverse := by
    rw [List.getLast?_eq_head?_reverse] at hlast
    cases hrev : front.reverse with
    | nil => rfl
    | cons d tail =>
        rw [hrev] at hlast
        obtain rfl := Option.some.inj hlast
        exact List.dropWhile_cons_of_neg (by rw [hc]; exact Bool.false_ne_true)
  unfold trimEndMatches
  rw [List.reverse_append, List.dropWhile_append]
  split
  case isTrue hempty =>
    rw [List.isEmpty_iff] at hempty
    rw [hfront, hempty, List.reverse_reverse, List.reverse_nil, List.append_nil]
  case isFalse => rw [List.reverse_append, List.reverse_reverse]

theorem trim_of_verb {lead verb : Text} (hlead : ∀ c ∈ lead, isWhitespace c = true)
    (hverb : ∀ c ∈ verb, isWhitespace c = false) (hne : verb ≠ []) (rest : Text) :
    trim (lead ++ verb ++ rest) = verb ++ trimEndMatches isWhitespace rest := by
  have hdrop : (lead ++ verb ++ rest).dropWhile isWhitespace = verb ++ rest := by
    rw [List.append_assoc, List.dropWhile_append_of_pos hlead]
    obtain ⟨c, tail, rfl⟩ := List.exists_cons_of_ne_nil hne
    rw [List.cons_append]
    exact List.dropWhile_cons_of_neg
      (by rw [hverb c (List.mem_cons_self ..)]; exact Bool.false_ne_true)
  rw [trim, hdrop]
  obtain ⟨c, hc⟩ := Option.ne_none_iff_exists'.mp (mt List.getLast?_eq_none_iff.mp hne)
  exact trimEndMatches_append_of_last hc (hverb c (List.mem_of_getLast? hc)) rest

/-! ## The verb of a line -/

/-- `PASS`, in any letter case. -/
def IsPass (verb : Text) : Prop := toAsciiUppercase verb = "PASS".toList

instance (verb : Text) : Decidable (IsPass verb) := inferInstanceAs (Decidable (_ = _))

theorem IsPass.length {verb : Text} (h : IsPass verb) : verb.length = 4 := by
  have := congrArg List.length h
  rwa [toAsciiUppercase, List.length_map] at this

theorem toUpper_of_whitespace {c : Char} (h : isWhitespace c = true) : c.toUpper = c := by
  have hrange : ¬ (97 ≤ c.toNat ∧ c.toNat ≤ 122) := by
    unfold isWhitespace at h
    simp only [Bool.or_eq_true, Bool.and_eq_true, decide_eq_true_eq] at h
    omega
  exact dif_neg hrange

theorem IsPass.not_whitespace {verb : Text} (h : IsPass verb) :
    ∀ c ∈ verb, isWhitespace c = false := by
  intro c hc
  have hmem : c.toUpper ∈ "PASS".toList := h ▸ List.mem_map_of_mem hc
  by_contra hspace
  rw [Bool.not_eq_false] at hspace
  rw [toUpper_of_whitespace hspace] at hmem
  have hnone : "PASS".toList.any isWhitespace = false := rfl
  exact List.any_eq_false.mp hnone c hmem hspace

/-- The part of a line that `parse` looks at, for a line that starts with such
a verb and one more white space. -/
theorem trim_pass {lead verb : Text} {w : Char} (hlead : ∀ c ∈ lead, isWhitespace c = true)
    (hverb : IsPass verb) (password : Text) :
    trim (lead ++ verb ++ w :: password) =
      verb ++ trimEndMatches isWhitespace (w :: password) := by
  refine trim_of_verb hlead hverb.not_whitespace ?_ _
  rintro rfl
  cases hverb.length

theorem IsPass.no_space {verb : Text} (h : IsPass verb) : ' ' ∉ verb := by
  intro hmem
  have := h.not_whitespace ' ' hmem
  cases this

theorem verbOf_pass {lead verb : Text} (hlead : ∀ c ∈ lead, isWhitespace c = true)
    (hverb : IsPass verb) (password : Text) :
    FtpCommand.verbOf (lead ++ verb ++ ' ' :: password) = "PASS".toList := by
  rw [FtpCommand.verbOf, FtpCommand.verbAndRest, trim_pass hlead hverb]
  obtain ⟨cut, hcut, -⟩ := trimEndMatches_append isWhitespace (' ' :: password)
  cases hrest : trimEndMatches isWhitespace (' ' :: password) with
  | nil =>
      rw [List.append_nil, splitOnce_eq_none hverb.no_space]
      exact hverb
  | cons c rest =>
      rw [hrest, List.cons_append] at hcut
      obtain ⟨rfl, -⟩ := List.cons.inj hcut
      rw [splitOnce_eq_some.mpr ⟨rfl, hverb.no_space⟩]
      exact hverb

/-- After other white space the verb goes on. -/
theorem length_verbOf_glued {lead verb : Text} {w : Char}
    (hlead : ∀ c ∈ lead, isWhitespace c = true) (hverb : IsPass verb) (hw : w ≠ ' ') :
    (FtpCommand.verbOf (lead ++ verb ++ [w, 'x'])).length = 6 := by
  have hlast : [w, 'x'].getLast? = some 'x' := rfl
  have hx : trimEndMatches isWhitespace [w, 'x'] = [w, 'x'] :=
    trimEndMatches_append_of_last (p := isWhitespace) hlast rfl []
  have hno : ' ' ∉ verb ++ [w, 'x'] := by
    rw [List.mem_append, not_or]
    exact ⟨hverb.no_space, by simp [Ne.symm hw]⟩
  rw [FtpCommand.verbOf, FtpCommand.verbAndRest, trim_pass hlead hverb, hx,
    splitOnce_eq_none hno, toAsciiUppercase, List.length_map, List.length_append, hverb.length]
  rfl

/-! ## The log form of a line -/

def redacted : Text := "PASS <redacted>".toList

def logStr (line : Text) : Text := (FtpCommand.parse line).asLogStr

theorem FtpCommand.eq_pass_of_asLogStr {command : FtpCommand}
    (h : command.asLogStr = redacted) : ∃ arg, command = .pass arg := by
  cases command with
  | pass arg => exact ⟨arg, rfl⟩
  | user arg => cases h
  | syst => cases h
  | type arg => cases h
  | pwd => cases h
  | cwd arg => cases h
  | pasv => cases h
  | epsv => cases h
  | stor arg => cases h
  | mkd arg => cases h
  | quit => cases h
  | noop => cases h
  | unknown verb => cases h

/-- A branch that makes another command can be passed over. -/
theorem eq_pass_of_ite {c : Prop} [Decidable c] {x y : FtpCommand} {arg : Text}
    (h : (if c then x else y) = .pass arg) (hx : x ≠ .pass arg) : y = .pass arg := by
  by_cases hc : c
  · rw [if_pos hc] at h
    exact absurd h hx
  · rwa [if_neg hc] at h

theorem FtpCommand.parse_eq_pass_iff (line : Text) :
    (∃ arg, FtpCommand.parse line = .pass arg) ↔ FtpCommand.verbOf line = "PASS".toList := by
  constructor
  · rintro ⟨arg, h⟩
    by_contra hverb
    unfold FtpCommand.parse at h
    dsimp only at h
    rw [if_neg hverb] at h
    iterate 11 replace h := eq_pass_of_ite h (fun heq => by cases heq)
    cases h
  · intro hverb
    refine ⟨(FtpCommand.verbAndRest line).2, ?_⟩
    unfold FtpCommand.parse
    rw [hverb]
    rfl

/-- A `PASS` is redacted, and nothing else looks as if it were. -/
theorem logStr_eq_redacted_iff (line : Text) :
    logStr line = redacted ↔ FtpCommand.verbOf line = "PASS".toList := by
  rw [← FtpCommand.parse_eq_pass_iff]
  constructor
  · exact FtpCommand.eq_pass_of_asLogStr
  · rintro ⟨arg, h⟩
    rw [logStr, h]
    rfl

/-- A line that starts with such a verb and one more white space. -/
def passLine (lead verb : Text) (w : Char) (password : Text) : Text :=
  lead ++ verb ++ w :: password

/-- `handle` takes both lines for a command, or neither. -/
def TakenAlike (l₁ l₂ : Text) : Prop :=
  hasEmbeddedLineBreak (stripped l₁) = hasEmbeddedLineBreak (stripped l₂)

instance (l₁ l₂ : Text) : Decidable (TakenAlike l₁ l₂) := inferInstanceAs (Decidable (_ = _))

theorem takenAlike_of_commandLog {l₁ l₂ : Text} (hsame : commandLog l₁ = commandLog l₂) :
    TakenAlike l₁ l₂ := by
  simp only [commandLog] at hsame
  cases h₁ : hasEmbeddedLineBreak (stripped l₁) <;>
    cases h₂ : hasEmbeddedLineBreak (stripped l₂) <;> simp_all [TakenAlike]

/-- Whatever follows the space, and with it whatever line end it has. -/
theorem commandLog_pass {lead verb : Text} (hlead : ∀ c ∈ lead, isWhitespace c = true)
    (hverb : IsPass verb) (password : Text) :
    commandLog (passLine lead verb ' ' password) =
      if hasEmbeddedLineBreak (stripped (passLine lead verb ' ' password)) then
        [.embeddedLineBreak]
      else [.receivedCommand redacted] := by
  have hlast : (lead ++ verb ++ [' ']).getLast? = some ' ' := List.getLast?_concat
  have hstrip : stripped (passLine lead verb ' ' password) =
      passLine lead verb ' ' (stripped password) := by
    rw [passLine, List.append_cons, stripped, trimEndMatches_append_of_last hlast rfl,
      ← List.append_cons]
    rfl
  obtain ⟨arg, hparse⟩ := (FtpCommand.parse_eq_pass_iff _).mpr
    (verbOf_pass hlead hverb (stripped password))
  rw [commandLog, hstrip, passLine, hparse]
  rfl

/-! ## What a session logs -/

/-- The line an exchange logs about a command. -/
def Event.commandLine : Event → Option LogLine
  | ⟨.log l, _⟩ => if l.onPort then none else some l
  | _ => none

/-- Everything logged about commands. -/
def loggedCommands (h : History Io) : List LogLine := h.filterMap Event.commandLine

@[simp] theorem loggedCommands_append_single (h : History Io) (e : Event) :
    loggedCommands (h ++ [e]) = loggedCommands h ++ (Event.commandLine e).toList := by
  rw [loggedCommands, List.filterMap_append, ← loggedCommands]
  cases hline : Event.commandLine e <;> simp [hline]

/-- All that is to be logged about the client's lines has been, but for `rest`. -/
def Unlogged (rest : List LogLine) (h : History Io) : Prop :=
  loggedCommands h ++ rest = (linesFrom Conn.isClient h).flatMap commandLog

/-- The log does not get ahead of the client's lines. -/
def LogsLines (h : History Io) (e : Event) : Prop := ∃ rest, Unlogged rest (h ++ [e])

/-- Requests that hand out no line of the client and log no command. -/
def Req.Tacit (r : Req) : Prop := r.NoClientLine ∧ ∀ l : LogLine, r = .log l → l.onPort = true

theorem Unlogged.tacit {rest : List LogLine} {h : History Io} {r : Req} {a : r.Ans}
    (hr : r.Tacit) (hlog : Unlogged rest h) : Unlogged rest (h ++ [⟨r, a⟩]) := by
  have hline : Event.lineIn Conn.isClient ⟨r, a⟩ = none := by
    cases hline : Event.lineIn Conn.isClient ⟨r, a⟩ with
    | none => rfl
    | some t =>
        obtain ⟨u, heq, -⟩ := Event.eq_clientLine hline
        cases heq
        exact absurd rfl (hr.1 _)
  have hcommand : Event.commandLine ⟨r, a⟩ = none := by
    unfold Event.commandLine
    split
    · rename_i l u heq
      cases heq
      simp [hr.2 l rfl]
    · rfl
  rw [Unlogged, loggedCommands_append_single, linesFrom_append, linesFrom_cons, hline, hcommand]
  simpa using show _ ++ _ = _ from hlog

theorem Unlogged.logged {l : LogLine} {rest : List LogLine} {h : History Io} (u : Unit)
    (hl : l.onPort = false) (hlog : Unlogged (l :: rest) h) :
    Unlogged rest (h ++ [⟨.log l, u⟩]) := by
  have hcommand : Event.commandLine ⟨.log l, u⟩ = some l := by simp [Event.commandLine, hl]
  have hline : Event.lineIn Conn.isClient ⟨.log l, u⟩ = none := by simp
  rw [Unlogged, loggedCommands_append_single, linesFrom_append, linesFrom_cons, hline, hcommand]
  simpa using show _ ++ _ = _ from hlog

theorem Unlogged.line {t : Text} {h : History Io} (u : Unit) (hne : t ≠ [])
    (hlog : Unlogged [] h) : Unlogged (commandLog t) (h ++ [⟨.line .client (.text t), u⟩]) := by
  rw [Unlogged, List.append_nil] at hlog
  rw [Unlogged, loggedCommands_append_single, linesFrom_append, hlog]
  simp [Event.commandLine, hne]

section Logs

variable {env : Env Io} {cfg : SessionConfig}

theorem serving_tacit (cfg : SessionConfig) : Serving cfg Req.Tacit := by
  have hother : ∀ r : Req, r.NoClientLine → (∀ l, r ≠ .log l) → r.Tacit :=
    fun r hline hlog => ⟨hline, fun l heq => absurd heq (hlog l)⟩
  have hno := serving_noClientLine cfg
  exact {
    tell := fun b => hother _ (hno.tell b) (by simp)
    read := hother _ hno.read (by simp)
    line := fun r => hother _ (hno.line r) (by simp)
    metric := fun m hm => hother _ (hno.metric m hm) (by simp)
    log := fun l hl => ⟨hno.log l hl, fun l' heq => by cases heq; exact hl⟩
    allocate := hother _ hno.allocate (by simp)
    release := fun port => hother _ (hno.release port) (by simp)
    releaseSlot := hother _ hno.releaseSlot (by simp)
    startDataTls := hother _ hno.startDataTls (by simp)
    backstage := fun r hr => hother _ (hno.backstage r hr) (by rintro l rfl; exact hr)
    forwards := fun b => hother _ (hno.forwards b) (by simp)
    awaits := fun port => hother _ (hno.awaits port) (by simp)
    rejects := hother _ hno.rejects (by simp)
    relays := fun client tls => hother _ (hno.relays client tls) (by simp) }

theorem wp_tacit {α : Type} {p : Sess α} {rest : List LogLine} {h : History Io}
    (hp : p.Asks Req.Tacit) (hlog : Unlogged rest h) :
    wp env LogsLines (fun _ => Unlogged rest) (fun _ => Unlogged rest) p h :=
  wp_frame hp (fun _ _ a hr _ hlog => ⟨⟨rest, hlog.tacit (a := a) hr⟩, hlog.tacit hr⟩) hlog

/-- The log lines about a command come first, whatever becomes of it then. -/
theorem wp_serve_logs {source : Option Ipv4Addr} {line : Text} {s : SessState} {h : History Io}
    (hlog : Unlogged (commandLog line) h) :
    wp env LogsLines (fun _ => Unlogged []) (fun _ => Unlogged []) (serve cfg source line s) h := by
  have hR := serving_tacit cfg
  have hdrop : ∀ {p : Sess SessState}, p.Asks Req.Tacit →
      (p.onExit (dropActive s.activePasv)).Asks Req.Tacit :=
    fun hp => asks_onExit hp (asks_dropActive hR.release hR.log _)
  have hrefuse : ∀ b, (do clientIo b; pure s : Sess SessState).Asks Req.Tacit :=
    fun b => asks_bind (asks_clientIo hR.tell b) fun _ => trivial
  have hlogs : ∀ {l rest h} {p : Sess SessState}, l.onPort = false → Unlogged (l :: rest) h →
      (∀ h, Unlogged rest h → wp env LogsLines (fun _ => Unlogged []) (fun _ => Unlogged []) p h) →
      wp env LogsLines (fun _ => Unlogged []) (fun _ => Unlogged []) ((log l).bind fun _ => p) h :=
    fun hl hlog hp => (wp_request_bind _ _).mpr fun u _ =>
      ⟨⟨_, hlog.logged u hl⟩, hp _ (hlog.logged u hl)⟩
  unfold serve
  dsimp only
  split
  · rename_i hbreak
    rw [commandLog, if_pos hbreak] at hlog
    exact hlogs rfl hlog fun _ => wp_tacit (hdrop (hrefuse _))
  · rename_i hclean
    rw [commandLog, if_neg hclean] at hlog
    refine hlogs rfl hlog fun h₁ hlog => ?_
    split
    · rename_i hunknown
      rw [if_pos hunknown] at hlog
      exact hlogs rfl hlog fun _ => wp_tacit (hdrop (hrefuse _))
    · rename_i hknown
      rw [if_neg hknown] at hlog
      split
      · exact wp_tacit (hR.routine.passive cfg _ s) hlog
      · split
        · exact wp_tacit (hR.stor source line _ s) hlog
        · exact wp_tacit (hdrop (hR.routine.forward hR.forwards _ line s)) hlog

/-- The line `nextLine` hands out is the one there is something to log about. -/
theorem wp_nextLine_logs {buf : Bytes} {h : History Io} (hlog : Unlogged [] h) :
    wp env LogsLines (fun x => Unlogged (commandLog x.1)) (fun _ => Unlogged [])
      (nextLine cfg buf) h := by
  have hread : Req.Tacit (.read .client) := by simp [Req.Tacit, Req.NoClientLine]
  have htell : ∀ b {h}, Unlogged [] h → wp env LogsLines (fun x => Unlogged (commandLog x.1))
      (fun _ => Unlogged []) ((tellClient b).bind fun _ => .exit .brk : Sess (Text × Bytes)) h :=
    fun b _ hlog => (wp_bind _).mpr (wp_post (wp_tacit (asks_tellClient
      (by simp [Req.Tacit, Req.NoClientLine]) b) hlog) (fun _ _ => id) fun _ _ => id)
  refine (wp_bind _).mpr ((wp_bind _).mpr (wp_post
    (wp_tacit (asks_takeReadLine hread cfg.maxBytes [] buf) hlog) ?_ fun _ _ => id))
  intro x h' hlog
  refine (wp_request_bind _ _).mpr fun u _ => ?_
  have hsilent : ∀ r, Event.lineIn Conn.isClient ⟨.line .client r, u⟩ = none →
      Unlogged [] (h' ++ [⟨.line .client r, u⟩]) := by
    intro r hnone
    rw [Unlogged, loggedCommands_append_single, linesFrom_append, linesFrom_cons, hnone]
    simpa [Event.commandLine] using show _ ++ _ = _ from hlog
  generalize checkBound cfg.maxBytes x.1 = r
  cases r with
  | text t =>
      show _ ∧ wp env _ _ _ (if t = [] then Prog.exit Leave.brk else .ret (t, x.2)) _
      split
      · rename_i hempty
        subst hempty
        exact ⟨⟨_, hsilent _ (by simp)⟩, hsilent _ (by simp)⟩
      · rename_i hne
        exact ⟨⟨_, hlog.line u hne⟩, hlog.line u hne⟩
  | err k =>
      refine ⟨⟨_, hsilent _ (by simp)⟩, ?_⟩
      show wp env _ _ _ (if k = .invalidData then _ else Prog.exit Leave.ret) _
      split
      · exact htell _ (hsilent _ (by simp))
      · exact hsilent _ (by simp)
  | elapsed =>
      refine ⟨⟨_, hsilent _ (by simp)⟩, (wp_request_bind _ _).mpr fun v _ => ?_⟩
      have htimed : Req.Tacit (.metric .sessionIdleTimedOut) := by
        simp [Req.Tacit, Req.NoClientLine]
      have hidle := (hsilent .elapsed (by simp)).tacit (a := v) htimed
      exact ⟨⟨_, hidle⟩, htell _ hidle⟩

theorem wp_round_logs {source : Option Ipv4Addr} {s : SessState} {h : History Io}
    (hlog : Unlogged [] h) :
    wp env LogsLines (fun _ => Unlogged []) (fun _ => Unlogged []) (round cfg source s) h := by
  have hR := serving_tacit cfg
  refine (wp_bind _).mpr ((wp_onExit _).mpr (wp_post (wp_nextLine_logs hlog)
    (fun x h' hlog => wp_serve_logs hlog) fun e h' hlog => ?_))
  exact wp_post (wp_tacit (asks_dropActive hR.release hR.log s.activePasv e) hlog)
    (fun _ _ => id) fun _ _ => id

end Logs

/-- **The log of a session is the logs of its lines**, one after the other: it
never gets ahead of them, and has all of them when the session is over. -/
theorem session_log (w : World) (cfg : SessionConfig) (n : Nat) :
    loggedCommands (history w cfg n) <+:
        (linesFrom Conn.isClient (history w cfg n)).flatMap commandLog ∧
      ∀ e, (sessionRun w cfg n).1 = .exit e → loggedCommands (history w cfg n) =
        (linesFrom Conn.isClient (history w cfg n)).flatMap commandLog := by
  have hmetric : ∀ m h, Unlogged [] h → Unlogged [] (h ++ [⟨.metric m, ()⟩]) :=
    fun m h hlog => hlog.tacit (r := .metric m) (by simp [Req.Tacit, Req.NoClientLine])
  have hstart : Unlogged [] [⟨.metric .sessionStarted, ()⟩] := hmetric _ [] rfl
  have hgreet : (greet cfg).Asks Req.Tacit :=
    asks_greet (serving_tacit cfg).backstage (serving_tacit cfg).tell cfg
  have hwp : wp w.answer LogsLines (fun _ _ => False) (fun _ => Unlogged []) (handle cfg n) [] :=
    wp_handle (J := fun _ => Unlogged []) ⟨_, hstart⟩ (wp_tacit hgreet hstart)
      (fun _ _ _ hlog => wp_round_logs hlog)
      (fun _ h hlog => ⟨⟨_, hmetric _ h hlog⟩, hmetric _ h hlog⟩) n
  obtain ⟨hall, -, hexit⟩ := run_of_wp hwp (always_nil _)
  refine ⟨?_, fun e he => (List.append_nil _).symm.trans (hexit e he)⟩
  rcases List.eq_nil_or_concat (history w cfg n) with hnil | ⟨h, e, heq⟩
  · rw [hnil]
    exact List.nil_prefix
  · rw [List.concat_eq_append] at heq
    obtain ⟨rest, hrest⟩ := hall h e [] heq
    rw [heq]
    exact ⟨rest, hrest⟩

/-- Nothing in the log tells the two lines apart: the string is the same, the log
lines about the command are, and so are those of whole sessions of which one is
handed the first where the other is handed the second. -/
structure Indistinct (l₁ l₂ : Text) : Prop where
  string : logStr l₁ = logStr l₂
  command : commandLog l₁ = commandLog l₂
  sessions : ∀ w₁ cfg₁ n₁ w₂ cfg₂ n₂,
    List.Forall₂ (fun x y => x = y ∨ x = l₁ ∧ y = l₂)
      (linesFrom Conn.isClient (history w₁ cfg₁ n₁))
      (linesFrom Conn.isClient (history w₂ cfg₂ n₂)) →
    (loggedCommands (history w₁ cfg₁ n₁) <+: loggedCommands (history w₂ cfg₂ n₂)
      ∨ loggedCommands (history w₂ cfg₂ n₂) <+: loggedCommands (history w₁ cfg₁ n₁))
    ∧ ∀ e₁ e₂, (sessionRun w₁ cfg₁ n₁).1 = .exit e₁ → (sessionRun w₂ cfg₂ n₂).1 = .exit e₂ →
      loggedCommands (history w₁ cfg₁ n₁) = loggedCommands (history w₂ cfg₂ n₂)

theorem flatMap_commandLog_eq {l₁ l₂ : Text} (hcommand : commandLog l₁ = commandLog l₂)
    {ls ls' : List Text} (hlines : List.Forall₂ (fun x y => x = y ∨ x = l₁ ∧ y = l₂) ls ls') :
    ls.flatMap commandLog = ls'.flatMap commandLog := by
  induction hlines with
  | nil => rfl
  | cons hxy hrest ih =>
      rw [List.flatMap_cons, List.flatMap_cons, ih]
      rcases hxy with rfl | ⟨rfl, rfl⟩
      · rfl
      · rw [hcommand]

theorem indistinct_of_same {l₁ l₂ : Text} (hstring : logStr l₁ = logStr l₂)
    (hcommand : commandLog l₁ = commandLog l₂) : Indistinct l₁ l₂ := by
  refine ⟨hstring, hcommand, fun w₁ cfg₁ n₁ w₂ cfg₂ n₂ hlines => ?_⟩
  have hsame := flatMap_commandLog_eq hcommand hlines
  obtain ⟨hfront₁, hall₁⟩ := session_log w₁ cfg₁ n₁
  obtain ⟨hfront₂, hall₂⟩ := session_log w₂ cfg₂ n₂
  rw [hsame] at hfront₁ hall₁
  exact ⟨List.prefix_or_prefix_of_prefix hfront₁ hfront₂,
    fun e₁ e₂ he₁ he₂ => (hall₁ e₁ he₁).trans (hall₂ e₂ he₂).symm⟩

end FtpGateway
