import FtpGateway.Session.Footprint

/-!
# The write-only allow-list

What a session writes to the backend control connection, cut at every line
break, is nothing but commands of the gateway's own and client lines with one
of ten verbs (`backend_sees_only_allowed_commands`).

The argument follows the client's byte stream. Between commands everything
received is whole lines and a buffer (`Between`); the reader takes the next
line off the buffer (`InHand`), and only a line in hand is ever written to the
backend. A last line without its line feed can be passed on as well, but only
once the client has closed its side, and then nothing is written after it: so
no line is ever continued by another.
-/

namespace FtpGateway

open Str Interact

/-! ## Reading the next command -/

/-- A client line as `nextLine` hands it out: it follows `base` in the stream,
and has its line feed unless the client has closed its side. -/
structure NextLine (base : Bytes) (t : Text) (buf : Bytes) (h : History Io) : Prop where
  nonempty : t ≠ []
  account : received Conn.isClient h = base ++ utf8 t ++ buf
  ended : Terminated (utf8 t) ∨ (lf ∉ utf8 t ∧ ClientClosed h ∧ buf = [])

/-- A line the session is handed has its place in the client's stream. -/
def HandsOut (B : Bytes → Prop) (h : History Io) (e : Event) : Prop :=
  ∀ t u, e = ⟨.line .client (.text t), u⟩ → t ≠ [] →
    ∃ base buf, B base ∧ NextLine base t buf h

theorem handsOut_other {B : Bytes → Prop} {h : History Io} {r : Req} {a : r.Ans}
    (hr : ∀ x, r ≠ .line .client x) : HandsOut B h ⟨r, a⟩ := by
  intro t u heq
  cases heq
  exact absurd rfl (hr _)

theorem wp_nextLine {env : Env Io} {Φ : History Io → Event → Prop} {I : History Io → Prop}
    {cfg : SessionConfig} {base buf : Bytes} {h : History Io}
    (hask : ∀ h r a, r.ReadsClient → env h r = some a → I h →
      Φ h ⟨r, a⟩ ∧ I (h ++ [⟨r, a⟩]))
    (hI : I h) (hrec : received Conn.isClient h = base ++ buf) :
    wp env (fun h e => Φ h e ∧ HandsOut (· = base) h e)
      (fun x h' => NextLine base x.1 x.2 h' ∧ I h') (fun _ => I) (nextLine cfg buf) h := by
  have hask' : ∀ h r a, r.ReadsClient → (∀ x, r ≠ .line .client x) → env h r = some a → I h →
      (Φ h ⟨r, a⟩ ∧ HandsOut (· = base) h ⟨r, a⟩) ∧ I (h ++ [⟨r, a⟩]) := by
    intro h r a hr hno ha hI
    obtain ⟨hphi, hI'⟩ := hask h r a hr ha hI
    exact ⟨⟨hphi, handsOut_other hno⟩, hI'⟩
  have htell : ∀ {h} b, I h → wp env (fun h e => Φ h e ∧ HandsOut (· = base) h e) (fun _ => I)
      (fun _ => I) ((tellClient b).bind fun _ => .exit .brk : Sess (Text × Bytes)) h := by
    intro h b hI
    refine wp_frame (asks_bind (asks_tellClient (R := fun r => ∃ b, r = .write .client b) ?_ b)
      fun _ => trivial) ?_ hI
    · exact fun b => ⟨b, rfl⟩
    · rintro h _ a ⟨b, rfl⟩ ha hI
      exact hask' h _ a trivial (by simp) ha hI
  have hline : wp env (fun h e => Φ h e ∧ HandsOut (· = base) h e)
      (fun x h' => BoundedAccount .client base x.1 x.2 h' ∧ I h')
      (fun _ => I) (readLineBounded .client cfg.maxBytes buf) h := by
    refine wp_readLineBounded (fun h a hI ha => hask' h (.read .client) a trivial (by simp) ha hI)
      (fun h r buf' a hI hacc ha => ?_) hI hrec
    obtain ⟨hphi, hI'⟩ := hask h (.line .client r) a trivial ha hI
    refine ⟨⟨hphi, fun t u heq hne => ?_⟩, hI'⟩
    cases heq
    obtain ⟨hrec', hend⟩ := hacc t rfl
    exact ⟨base, buf', rfl, hne, hrec', hend⟩
  refine (wp_bind _).mpr (wp_post hline ?_ fun _ _ => id)
  intro x h' hx
  obtain ⟨r, buf'⟩ := x
  obtain ⟨hacc, hI'⟩ := hx
  cases r with
  | text t =>
      obtain ⟨hrec', hend⟩ := hacc t rfl
      dsimp only
      split
      · exact hI'
      · rename_i hne
        exact ⟨⟨hne, hrec', hend⟩, hI'⟩
  | err k =>
      dsimp only
      split
      · exact htell _ hI'
      · exact hI'
  | elapsed =>
      intro v hv
      obtain ⟨hphi, hI''⟩ := hask' _ (.metric .sessionIdleTimedOut) v trivial (by simp) hv hI'
      exact ⟨hphi, htell _ hI''⟩

/-! ## The invariant -/

def EndsLf (b : Bytes) : Prop := ∃ body, b = body ++ [lf]

/-- What the session passes on: a line without breaks inside and with an
allowed verb. -/
def Forwardable (t : Text) : Prop :=
  hasEmbeddedLineBreak (stripped t) = false ∧ FtpCommand.verbOf (stripped t) ∈
    FtpCommand.forwardedVerbs

/-- The client's stream was used up in whole lines. -/
def WholeLines (base : Bytes) : Prop := ∃ ls : List Bytes, (∀ l ∈ ls, Terminated l)
  ∧ base = ls.flatten

/-- A client line the session is working on. -/
structure InHand (t : Text) (buf : Bytes) (h : History Io) : Prop where
  line : ∃ base, WholeLines base ∧ NextLine base t buf h
  writes : ∀ b ∈ writesTo Conn.isBackend h, EndsLf b

/-- Between commands. -/
def Between (buf : Bytes) (h : History Io) : Prop :=
  ((∃ base, WholeLines base ∧ received Conn.isClient h = base ++ buf)
      ∧ ∀ b ∈ writesTo Conn.isBackend h, EndsLf b)
    ∨ (ClientClosed h ∧ buf = [])

def AllowedStep (h : History Io) : Event → Prop
  | ⟨.read .client, a⟩ => ClientClosed h → a = .eof
  | ⟨.write (.backend _) b, _⟩ => (∀ b' ∈ writesTo Conn.isBackend h, EndsLf b')
      ∧ (b ∈ ownCommands ∨ ∃ t buf, b = utf8 t ∧ Forwardable t ∧ InHand t buf h)
  | _ => True

/-- Neither reading from the client nor writing to the backend. -/
def Req.Silent : Req → Prop
  | .read .client => False
  | .write (.backend _) _ => False
  | _ => True

/-- Not reading from the client, and writing only the gateway's own commands. -/
def Req.Offstage : Req → Prop
  | .read .client => False
  | .write (.backend _) b => b ∈ ownCommands
  | _ => True

theorem withCrLf_eq (command : Text) : withCrLf command = utf8 command ++ [cr, lf] := by
  rw [withCrLf, utf8_append]
  rfl

theorem endsLf_ownCommands {b : Bytes} (hb : b ∈ ownCommands) : EndsLf b := by
  obtain ⟨command, -, rfl⟩ := List.mem_map.mp hb
  exact ⟨utf8 command.toList ++ [cr], by simp [withCrLf_eq]⟩

theorem Req.Silent.offstage {r : Req} (hr : r.Silent) : r.Offstage := by
  cases r with
  | read c => cases c <;> trivial
  | write c b =>
      cases c with
      | client => trivial
      | backend tls => exact hr.elim
  | _ => trivial

theorem bytesIn_offstage {r : Req} (hr : r.Offstage) (a : r.Ans) :
    Event.bytesIn Conn.isClient ⟨r, a⟩ = [] := by
  cases r with
  | read c =>
      cases c with
      | client => exact hr.elim
      | backend tls => cases a <;> rfl
  | _ => rfl

theorem writeOut_offstage {r : Req} (hr : r.Offstage) (a : r.Ans) :
    ∀ b ∈ (Event.writeOut Conn.isBackend ⟨r, a⟩).toList, b ∈ ownCommands := by
  cases r with
  | write c b =>
      cases c with
      | client => simp
      | backend tls =>
          have hown : b ∈ ownCommands := hr
          simpa using hown
  | _ => simp

theorem writeOut_silent {r : Req} (hr : r.Silent) (a : r.Ans) :
    Event.writeOut Conn.isBackend ⟨r, a⟩ = none := by
  cases r with
  | write c b =>
      cases c with
      | client => rfl
      | backend tls => exact hr.elim
  | _ => rfl

theorem allowedStep_silent {r : Req} (hr : r.Silent) (h : History Io) (a : r.Ans) :
    AllowedStep h ⟨r, a⟩ := by
  cases r with
  | read c => cases c <;> first | exact hr.elim | trivial
  | write c b => cases c <;> first | exact hr.elim | trivial
  | _ => trivial

theorem ClientClosed.append {h : History Io} (hc : ClientClosed h) (t : History Io) :
    ClientClosed (h ++ t) :=
  List.mem_append_left _ hc

theorem Between.silent {buf : Bytes} {h : History Io} {r : Req} (hb : Between buf h)
    (hr : r.Silent) (a : r.Ans) : Between buf (h ++ [⟨r, a⟩]) := by
  rcases hb with ⟨⟨base, hbase, hrec⟩, hw⟩ | ⟨hclosed, hbuf⟩
  · refine Or.inl ⟨⟨base, hbase, ?_⟩, ?_⟩
    · simp [hrec, bytesIn_offstage hr.offstage]
    · simpa [writeOut_silent hr] using hw
  · exact Or.inr ⟨hclosed.append _, hbuf⟩

theorem endsLf_offstage {h : History Io} {r : Req} (hr : r.Offstage)
    (hw : ∀ b ∈ writesTo Conn.isBackend h, EndsLf b) (a : r.Ans) :
    ∀ b ∈ writesTo Conn.isBackend (h ++ [⟨r, a⟩]), EndsLf b := by
  intro b hb
  rw [writesTo_append, List.mem_append] at hb
  rcases hb with hb | hb
  · exact hw b hb
  · rw [writesTo_cons, writesTo_nil, List.append_nil] at hb
    exact endsLf_ownCommands (writeOut_offstage hr a b hb)

theorem allowedStep_offstage {h : History Io} {r : Req} (hr : r.Offstage)
    (hw : ∀ b ∈ writesTo Conn.isBackend h, EndsLf b) (a : r.Ans) : AllowedStep h ⟨r, a⟩ := by
  cases r with
  | read c => cases c <;> first | exact hr.elim | trivial
  | write c b =>
      cases c with
      | client => trivial
      | backend tls => exact ⟨hw, Or.inl hr⟩
  | _ => trivial

theorem InHand.offstage {t : Text} {buf : Bytes} {h : History Io} {r : Req}
    (hi : InHand t buf h) (hr : r.Offstage) (a : r.Ans) : InHand t buf (h ++ [⟨r, a⟩]) := by
  obtain ⟨⟨base, hbase, hne, hacc, hend⟩, hw⟩ := hi
  refine ⟨⟨base, hbase, hne, ?_, ?_⟩, endsLf_offstage hr hw a⟩
  · simp [hacc, bytesIn_offstage hr]
  · rcases hend with hterm | ⟨hno, hclosed, hbuf⟩
    · exact Or.inl hterm
    · exact Or.inr ⟨hno, hclosed.append _, hbuf⟩

theorem InHand.logged {t : Text} {buf : Bytes} {h : History Io} (hi : InHand t buf h)
    (l : LogLine) (u : Unit) : InHand t buf (h ++ [⟨.log l, u⟩]) :=
  hi.offstage (r := .log l) trivial u

/-- Passing the line in hand on. From then on it is only ever something that
was received. -/
theorem InHand.forward {t : Text} {buf : Bytes} {h : History Io} {tls : Bool}
    (hi : InHand t buf h) (hfwd : Forwardable t) (a : Except IoKind Unit) :
    AllowedStep h ⟨.write (.backend tls) (utf8 t), a⟩
      ∧ Between buf (h ++ [⟨.write (.backend tls) (utf8 t), a⟩]) := by
  refine ⟨⟨hi.writes, Or.inr ⟨t, buf, rfl, hfwd, hi⟩⟩, ?_⟩
  obtain ⟨⟨base, ⟨ls, hls, rfl⟩, hne, hacc, hend⟩, hw⟩ := hi
  rcases hend with hterm | ⟨hno, hclosed, hbuf⟩
  · refine Or.inl ⟨⟨(ls ++ [utf8 t]).flatten, ⟨ls ++ [utf8 t], ?_, rfl⟩, ?_⟩, ?_⟩
    · intro l hl
      rcases List.mem_append.mp hl with hl | hl
      · exact hls l hl
      · obtain rfl := List.mem_singleton.mp hl
        exact hterm
    · simp [hacc]
    · intro b hb
      have hb' : b ∈ writesTo Conn.isBackend h ∨ b = utf8 t := by simpa using hb
      rcases hb' with hb | rfl
      · exact hw b hb
      · obtain ⟨body, -, hbody⟩ := hterm
        exact ⟨body, hbody⟩
  · exact Or.inr ⟨hclosed.append _, hbuf⟩

/-- A line that is not passed on is used up all the same. -/
theorem InHand.between {t : Text} {buf : Bytes} {h : History Io} (hi : InHand t buf h) :
    Between buf h := by
  obtain ⟨⟨base, ⟨ls, hls, rfl⟩, hne, hacc, hend⟩, hw⟩ := hi
  rcases hend with hterm | ⟨hno, hclosed, hbuf⟩
  · refine Or.inl ⟨⟨(ls ++ [utf8 t]).flatten, ⟨ls ++ [utf8 t], ?_, rfl⟩, by simp [hacc]⟩, hw⟩
    intro l hl
    rcases List.mem_append.mp hl with hl | hl
    · exact hls l hl
    · obtain rfl := List.mem_singleton.mp hl
      exact hterm
  · exact Or.inr ⟨hclosed, hbuf⟩

/-! ## One command -/

section Round

variable {w : World} {cfg : SessionConfig}

theorem everyday_silent (c : Conn) (hc : c ≠ .client) : Everyday c Req.Silent where
  tell _ := trivial
  read := by cases c <;> first | exact absurd rfl hc | trivial
  line _ := trivial
  metric _ _ := trivial
  log _ _ := trivial
  allocate := trivial
  release _ := trivial
  releaseSlot := trivial
  startDataTls := trivial

theorem Req.Backstage.offstage {r : Req} (hr : r.Backstage) : r.Offstage := by
  cases r with
  | read c => cases c <;> first | exact hr.elim | trivial
  | write c b => cases c <;> first | exact hr.elim | exact hr
  | _ => trivial

/-- Anything that neither reads from the client nor writes to the backend. -/
theorem wp_silent {α : Type} {p : Sess α} {buf : Bytes} {h : History Io}
    (hp : p.Asks Req.Silent) (hb : Between buf h) :
    wp w.answer AllowedStep (fun _ => Between buf) (fun _ => Between buf) p h :=
  wp_frame hp (fun _ _ a hr _ hb => ⟨allowedStep_silent hr _ a, hb.silent hr a⟩) hb

theorem wp_offstage {α : Type} {p : Sess α} {t : Text} {buf : Bytes} {h : History Io}
    (hp : p.Asks Req.Offstage) (hi : InHand t buf h) :
    wp w.answer AllowedStep (fun _ => InHand t buf) (fun _ => InHand t buf) p h :=
  wp_frame hp (fun _ _ a hr _ hi => ⟨allowedStep_offstage hr hi.writes a, hi.offstage hr a⟩) hi

theorem wp_free {α : Type} {p : Sess α} (hp : p.Asks Req.Silent) (h : History Io) :
    wp w.answer AllowedStep (fun _ _ => True) (fun _ _ => True) p h :=
  wp_frame (I := fun _ => True) hp (fun _ _ a hr _ _ => ⟨allowedStep_silent hr _ a, trivial⟩)
    trivial

/-- Scopes end in silence. -/
theorem wp_onExit_silent {α : Type} {p : Sess α} {Q : α → History Io → Prop} {h : History Io}
    {c : Leave → Sess Unit} (hc : ∀ e, (c e).Asks Req.Silent)
    (hp : wp w.answer AllowedStep Q (fun _ _ => True) p h) :
    wp w.answer AllowedStep Q (fun _ _ => True) (p.onExit c) h :=
  (wp_onExit c).mpr (wp_post hp (fun _ _ => id) fun e h' _ => wp_free (hc e) h')

theorem wp_finally_silent {α : Type} {p : Sess α} {buf : α → Bytes} {h : History Io}
    {c : Sess Unit} (hc : c.Asks Req.Silent)
    (hp : wp w.answer AllowedStep (fun a => Between (buf a)) (fun _ _ => True) p h) :
    wp w.answer AllowedStep (fun a => Between (buf a)) (fun _ _ => True) (p.finally_ c) h := by
  refine (wp_finally c).mpr (wp_post hp ?_ fun _ h' _ => wp_free hc h')
  intro a h' hb
  exact wp_post (wp_silent hc hb) (fun _ _ => id) fun _ _ _ => trivial

/-- The next step of a program, if it is a silent one. -/
theorem wp_then_silent {α β : Type} {p : Sess α} {f : α → Sess β} {buf : Bytes}
    {Q : β → History Io → Prop} {h : History Io} (hp : p.Asks Req.Silent)
    (hb : Between buf h)
    (hf : ∀ a h', Between buf h' → wp w.answer AllowedStep Q (fun _ _ => True) (f a) h') :
    wp w.answer AllowedStep Q (fun _ _ => True) (p.bind f) h :=
  (wp_bind f).mpr (wp_post (wp_silent hp hb) hf fun _ _ _ => trivial)

theorem wp_nextLine_inHand {buf : Bytes} {h : History Io} (hb : Between buf h) :
    wp w.answer (fun h e => AllowedStep h e ∧ HandsOut WholeLines h e)
      (fun x h' => InHand x.1 x.2 h') (fun _ _ => True) (nextLine cfg buf) h := by
  have hstep : ∀ h r a, r.ReadsClient → w.answer h r = some a → AllowedStep h ⟨r, a⟩ := by
    intro h r a hr ha
    cases r with
    | read c =>
        cases c with
        | client => exact fun hclosed => w.client_eof h a hclosed ha
        | backend tls => exact hr.elim
    | write c b => cases c <;> first | exact hr.elim | trivial
    | _ => trivial
  rcases hb with ⟨⟨base, hbase, hrec⟩, hw⟩ | ⟨hclosed, rfl⟩
  · have hline : wp w.answer (fun h e => AllowedStep h e ∧ HandsOut (· = base) h e)
        (fun x h' => NextLine base x.1 x.2 h' ∧ ∀ b ∈ writesTo Conn.isBackend h', EndsLf b)
        (fun _ h' => ∀ b ∈ writesTo Conn.isBackend h', EndsLf b) (nextLine cfg buf) h := by
      refine wp_nextLine (fun h r a hr ha hw => ⟨hstep h r a hr ha, ?_⟩) hw hrec
      cases r with
      | write c b => cases c <;> first | exact hr.elim | simpa using hw
      | _ => simpa using hw
    refine wp_mono (fun h' e hstep => ⟨hstep.1, fun t u heq hne => ?_⟩)
      (fun x h' hx => ⟨⟨base, hbase, hx.1⟩, hx.2⟩) (fun _ _ _ => trivial) hline
    obtain ⟨_, buf', rfl, hnext⟩ := hstep.2 t u heq hne
    exact ⟨_, buf', hbase, hnext⟩
  · have hline : wp w.answer
        (fun h' e => (AllowedStep h' e ∧ received Conn.isClient h' = received Conn.isClient h)
          ∧ HandsOut (· = received Conn.isClient h) h' e)
        (fun x h' => NextLine (received Conn.isClient h) x.1 x.2 h'
          ∧ ClientClosed h' ∧ received Conn.isClient h' = received Conn.isClient h)
        (fun _ h' => ClientClosed h' ∧ received Conn.isClient h' = received Conn.isClient h)
        (nextLine cfg []) h := by
      refine wp_nextLine (fun h' r a hr ha hI => ⟨⟨hstep h' r a hr ha, hI.2⟩, hI.1.append _, ?_⟩)
        ⟨hclosed, rfl⟩ (by simp)
      cases r with
      | read c =>
          cases c with
          | client =>
              obtain rfl := w.client_eof h' a hI.1 ha
              simpa using hI.2
          | backend tls => exact hr.elim
      | _ => simpa using hI.2
    have hnone : ∀ {t : Text} {buf' : Bytes} {h' : History Io},
        NextLine (received Conn.isClient h) t buf' h' →
        received Conn.isClient h' ≠ received Conn.isClient h := by
      rintro t buf' h' ⟨hne, hacc, -⟩ hsame
      have hnil : utf8 t ++ buf' = [] := by simpa [hsame] using hacc
      exact hne (utf8_injective (List.append_eq_nil_iff.mp hnil).1)
    refine wp_mono (fun h' e hstep => ⟨hstep.1.1, fun t u heq hne => ?_⟩)
      (fun x h' hx => absurd hx.2.2 (hnone hx.1)) (fun _ _ _ => trivial) hline
    obtain ⟨_, buf', rfl, hnext⟩ := hstep.2 t u heq hne
    exact absurd hstep.1.2 (hnone hnext)

theorem wp_forward_between {command : FtpCommand} {line : Text} {s : SessState}
    {h : History Io} (hi : InHand line s.clientBuf h) (hfwd : Forwardable line) :
    wp w.answer AllowedStep (fun s' h' => Between s'.clientBuf h') (fun _ _ => True)
      (forward cfg command line s) h := by
  have hday := everyday_silent cfg.control (by simp [SessionConfig.control])
  refine (wp_request_bind _ _).mpr fun a ha => ?_
  obtain ⟨hphi, hb⟩ := hi.forward hfwd a
  refine ⟨hphi, ?_⟩
  refine wp_then_silent (asks_backendIo trivial a) hb fun _ h₁ hb => ?_
  refine wp_then_silent (hday.routine.backendReply cfg _ _ _) hb fun x h₂ hb => ?_
  refine wp_then_silent (asks_clientIo (fun _ => trivial) _) hb fun _ h₃ hb => ?_
  split
  · trivial
  · exact hb

theorem wp_transfer_between {client : Arrival} {bbuf buf : Bytes} {h : History Io}
    (hb : Between buf h) :
    wp w.answer AllowedStep (fun _ => Between buf) (fun _ _ => True)
      (transfer cfg client bbuf) h := by
  have hday := everyday_silent cfg.control (by simp [SessionConfig.control])
  refine wp_then_silent (hday.routine.secureData cfg) hb fun secured h₁ hb => ?_
  refine wp_then_silent (asks_request trivial) hb fun _ h₂ hb => ?_
  refine wp_then_silent (asks_relayIf (fun _ _ => trivial) (fun _ => trivial) _ _ _) hb
    fun _ h₃ hb => ?_
  exact wp_post (wp_silent (hday.routine.backendReply cfg _ _ _) hb) (fun _ _ => id)
    fun _ _ _ => trivial

theorem wp_finish_between {completion : Text} {buf : Bytes} {h : History Io}
    (hb : Between buf h) :
    wp w.answer AllowedStep (fun _ => Between buf) (fun _ _ => True) (finish completion) h := by
  have hday := everyday_silent (.backend true) (by simp)
  exact wp_post (wp_silent (hday.finish completion) hb) (fun _ _ => id) fun _ _ _ => trivial

theorem wp_upload_between {line : Text} {client : Arrival} {bbuf buf : Bytes} {h : History Io}
    (hi : InHand line buf h) (hfwd : Forwardable line) :
    wp w.answer AllowedStep (fun _ => Between buf) (fun _ _ => True)
      (upload cfg line client bbuf) h := by
  have hday := everyday_silent cfg.control (by simp [SessionConfig.control])
  refine (wp_request_bind _ _).mpr fun u _ => ⟨trivial, ?_⟩
  replace hi := hi.offstage (r := .metric .uploadAttempted) trivial u
  have hreply : wp w.answer AllowedStep (fun _ => Between buf) (fun _ _ => True)
      (storReply cfg line bbuf) (h ++ [⟨.metric .uploadAttempted, u⟩]) := by
    refine (wp_request_bind _ _).mpr fun a ha => ?_
    obtain ⟨hphi, hb⟩ := hi.forward hfwd a
    refine ⟨hphi, ?_⟩
    refine wp_then_silent (asks_backendIo trivial a) hb fun _ h₁ hb => ?_
    refine wp_then_silent (hday.routine.backendReply cfg _ _ _) hb fun x h₂ hb => ?_
    exact wp_then_silent (asks_clientIo (fun _ => trivial) _) hb fun _ h₃ hb => hb
  refine (wp_bind _).mpr (wp_post (wp_onExit_silent (fun _ => asks_request trivial) hreply)
    (fun x h₁ hb => ?_) fun _ _ => id)
  dsimp only
  split
  · exact wp_then_silent (asks_request trivial) hb fun _ h₂ hb => hb
  · refine (wp_bind _).mpr (wp_post (wp_onExit_silent
      (fun _ => asks_dropUpload trivial trivial _) (wp_transfer_between hb))
      (fun y h₂ hb => ?_) fun _ _ => id)
    exact (wp_bind _).mpr (wp_post (wp_finish_between hb) (fun _ _ => id) fun _ _ => id)

theorem asks_openChannel_offstage (source : Option Ipv4Addr) (port : UInt16) (bbuf : Bytes) :
    (openChannel cfg source port bbuf).Asks Req.Offstage := by
  refine asks_bind (asks_awaitClientData (fun _ => trivial) trivial cfg port) fun client => ?_
  cases client with
  | none => trivial
  | some client => exact asks_mono (fun _ => Req.Backstage.offstage) (asks_openBackend _ _ _ _)

theorem wp_stor_between {source : Option Ipv4Addr} {line : Text} {port : UInt16}
    {s : SessState} {h : History Io} (hi : InHand line s.clientBuf h)
    (hfwd : Forwardable line) :
    wp w.answer AllowedStep (fun s' h' => Between s'.clientBuf h') (fun _ _ => True)
      (stor cfg source line port s) h := by
  refine wp_finally_silent (asks_request trivial) ?_
  refine (wp_bind _).mpr (wp_post (wp_offstage (asks_openChannel_offstage source port _) hi)
    (fun x h₁ hi => ?_) fun _ _ _ => trivial)
  obtain ⟨channel, bbuf⟩ := x
  refine (wp_request_bind _ _).mpr fun u _ => ⟨trivial, ?_⟩
  replace hi := hi.logged (.portReleased port) u
  cases channel with
  | lost => exact wp_then_silent (asks_tellClient (fun _ => trivial) _) hi.between fun _ _ _ => trivial
  | unavailable =>
      exact wp_then_silent (asks_clientIo (fun _ => trivial) _) hi.between fun _ _ hb => hb
  | ready client =>
      exact (wp_bind _).mpr (wp_finally_silent (asks_dropDataSlot trivial source)
        (wp_upload_between hi hfwd))

theorem wp_passive_between {command : FtpCommand} {s : SessState} {h : History Io}
    (hb : Between s.clientBuf h) :
    wp w.answer AllowedStep (fun s' h' => Between s'.clientBuf h') (fun _ _ => True)
      (passive cfg command s) h := by
  have hday := everyday_silent cfg.control (by simp [SessionConfig.control])
  refine wp_then_silent (hday.routine.replacePort s.activePasv) hb fun _ h₁ hb => ?_
  refine wp_then_silent (asks_request trivial) hb fun port h₂ hb => ?_
  cases port with
  | none => exact wp_then_silent (asks_clientIo (fun _ => trivial) _) hb fun _ h₃ hb => hb
  | some port =>
      refine wp_then_silent (asks_request trivial) hb fun _ h₃ hb => ?_
      exact wp_then_silent (asks_onExit (asks_clientIo (fun _ => trivial) _) fun _ =>
        asks_request trivial) hb fun _ h₄ hb => hb

theorem wp_serve_between {source : Option Ipv4Addr} {line : Text} {s : SessState}
    {h : History Io} (hi : InHand line s.clientBuf h) :
    wp w.answer AllowedStep (fun s' h' => Between s'.clientBuf h') (fun _ _ => True)
      (serve cfg source line s) h := by
  have hdrop : ∀ e, (dropActive s.activePasv e).Asks Req.Silent :=
    asks_dropActive (fun _ => trivial) (fun _ _ => trivial) s.activePasv
  have hrefuse : ∀ b {h'}, InHand line s.clientBuf h' →
      wp w.answer AllowedStep (fun s' h' => Between s'.clientBuf h') (fun _ _ => True)
        ((do clientIo b; pure s : Sess SessState).onExit (dropActive s.activePasv)) h' := by
    intro b h' hi
    refine wp_onExit_silent hdrop ?_
    exact wp_then_silent (asks_clientIo (fun _ => trivial) b) hi.between fun _ _ hb => hb
  unfold serve
  dsimp only
  split
  · exact (wp_request_bind _ _).mpr fun u _ => ⟨trivial, hrefuse _ (hi.logged _ u)⟩
  · rename_i hclean
    refine (wp_request_bind _ _).mpr fun u _ => ⟨trivial, ?_⟩
    split
    · refine (wp_request_bind _ _).mpr fun v _ => ⟨trivial, hrefuse _ ?_⟩
      exact (hi.logged _ u).logged _ v
    · rename_i hknown
      split
      · exact wp_passive_between (hi.logged _ u).between
      · rename_i hactive
        have hfwd : Forwardable line :=
          ⟨by simpa using hclean, FtpCommand.parse_forwarded (by simpa using hknown)
            (by simpa using hactive)⟩
        split
        · exact wp_stor_between (hi.logged _ u) hfwd
        · exact wp_onExit_silent hdrop (wp_forward_between (hi.logged _ u) hfwd)

theorem wp_round_between {source : Option Ipv4Addr} {s : SessState} {h : History Io}
    (hb : Between s.clientBuf h) :
    wp w.answer AllowedStep (fun s' h' => Between s'.clientBuf h') (fun _ _ => True)
      (round cfg source s) h := by
  have hline : wp w.answer AllowedStep (fun x h' => InHand x.1 x.2 h') (fun _ _ => True)
      (nextLine cfg s.clientBuf) h :=
    wp_mono (fun _ _ hstep => hstep.1) (fun _ _ => id) (fun _ _ => id) (wp_nextLine_inHand hb)
  refine (wp_bind _).mpr (wp_post (wp_onExit_silent
    (asks_dropActive (fun _ => trivial) (fun _ _ => trivial) s.activePasv) hline)
    (fun x h₁ hi => ?_) fun _ _ => id)
  exact wp_serve_between hi

/-- Before the first command nothing has been read from the client. -/
theorem wp_greet_between :
    wp w.answer AllowedStep (fun _ h => Between [] h) (fun _ _ => True) (greet cfg)
      [⟨.metric .sessionStarted, ()⟩] := by
  have hoff : (greet cfg).Asks Req.Offstage :=
    asks_greet (fun _ => Req.Backstage.offstage) (fun _ => trivial) cfg
  refine wp_post (wp_frame (I := fun h => received Conn.isClient h = []
    ∧ ∀ b ∈ writesTo Conn.isBackend h, EndsLf b) hoff ?_ (by simp))
    (fun _ h hI => ?_) fun _ _ _ => trivial
  · intro h r a hr _ hI
    exact ⟨allowedStep_offstage hr hI.2 a, by simp [hI.1, bytesIn_offstage hr],
      endsLf_offstage hr hI.2 a⟩
  · exact Or.inl ⟨⟨[], ⟨[], by simp, rfl⟩, hI.1⟩, hI.2⟩

end Round

/-! ## Whole sessions -/

theorem allowedStep_writes {h : History Io} {e : Event} {b : Bytes} (he : AllowedStep h e)
    (hw : e.writeOut Conn.isBackend = some b) : ∀ b' ∈ writesTo Conn.isBackend h, EndsLf b' := by
  obtain ⟨r, a⟩ := e
  cases r with
  | write c b' =>
      cases c with
      | client => simp at hw
      | backend tls => exact he.1
  | _ => simp at hw

theorem always_allowedStep (w : World) (cfg : SessionConfig) (n : Nat) :
    Always AllowedStep (history w cfg n) :=
  (run_of_wp (E := fun _ _ => True) (wp_handle trivial wp_greet_between
    (fun _ _ _ hb => wp_round_between hb) (fun _ _ _ => ⟨trivial, trivial⟩) n)
    (always_nil _)).1

/-- No line is continued by another, so cutting the whole stream is cutting
each write. -/
theorem segment_of_write {H : History Io} (hall : Always AllowedStep H) :
    ∀ seg ∈ segments (writesTo Conn.isBackend H).flatten, seg ≠ [] →
      ∃ b ∈ writesTo Conn.isBackend H, seg ∈ segments b := by
  induction H using List.reverseRecOn with
  | nil =>
      intro seg hseg hne
      exact absurd (by simpa [segments] using hseg) hne
  | append_singleton H e ih =>
      obtain ⟨hH, he⟩ := always_append_single.mp hall
      intro seg hseg hne
      rw [writesTo_append, writesTo_cons, writesTo_nil, List.append_nil] at hseg ⊢
      cases hw : Event.writeOut Conn.isBackend e with
      | none => simpa [hw] using ih hH seg (by simpa [hw] using hseg) hne
      | some b =>
          have hends : ∀ b' ∈ writesTo Conn.isBackend H, EndsLf b' := allowedStep_writes he hw
          rcases (writesTo Conn.isBackend H).eq_nil_or_concat with hnil | ⟨ws, last, hlast⟩
          · refine ⟨b, by simp, ?_⟩
            simpa [hw, hnil] using hseg
          · obtain ⟨body, hbody⟩ := hends last (by simp [hlast])
            have hflat : (writesTo Conn.isBackend H).flatten = ws.flatten ++ body ++ [lf] := by
              simp [hlast, hbody]
            rw [hw, Option.toList_some, List.flatten_append, hflat] at hseg
            have hcut : segments (ws.flatten ++ body ++ [lf] ++ [b].flatten)
                = segments (ws.flatten ++ body) ++ segments b := by
              have := segments_append_break (b := lf) (by decide) (ws.flatten ++ body) b
              simpa using this
            rw [hcut] at hseg
            rcases List.mem_append.mp hseg with hseg | hseg
            · obtain ⟨b', hb', hseg'⟩ := ih hH seg (by
                rw [hflat, segments_append_break (by decide)]
                exact List.mem_append_left _ hseg) hne
              exact ⟨b', List.mem_append_left _ hb', hseg'⟩
            · exact ⟨b, by simp, hseg⟩

/-- Nothing is received from a client that has closed its side. -/
theorem received_of_closed {h rest : History Io} (hall : Always AllowedStep (h ++ rest))
    (hclosed : ClientClosed h) : received Conn.isClient (h ++ rest) = received Conn.isClient h := by
  induction rest using List.reverseRecOn with
  | nil => simp
  | append_singleton rest e ih =>
      rw [← List.append_assoc] at hall ⊢
      obtain ⟨hrest, he⟩ := always_append_single.mp hall
      rw [received_append, ih hrest, received_cons, received_nil, List.append_nil]
      obtain ⟨r, a⟩ := e
      cases r with
      | read c =>
          cases c with
          | client =>
              obtain rfl := he (hclosed.append _)
              simp
          | backend tls => simp [Event.bytesIn_off]
      | _ => simp

theorem InHand.mem_linesOf {t : Text} {buf : Bytes} {h rest : History Io} (hi : InHand t buf h)
    (hall : Always AllowedStep (h ++ rest)) :
    utf8 t ∈ linesOf (received Conn.isClient (h ++ rest)) := by
  obtain ⟨⟨base, ⟨ls, hls, rfl⟩, hne, hacc, hend⟩, -⟩ := hi
  rcases hend with hterm | ⟨hno, hclosed, rfl⟩
  · have hterms : ∀ l ∈ ls ++ [utf8 t], Terminated l := by
      intro l hl
      rcases List.mem_append.mp hl with hl | hl
      · exact hls l hl
      · exact List.mem_singleton.mp hl ▸ hterm
    have hrec : received Conn.isClient (h ++ rest)
        = (ls ++ [utf8 t]).flatten ++ (buf ++ received Conn.isClient rest) := by
      simp [hacc]
    rw [hrec, linesOf_terminated hterms]
    simp
  · have hne' : utf8 t ≠ [] := fun hnil => hne (utf8_injective hnil)
    rw [received_of_closed hall hclosed, hacc, List.append_nil, linesOf_terminated hls,
      linesOf_tail hno hne']
    simp

/-- Every write is one of the gateway's own commands or a client line. -/
theorem write_allowed {H : History Io} (hall : Always AllowedStep H) {b : Bytes}
    (hb : b ∈ writesTo Conn.isBackend H) :
    b ∈ ownCommands ∨ ∃ t, b = utf8 t ∧ Forwardable t
      ∧ utf8 t ∈ linesOf (received Conn.isClient H) := by
  obtain ⟨e, hmem, hw⟩ := List.mem_filterMap.mp hb
  obtain ⟨h, rest, rfl⟩ := List.append_of_mem hmem
  have he := hall h e rest rfl
  obtain ⟨r, a⟩ := e
  cases r with
  | write c b' =>
      cases c with
      | client => simp at hw
      | backend tls =>
          obtain rfl : b' = b := by simpa using hw
          obtain ⟨-, hown | ⟨t, buf, rfl, hfwd, hi⟩⟩ := he
          · exact Or.inl hown
          · exact Or.inr ⟨t, rfl, hfwd, hi.mem_linesOf hall⟩
  | _ => simp at hw

theorem isBreak_utf8 {t : Text} (ht : hasEmbeddedLineBreak t = false) :
    ∀ b ∈ utf8 t, isBreak b = false := by
  intro b hb
  simp only [hasEmbeddedLineBreak, Bool.or_eq_false_iff, List.contains_eq_mem,
    decide_eq_false_iff_not] at ht
  simp only [isBreak, Bool.or_eq_false_iff, decide_eq_false_iff_not]
  exact ⟨fun h => ht.1 (cr_mem_utf8.mp (h ▸ hb)), fun h => ht.2 (lf_mem_utf8.mp (h ▸ hb))⟩

theorem isBreak_utf8_breaks {s : Text} (hs : ∀ c ∈ s, isLineBreak c = true) :
    ∀ b ∈ utf8 s, isBreak b = true := by
  intro b hb
  obtain ⟨c, hc, hbc⟩ := List.mem_flatMap.mp hb
  have hbreak := hs c hc
  simp only [isLineBreak, Bool.or_eq_true, decide_eq_true_eq] at hbreak
  rcases hbreak with rfl | rfl
  · obtain rfl : b = 13 := by simpa [String.utf8EncodeChar] using hbc
    rfl
  · obtain rfl : b = 10 := by simpa [String.utf8EncodeChar] using hbc
    rfl

/-- The commands of the gateway's own, as a backend reads them. -/
def ownCommandTexts : List Text :=
  ["AUTH TLS", "PBSZ 0", "PROT P", "EPSV", "PASV"].map String.toList

theorem ownCommand_segments {b seg : Bytes} (hb : b ∈ ownCommands) (hseg : seg ∈ segments b)
    (hne : seg ≠ []) : seg ∈ ownCommandTexts.map utf8 := by
  obtain ⟨command, hcmd, rfl⟩ := List.mem_map.mp hb
  have hbody : ∀ x ∈ utf8 command.toList, isBreak x = false := by
    refine isBreak_utf8 ?_
    simp only [List.mem_cons, List.not_mem_nil, or_false] at hcmd
    rcases hcmd with rfl | rfl | rfl | rfl | rfl <;> decide
  rw [withCrLf_eq] at hseg
  rcases segments_line hbody (by decide +kernel) seg hseg with rfl | hnil
  · exact List.mem_map_of_mem (List.mem_map_of_mem hcmd)
  · exact absurd hnil hne

/-- **The write-only allow-list.** Whatever the client sends and however the
backend behaves: cut at every carriage return and line feed, what a session
writes to the backend control connection is commands of the gateway's own and
client lines, unchanged but for their terminators, with one of ten verbs. -/
theorem backend_sees_only_allowed_commands (w : World) (cfg : SessionConfig) (n : Nat) :
    ∀ seg ∈ segments (writesTo Conn.isBackend (history w cfg n)).flatten, seg ≠ [] →
      seg ∈ ownCommandTexts.map utf8
        ∨ ∃ t, utf8 t ∈ linesOf (received Conn.isClient (history w cfg n))
          ∧ seg = utf8 (stripped t)
          ∧ FtpCommand.verbOf (stripped t) ∈ FtpCommand.forwardedVerbs := by
  intro seg hseg hne
  have hall := always_allowedStep w cfg n
  obtain ⟨b, hb, hseg'⟩ := segment_of_write hall seg hseg hne
  rcases write_allowed hall hb with hown | ⟨t, rfl, ⟨hclean, hverb⟩, hline⟩
  · exact Or.inl (ownCommand_segments hown hseg' hne)
  · obtain ⟨s, hs, hbreaks⟩ := trimEndMatches_append isLineBreak t
    have hcut : utf8 t = utf8 (stripped t) ++ utf8 s := by
      rw [← utf8_append]
      exact congrArg utf8 hs
    rw [hcut] at hseg'
    rcases segments_line (isBreak_utf8 hclean) (isBreak_utf8_breaks hbreaks) seg hseg'
      with hbody | hnil
    · exact Or.inr ⟨t, hline, hbody, hverb⟩
    · exact absurd hnil hne

/-- A client that logs in and then tries to list a directory. -/
def loginScript : Script where
  client := [Script.chunk "USER a\r\nLIST\r\n".toList]
  backend := [Script.chunk "220 hi\r\n".toList, Script.chunk "331 ok\r\n".toList]
  data := sampleArrival
  relay := ⟨0, []⟩

theorem backend_sees_only_allowed_commands_login :
    utf8 "USER a".toList ∈
        segments (writesTo Conn.isBackend (history loginScript.world (sampleSession false) 2)).flatten
      ∧ (utf8 "USER a".toList ∈ ownCommandTexts.map utf8
        ∨ ∃ t, utf8 t ∈ linesOf (received Conn.isClient
            (history loginScript.world (sampleSession false) 2))
          ∧ utf8 "USER a".toList = utf8 (stripped t)
          ∧ FtpCommand.verbOf (stripped t) ∈ FtpCommand.forwardedVerbs) := by
  have hseg : utf8 "USER a".toList ∈
      segments (writesTo Conn.isBackend (history loginScript.world (sampleSession false) 2)).flatten := by
    decide +kernel
  exact ⟨hseg, backend_sees_only_allowed_commands _ _ _ _ hseg (by decide)⟩

end FtpGateway
