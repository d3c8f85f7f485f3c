import FtpGateway.Session.Footprint
import FtpGateway.Session.Machine

/-!
# A session stays on the control machine

Every history a session can make is a path of the machine of
`Session/Machine.lean`, and a session that has ended left the machine in its
last phase (`session_on_machine`). The lemmas follow the program from the
readers up: each says in which phase a part starts and where it leaves the
machine.
-/

namespace FtpGateway

open Str Interact

section Refine

variable {env : Env Io} {cfg : SessionConfig}

/-- The session is over. -/
def Ended (cfg : SessionConfig) (h : History Io) : Prop := ∃ s, Reaches cfg h s ∧ s.phase = .ended

/-! ## Bookkeeping -/

/-- Requests whose every answer is bookkeeping. -/
def Req.Books : Req → Prop
  | .candidates => True
  | .reportConnectFailure _ _ => True
  | .backendPeer => True
  | .awaitClientData _ => True
  | .acquireSlot _ => True
  | .releaseSlot => True
  | .metric m => m ≠ .uploadSucceeded
  | .log _ => True
  | _ => False

theorem Req.Books.bookkeeping {ph : Phase} {r : Req} (hr : r.Books) (a : r.Ans) :
    Bookkeeping ph ⟨r, a⟩ := by
  cases r with
  | candidates => exact .candidates a
  | reportConnectFailure source k => exact .report source k a
  | backendPeer => exact .backendPeer a
  | awaitClientData port => exact .awaitClientData port a
  | acquireSlot source => exact .acquireSlot source a
  | releaseSlot => exact .releaseSlot a
  | metric m => exact .metric hr a
  | log l => exact .log l a
  | _ => exact hr.elim

/-- A program that does nothing but bookkeeping. -/
structure Quiet {α : Type} (p : Sess α) : Prop where
  asks : p.Asks Req.Books
  noExit : p.NoExit

theorem quiet_ret {α : Type} (a : α) : Quiet (.ret a) := ⟨trivial, trivial⟩

theorem quiet_request {r : Req} (hr : r.Books) : Quiet (Prog.request (S := Io) r) :=
  ⟨asks_request hr, noExit_request _⟩

theorem quiet_bind {α β : Type} {p : Sess α} {f : α → Sess β} (hp : Quiet p)
    (hf : ∀ a, Quiet (f a)) : Quiet (p.bind f) :=
  ⟨asks_bind hp.asks fun a => (hf a).asks, noExit_bind hp.noExit fun a => (hf a).noExit⟩

theorem quiet_metric {m : Metric} (hm : m ≠ .uploadSucceeded) : Quiet (metric m) :=
  quiet_request (r := .metric m) hm

theorem quiet_observe (k : IoKind) : Quiet (observeBackendIoError k) := by
  unfold observeBackendIoError
  split
  · exact quiet_metric (by simp)
  · exact quiet_ret ()

theorem wp_books {α : Type} {p : Sess α} {h : History Io} {s : Ctl}
    {E : Leave → History Io → Prop} (hp : Quiet p) (hs : Reaches cfg h s) :
    wp env (Follows (Trans cfg) Ctl.start) (fun _ h' => Reaches cfg h' s) E p h :=
  wp_noExit hp.noExit (wp_stay hp.asks (fun _ a hr => .book (hr.bookkeeping a)) hs)

/-- The next step of a program, if it is bookkeeping. -/
theorem wp_then_books {α β : Type} {p : Sess α} {f : α → Sess β} {h : History Io} {s : Ctl}
    {Q : β → History Io → Prop} {E : Leave → History Io → Prop} (hp : Quiet p)
    (hs : Reaches cfg h s)
    (hf : ∀ a h', Reaches cfg h' s → wp env (Follows (Trans cfg) Ctl.start) Q E (f a) h') :
    wp env (Follows (Trans cfg) Ctl.start) Q E (p.bind f) h :=
  (wp_bind f).mpr (wp_post (wp_books hp hs) hf fun _ _ => id)

/-- What is dropped when a scope ends: bookkeeping and the port. -/
def Req.Drops (r : Req) : Prop := (∃ port, r = .release port) ∨ r.Books

theorem wp_drops_ended {α : Type} {p : Sess α} {h : History Io} (hp : p.Asks Req.Drops)
    (hs : Ended cfg h) :
    wp env (Follows (Trans cfg) Ctl.start) (fun _ => Ended cfg) (fun _ => Ended cfg) p h := by
  refine wp_frame hp (fun h r a hr _ hI => ?_) hs
  obtain ⟨s, hs, hph⟩ := hI
  have hstep : ∃ s', Trans cfg s ⟨r, a⟩ s' ∧ s'.phase = .ended := by
    rcases hr with ⟨port, rfl⟩ | hr
    · exact ⟨_, .release port a (Or.inr (Or.inl hph)), hph⟩
    · exact ⟨s, .book (hr.bookkeeping a), hph⟩
  obtain ⟨s', ht, hph'⟩ := hstep
  exact ⟨⟨s', hs.snoc ht⟩, s', hs.snoc ht, hph'⟩

/-! ## Reading lines -/

theorem wp_takeReadLine_machine {c : Conn} {ph : Phase} {held : Option UInt16}
    {E : Leave → History Io → Prop} (hc : ph.reads cfg = some c) (n : Nat) {acc buf : Bytes}
    {h : History Io} (hs : Reaches cfg h ⟨ph, acc ++ buf, none, held⟩) (hacc : lf ∉ acc)
    (hlen : acc.length + n = cfg.maxBytes) :
    wp env (Follows (Trans cfg) Ctl.start)
      (fun x h' => ∃ p stop, Reaches cfg h' ⟨ph, p, stop, held⟩
        ∧ Handed cfg.maxBytes stop p x.1 x.2) E (takeReadLine c n acc buf) h := by
  induction n generalizing acc buf h with
  | zero => exact ⟨_, _, hs, .full hacc (by simpa using hlen)⟩
  | succ n ih =>
      have hnext : ∀ b rest h', Reaches cfg h' ⟨ph, acc ++ b :: rest, none, held⟩ →
          wp env (Follows (Trans cfg) Ctl.start)
            (fun x h' => ∃ p stop, Reaches cfg h' ⟨ph, p, stop, held⟩
              ∧ Handed cfg.maxBytes stop p x.1 x.2) E
            (if b = lf then pure (decodeLine (acc ++ [b]), rest)
              else takeReadLine c n (acc ++ [b]) rest) h' := by
        intro b rest h' hs'
        split
        · rename_i hb
          subst hb
          exact ⟨_, _, hs', .line hacc (by omega)⟩
        · rename_i hb
          refine ih (by simpa using hs') ?_ (by simp; omega)
          simp [hacc, Ne.symm hb]
      cases buf with
      | cons b buf => exact hnext b buf h hs
      | nil =>
          rw [List.append_nil] at hs
          have hroom : acc.length < cfg.maxBytes := by omega
          refine wp_step hs fun a _ => ⟨_, .read a hc hacc hroom rfl, fun hs' => ?_⟩
          cases a with
          | data b rest => exact hnext b rest _ hs'
          | eof => exact ⟨_, _, hs', .eof hacc (by omega)⟩
          | err k => exact ⟨_, _, hs', .err k⟩
          | elapsed => exact ⟨_, _, hs', .elapsed⟩

/-- A read of the gateway's own kind: `next` is what the session makes of it. -/
theorem wp_readLine_machine {c : Conn} {ph : Phase} {held : Option UInt16} {buf : Bytes}
    {h : History Io} {E : Leave → History Io → Prop} (hc : ph.reads cfg = some c)
    (hown : ph.isOwn = true) (next : LineRead → Bytes → Phase)
    (hnext : ∀ r rest, AfterLine cfg ph r rest (next r rest))
    (hs : Reaches cfg h ⟨ph, buf, none, held⟩) :
    wp env (Follows (Trans cfg) Ctl.start)
      (fun x h' => Reaches cfg h' ⟨next x.1 x.2, x.2, none, held⟩) E
      (readLine c cfg.maxBytes buf) h := by
  refine (wp_bind _).mpr (wp_post (wp_takeReadLine_machine hc cfg.maxBytes
    (by simpa using hs) (by simp) (by simp)) (fun x h' hx => ?_) fun _ _ => id)
  obtain ⟨p, stop, hs', hh⟩ := hx
  have hsame : ph.handed cfg x.1 = x.1 := by simp [Phase.handed, hown]
  refine wp_step hs' fun u _ => ⟨⟨next x.1 x.2, x.2, none, held⟩, ?_, fun hs'' => hs''⟩
  have ht : Trans cfg ⟨ph, p, stop, held⟩ ⟨.line c (ph.handed cfg x.1), u⟩
      ⟨next x.1 x.2, x.2, none, held⟩ := .line u hc hh (hsame.symm ▸ hnext x.1 x.2)
  rwa [hsame] at ht

theorem wp_readLineBounded_machine {c : Conn} {ph : Phase} {held : Option UInt16} {buf : Bytes}
    {h : History Io} {E : Leave → History Io → Prop} (hc : ph.reads cfg = some c)
    (hown : ph.isOwn = false) (next : LineRead → Bytes → Phase)
    (hnext : ∀ r rest, AfterLine cfg ph r rest (next r rest))
    (hs : Reaches cfg h ⟨ph, buf, none, held⟩) :
    wp env (Follows (Trans cfg) Ctl.start)
      (fun x h' => Reaches cfg h' ⟨next x.1 x.2, x.2, none, held⟩) E
      (readLineBounded c cfg.maxBytes buf) h := by
  refine (wp_bind _).mpr (wp_post (wp_takeReadLine_machine hc cfg.maxBytes
    (by simpa using hs) (by simp) (by simp)) (fun x h' hx => ?_) fun _ _ => id)
  obtain ⟨p, stop, hs', hh⟩ := hx
  have hsame : ph.handed cfg x.1 = checkBound cfg.maxBytes x.1 := by simp [Phase.handed, hown]
  refine wp_step hs' fun u _ =>
    ⟨⟨next (checkBound cfg.maxBytes x.1) x.2, x.2, none, held⟩, ?_, fun hs'' => hs''⟩
  have ht : Trans cfg ⟨ph, p, stop, held⟩ ⟨.line c (ph.handed cfg x.1), u⟩
      ⟨next (checkBound cfg.maxBytes x.1) x.2, x.2, none, held⟩ :=
    .line u hc hh (hsame.symm ▸ hnext (checkBound cfg.maxBytes x.1) x.2)
  rwa [hsame] at ht

/-! ## Talking to the two sides -/

theorem wp_clientIo_machine {ph ok : Phase} {p : Bytes} {held : Option UInt16} {b : Bytes}
    {h : History Io} (hw : Writes cfg held ph .client b ok .ended)
    (hs : Reaches cfg h ⟨ph, p, none, held⟩) :
    wp env (Follows (Trans cfg) Ctl.start) (fun _ h' => Reaches cfg h' ⟨ok, p, none, held⟩)
      (fun _ => Ended cfg) (clientIo b) h := by
  refine wp_step hs fun a _ => ⟨_, .write a hw, fun hs' => ?_⟩
  cases a with
  | ok u => exact hs'
  | error k => exact ⟨_, hs', rfl⟩

/-- The last line to the client. -/
theorem wp_lastWords {α : Type} {ph : Phase} {p : Bytes} {held : Option UInt16} {b : Bytes}
    {h : History Io} {Q : α → History Io → Prop} {leave : Leave}
    (hw : Writes cfg held ph .client b .ended .ended)
    (hs : Reaches cfg h ⟨ph, p, none, held⟩) :
    wp env (Follows (Trans cfg) Ctl.start) Q (fun _ => Ended cfg)
      ((tellClient b).bind fun _ => .exit leave : Sess α) h := by
  refine (wp_bind _).mpr (wp_step hs fun a _ => ⟨_, .write a hw, fun hs' => ?_⟩)
  refine ⟨_, hs', ?_⟩
  cases a <;> rfl

/-- `backend_io!` on a failure. -/
theorem wp_backendIo_ended {α : Type} {k : IoKind} {h : History Io}
    {Q : α → History Io → Prop} (hs : Ended cfg h) :
    wp env (Follows (Trans cfg) Ctl.start) Q (fun _ => Ended cfg)
      (backendIo (.error k) : Sess α) h := by
  refine (wp_bind _).mpr (wp_post (wp_drops_ended (asks_mono (fun _ => Or.inr)
    (quiet_observe k).asks) hs) (fun _ _ hs => hs) fun _ _ hs => hs)

/-- Where `backendReply` goes after its line. -/
def replyNext (closed : Bytes) (next : Text → Phase) : LineRead → Phase
  | .text t => if t = [] then .closing closed else next t
  | _ => .ended

theorem wp_backendReply_machine {c : Conn} {ph : Phase} {held : Option UInt16} {buf : Bytes}
    {closed : Bytes} {leave : Leave} {h : History Io} (hc : ph.reads cfg = some c)
    (hown : ph.isOwn = false) (next : Text → Phase)
    (htext : ∀ t rest, t ≠ [] → AfterLine cfg ph (.text t) rest (next t))
    (heof : ∀ rest, AfterLine cfg ph (.text []) rest (.closing closed))
    (herr : ∀ k rest, AfterLine cfg ph (.err k) rest .ended)
    (helapsed : ∀ rest, AfterLine cfg ph .elapsed rest .ended)
    (hs : Reaches cfg h ⟨ph, buf, none, held⟩) :
    wp env (Follows (Trans cfg) Ctl.start)
      (fun x h' => Reaches cfg h' ⟨next x.1, x.2, none, held⟩) (fun _ => Ended cfg)
      (backendReply cfg c closed leave buf) h := by
  have hnext : ∀ r rest, AfterLine cfg ph r rest (replyNext closed next r) := by
    intro r rest
    cases r with
    | err k => exact herr k rest
    | elapsed => exact helapsed rest
    | text t =>
        by_cases ht : t = []
        · subst ht
          exact heof rest
        · simpa only [replyNext, ht, if_false] using htext t rest ht
  have hline : wp env (Follows (Trans cfg) Ctl.start)
      (fun x h' => Reaches cfg h' ⟨replyNext closed next x.1, x.2, none, held⟩)
      (fun _ => Ended cfg) (readLineBounded c cfg.maxBytes buf) h :=
    wp_readLineBounded_machine hc hown (fun r _ => replyNext closed next r) hnext hs
  refine (wp_bind _).mpr ((wp_bind _).mpr (wp_post hline (fun x h' hs' => ?_) fun _ _ => id))
  obtain ⟨r, rest⟩ := x
  cases r with
  | err k => exact (wp_bind _).mpr (wp_backendIo_ended ⟨_, hs', rfl⟩)
  | elapsed => exact (wp_bind _).mpr (wp_backendIo_ended ⟨_, hs', rfl⟩)
  | text t =>
      show wp env _ _ _ (if t = [] then _ else _) h'
      by_cases ht : t = []
      · subst ht
        rw [if_pos rfl]
        exact wp_lastWords (.closing closed) hs'
      · simp only [replyNext, ht, if_false] at hs'
        rw [if_neg ht]
        exact hs'

/-! ## Before the first command -/

/-- Where connecting leaves the machine. -/
def connectNext (found : Option (Option Ipv4Addr)) : Phase :=
  if found = none then .connecting else .banner

/-- One attempt to connect. -/
theorem wp_connect_machine {β : Type} {source : Option Ipv4Addr} {h : History Io}
    {f : Except IoKind Unit → Sess β} {Q : β → History Io → Prop}
    {E : Leave → History Io → Prop} (hs : Reaches cfg h ⟨.connecting, [], none, none⟩)
    (hok : ∀ h', Reaches cfg h' ⟨.banner, [], none, none⟩ →
      wp env (Follows (Trans cfg) Ctl.start) Q E (f (.ok ())) h')
    (herr : ∀ k h', Reaches cfg h' ⟨.connecting, [], none, none⟩ →
      wp env (Follows (Trans cfg) Ctl.start) Q E (f (.error k)) h') :
    wp env (Follows (Trans cfg) Ctl.start) Q E
      ((Prog.request (S := Io) (.connect source)).bind f) h := by
  refine wp_step hs fun a _ => ?_
  cases a with
  | ok u => exact ⟨_, .connected source rfl, hok _⟩
  | error k => exact ⟨_, .book (.connect source k), herr k _⟩

theorem wp_connectBackend_machine {h : History Io} {rotate : Bool}
    {E : Leave → History Io → Prop} (hs : Reaches cfg h ⟨.connecting, [], none, none⟩) :
    wp env (Follows (Trans cfg) Ctl.start)
      (fun found h' => Reaches cfg h' ⟨connectNext found, [], none, none⟩) E
      (connectBackend rotate) h := by
  have hfrom : ∀ sources {h}, Reaches cfg h ⟨.connecting, [], none, none⟩ →
      wp env (Follows (Trans cfg) Ctl.start)
        (fun found h' => Reaches cfg h' ⟨connectNext found, [], none, none⟩) E
        (connectFrom sources) h := by
    intro sources
    induction sources with
    | nil => exact fun hs => hs
    | cons source rest ih =>
        intro h hs
        refine wp_connect_machine hs (fun _ hs => hs) fun k h₁ hs => ?_
        refine wp_then_books (quiet_observe k) hs fun _ h₂ hs => ?_
        exact wp_then_books (quiet_request trivial) hs fun _ h₃ hs => ih hs
  unfold connectBackend
  split
  · exact wp_then_books (quiet_request trivial) hs fun sources h₁ hs =>
      hfrom sources hs
  · refine wp_connect_machine hs (fun _ hs => hs) fun k h₁ hs => ?_
    exact wp_then_books (quiet_observe k) hs fun _ h₂ hs => hs

/-- Where a line of a reply leaves the negotiation, `n` more lines being
allowed. -/
def negotiationNext (k : Negotiation) (banner : Text) (code : Option Bytes) (n : Nat)
    (r : LineRead) (rest : Bytes) : Phase :=
  match r with
  | .text t =>
      if t = [] ∨ endsWithNewline t = false then .closing serviceNotAvailable
      else
        match replyCode? t, code with
        | none, _ => .closing serviceNotAvailable
        | some (digits, sep), none =>
            if sep ≠ '-'.toUInt8 then
              if digits = utf8 k.code then .negotiated k banner rest
              else .closing serviceNotAvailable
            else if n = 0 then .closing serviceNotAvailable
            else .awaiting k banner (some digits)
        | some (digits, sep), some first =>
            if digits = first ∧ sep = ' '.toUInt8 then
              if first = utf8 k.code then .negotiated k banner rest
              else .closing serviceNotAvailable
            else if n = 0 then .closing serviceNotAvailable
            else .awaiting k banner (some first)
  | _ => .closing serviceNotAvailable

theorem afterLine_negotiationNext (k : Negotiation) (banner : Text) (code : Option Bytes)
    (n : Nat) (r : LineRead) (rest : Bytes) :
    AfterLine cfg (.awaiting k banner code) r rest (negotiationNext k banner code n r rest) := by
  have hfail : ∀ {r}, (∀ t, r = .text t → ¬EndsReply (utf8 k.code) code t) →
      AfterLine cfg (.awaiting k banner code) r rest (.closing serviceNotAvailable) :=
    fun hbad => .negotiationFailed hbad
  cases r with
  | err e => exact hfail fun t ht => by cases ht
  | elapsed => exact hfail fun t ht => by cases ht
  | text t =>
      have hbad : ¬EndsReply (utf8 k.code) code t →
          AfterLine cfg (.awaiting k banner code) (.text t) rest (.closing serviceNotAvailable) :=
        fun hnot => hfail fun t' ht => LineRead.text.inj ht ▸ hnot
      simp only [negotiationNext]
      split
      · rename_i hcut
        refine hbad fun hends => ?_
        rcases hcut with hnil | hcut
        · exact hends.1 hnil
        · cases hends.2.1.symm.trans hcut
      · rename_i hwhole
        simp only [not_or, Bool.not_eq_false] at hwhole
        split
        · rename_i hcode
          refine hbad fun hends => ?_
          obtain ⟨sep, hsep, -⟩ := hends.2.2
          exact absurd (hcode.symm.trans hsep) (by simp)
        · rename_i digits sep hcode
          split
          · rename_i hsep
            split
            · rename_i hd
              exact .negotiated ⟨hwhole.1, hwhole.2, sep, by rw [hcode, hd], hsep⟩
            · rename_i hd
              refine hbad fun hends => hd ?_
              obtain ⟨sep', hsep', -⟩ := hends.2.2
              exact (Prod.mk.inj (Option.some.inj (hcode.symm.trans hsep'))).1
          · rename_i hsep
            simp only [ne_eq, not_not] at hsep
            split
            · refine hbad fun hends => ?_
              obtain ⟨sep', hsep', hdash⟩ := hends.2.2
              exact hdash ((Prod.mk.inj (Option.some.inj (hcode.symm.trans hsep'))).2 ▸ hsep)
            · exact .negotiationMore ⟨hwhole.1, hwhole.2, by rw [hcode, hsep]⟩
        · rename_i digits sep first hcode
          split
          · rename_i hlast
            split
            · rename_i hd
              exact .negotiated ⟨hwhole.1, hwhole.2, sep, by rw [hcode, hlast.1, hd], hd, hlast.2⟩
            · rename_i hd
              refine hbad fun hends => hd ?_
              obtain ⟨sep', -, hfirst, -⟩ := hends.2.2
              exact hfirst
          · rename_i hlast
            split
            · refine hbad fun hends => hlast ?_
              obtain ⟨sep', hsep', hfirst, hspace⟩ := hends.2.2
              obtain ⟨hd, hs⟩ := Prod.mk.inj (Option.some.inj (hcode.symm.trans hsep'))
              exact ⟨hd.trans hfirst.symm, hs.trans hspace⟩
            · exact .negotiationMore ⟨hwhole.1, hwhole.2, rfl, digits, sep, hcode, hlast⟩

/-- The client will be told that there is no service. -/
def Failing (cfg : SessionConfig) (held : Option UInt16) (h : History Io) : Prop :=
  ∃ p, Reaches cfg h ⟨.closing serviceNotAvailable, p, none, held⟩

/-- The machine after the whole reply to a command of the negotiation. -/
def AfterReply (cfg : SessionConfig) (k : Negotiation) (banner : Text) :
    Except IoKind (Bytes × Bytes) → History Io → Prop
  | .ok (digits, rest), h =>
      (digits = utf8 k.code → Reaches cfg h ⟨.negotiated k banner rest, rest, none, none⟩)
        ∧ (digits ≠ utf8 k.code → Failing cfg none h)
  | .error _, h => Failing cfg none h

theorem afterReply_of_reaches {k : Negotiation} {banner : Text} {digits rest : Bytes}
    {h : History Io} (hs : Reaches cfg h ⟨if digits = utf8 k.code then .negotiated k banner rest
      else .closing serviceNotAvailable, rest, none, none⟩) :
    AfterReply cfg k banner (.ok (digits, rest)) h := by
  constructor
  · intro hd
    rwa [if_pos hd] at hs
  · intro hd
    rw [if_neg hd] at hs
    exact ⟨rest, hs⟩

theorem wp_replyLines_machine {k : Negotiation} {banner : Text} (n : Nat) {code : Option Bytes}
    {buf : Bytes} {h : History Io} {E : Leave → History Io → Prop} (hn : n ≠ 0)
    (hs : Reaches cfg h ⟨.awaiting k banner code, buf, none, none⟩) :
    wp env (Follows (Trans cfg) Ctl.start) (AfterReply cfg k banner) E
      (replyLines k.conn cfg.maxBytes n code buf) h := by
  induction n generalizing code buf h with
  | zero => exact absurd rfl hn
  | succ n ih =>
      have hline : wp env (Follows (Trans cfg) Ctl.start)
          (fun x h' => Reaches cfg h' ⟨negotiationNext k banner code n x.1 x.2, x.2, none, none⟩) E
          (readLine k.conn cfg.maxBytes buf) h :=
        wp_readLine_machine rfl rfl (negotiationNext k banner code n)
          (afterLine_negotiationNext k banner code n) hs
      have hmore : ∀ digits rest h', Reaches cfg h' ⟨if n = 0 then .closing serviceNotAvailable
            else .awaiting k banner (some digits), rest, none, none⟩ →
          wp env (Follows (Trans cfg) Ctl.start) (AfterReply cfg k banner) E
            (replyLines k.conn cfg.maxBytes n (some digits) rest) h' := by
        intro digits rest h' hs
        by_cases hn0 : n = 0
        · subst hn0
          exact ⟨_, hs⟩
        · rw [if_neg hn0] at hs
          exact ih hn0 hs
      refine (wp_bind _).mpr (wp_post hline (fun x h' hs' => ?_) fun _ _ => id)
      obtain ⟨r, rest⟩ := x
      cases r with
      | err e => exact ⟨_, hs'⟩
      | elapsed => exact ⟨_, hs'⟩
      | text t =>
          simp only [negotiationNext] at hs'
          dsimp only
          by_cases hnil : t = []
          · simp only [hnil, true_or, if_true] at hs' ⊢
            exact ⟨_, hs'⟩
          cases hnl : endsWithNewline t with
          | false =>
              simp only [hnil, hnl, or_true, if_true, if_false] at hs' ⊢
              exact ⟨_, hs'⟩
          | true =>
              simp only [hnil, hnl, or_self, if_false, Bool.not_true, Bool.true_eq_false,
                Bool.false_eq_true] at hs' ⊢
              cases hrc : replyCode? t with
              | none =>
                  simp only [hrc] at hs' ⊢
                  exact ⟨_, hs'⟩
              | some x =>
                  obtain ⟨digits, sep⟩ := x
                  cases code with
                  | none =>
                      simp only [hrc] at hs' ⊢
                      by_cases hsep : sep = '-'.toUInt8
                      · simp only [hsep, ne_eq, not_true_eq_false, if_false] at hs' ⊢
                        exact hmore digits rest h' hs'
                      · simp only [hsep, ne_eq, not_false_eq_true, if_true] at hs' ⊢
                        exact afterReply_of_reaches hs'
                  | some first =>
                      simp only [hrc] at hs' ⊢
                      by_cases hlast : digits = first ∧ sep = ' '.toUInt8
                      · rw [if_pos hlast] at hs' ⊢
                        exact afterReply_of_reaches hs'
                      · rw [if_neg hlast] at hs' ⊢
                        exact hmore first rest h' hs'

theorem wp_andThen {α β : Type} {Φ : History Io → Event → Prop} {p : Sess (Except IoKind α)}
    {f : α → Sess (Except IoKind β)} {Q : Except IoKind β → History Io → Prop}
    {E : Leave → History Io → Prop} {h : History Io} :
    wp env Φ Q E (andThen p f) h ↔ wp env Φ (fun r h' => match r with
      | .ok a => wp env Φ Q E (f a) h'
      | .error k => Q (.error k) h') E p h := by
  unfold andThen
  rw [Prog.bind_eq, wp_bind]
  constructor
  · intro hp
    refine wp_post hp (fun r h' hr => ?_) fun _ _ => id
    cases r with
    | ok a => exact hr
    | error k => exact hr
  · intro hp
    refine wp_post hp (fun r h' hr => ?_) fun _ _ => id
    cases r with
    | ok a => exact hr
    | error k => exact hr

/-- The machine after a command of the negotiation. -/
def AfterCommand (cfg : SessionConfig) (k : Negotiation) (banner : Text) :
    Except IoKind Bytes → History Io → Prop
  | .ok rest, h => Reaches cfg h ⟨.negotiated k banner rest, rest, none, none⟩
  | .error _, h => Failing cfg none h

theorem wp_commandExpecting_machine {k : Negotiation} {banner : Text} {buf : Bytes}
    {h : History Io} {E : Leave → History Io → Prop}
    (hs : Reaches cfg h ⟨.sending k banner, buf, none, none⟩) :
    wp env (Follows (Trans cfg) Ctl.start) (AfterCommand cfg k banner) E
      (commandExpecting k.conn k.command k.code cfg.maxBytes buf) h := by
  refine wp_andThen.mpr ?_
  refine wp_step hs fun a _ => ⟨_, .write a (.negotiate k banner), fun hs' => ?_⟩
  cases a with
  | error e => exact ⟨_, hs'⟩
  | ok u =>
      refine wp_andThen.mpr (wp_post (wp_replyLines_machine maxReplyLines (by decide) hs')
        (fun r h' hr => ?_) fun _ _ => id)
      cases r with
      | error e => exact hr
      | ok x =>
          obtain ⟨digits, rest⟩ := x
          show AfterCommand cfg k banner (if digits = utf8 k.code then _ else _) h'
          by_cases hd : digits = utf8 k.code
          · rw [if_pos hd]
            exact hr.1 hd
          · rw [if_neg hd]
            exact hr.2 hd

theorem wp_negotiateExplicitFtps_machine {banner : Text} {buf : Bytes} {h : History Io}
    {E : Leave → History Io → Prop}
    (hs : Reaches cfg h ⟨.sending .auth banner, buf, none, none⟩) :
    wp env (Follows (Trans cfg) Ctl.start) (AfterCommand cfg .prot banner) E
      (negotiateExplicitFtps cfg.maxBytes buf) h := by
  refine wp_andThen.mpr (wp_post (wp_commandExpecting_machine hs) (fun r h₁ hr => ?_) fun _ _ => id)
  cases r with
  | error e => exact hr
  | ok rest =>
      have hs₁ : Reaches cfg h₁ ⟨if rest = [] then .authOk banner
        else .closing serviceNotAvailable, rest, none, none⟩ := hr
      dsimp only
      by_cases hrest : rest = []
      · subst hrest
        rw [if_pos rfl] at hs₁
        rw [if_neg (by simp)]
        refine wp_andThen.mpr (wp_step hs₁ fun a _ => ⟨_, .startTls a rfl rfl, fun hs₂ => ?_⟩)
        cases a with
        | error e => exact ⟨_, hs₂⟩
        | ok u =>
            refine wp_andThen.mpr (wp_post (wp_commandExpecting_machine hs₂) (fun r h₃ hr => ?_)
              fun _ _ => id)
            cases r with
            | error e => exact hr
            | ok rest => exact wp_commandExpecting_machine hr
      · rw [if_neg hrest] at hs₁
        rw [if_pos hrest]
        exact ⟨_, hs₁⟩

/-- A control connection that is ready for the banner to be passed on. -/
theorem wp_secureControl_machine {banner : Text} {buf : Bytes} {h : History Io}
    (hs : Reaches cfg h ⟨if cfg.backendTls then .sending .auth banner else .greeting banner,
      buf, none, none⟩) :
    wp env (Follows (Trans cfg) Ctl.start)
      (fun buf' h' => Reaches cfg h' ⟨.greeting banner, buf', none, none⟩) (fun _ => Ended cfg)
      (secureControl cfg buf) h := by
  unfold secureControl
  cases htls : cfg.backendTls with
  | false =>
      simp only [htls, Bool.false_eq_true, if_false] at hs ⊢
      exact hs
  | true =>
      simp only [htls, if_true] at hs ⊢
      refine (wp_bind _).mpr (wp_post (wp_negotiateExplicitFtps_machine hs)
        (fun r h₁ hr => ?_) fun _ _ => id)
      cases r with
      | ok rest => exact hr
      | error k =>
          obtain ⟨p, hs₁⟩ := hr
          refine wp_then_books (quiet_observe k) hs₁ fun _ h₂ hs₂ => ?_
          exact wp_lastWords (.closing _) hs₂

theorem wp_greet_machine {h : History Io} (hs : Reaches cfg h ⟨.connecting, [], none, none⟩) :
    wp env (Follows (Trans cfg) Ctl.start)
      (fun x h' => Reaches cfg h' ⟨.idle, x.2, none, none⟩) (fun _ => Ended cfg)
      (greet cfg) h := by
  refine (wp_bind _).mpr (wp_post (wp_connectBackend_machine hs) (fun found h₁ hs => ?_)
    fun _ _ => id)
  cases found with
  | none => exact wp_lastWords .unconnected hs
  | some source =>
      have hbanner : wp env (Follows (Trans cfg) Ctl.start)
          (fun x h' => Reaches cfg h' ⟨if cfg.backendTls then .sending .auth x.1
            else .greeting x.1, x.2, none, none⟩) (fun _ => Ended cfg)
          (backendReply cfg (.backend false) serviceNotAvailable .ret []) h₁ :=
        wp_backendReply_machine rfl rfl
          (fun t => if cfg.backendTls then .sending .auth t else .greeting t)
          (fun _ _ hne => .banner hne) (fun _ => .bannerEof) (fun k _ => .bannerErr k)
          (fun _ => .bannerElapsed) hs
      refine (wp_bind _).mpr (wp_post hbanner (fun x h₂ hs => ?_) fun _ _ => id)
      refine (wp_bind _).mpr (wp_post (wp_secureControl_machine hs) (fun buf h₃ hs => ?_)
        fun _ _ => id)
      exact (wp_bind _).mpr (wp_post (wp_clientIo_machine (.greet x.1) hs) (fun _ _ hs => hs)
        fun _ _ => id)

/-! ## Commands -/

/-- Where a read from the client leaves the machine. -/
def clientNext : LineRead → Phase
  | .text t => if t = [] then .ended else .command t
  | .err k => if k = .invalidData then .closing commandLineTooLong else .ended
  | .elapsed => .closing idleTimeoutReply

theorem afterClientLine_clientNext (r : LineRead) : AfterClientLine r (clientNext r) := by
  cases r with
  | text t =>
      by_cases ht : t = []
      · subst ht
        exact .eof
      · simpa only [clientNext, ht, if_false] using AfterClientLine.line ht
  | err k =>
      by_cases hk : k = .invalidData
      · subst hk
        exact .tooLong
      · simpa only [clientNext, hk, if_false] using AfterClientLine.err
  | elapsed => exact .idle

theorem wp_nextLine_machine {p buf : Bytes} {held : Option UInt16} {h : History Io}
    (hs : Reaches cfg h ⟨.idle, p, none, held⟩) :
    wp env (Follows (Trans cfg) Ctl.start)
      (fun x h' => Reaches cfg h' ⟨.command x.1, p, none, held⟩) (fun _ => Ended cfg)
      (nextLine cfg buf) h := by
  have htake : wp env (Follows (Trans cfg) Ctl.start)
      (fun _ h' => Reaches cfg h' ⟨.idle, p, none, held⟩) (fun _ => Ended cfg)
      (takeReadLine .client cfg.maxBytes [] buf) h :=
    wp_noExit (delivers_takeReadLine _ _ _ _).noExit
      (wp_stay (asks_takeReadLine (R := fun r => r = .read .client) rfl _ _ _)
        (fun r a hr => by subst hr; exact .clientRead a rfl) hs)
  have hline : wp env (Follows (Trans cfg) Ctl.start)
      (fun x h' => Reaches cfg h' ⟨clientNext x.1, p, none, held⟩) (fun _ => Ended cfg)
      (readLineBounded .client cfg.maxBytes buf) h := by
    refine (wp_bind _).mpr (wp_post htake (fun x h₁ hs => ?_) fun _ _ => id)
    exact wp_step hs fun u _ =>
      ⟨_, .clientLine u rfl (afterClientLine_clientNext _), fun hs' => hs'⟩
  refine (wp_bind _).mpr (wp_post hline (fun x h₁ hs => ?_) fun _ _ => id)
  obtain ⟨r, buf⟩ := x
  cases r with
  | text t =>
      dsimp only
      by_cases ht : t = []
      · subst ht
        rw [if_pos rfl]
        exact ⟨_, hs, rfl⟩
      · simp only [clientNext, ht, if_false] at hs ⊢
        exact hs
  | err k =>
      dsimp only
      by_cases hk : k = .invalidData
      · subst hk
        rw [if_pos rfl]
        exact wp_lastWords (.closing _) hs
      · simp only [clientNext, hk, if_false] at hs ⊢
        exact ⟨_, hs, rfl⟩
  | elapsed =>
      refine wp_then_books (quiet_metric (by simp)) hs
        fun _ h₂ hs => ?_
      exact wp_lastWords (.closing _) hs

theorem wp_passive_machine {command : FtpCommand} {s : SessState} {t : Text} {h : History Io}
    (hstor : isStor t = false) (hpassive : isForwardable t = false)
    (hs : Reaches cfg h ⟨.command t, s.backendBuf, none, s.activePasv⟩) :
    wp env (Follows (Trans cfg) Ctl.start)
      (fun s' h' => Reaches cfg h' ⟨.idle, s'.backendBuf, none, s'.activePasv⟩)
      (fun _ => Ended cfg) (passive cfg command s) h := by
  have hold : wp env (Follows (Trans cfg) Ctl.start)
      (fun _ h' => Reaches cfg h' ⟨.command t, s.backendBuf, none, none⟩) (fun _ => Ended cfg)
      (replacePort s.activePasv) h := by
    cases hactive : s.activePasv with
    | none =>
        rw [hactive] at hs
        exact hs
    | some old =>
        refine wp_then_books (quiet_request trivial) hs fun _ h₁ hs => ?_
        exact wp_step hs fun u _ => ⟨_, .release old u (Or.inr (Or.inr ⟨t, rfl, hstor⟩)), fun hs' => hs'⟩
  refine (wp_bind _).mpr (wp_post hold (fun _ h₁ hs => ?_) fun _ _ => id)
  refine wp_step hs fun port _ => ⟨_, .allocate port rfl hstor rfl, fun hs => ?_⟩
  cases port with
  | none =>
      refine (wp_bind _).mpr (wp_post (wp_clientIo_machine (.own ?_ fun hfwd => ?_) hs)
        (fun _ _ hs => hs) fun _ _ => id)
      · exact Or.inr (Or.inr (Or.inl rfl))
      · rw [hpassive] at hfwd
        cases hfwd
  | some port =>
      refine wp_then_books (quiet_request trivial) hs fun _ h₂ hs => ?_
      have hown : IsOwnReply cfg (utf8 (if command = .epsv then epsvReply port
          else pasvReply cfg.passive.address port)) := by
        refine Or.inr (Or.inr (Or.inr ⟨port, ?_⟩))
        split
        · exact Or.inl rfl
        · exact Or.inr rfl
      refine (wp_bind _).mpr ((wp_onExit _).mpr (wp_post
        (wp_clientIo_machine (.own hown fun hfwd => ?_) hs) (fun _ _ hs => hs)
        fun e h₃ hs => ?_))
      · rw [hpassive] at hfwd
        cases hfwd
      · exact wp_post (wp_drops_ended (asks_request (Or.inl ⟨port, rfl⟩)) hs) (fun _ _ => id)
          fun _ _ => id

theorem wp_forward_machine {line : Text} {s : SessState} {h : History Io}
    (hfwd : isForwardable line = true) (hstor : isStor line = true → s.activePasv = none)
    (hs : Reaches cfg h ⟨.command line, s.backendBuf, none, s.activePasv⟩) :
    wp env (Follows (Trans cfg) Ctl.start)
      (fun s' h' => Reaches cfg h' ⟨.idle, s'.backendBuf, none, s'.activePasv⟩)
      (fun _ => Ended cfg) (forward cfg (FtpCommand.parse (stripped line)) line s) h := by
  refine wp_step hs fun a _ => ⟨_, .write a (.forward hfwd hstor), fun hs => ?_⟩
  cases a with
  | error k => exact (wp_bind _).mpr (wp_backendIo_ended ⟨_, hs, rfl⟩)
  | ok u =>
      show wp env _ _ _ ((backendReply _ _ _ _ _).bind _) _
      refine (wp_bind _).mpr (wp_post (wp_backendReply_machine rfl rfl (Phase.replying line)
        (fun _ _ hne => .forwarded hne) (fun _ => .forwardedEof)
        (fun _ _ => .replyErr (Or.inl ⟨_, rfl⟩)) (fun _ => .replyElapsed (Or.inl ⟨_, rfl⟩)) hs)
        (fun x h₁ hs => ?_) fun _ _ => id)
      refine (wp_bind _).mpr (wp_post (wp_clientIo_machine .reply hs) (fun _ h₂ hs => ?_)
        fun _ _ => id)
      by_cases hquit : FtpCommand.parse (stripped line) = .quit
      · rw [if_pos hquit] at hs ⊢
        exact ⟨_, hs, rfl⟩
      · rw [if_neg hquit] at hs ⊢
        exact hs

/-! ## Uploads -/

section Uploads

variable {t : Text} {held : Option UInt16}

/-- The machine after commands of the gateway's own, with `rest` of the result
still buffered. -/
def AfterOwn {α : Type} (cfg : SessionConfig) (t : Text) (held : Option UInt16)
    (rest : α → Bytes) : Except IoKind α → History Io → Prop
  | .ok x, h => Reaches cfg h ⟨.command t, rest x, none, held⟩
  | .error _, h => Failing cfg held h

theorem wp_commandReply_machine {command : Text} {buf : Bytes} {h : History Io}
    {E : Leave → History Io → Prop} (hstor : isStor t = true) (hheld : held ≠ none)
    (hcmd : command = "EPSV".toList ∨ command = "PASV".toList)
    (hs : Reaches cfg h ⟨.command t, buf, none, held⟩) :
    wp env (Follows (Trans cfg) Ctl.start) (AfterOwn cfg t held Prod.snd) E
      (commandReply cfg.control command cfg.maxBytes buf) h := by
  refine wp_andThen.mpr ?_
  refine wp_step hs fun a _ => ⟨_, .write a (.passive hstor hheld hcmd), fun hs => ?_⟩
  cases a with
  | error k => exact ⟨_, hs⟩
  | ok u =>
      let next : LineRead → Bytes → Phase := fun r _ => match r with
        | .text l => if l = [] ∨ endsWithNewline l = false then .closing serviceNotAvailable
            else .command t
        | _ => .closing serviceNotAvailable
      have hnext : ∀ r rest, AfterLine cfg (.ownReply t) r rest (next r rest) := by
        intro r rest
        cases r with
        | err k => exact .ownReplyLost fun l hl => by simp at hl
        | elapsed => exact .ownReplyLost fun l hl => by simp at hl
        | text l =>
            by_cases hbad : l = [] ∨ endsWithNewline l = false
            · have hph : next (.text l) rest = .closing serviceNotAvailable := if_pos hbad
              rw [hph]
              exact .ownReplyLost fun l' hl => LineRead.text.inj hl ▸ hbad
            · have hph : next (.text l) rest = .command t := if_neg hbad
              rw [hph]
              simp only [not_or, Bool.not_eq_false] at hbad
              exact .ownReply hbad.1 hbad.2
      refine (wp_bind _).mpr (wp_post (wp_readLine_machine rfl rfl next hnext hs)
        (fun x h₁ hs => ?_) fun _ _ => id)
      obtain ⟨r, rest⟩ := x
      cases r with
      | err k => exact ⟨_, hs⟩
      | elapsed => exact ⟨_, hs⟩
      | text l =>
          simp only [next] at hs
          dsimp only
          by_cases hnil : l = []
          · simp only [hnil, true_or, if_true] at hs ⊢
            exact ⟨_, hs⟩
          cases hnl : endsWithNewline l with
          | false =>
              simp only [hnil, hnl, or_true, if_true, if_false] at hs ⊢
              exact ⟨_, hs⟩
          | true =>
              simp only [hnil, hnl, or_self, if_false, Bool.not_true, Bool.true_eq_false,
                Bool.false_eq_true] at hs ⊢
              exact hs

theorem wp_passiveReply_machine {mode : BackendPassiveMode} {buf : Bytes} {h : History Io}
    {E : Leave → History Io → Prop} (hstor : isStor t = true) (hheld : held ≠ none)
    (hs : Reaches cfg h ⟨.command t, buf, none, held⟩) :
    wp env (Follows (Trans cfg) Ctl.start) (AfterOwn cfg t held fun x => x.2.2) E
      (passiveReply cfg.control mode cfg.maxBytes buf) h := by
  have hpasv : ∀ {buf h}, Reaches cfg h ⟨.command t, buf, none, held⟩ →
      wp env (Follows (Trans cfg) Ctl.start) (AfterOwn cfg t held fun x => x.2.2) E
        (andThen (commandReply cfg.control "PASV".toList cfg.maxBytes buf) fun x =>
          pure (.ok (BackendPassiveMode.pasv, x.1, x.2))) h := by
    intro buf h hs
    refine wp_andThen.mpr (wp_post (wp_commandReply_machine hstor hheld (Or.inr rfl) hs)
      (fun r h₁ hr => ?_) fun _ _ => id)
    cases r with
    | error k => exact hr
    | ok x => exact hr
  cases mode with
  | pasv => exact hpasv hs
  | epsv =>
      refine wp_andThen.mpr (wp_post (wp_commandReply_machine hstor hheld (Or.inl rfl) hs)
        (fun r h₁ hr => ?_) fun _ _ => id)
      cases r with
      | error k => exact hr
      | ok x =>
          dsimp only
          split
          · exact hpasv hr
          · exact hr

/-- Where the attempt to open a data path leaves the machine. -/
def AfterOpen (cfg : SessionConfig) (t : Text) (held : Option UInt16) (x : Channel × Bytes)
    (h : History Io) : Prop :=
  (x.1 = .lost → Failing cfg held h)
    ∧ (x.1 ≠ .lost → Reaches cfg h ⟨.command t, x.2, none, held⟩)

theorem afterOpen_of_reaches {x : Channel × Bytes} {h : History Io} (hx : x.1 ≠ .lost)
    (hs : Reaches cfg h ⟨.command t, x.2, none, held⟩) : AfterOpen cfg t held x h :=
  ⟨fun hlost => absurd hlost hx, fun _ => hs⟩

theorem wp_openBackendDataConnection_machine {source : Option Ipv4Addr} {buf : Bytes}
    {h : History Io} {E : Leave → History Io → Prop} (hstor : isStor t = true)
    (hheld : held ≠ none) (hs : Reaches cfg h ⟨.command t, buf, none, held⟩) :
    wp env (Follows (Trans cfg) Ctl.start) (fun x h' => match x.1 with
      | .error (.controlConnection _) => Failing cfg held h'
      | _ => Reaches cfg h' ⟨.command t, x.2, none, held⟩) E
      (openBackendDataConnection cfg.control source cfg.limits buf) h := by
  refine wp_then_books (quiet_request trivial) hs fun control h₁ hs => ?_
  refine (wp_bind _).mpr (wp_post (wp_passiveReply_machine hstor hheld hs)
    (fun r h₂ hr => ?_) fun _ _ => id)
  cases r with
  | error k => exact hr
  | ok x =>
      obtain ⟨answered, line, buf⟩ := x
      dsimp only
      split
      · exact hr
      · refine wp_step hr fun a _ => ⟨_, .book (.connectData rfl _ source a), fun hs => ?_⟩
        cases a with
        | ok u => exact hs
        | error k => exact hs

theorem quiet_reportOpenFailure (source : Option Ipv4Addr) (e : DataConnectError) :
    Quiet (reportOpenFailure source e) := by
  cases e with
  | controlConnection k => exact quiet_bind (quiet_metric (by simp)) fun _ => quiet_observe k
  | unusableReply => exact quiet_metric (by simp)
  | connectFailed k =>
      refine quiet_bind (quiet_metric (by simp)) fun _ => quiet_bind (quiet_observe k) fun _ => ?_
      cases source with
      | none => exact quiet_ret ()
      | some source => exact quiet_request trivial

theorem quiet_acquireDataSlot (source : Option Ipv4Addr) : Quiet (acquireDataSlot source) := by
  cases source with
  | none => exact quiet_ret true
  | some source => exact quiet_request trivial

theorem quiet_dropDataSlot (source : Option Ipv4Addr) : Quiet (dropDataSlot source) := by
  cases source with
  | none => exact quiet_ret ()
  | some source => exact quiet_request trivial

theorem quiet_awaitClientData (port : UInt16) : Quiet (awaitClientData cfg port) := by
  have hcount : ∀ rejected, Quiet (countRejected rejected) := by
    intro rejected
    induction rejected with
    | nil => exact quiet_ret ()
    | cons a rest ih => exact quiet_bind (quiet_metric (by simp)) fun _ => ih
  refine quiet_bind (quiet_request trivial) fun run => quiet_bind (hcount _) fun _ => ?_
  split
  · exact quiet_ret _
  · exact quiet_ret _
  · exact quiet_ret _
  · exact ⟨trivial, trivial⟩

theorem wp_openChannel_machine {source : Option Ipv4Addr} {port : UInt16} {buf : Bytes}
    {h : History Io} {E : Leave → History Io → Prop} (hstor : isStor t = true)
    (hheld : held ≠ none) (hs : Reaches cfg h ⟨.command t, buf, none, held⟩) :
    wp env (Follows (Trans cfg) Ctl.start) (AfterOpen cfg t held) E
      (openChannel cfg source port buf) h := by
  refine wp_then_books (quiet_awaitClientData port) hs fun client h₁ hs => ?_
  cases client with
  | none => exact afterOpen_of_reaches (by simp) hs
  | some client =>
      refine wp_then_books (quiet_acquireDataSlot source) hs fun acquired h₂ hs => ?_
      cases acquired with
      | false => exact afterOpen_of_reaches (by simp) hs
      | true =>
          refine (wp_bind _).mpr (wp_post (wp_openBackendDataConnection_machine hstor hheld hs)
            (fun x h₃ hx => ?_) fun _ _ => id)
          obtain ⟨r, rest⟩ := x
          cases r with
          | ok u => exact afterOpen_of_reaches (by simp) hx
          | error e =>
              cases e with
              | controlConnection k =>
                  obtain ⟨p, hs⟩ := hx
                  refine wp_then_books (quiet_reportOpenFailure _ _) hs fun _ h₄ hs => ?_
                  refine wp_then_books (quiet_dropDataSlot source) hs fun _ h₅ hs => ?_
                  exact ⟨fun _ => ⟨p, hs⟩, fun hne => absurd rfl hne⟩
              | unusableReply =>
                  refine wp_then_books (quiet_reportOpenFailure _ _) hx fun _ h₄ hs => ?_
                  refine wp_then_books (quiet_dropDataSlot source) hs fun _ h₅ hs => ?_
                  exact afterOpen_of_reaches (by simp) hs
              | connectFailed k =>
                  refine wp_then_books (quiet_reportOpenFailure _ _) hx fun _ h₄ hs => ?_
                  refine wp_then_books (quiet_dropDataSlot source) hs fun _ h₅ hs => ?_
                  exact afterOpen_of_reaches (by simp) hs

theorem wp_storReply_machine {buf : Bytes} {h : History Io} (hstor : isStor t = true)
    (hheld : held ≠ none) (hs : Reaches cfg h ⟨.command t, buf, none, held⟩) :
    wp env (Follows (Trans cfg) Ctl.start)
      (fun x h' => Reaches cfg h' ⟨if cfg.backendTls then
        (if x.1.head? = some '1' then .shaking t else .idle) else .relaying t,
        x.2, none, held⟩) (fun _ => Ended cfg) (storReply cfg t buf) h := by
  refine wp_step hs fun a _ => ⟨_, .write a (.stor hstor hheld), fun hs => ?_⟩
  cases a with
  | error k => exact (wp_bind _).mpr (wp_backendIo_ended ⟨_, hs, rfl⟩)
  | ok u =>
      show wp env _ _ _ ((backendReply _ _ _ _ _).bind _) _
      refine (wp_bind _).mpr (wp_post (wp_backendReply_machine rfl rfl (Phase.storReplying t)
        (fun _ _ hne => .storSent hne) (fun _ => .storSentEof)
        (fun _ _ => .replyErr (Or.inr (Or.inl ⟨_, rfl⟩)))
        (fun _ => .replyElapsed (Or.inr (Or.inl ⟨_, rfl⟩))) hs) (fun x h₁ hs => ?_) fun _ _ => id)
      exact (wp_bind _).mpr (wp_post (wp_clientIo_machine .storReply hs) (fun _ _ hs => hs)
        fun _ _ => id)

/-- The data path, up to the backend's last reply. -/
theorem wp_transfer_machine {client : Arrival} {buf : Bytes} {h : History Io}
    (hs : Reaches cfg h ⟨if cfg.backendTls then .shaking t else .relaying t, buf, none, held⟩) :
    wp env (Follows (Trans cfg) Ctl.start)
      (fun x h' => Reaches cfg h' ⟨.completing t x.1, x.2, none, held⟩) (fun _ => Ended cfg)
      (transfer cfg client buf) h := by
  have hsecure : wp env (Follows (Trans cfg) Ctl.start)
      (fun secured h' => Reaches cfg h' ⟨if secured then .relaying t else .finalReply t,
        buf, none, held⟩) (fun _ => Ended cfg) (secureData cfg) h := by
    unfold secureData
    cases htls : cfg.backendTls with
    | false =>
        simp only [htls, Bool.false_eq_true, if_false] at hs ⊢
        exact hs
    | true =>
        simp only [htls, if_true] at hs ⊢
        refine wp_step hs fun a _ => ⟨_, .startDataTls a rfl, fun hs => ?_⟩
        cases a with
        | ok u => exact hs
        | error k =>
            refine wp_then_books (quiet_metric (by simp)) hs fun _ h₁ hs => ?_
            exact wp_then_books (quiet_observe k) hs fun _ h₂ hs => hs
  have hrelay : ∀ secured {h}, Reaches cfg h ⟨if secured then .relaying t else .finalReply t,
        buf, none, held⟩ →
      wp env (Follows (Trans cfg) Ctl.start)
        (fun _ h' => Reaches cfg h' ⟨.finalReply t, buf, none, held⟩) (fun _ => Ended cfg)
        (relayIf secured cfg client) h := by
    intro secured h hs
    cases secured with
    | false => exact hs
    | true =>
        refine wp_step hs fun run _ => ⟨_, .relay client run rfl, fun hs => ?_⟩
        split
        · exact wp_books (quiet_metric (by simp)) hs
        · exact hs
        · trivial
  refine (wp_bind _).mpr (wp_post hsecure (fun secured h₁ hs => ?_) fun _ _ => id)
  refine wp_then_books (quiet_metric (by simp)) hs fun _ h₂ hs => ?_
  refine (wp_bind _).mpr (wp_post (hrelay secured hs) (fun _ h₃ hs => ?_) fun _ _ => id)
  exact wp_backendReply_machine rfl rfl (Phase.completing t) (fun _ _ hne => .finalReply hne)
    (fun _ => .finalReplyEof) (fun _ _ => .replyErr (Or.inr (Or.inr ⟨_, rfl⟩)))
    (fun _ => .replyElapsed (Or.inr (Or.inr ⟨_, rfl⟩))) hs

theorem quiet_dropUpload (succeeded : Bool) : Quiet (dropUpload succeeded) := by
  refine quiet_bind (quiet_metric (by simp)) fun _ => ?_
  split
  · exact quiet_ret ()
  · exact quiet_metric (by simp)

/-- Bookkeeping on the way out. -/
theorem wp_quiet_ended {α : Type} {p : Sess α} {h : History Io} (hp : Quiet p)
    (hs : Ended cfg h) :
    wp env (Follows (Trans cfg) Ctl.start) (fun _ => Ended cfg) (fun _ => Ended cfg) p h :=
  wp_drops_ended (asks_mono (fun _ => Or.inr) hp.asks) hs

theorem wp_finish_machine {completion : Text} {buf : Bytes} {h : History Io}
    (hs : Reaches cfg h ⟨.completing t completion, buf, none, held⟩) :
    wp env (Follows (Trans cfg) Ctl.start)
      (fun _ h' => Reaches cfg h' ⟨.idle, buf, none, held⟩) (fun _ => Ended cfg)
      (finish completion) h := by
  have hcount : wp env (Follows (Trans cfg) Ctl.start)
      (fun _ h' => Reaches cfg h' ⟨.completing t completion, buf, none, held⟩)
      (fun _ => Ended cfg) (countSucceeded ((stripped completion).head? = some '2')) h := by
    unfold countSucceeded
    split
    · rename_i htwo
      exact wp_step hs fun u _ => ⟨_, .succeeded u rfl (by simpa using htwo), fun hs => hs⟩
    · exact hs
  refine (wp_bind _).mpr (wp_post hcount (fun _ h₁ hs => ?_) fun _ _ => id)
  refine (wp_finally _).mpr (wp_post (wp_clientIo_machine .complete hs) (fun _ h₂ hs => ?_)
    fun _ h₂ hs => ?_)
  · exact wp_books (quiet_dropUpload _) hs
  · exact wp_quiet_ended (quiet_dropUpload _) hs

theorem wp_upload_machine {client : Arrival} {buf : Bytes} {h : History Io}
    (hstor : isStor t = true) (hheld : held ≠ none)
    (hs : Reaches cfg h ⟨.command t, buf, none, held⟩) :
    wp env (Follows (Trans cfg) Ctl.start)
      (fun buf' h' => Reaches cfg h' ⟨.idle, buf', none, held⟩) (fun _ => Ended cfg)
      (upload cfg t client buf) h := by
  refine wp_then_books (quiet_metric (by simp)) hs fun _ h₁ hs => ?_
  refine (wp_bind _).mpr ((wp_onExit _).mpr (wp_post (wp_storReply_machine hstor hheld hs)
    (fun x h₂ hs => ?_) fun _ h₂ hs => wp_quiet_ended (quiet_metric (by simp)) hs))
  obtain ⟨reply, rest⟩ := x
  have htransfer : Reaches cfg h₂ ⟨if cfg.backendTls then .shaking t else .relaying t,
        rest, none, held⟩ →
      wp env (Follows (Trans cfg) Ctl.start)
        (fun buf' h' => Reaches cfg h' ⟨.idle, buf', none, held⟩) (fun _ => Ended cfg)
        (((transfer cfg client rest).onExit fun _ => dropUpload false).bind fun x =>
          (finish x.1).bind fun _ => .ret x.2) h₂ := by
    intro hs
    refine (wp_bind _).mpr ((wp_onExit _).mpr (wp_post (wp_transfer_machine hs)
      (fun x h₃ hs => ?_) fun _ h₃ hs => wp_quiet_ended (quiet_dropUpload false) hs))
    exact (wp_bind _).mpr (wp_post (wp_finish_machine hs) (fun _ _ hs => hs) fun _ _ => id)
  dsimp only at hs ⊢
  cases htls : cfg.backendTls with
  | false =>
      simp only [htls, Bool.false_eq_true, if_false, Bool.false_and] at hs htransfer ⊢
      exact htransfer hs
  | true =>
      simp only [htls, if_true, Bool.true_and] at hs htransfer ⊢
      by_cases hone : reply.head? = some '1'
      · simp only [hone, if_true, ne_eq, not_true_eq_false, decide_false, Bool.false_eq_true,
          if_false] at hs ⊢
        exact htransfer hs
      · simp only [hone, if_false, ne_eq, not_false_eq_true, decide_true, if_true] at hs ⊢
        exact wp_then_books (quiet_metric (by simp)) hs fun _ h₃ hs => hs

theorem wp_stor_machine {source : Option Ipv4Addr} {port : UInt16} {s : SessState}
    {h : History Io} (hstor : isStor t = true)
    (hs : Reaches cfg h ⟨.command t, s.backendBuf, none, some port⟩) :
    wp env (Follows (Trans cfg) Ctl.start)
      (fun s' h' => Reaches cfg h' ⟨.idle, s'.backendBuf, none, s'.activePasv⟩)
      (fun _ => Ended cfg) (stor cfg source t port s) h := by
  have hout : ∀ h, Ended cfg h →
      wp env (Follows (Trans cfg) Ctl.start) (fun _ => Ended cfg) (fun _ => Ended cfg)
        (release port) h := fun h hs => wp_drops_ended (asks_request (Or.inl ⟨port, rfl⟩)) hs
  have hdrop : ∀ {buf : Bytes} {h}, Reaches cfg h ⟨.idle, buf, none, some port⟩ →
      wp env (Follows (Trans cfg) Ctl.start)
        (fun _ h' => Reaches cfg h' ⟨.idle, buf, none, none⟩) (fun _ => Ended cfg)
        (release port) h :=
    fun hs => wp_step hs fun u _ => ⟨_, .release port u (Or.inl rfl), fun hs => hs⟩
  refine (wp_finally _).mpr ((wp_bind _).mpr (wp_post (wp_openChannel_machine hstor (by simp) hs)
    (fun x h₁ hx => ?_) fun _ _ => id))
  obtain ⟨channel, rest⟩ := x
  cases channel with
  | lost =>
      obtain ⟨p, hs⟩ := hx.1 rfl
      refine wp_then_books (quiet_request trivial) hs fun _ h₂ hs => ?_
      exact wp_post (wp_lastWords (.closing _) hs) (fun _ _ hs => hs) fun _ h₃ hs =>
        hout h₃ hs
  | unavailable =>
      refine wp_then_books (quiet_request trivial) (hx.2 (by simp)) fun _ h₂ hs => ?_
      refine (wp_bind _).mpr (wp_post (wp_clientIo_machine (.own ?_ fun _ hnone => ?_) hs)
        (fun _ h₃ hs => hdrop hs) fun _ h₃ hs => hout h₃ hs)
      · exact Or.inr (Or.inr (Or.inl rfl))
      · cases hnone hstor
  | ready client =>
      refine wp_then_books (quiet_request trivial) (hx.2 (by simp)) fun _ h₂ hs => ?_
      refine (wp_bind _).mpr ((wp_finally _).mpr (wp_post (wp_upload_machine hstor (by simp) hs)
        (fun buf h₃ hs => ?_) fun _ h₃ hs => ?_))
      · exact wp_post (wp_books (quiet_dropDataSlot source) hs) (fun _ _ hs => hdrop hs)
          fun _ _ => id
      · exact wp_post (wp_quiet_ended (quiet_dropDataSlot source) hs)
          (fun _ h₄ hs => hout h₄ hs) fun _ h₄ hs => hout h₄ hs

end Uploads

/-! ## The session -/

theorem wp_dropActive_ended {active : Option UInt16} {leave : Leave} {h : History Io}
    (hs : Ended cfg h) :
    wp env (Follows (Trans cfg) Ctl.start) (fun _ => Ended cfg) (fun _ => Ended cfg)
      (dropActive active leave) h :=
  wp_drops_ended (asks_dropActive (fun port => Or.inl ⟨port, rfl⟩) (fun _ _ => Or.inr trivial) _ _)
    hs

/-- An answer of the gateway's own to a command it does not pass on. -/
theorem wp_refuse_machine {b : Bytes} {line : Text} {s : SessState} {h : History Io}
    (hb : IsOwnReply cfg b)
    (hwhy : isForwardable line = true →
      b = syntaxError ∧ hasEmbeddedLineBreak (stripped line) = true)
    (hs : Reaches cfg h ⟨.command line, s.backendBuf, none, s.activePasv⟩) :
    wp env (Follows (Trans cfg) Ctl.start)
      (fun s' h' => Reaches cfg h' ⟨.idle, s'.backendBuf, none, s'.activePasv⟩)
      (fun _ => Ended cfg) (((clientIo b).bind fun _ => .ret s).onExit
        (dropActive s.activePasv)) h :=
  (wp_onExit _).mpr ((wp_bind _).mpr (wp_post
    (wp_clientIo_machine (.own hb fun hfwd _ => hwhy hfwd) hs)
    (fun _ _ hs => hs) fun _ _ hs => wp_dropActive_ended hs))

theorem wp_serve_machine {source : Option Ipv4Addr} {line : Text} {s : SessState}
    {h : History Io} (hs : Reaches cfg h ⟨.command line, s.backendBuf, none, s.activePasv⟩) :
    wp env (Follows (Trans cfg) Ctl.start)
      (fun s' h' => Reaches cfg h' ⟨.idle, s'.backendBuf, none, s'.activePasv⟩)
      (fun _ => Ended cfg) (serve cfg source line s) h := by
  unfold serve
  dsimp only
  split
  · rename_i hbreak
    refine wp_then_books (quiet_request trivial) hs fun _ h₁ hs => ?_
    exact wp_refuse_machine (Or.inl rfl) (fun _ => ⟨rfl, hbreak⟩) hs
  · refine wp_then_books (quiet_request trivial) hs fun _ h₁ hs => ?_
    split
    · rename_i hunknown
      refine wp_then_books (quiet_request trivial) hs fun _ h₂ hs => ?_
      exact wp_refuse_machine (Or.inr (Or.inl rfl)) (by simp [isForwardable, hunknown]) hs
    · rename_i hknown
      split
      · rename_i hpassive
        exact wp_passive_machine (not_isStor_of_isPassive hpassive)
          (by simp [isForwardable, hpassive]) hs
      · rename_i hactive
        have hfwd : isForwardable line = true := by simp [isForwardable, hknown, hactive]
        split
        · rename_i path port hcommand hactive
          rw [hactive] at hs
          exact wp_stor_machine (by simp [isStor, hcommand]) hs
        · rename_i hother
          refine (wp_onExit _).mpr (wp_post (wp_forward_machine hfwd (fun hstor => ?_) hs)
            (fun _ _ hs => hs) fun _ _ hs => wp_dropActive_ended hs)
          cases hactive : s.activePasv with
          | none => rfl
          | some port =>
              unfold isStor at hstor
              split at hstor
              · rename_i path hcommand
                exact absurd hactive (hother path port hcommand)
              · cases hstor

theorem wp_round_machine {source : Option Ipv4Addr} {s : SessState} {h : History Io}
    (hs : Reaches cfg h ⟨.idle, s.backendBuf, none, s.activePasv⟩) :
    wp env (Follows (Trans cfg) Ctl.start)
      (fun s' h' => Reaches cfg h' ⟨.idle, s'.backendBuf, none, s'.activePasv⟩)
      (fun _ => Ended cfg) (round cfg source s) h := by
  refine (wp_bind _).mpr ((wp_onExit _).mpr (wp_post (wp_nextLine_machine hs)
    (fun x h₁ hs => ?_) fun _ _ hs => wp_dropActive_ended hs))
  obtain ⟨line, clientBuf⟩ := x
  exact wp_serve_machine (s := { s with clientBuf := clientBuf }) hs

end Refine

/-- **Every session stays on the control machine**, in any surroundings, and
leaves it in its last phase. -/
theorem session_on_machine (w : World) (cfg : SessionConfig) (n : Nat) :
    ∃ s, Reaches cfg (history w cfg n) s
      ∧ ∀ e, (sessionRun w cfg n).1 = .exit e → s.phase = .ended := by
  have hstart : Reaches cfg [⟨.metric .sessionStarted, ()⟩] Ctl.start :=
    Path.snoc .nil (.book (.metric (by simp) ()))
  have hended : ∀ (e : Leave) h, Ended cfg h →
      Follows (Trans cfg) Ctl.start h ⟨.metric .sessionEnded, ()⟩
        ∧ Ended cfg (h ++ [⟨.metric .sessionEnded, ()⟩]) := by
    rintro _ h ⟨s, hs, hph⟩
    have hs' : Reaches cfg (h ++ [⟨.metric .sessionEnded, ()⟩]) s :=
      hs.snoc (.book (.metric (by simp) ()))
    exact ⟨⟨s, hs'⟩, s, hs', hph⟩
  have hwp : wp w.answer (Follows (Trans cfg) Ctl.start) (fun _ _ => False)
      (fun _ => Ended cfg) (handle cfg n) [] :=
    wp_handle (J := fun s h => Reaches cfg h ⟨.idle, s.backendBuf, none, s.activePasv⟩)
      ⟨_, hstart⟩ (wp_greet_machine hstart) (fun _ _ _ hs => wp_round_machine hs) hended n
  obtain ⟨hall, -, hexit⟩ := run_of_wp hwp (always_nil _)
  cases hout : (sessionRun w cfg n).1 with
  | exit e =>
      obtain ⟨s, hs, hph⟩ := hexit e hout
      exact ⟨s, hs, fun _ _ => hph⟩
  | ret a =>
      obtain ⟨s, hs⟩ := path_of_always hall
      exact ⟨s, hs, fun e he => by cases he⟩
  | waiting =>
      obtain ⟨s, hs⟩ := path_of_always hall
      exact ⟨s, hs, fun e he => by cases he⟩

/-- One exchange of a session, with the machine before it, after it and at the
end. -/
theorem session_at {w : World} {cfg : SessionConfig} {n : Nat} {h t : History Io} {e : Event}
    (heq : history w cfg n = h ++ e :: t) :
    ∃ s₁ s₂ s, Reaches cfg h s₁ ∧ Trans cfg s₁ e s₂ ∧ Path (Trans cfg) s₂ t s
      ∧ ∀ x, (sessionRun w cfg n).1 = .exit x → s.phase = .ended := by
  obtain ⟨s, hs, hended⟩ := session_on_machine w cfg n
  rw [heq] at hs
  obtain ⟨s₁, s₂, hs₁, hstep, hrest⟩ := hs.at
  exact ⟨s₁, s₂, s, hs₁, hstep, hrest, hended⟩

end FtpGateway
