import FtpGateway.Session.Replies

/-!
# Banners and multi-line replies

RFC 959 lets a reply have several lines. The session reads one line as the
banner and one as the reply to a command it passes on; only the negotiation of
TLS knows how to read on to the last line. So a session with a backend that
says everything in one line passes on complete replies and is not kept from
securing its connection by the banner (`complete_replies_in_step`); the rest of
a longer banner or reply is taken for what comes next.
-/

namespace FtpGateway

open Str Interact

namespace Backend

variable (b : Backend)

/-- Whole replies to the commands of the client, and what uploads, `EPSV` and
`PASV` need. -/
def wholeReplies (h : History Io) : Event → Bool
  | ⟨.write (.backend _) bytes, _⟩ =>
      if bytes ∈ negotiationCommands then true
      else if bytes ∈ ownCommands then isSingleReply (b.next h)
      else if isStorCommand bytes then isStorDialogue (b.next h)
      else isReply (b.next h)
  | _ => true

/-- The replies to the client's commands have one line. -/
def briefReplies (h : History Io) : Event → Bool
  | ⟨.write (.backend _) bytes, _⟩ =>
      bytes ∈ ownCommands || isStorCommand bytes || (b.next h).length == 1
  | _ => true

/-- The backend agrees to every step of the negotiation. -/
def acceptsTls (h : History Io) : Event → Bool
  | ⟨.write (.backend _) bytes, _⟩ =>
      [Negotiation.auth, .pbsz, .prot].all fun k => bytes ≠ withCrLf k.command
        || (isSingleReply (b.next h) && (b.next h).all fun l => l.take 3 = k.code)
  | ⟨.startTls, .error _⟩ => false
  | _ => true

theorem singleReplies_of_brief {h : History Io} {e : Event} (hwhole : b.wholeReplies h e = true)
    (hbrief : b.briefReplies h e = true)
    (hnot : ∀ c ∈ negotiationCommands, e.writeOut Conn.isBackend ≠ some c) :
    b.singleReplies h e = true := by
  unfold singleReplies
  split
  · rename_i tls bytes a
    have hneg : bytes ∉ negotiationCommands := fun hmem => hnot bytes hmem (by simp)
    simp only [wholeReplies, if_neg hneg] at hwhole
    simp only [briefReplies, Bool.or_eq_true, decide_eq_true_eq, beq_iff_eq] at hbrief
    by_cases hown : bytes ∈ ownCommands
    · rw [if_pos hown] at hwhole
      have hnot : isStorCommand bytes = false := by
        by_contra hstor
        exact not_mem_ownCommands_of_isStorCommand (by simpa using hstor) hown
      rw [hnot]
      exact hwhole
    · rw [if_neg hown] at hwhole
      split
      · rename_i hstor
        rwa [if_pos hstor] at hwhole
      · rename_i hstor
        rw [if_neg hstor] at hwhole
        obtain ⟨l, hl⟩ := List.length_eq_one_iff.mp
          (hbrief.resolve_left fun hor => hor.elim hown hstor)
        rw [hl] at hwhole ⊢
        exact hwhole
  · rfl

end Backend

/-! ## The banner -/

/-- What the client has been sent up to and with the banner. `N` allows the
negotiation to fail. -/
def Greeted (b : Backend) (N : Prop) (h : History Io) : Phase → Prop
  | .connecting | .banner => writesTo Conn.isClient h = [] ∧ linesFrom Conn.isBackend h = []
      ∧ b.owed h = b.banner
  | .sending _ t | .authOk t | .greeting t => writesTo Conn.isClient h = [] ∧ b.banner = [t]
  | .awaiting k t code => writesTo Conn.isClient h = [] ∧ b.banner = [t]
      ∧ (N ∨ (code = none ∧ ∃ l, b.owed h = linesFrom Conn.isBackend h ++ [l]
        ∧ EndsReply (utf8 k.code) none l))
  | .closing _ => N ∨ (writesTo Conn.isClient h = [] ∧ linesFrom Conn.isBackend h = [])
      ∨ (writesTo Conn.isClient h).head? = some (said b.banner)
  | .ended => N ∨ linesFrom Conn.isBackend h = []
      ∨ (writesTo Conn.isClient h).head? = some (said b.banner)
  | _ => (writesTo Conn.isClient h).head? = some (said b.banner)

section Greeted

variable {cfg : SessionConfig} {b : Backend} {P N : Prop} {h : History Io} {s s' : Ctl} {e : Event}

/-- An exchange that says nothing on either connection. -/
theorem Greeted.skip {p : Phase} (hg : Greeted b N h p)
    (hw : ∀ on, e.writeOut on = none) (hl : e.lineIn Conn.isBackend = none) :
    Greeted b N (h ++ [e]) p := by
  have hsent : writesTo Conn.isClient (h ++ [e]) = writesTo Conn.isClient h := by simp [hw]
  have hlines : linesFrom Conn.isBackend (h ++ [e]) = linesFrom Conn.isBackend h := by simp [hl]
  have howed : b.owed (h ++ [e]) = b.owed h := b.owed_of_no_write (hw _)
  unfold Greeted at hg ⊢
  simp only [hsent, hlines, howed]
  exact hg

theorem greeted_of_sent {ph : Phase} (hlate : ph.isEarly = false)
    (hsent : (writesTo Conn.isClient h).head? = some (said b.banner)) : Greeted b N h ph := by
  cases ph with
  | closing l => exact Or.inr (Or.inr hsent)
  | ended => exact Or.inr (Or.inr hsent)
  | connecting | banner | sending | awaiting | authOk | greeting => cases hlate
  | _ => exact hsent

theorem sent_of_greeted {ph : Phase} (hlate : ph.isEarly = false) (hgo : ph.isOver = false)
    (hg : Greeted b N h ph) : (writesTo Conn.isClient h).head? = some (said b.banner) := by
  cases ph with
  | closing l => cases hgo
  | ended => cases hgo
  | connecting | banner | sending | awaiting | authOk | greeting => cases hlate
  | _ => exact hg

/-- Once it has been sent, the banner stays the first thing that was sent. -/
theorem Greeted.step_late (hg : Greeted b N h s.phase) (hlate : s.phase.isEarly = false)
    (hgo : s.phase.isOver = false) (ht : Trans cfg s e s') : Greeted b N (h ++ [e]) s'.phase := by
  refine greeted_of_sent (isEarly_step hlate ht) ?_
  rw [writesTo_append, List.head?_append, sent_of_greeted hlate hgo hg]
  rfl

theorem Greeted.step_over (hg : Greeted b N h s.phase) (hover : s.phase.isOver = true)
    (ht : Trans cfg s e s') : Greeted b N (h ++ [e]) s'.phase := by
  rcases step_of_isOver hover ht with ⟨hsame, hw, hl⟩ | ⟨l, a, hph, rfl, hended⟩
  · rw [hsame]
    exact hg.skip hw (hl _)
  · rw [hph] at hg
    rw [hended]
    rcases hg with hN | ⟨-, hlines⟩ | hsent
    · exact Or.inl hN
    · exact Or.inr (Or.inl (by simp [hlines]))
    · exact Or.inr (Or.inr (by simp [List.head?_append, hsent]))

theorem Greeted.line {c : Conn} {r : LineRead} {rest : Bytes} {ph : Phase} {a : Unit}
    {due : List Text} (hg : Greeted b N h s.phase) (hearly : s.phase.isEarly = true)
    (hb : Balanced cfg b P h s due) (hc : s.phase.reads cfg = some c)
    (hr : Handed cfg.maxBytes s.stop s.pending r rest)
    (hnext : AfterLine cfg s.phase (s.phase.handed cfg r) rest ph) :
    Greeted b N (h ++ [⟨.line c (s.phase.handed cfg r), a⟩]) ph := by
  have hdue := hb.waits
  have howed := hb.owed
  obtain ⟨l, due', rfl, hl, htext, -, hrest⟩ :
      ∃ l due', due = l :: due' ∧ WholeLine cfg.maxBytes l ∧ s.phase.handed cfg r = .text l
        ∧ s.pending = utf8 l ++ rest ∧ rest <+: said due' := by
    rcases hb.next_line hc hr with hline | ⟨-, ⟨t, hph⟩, -⟩
    · exact hline
    · rw [hph] at hearly
      cases hearly
  rw [htext] at hnext ⊢
  have hsent : writesTo Conn.isClient (h ++ [⟨.line c (.text l), a⟩])
      = writesTo Conn.isClient h := by simp
  generalize s.phase = ph₀ at hg hearly hdue hnext
  cases hnext with
  | banner hne =>
      obtain ⟨hnone, hlines, hbanner⟩ := hg
      obtain ⟨t, ht, -⟩ := hdue
      obtain ⟨rfl, rfl⟩ := List.cons.inj ht
      rw [hlines, List.nil_append, hbanner] at howed
      split <;> exact ⟨hsent.trans hnone, howed⟩
  | bannerEof => exact absurd rfl hl.ne_nil
  | negotiationFailed hbad =>
      obtain ⟨-, -, hN | ⟨rfl, l', howed', hends⟩⟩ := hg
      · exact Or.inl hN
      · rw [howed', List.append_cancel_left_eq] at howed
        obtain ⟨rfl, -⟩ := List.cons.inj howed
        exact absurd hends (hbad _ rfl)
  | negotiationMore hmore =>
      obtain ⟨hnone, hbanner, hN | ⟨rfl, l', howed', hends⟩⟩ := hg
      · exact ⟨hsent.trans hnone, hbanner, Or.inl hN⟩
      · rw [howed', List.append_cancel_left_eq] at howed
        obtain ⟨rfl, -⟩ := List.cons.inj howed
        exact absurd hmore (not_continuesReply_of_endsReply hends)
  | @negotiated k t _ _ _ hends =>
      obtain ⟨hnone, hbanner, hwhy⟩ := hg
      cases k with
      | pbsz => exact ⟨hsent.trans hnone, hbanner⟩
      | prot => exact ⟨hsent.trans hnone, hbanner⟩
      | auth =>
          by_cases hnil : rest = []
          · simp only [Phase.negotiated, hnil, if_true]
            exact ⟨hsent.trans hnone, hbanner⟩
          · simp only [Phase.negotiated, hnil, if_false]
            rcases hwhy with hN | ⟨rfl, l', howed', -⟩
            · exact Or.inl hN
            · rw [howed', List.append_cancel_left_eq] at howed
              obtain ⟨-, rfl⟩ := List.cons.inj howed
              exact absurd (List.prefix_nil.mp hrest) hnil
  | _ => cases hearly

theorem Greeted.write {c : Conn} {bytes : Bytes} {ok err : Phase} {a : Except IoKind Unit}
    (hg : Greeted b N h s.phase) (hearly : s.phase.isEarly = true)
    (hclean : Event.betweenCommands ⟨.write c bytes, a⟩ = true →
      linesFrom Conn.isBackend h = b.owed h)
    (hw : Writes cfg s.held s.phase c bytes ok err)
    (hA : b.answers h ⟨.write c bytes, a⟩ = true)
    (hacc : N ∨ b.acceptsTls h ⟨.write c bytes, a⟩ = true) :
    Greeted b N (h ++ [⟨.write c bytes, a⟩]) (onOk a ok err) := by
  generalize s.phase = ph₀ at hg hearly hw
  cases hw with
  | unconnected =>
      have hover : Greeted b N (h ++ [⟨.write .client serviceNotAvailable, a⟩]) .ended :=
        Or.inr (Or.inl (by simp [hg.2.1]))
      cases a <;> exact hover
  | greet banner =>
      obtain ⟨hnone, hbanner⟩ := hg
      have hsent : (writesTo Conn.isClient (h ++ [⟨.write .client (utf8 banner), a⟩])).head?
          = some (said b.banner) := by
        simp [hnone, hbanner]
      exact greeted_of_sent (by cases a <;> rfl) hsent
  | negotiate k banner =>
      obtain ⟨hnone, hbanner⟩ := hg
      obtain ⟨tls, hconn⟩ : ∃ tls, k.conn = .backend tls := by cases k <;> exact ⟨_, rfl⟩
      rw [hconn] at hA hacc hclean ⊢
      cases a with
      | error e => cases hA
      | ok x =>
          refine ⟨by simp [hnone], hbanner, hacc.imp_right fun hacc => ⟨rfl, ?_⟩⟩
          have hk : (isSingleReply (b.next h)
              && (b.next h).all fun l => decide (l.take 3 = k.code)) = true := by
            have hmem : k ∈ [Negotiation.auth, .pbsz, .prot] := by cases k <;> decide
            have hall := List.all_eq_true.mp hacc k hmem
            simpa using hall
          rw [Bool.and_eq_true] at hk
          obtain ⟨l, hl, hline⟩ : ∃ l, b.next h = [l] ∧ isSingleLine l = true := by
            have hsingle := hk.1
            unfold isSingleReply at hsingle
            split at hsingle
            · rename_i l hl
              exact ⟨l, hl, hsingle⟩
            · cases hsingle
          have hcode : l.take 3 = k.code := by simpa [hl] using hk.2
          refine ⟨l, ?_, hcode ▸ endsReply_of_isSingleLine hline⟩
          rw [b.owed_write, ← hclean rfl, hl]
          simp
  | _ => cases hearly

theorem Greeted.step (hg : Greeted b N h s.phase) (hin : InStep cfg b P h s)
    (hA : b.answers h e = true) (hacc : N ∨ b.acceptsTls h e = true) (ht : Trans cfg s e s') :
    Greeted b N (h ++ [e]) s'.phase := by
  cases hover : s.phase.isOver with
  | true => exact hg.step_over hover ht
  | false =>
      cases hearly : s.phase.isEarly with
      | false => exact hg.step_late hearly hover ht
      | true =>
          cases ht with
          | read a hc hno hlen hstop =>
              rw [s.take_phase a]
              exact hg.skip (fun _ => rfl) rfl
          | line a hc hr hnext =>
              obtain ⟨due, hb⟩ := hin.agree hover
              exact hg.line hearly hb hc hr hnext
          | write a hw =>
              exact hg.write hearly (fun he => consumed_of_inStep hin he (.write a hw)) hw hA hacc
          | connected source hph =>
              rw [hph] at hg
              exact hg.skip (p := .banner) (fun _ => rfl) rfl
          | startTls a hph hpend =>
              rw [hph] at hg
              cases a with
              | ok x => exact hg.skip (p := .sending .pbsz _) (fun _ => rfl) rfl
              | error k => exact Or.inl (hacc.resolve_right (by simp [Backend.acceptsTls]))
          | succeeded a hph hl => exact hg.skip (fun _ => rfl) rfl
          | release port a hph => exact hg.skip (fun _ => rfl) rfl
          | allocate a hph hstor hheld => exact hg.skip (fun _ => rfl) rfl
          | book he => exact hg.skip (fun on => (he.silent on).1) (he.silent _).2.1
          | clientRead a hph => rw [hph] at hearly; cases hearly
          | clientLine a hph hnext => rw [hph] at hearly; cases hearly
          | startDataTls a hph => rw [hph] at hearly; cases hearly
          | relay client run hph => rw [hph] at hearly; cases hearly

theorem greeted_of_path (hbanner : OneLine cfg.maxBytes b.banner) (hp : Reaches cfg h s)
    (hall : Always (b.Orderly cfg P) h)
    (hacc : N ∨ Always (fun h e => b.acceptsTls h e = true) h) : Greeted b N h s.phase := by
  induction hp with
  | nil => exact ⟨rfl, rfl, by simp [Backend.owed]⟩
  | @snoc h s s' e hp ht ih =>
      obtain ⟨hall, hnow⟩ := always_append_single.mp hall
      refine Greeted.step (ih hall (hacc.imp_right Always.of_append))
        (inStep_of_path hbanner hp hall) hnow.1 ?_ ht
      exact hacc.imp_right fun hacc => (always_append_single.mp hacc).2

/-- If the negotiation cannot fail, nothing is sent before the banner. -/
theorem first_of_greeted {ph : Phase} {first : Bytes} (hg : Greeted b False h ph)
    (hlines : linesFrom Conn.isBackend h ≠ [])
    (hfirst : first ∈ (writesTo Conn.isClient h).head?) : first = said b.banner := by
  have hnone : writesTo Conn.isClient h = [] → first = said b.banner := by
    intro hnil
    simp [hnil] at hfirst
  have hsome : (writesTo Conn.isClient h).head? = some (said b.banner) → first = said b.banner := by
    intro hhead
    rw [hhead] at hfirst
    exact (Option.some.inj hfirst).symm
  cases ph with
  | connecting | banner | sending | awaiting | authOk | greeting => exact hnone hg.1
  | closing l =>
      rcases hg with hfalse | ⟨hnil, -⟩ | hhead
      · exact hfalse.elim
      · exact hnone hnil
      · exact hsome hhead
  | ended =>
      rcases hg with hfalse | hnil | hhead
      · exact hfalse.elim
      · exact absurd hnil hlines
      · exact hsome hhead
  | _ => exact hsome hg

end Greeted

/-! ## Complete replies -/

/-- A backend that answers in order, with a banner and replies as RFC 959 has
them. -/
structure Backend.SpeaksRfc959 (b : Backend) (cfg : SessionConfig) (H : History Io) : Prop where
  banner : isReply b.banner = true
  answers : Always (fun h e => b.answers h e = true) H
  replies : Always (fun h e => b.wholeReplies h e = true) H
  negotiates : Always (b.Negotiates cfg) H
  fits : b.WithinLimit cfg H

theorem speaksRfc959_of_check {b : Backend} {cfg : SessionConfig} {H : History Io}
    (hbanner : isReply b.banner = true) (hfit : b.WithinLimit cfg H)
    (hcheck : checkFrom (fun h e => b.answers h e && b.wholeReplies h e && b.negotiatesBriefly h e)
      [] H = true) : b.SpeaksRfc959 cfg H := by
  have hall : ∀ h e t, H = h ++ e :: t → (b.answers h e = true ∧ b.wholeReplies h e = true)
      ∧ b.negotiatesBriefly h e = true := by
    intro h e t heq
    simpa using always_of_check hcheck h e t heq
  exact {
    banner := hbanner
    answers := fun h e t heq => (hall h e t heq).1.1
    replies := fun h e t heq => (hall h e t heq).1.2
    negotiates := fun h e t heq =>
      Backend.negotiates_of_brief (hall h e t heq).2 (hfit.replies h e t heq)
    fits := hfit }

/-- The client gets what the backend says, complete and in its place: the banner first,
which is no reason for the negotiation to fail once the backend has said it, and to a
command its complete reply before the next one is read. -/
structure CompleteReplies (b : Backend) (run : Outcome Leave Unit × History Io) : Prop where
  greeted : ∀ h e t, run.2 = h ++ e :: t → Event.isFromClient e = true →
    (writesTo Conn.isClient h).head? = some (said b.banner)
  secured : Always (fun h e => b.acceptsTls h e = true) run.2 →
    linesFrom Conn.isBackend run.2 ≠ [] →
    ∀ first ∈ (writesTo Conn.isClient run.2).head?, first = said b.banner
  answered : ∀ h (e : Event) t bytes, run.2 = h ++ e :: t →
    e.writeOut Conn.isBackend = some bytes → bytes ∉ ownCommands →
    isStorCommand bytes = false → Concluded run.1 t →
    (writesTo Conn.isClient (untilNextLine t)).flatten = said (b.next h)

/-- **Replies are complete and do not desynchronise the session**, if the banner
and the replies have one line each and no `STOR` is accepted without a port. -/
theorem complete_replies_in_step (w : World) (cfg : SessionConfig) (n : Nat) (b : Backend)
    (hb : b.SpeaksRfc959 cfg (history w cfg n)) (hbanner : b.banner.length = 1)
    (hbrief : Always (fun h e => b.briefReplies h e = true) (history w cfg n))
    (hrefuses : Always (fun h e => b.refusesPortless h e = true) (history w cfg n)) :
    CompleteReplies b (sessionRun w cfg n) := by
  have hsingle : isSingleReply b.banner = true := by
    obtain ⟨l, hl⟩ := List.length_eq_one_iff.mp hbanner
    have hreply := hb.banner
    rw [hl] at hreply ⊢
    exact hreply
  have hall : Always (b.Orderly cfg True) (history w cfg n) := by
    intro h e t heq
    refine ⟨hb.answers h e t heq, Backend.shape_of_single (hb.negotiates h e t heq) ?_
      (hb.fits.replies h e t heq) (hrefuses h e t heq) (Or.inr (Or.inl trivial))⟩
    exact b.singleReplies_of_brief (hb.replies h e t heq) (hbrief h e t heq)
  have hone : OneLine cfg.maxBytes b.banner := by
    obtain ⟨t, ht, -, hwhole⟩ := oneLine_of_isSingleReply hsingle hb.fits.banner
    exact ⟨t, ht, hwhole⟩
  refine ⟨fun h e t heq he => ?_, fun hacc hlines first hfirst => ?_,
    fun h e t bytes heq he hown hstor hsettled => ?_⟩
  · obtain ⟨s₁, s₂, s, hs₁, hstep, -⟩ := session_at heq
    rw [show history w cfg n = h ++ e :: t from heq] at hall
    have hg := greeted_of_path (N := True) hone hs₁ hall.of_append (Or.inl trivial)
    rw [idle_of_isFromClient he hstep] at hg
    exact hg
  · obtain ⟨s, hs, -⟩ := session_on_machine w cfg n
    exact first_of_greeted (greeted_of_path hone hs hall (Or.inr hacc)) hlines hfirst
  · have htold := answered_of_orderly hone hall heq he hown hsettled
      fun _ _ hboth => by rw [hstor] at hboth; exact absurd hboth.1 (by decide)
    rw [htold]
    simp [said, List.flatMap]

/-- One command over TLS. -/
def systTls : Script where
  client := [Script.chunk "SYST\r\n".toList]
  backend := ["220 hi\r\n", "234 go\r\n", "200 ok\r\n", "200 ok\r\n", "215 UNIX\r\n"].map
    fun reply => Script.chunk reply.toList
  data := sampleArrival
  relay := ⟨0, []⟩

def briefTls : Backend := .saying "220 hi\r\n" [["234 go\r\n"], ["200 ok\r\n"],
  ["200 ok\r\n"], ["215 UNIX\r\n"]]

theorem complete_replies_in_step_tls :
    briefTls.SpeaksRfc959 (sampleSession true) (history systTls.world (sampleSession true) 2)
      ∧ CompleteReplies briefTls (sessionRun systTls.world (sampleSession true) 2) := by
  have hb : briefTls.SpeaksRfc959 (sampleSession true)
      (history systTls.world (sampleSession true) 2) :=
    speaksRfc959_of_check (by decide) ⟨by decide +kernel, always_of_check (by decide +kernel)⟩
      (by decide +kernel)
  exact ⟨hb, complete_replies_in_step _ _ _ _ hb rfl (always_of_check (by decide +kernel))
    (always_of_check (by decide +kernel))⟩

/-- A reply of two lines, and one more command. -/
def systMultiLine : Script where
  client := [Script.chunk "SYST\r\nNOOP\r\n".toList]
  backend := ["220 hi\r\n", "215-UNIX\r\n215 end\r\n", "200 noop\r\n"].map
    fun reply => Script.chunk reply.toList
  data := sampleArrival
  relay := ⟨0, []⟩

def multiLine : Backend :=
  .saying "220 hi\r\n" [["215-UNIX\r\n", "215 end\r\n"], ["200 noop\r\n"]]

/-- **A multi-line reply puts the session out of step**: the client gets its
first line only, and `NOOP` is answered with the second. -/
theorem multi_line_reply_out_of_step :
    multiLine.SpeaksRfc959 (sampleSession false)
        (history systMultiLine.world (sampleSession false) 3)
      ∧ ¬CompleteReplies multiLine (sessionRun systMultiLine.world (sampleSession false) 3) := by
  refine ⟨speaksRfc959_of_check (by decide)
    ⟨by decide +kernel, always_of_check (by decide +kernel)⟩ (by decide +kernel),
    fun hcomplete => ?_⟩
  have hnoop := hcomplete.answered _ _ _ (utf8 "NOOP\r\n".toList)
    (split_at (k := 14) (by decide +kernel)) (by decide +kernel) (by decide) (by decide)
    (Or.inl (by decide +kernel))
  exact absurd hnoop (by decide +kernel)

end FtpGateway
