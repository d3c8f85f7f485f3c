import FtpGateway.Session.Refine
import FtpGateway.Session.Stages

/-!
# What a client is told about its command

From the moment a command has been passed on until the client's next line, the
client is sent the lines of the backend, each as it came, and otherwise at most
one last 421 or 426. `Passing` is that invariant, for a stretch of a run that
starts after the command.

For an upload this means that its outcome is the backend's word alone: a relay
that was cut short does not keep a `226` from the client
(`cut_short_upload_reported`), and a `2yz` reaches the client only as a line of
the backend that the session reads after the relay has ended, whenever it came
(`success_is_the_backends`).
-/

namespace FtpGateway

open Str Interact

/-! ## Stretches of a run -/

def Event.isClientLine : Event → Bool
  | ⟨.line .client _, _⟩ => true
  | _ => false

/-- The part of a run before the client's next line. -/
def untilNextLine (t : History Io) : History Io := t.takeWhile fun e => !Event.isClientLine e

theorem not_isClientLine_of_mem {t : History Io} {e : Event} (he : e ∈ untilNextLine t) :
    Event.isClientLine e = false := by
  simpa using List.mem_takeWhile_imp he

theorem untilNextLine_append_dropWhile (t : History Io) :
    untilNextLine t ++ t.dropWhile (fun e => !Event.isClientLine e) = t :=
  List.takeWhile_append_dropWhile

theorem isClientLine_of_dropWhile {t v : History Io} {e : Event}
    (hnext : t.dropWhile (fun e => !Event.isClientLine e) = e :: v) :
    Event.isClientLine e = true := by
  have hhead := List.head_dropWhile_not (fun e => !Event.isClientLine e) (l := t)
    (by rw [hnext]; exact List.cons_ne_nil e v)
  simpa [hnext] using hhead

theorem any_isClientLine_of_dropWhile {t : History Io}
    (hnext : t.dropWhile (fun e => !Event.isClientLine e) = []) :
    t.any Event.isClientLine = false := by
  rw [List.any_eq_false]
  intro e he
  simpa using List.dropWhile_eq_nil_iff.mp hnext e he

/-- What is passed on for the client is never a command of the gateway's own. -/
theorem not_mem_ownCommands_of_isForwardable {t : Text} (h : isForwardable t = true) :
    utf8 t ∉ ownCommands := by
  intro hmem
  simp only [ownCommands, List.mem_map] at hmem
  obtain ⟨command, hcommand, heq⟩ := hmem
  obtain rfl : command.toList ++ ['\r', '\n'] = t := utf8_injective heq
  have hall : ["AUTH TLS", "PBSZ 0", "PROT P", "EPSV", "PASV"].all
      (fun c => !isForwardable (c.toList ++ ['\r', '\n'])) = true := by
    decide
  have hnot := List.all_eq_true.mp hall command hcommand
  simp [h] at hnot

/-- What the client has been `sent`, with the backend having said `said`. -/
def Told (sent : List Bytes) (said : List Text) : Phase → Prop
  | .forwarded _ | .storSent _ | .shaking _ | .relaying _ | .finalReply _ | .idle =>
      sent = said.map utf8
  | .replying _ l | .storReplying _ l | .completing _ l => sent ++ [utf8 l] = said.map utf8
  | .closing b => IsLastWord b ∧ sent = said.map utf8
  | .ended => ∃ last, (∀ b ∈ last, IsLastWord b) ∧ sent = said.map utf8 ++ last
  | _ => False

/-- Since the command in progress was passed on, in the stretch `u`: the client
has been sent what the backend said, or is about to be. -/
structure Passing (u : History Io) (ph : Phase) : Prop where
  quiet : writesTo Conn.isBackend u = []
  told : Told (writesTo Conn.isClient u) (linesFrom Conn.isBackend u) ph

section Passing

variable {cfg : SessionConfig} {u : History Io}

theorem Passing.sent_mem {ph : Phase} {b : Bytes} (hp : Passing u ph)
    (hb : b ∈ writesTo Conn.isClient u) :
    b ∈ (linesFrom Conn.isBackend u).map utf8 ∨ IsLastWord b := by
  have htold := hp.told
  unfold Told at htold
  split at htold
  all_goals first
    | exact Or.inl (htold ▸ hb)
    | exact Or.inl (htold ▸ List.mem_append_left _ hb)
    | exact Or.inl (htold.2 ▸ hb)
    | exact htold.elim
    | skip
  obtain ⟨last, hlast, heq⟩ := htold
  rw [heq, List.mem_append] at hb
  exact hb.imp_right (hlast b)

/-- An exchange that says nothing on either connection. -/
theorem Passing.skip {ph : Phase} {e : Event} (hp : Passing u ph)
    (hb : ∀ on, e.writeOut on = none) (hl : ∀ on, e.lineIn on = none) : Passing (u ++ [e]) ph := by
  obtain ⟨hq, ht⟩ := hp
  have hw : ∀ on, writesTo on (u ++ [e]) = writesTo on u := fun on => by simp [hb]
  have hr : ∀ on, linesFrom on (u ++ [e]) = linesFrom on u := fun on => by simp [hl]
  exact ⟨by rw [hw, hq], by rw [hw, hr]; exact ht⟩

/-- A line of the backend, on a connection `c`. -/
theorem Passing.line {ph ph' : Phase} {c : Conn} {r : LineRead} {rest : Bytes} {a : Unit}
    (hp : Passing u ph) (hc : Conn.isBackend c = true) (hnext : AfterLine cfg ph r rest ph') :
    Passing (u ++ [⟨.line c r, a⟩]) ph' := by
  obtain ⟨hq, ht⟩ := hp
  have hq' : writesTo Conn.isBackend (u ++ [⟨.line c r, a⟩]) = [] := by simp [hq]
  have hw : writesTo Conn.isClient (u ++ [⟨.line c r, a⟩]) = writesTo Conn.isClient u := by simp
  have htext : ∀ l, r = .text l → l ≠ [] →
      writesTo Conn.isClient u = (linesFrom Conn.isBackend u).map utf8 →
      writesTo Conn.isClient u ++ [utf8 l]
        = (linesFrom Conn.isBackend (u ++ [⟨.line c r, a⟩])).map utf8 := by
    rintro l rfl hl hsame
    have hline : Event.lineIn Conn.isBackend ⟨.line c (.text l), a⟩ = some l := by
      simp only [Event.lineIn_text, hc]
      simp [hl]
    rw [hsame, linesFrom_append, linesFrom_cons, hline]
    simp
  have hnone : (∀ l, r = .text l → l = []) → linesFrom Conn.isBackend (u ++ [⟨.line c r, a⟩])
      = linesFrom Conn.isBackend u := by
    intro hr
    cases r with
    | text l => obtain rfl := hr l rfl; simp
    | err k => simp
    | elapsed => simp
  refine ⟨hq', ?_⟩
  rw [hw]
  cases hnext with
  | banner hne => exact ht.elim
  | bannerEof => exact ht.elim
  | bannerErr k => exact ht.elim
  | bannerElapsed => exact ht.elim
  | negotiationFailed hbad => exact ht.elim
  | negotiationMore hmore => exact ht.elim
  | negotiated hends => exact ht.elim
  | ownReply hne hend => exact ht.elim
  | ownReplyLost hlost => exact ht.elim
  | forwarded hne => exact htext _ rfl hne ht
  | forwardedEof => exact ⟨Or.inl rfl, by rw [hnone (by simp), ht]⟩
  | storSent hne => exact htext _ rfl hne ht
  | storSentEof => exact ⟨Or.inl rfl, by rw [hnone (by simp), ht]⟩
  | finalReply hne => exact htext _ rfl hne ht
  | finalReplyEof => exact ⟨Or.inr rfl, by rw [hnone (by simp), ht]⟩
  | replyErr hph =>
      rcases hph with ⟨t, rfl⟩ | ⟨t, rfl⟩ | ⟨t, rfl⟩ <;>
        exact ⟨[], by simp, by rw [hnone (by simp), ht, List.append_nil]⟩
  | replyElapsed hph =>
      rcases hph with ⟨t, rfl⟩ | ⟨t, rfl⟩ | ⟨t, rfl⟩ <;>
        exact ⟨[], by simp, by rw [hnone (by simp), ht, List.append_nil]⟩

/-- A write to the client: no command is passed on before its next line. -/
theorem Passing.write {held : Option UInt16} {ph ok err : Phase} {c : Conn} {b : Bytes}
    {a : Except IoKind Unit} (hp : Passing u ph) (hw : Writes cfg held ph c b ok err) :
    Passing (u ++ [⟨.write c b, a⟩]) (onOk a ok err) := by
  obtain ⟨hq, ht⟩ := hp
  have hlines : ∀ c, linesFrom Conn.isBackend (u ++ [⟨.write c b, a⟩])
      = linesFrom Conn.isBackend u := fun c => by simp
  have hclient : writesTo Conn.isClient (u ++ [⟨.write .client b, a⟩])
      = writesTo Conn.isClient u ++ [b] := by simp
  have hquiet : writesTo Conn.isBackend (u ++ [⟨.write .client b, a⟩]) = [] := by simp [hq]
  have hended : ∀ last, (∀ b ∈ last, IsLastWord b) →
      writesTo Conn.isClient u ++ [b] = (linesFrom Conn.isBackend u).map utf8 ++ last →
      Passing (u ++ [⟨.write .client b, a⟩]) .ended := by
    intro last hlast heq
    exact ⟨hquiet, last, hlast, by rw [hclient, hlines, heq]⟩
  cases hw with
  | unconnected => exact ht.elim
  | negotiate k banner => exact ht.elim
  | greet banner => exact ht.elim
  | own hb => exact ht.elim
  | passive hstor hheld hb => exact ht.elim
  | forward hfwd hstor => exact ht.elim
  | stor hstor hheld => exact ht.elim
  | closing b =>
      obtain ⟨hlast, ht⟩ := ht
      have hover : Passing (u ++ [⟨.write .client b, a⟩]) .ended :=
        hended [b] (by simpa using hlast) (by rw [ht])
      cases a <;> exact hover
  | reply =>
      cases a with
      | error k => exact hended [] (by simp) (ht.trans (List.append_nil _).symm)
      | ok _ =>
          simp only [onOk]
          split
          · exact hended [] (by simp) (ht.trans (List.append_nil _).symm)
          · exact ⟨hquiet, by rw [hclient, hlines]; exact ht⟩
  | storReply =>
      cases a with
      | error k => exact hended [] (by simp) (ht.trans (List.append_nil _).symm)
      | ok _ =>
          refine ⟨hquiet, ?_⟩
          rw [hclient, hlines, onOk]
          split
          · split
            · exact ht
            · exact ht
          · exact ht
  | complete =>
      cases a with
      | error k => exact hended [] (by simp) (ht.trans (List.append_nil _).symm)
      | ok _ => exact ⟨hquiet, by rw [hclient, hlines]; exact ht⟩

theorem Passing.step {s s' : Ctl} {e : Event} (hp : Passing u s.phase) (ht : Trans cfg s e s')
    (he : e.isClientLine = false) : Passing (u ++ [e]) s'.phase := by
  cases ht with
  | read a hc hno hlen hstop =>
      rw [s.take_phase a]
      exact hp.skip (fun _ => rfl) (fun _ => rfl)
  | line a hc hr hnext => exact hp.line (reads_isBackend hc) hnext
  | clientRead a hph => exact hp.skip (fun _ => rfl) (fun _ => rfl)
  | clientLine a hph hnext => cases he
  | write a hw => exact hp.write hw
  | connected source hph =>
      rw [hph] at hp
      exact hp.told.elim
  | startTls a hph hpend =>
      rw [hph] at hp
      exact hp.told.elim
  | startDataTls a hph =>
      rw [hph] at hp
      have hskip := hp.skip (e := ⟨.startDataTls, a⟩) (fun _ => rfl) (fun _ => rfl)
      cases a <;> exact ⟨hskip.quiet, hskip.told⟩
  | relay client run hph =>
      rw [hph] at hp
      have hskip := hp.skip (e := ⟨.relay client cfg.backendTls, run⟩) (fun _ => rfl) (fun _ => rfl)
      exact ⟨hskip.quiet, hskip.told⟩
  | succeeded a hph hl => exact hp.skip (fun _ => rfl) (fun _ => rfl)
  | allocate a hph hstor hheld =>
      rw [hph] at hp
      exact hp.told.elim
  | release port a hph => exact hp.skip (fun _ => rfl) (fun _ => rfl)
  | book he =>
      exact hp.skip (fun on => (he.silent on).1) (fun on => (he.silent on).2.1)

/-- The run lemma, up to the client's next line. -/
theorem passing_of_path {s₀ s : Ctl} (hp : Path (Trans cfg) s₀ u s) (h₀ : Passing [] s₀.phase)
    (hu : ∀ e ∈ u, Event.isClientLine e = false) : Passing u s.phase := by
  induction hp with
  | nil => exact h₀
  | snoc hp ht ih =>
      exact (ih fun e he => hu e (List.mem_append_left _ he)).step ht (hu _ (by simp))

end Passing

/-! ## Uploads that were cut short -/

/-- The client's whole stream has reached the backend: it was read up to its end
and every byte was accepted. -/
def passedOn (polls : List Poll) : Bool :=
  (eventsOf .up polls).contains (.read [])
    && bytesWrote (eventsOf .up polls) == bytesRead (eventsOf .up polls)

/-- A relay that failed before the whole upload was passed on, or never started
for want of a secure data connection. -/
def cutShort (cfg : SessionConfig) : Event → Bool
  | ⟨.startDataTls, .error _⟩ => true
  | ⟨.relay _ _, run⟩ =>
      match relayBidirectional cfg.dataIdleTimeout run.start run.polls with
      | some ⟨some (.error _), _⟩ => !passedOn run.polls
      | _ => false
  | _ => false

def Event.isUploadSucceeded : Event → Bool
  | ⟨.metric .uploadSucceeded, _⟩ => true
  | _ => false

/-- A reply of the `2yz` class. -/
def isSuccess (b : Bytes) : Bool := b.head? = some '2'.toUInt8

/-- No upload that was cut short is reported or counted as a success. -/
def SuccessMeansWhole (cfg : SessionConfig) (H : History Io) : Prop :=
  ∀ h e t, H = h ++ e :: t → cutShort cfg e = true →
    (writesTo Conn.isClient (untilNextLine t)).any isSuccess = false
      ∧ (untilNextLine t).any Event.isUploadSucceeded = false

theorem finalReply_of_cutShort {cfg : SessionConfig} {s s' : Ctl} {e : Event}
    (hcut : cutShort cfg e = true) (ht : Trans cfg s e s') : ∃ t, s'.phase = .finalReply t := by
  cases ht with
  | startDataTls a hph =>
      cases a with
      | ok _ => cases hcut
      | error k => exact ⟨_, rfl⟩
  | relay client run hph => exact ⟨_, rfl⟩
  | book he => cases he <;> cases hcut
  | _ => cases hcut

/-- An upload is counted on the strength of a `2yz` line. -/
theorem succeeded_of_path {cfg : SessionConfig} {u : History Io} {s₀ s : Ctl}
    (hp : Path (Trans cfg) s₀ u s) (h₀ : Passing [] s₀.phase)
    (hu : ∀ e ∈ u, Event.isClientLine e = false) (hcount : u.any Event.isUploadSucceeded = true) :
    ∃ l ∈ linesFrom Conn.isBackend u, (stripped l).head? = some '2' := by
  induction hp with
  | nil => cases hcount
  | @snoc h s s' e hp ht ih =>
      have hu' : ∀ e ∈ h, Event.isClientLine e = false :=
        fun e he => hu e (List.mem_append_left _ he)
      rw [List.any_append, Bool.or_eq_true] at hcount
      rw [linesFrom_append]
      rcases hcount with hbefore | hnow
      · obtain ⟨l, hl, htwo⟩ := ih hu' hbefore
        exact ⟨l, List.mem_append_left _ hl, htwo⟩
      · replace hnow : Event.isUploadSucceeded e = true := by simpa using hnow
        cases ht with
        | @succeeded _ l a hph htwo =>
            have htold := (passing_of_path hp h₀ hu').told
            rw [hph] at htold
            have hmem : utf8 l ∈ (linesFrom Conn.isBackend h).map utf8 := htold ▸ by simp
            obtain ⟨l', hl', heq⟩ := List.mem_map.mp hmem
            exact ⟨l', List.mem_append_left _ hl', utf8_injective heq ▸ htwo⟩
        | book he =>
            cases he with
            | @metric m hm a => cases m <;> first | exact absurd rfl hm | cases hnow
            | _ => cases hnow
        | _ => cases hnow

theorem not_isSuccess_of_isLastWord {b : Bytes} (hb : IsLastWord b) : isSuccess b = false := by
  rcases hb with rfl | rfl <;> decide

/-- **An upload succeeds only if the backend says so.** After a relay that was
cut short, every `2yz` the client is sent as the outcome is a line of the backend
that is handed to the session after the relay, and the upload is counted as
completed only on such a line. The line may have arrived earlier: a backend that
sends its `226` along with the `150` is heard only now. -/
theorem success_is_the_backends (w : World) (cfg : SessionConfig) (n : Nat) {h t : History Io}
    {e : Event} (heq : history w cfg n = h ++ e :: t) (hcut : cutShort cfg e = true) :
    (∀ b ∈ writesTo Conn.isClient (untilNextLine t), isSuccess b = true →
        ∃ l ∈ linesFrom Conn.isBackend (untilNextLine t), b = utf8 l)
      ∧ ((untilNextLine t).any Event.isUploadSucceeded = true →
        ∃ l ∈ linesFrom Conn.isBackend (untilNextLine t), (stripped l).head? = some '2') := by
  obtain ⟨s₁, s₂, s, -, hstep, hrest, -⟩ := session_at heq
  obtain ⟨line, hph⟩ := finalReply_of_cutShort hcut hstep
  have h₀ : Passing [] s₂.phase := by
    rw [hph]
    exact ⟨rfl, rfl⟩
  rw [← untilNextLine_append_dropWhile t] at hrest
  obtain ⟨s₃, hstretch, -⟩ := hrest.split
  have hu : ∀ e ∈ untilNextLine t, Event.isClientLine e = false :=
    fun e he => not_isClientLine_of_mem he
  refine ⟨fun b hb hsucc => ?_, succeeded_of_path hstretch h₀ hu⟩
  have hsaid : b ∈ (linesFrom Conn.isBackend (untilNextLine t)).map utf8 ∨ IsLastWord b :=
    (passing_of_path hstretch h₀ hu).sent_mem hb
  rcases hsaid with hsaid | hlast
  · obtain ⟨l, hl, rfl⟩ := List.mem_map.mp hsaid
    exact ⟨l, hl, rfl⟩
  · rw [not_isSuccess_of_isLastWord hlast] at hsucc
    cases hsucc

/-- An upload whose data connection breaks after two bytes. The backend sees its
end of the data path closed, takes that for the end of the file and says so. -/
def brokenUpload : Script where
  client := [Script.chunk "PASV\r\nSTOR a\r\n".toList]
  backend := ["220 hi\r\n", "227 ok (10,0,0,2,8,8)\r\n", "150 go\r\n", "226 done\r\n"].map
    fun reply => Script.chunk reply.toList
  data := sampleArrival
  relay := ⟨0, [⟨1, .up, [.read [1, 2], .wrote 2, .readErr .other], []⟩]⟩

def brokenHistory : History Io := history brokenUpload.world (sampleSession false) 2

/-- Where in `brokenHistory` the relay is. -/
def brokenAt : Nat := brokenHistory.findIdx (cutShort (sampleSession false))

theorem brokenHistory_split : brokenHistory = brokenHistory.take brokenAt
    ++ brokenHistory.get ⟨brokenAt, by decide +kernel⟩ :: brokenHistory.drop (brokenAt + 1) := by
  simp

theorem success_is_the_backends_broken :
    ∃ h e t, brokenHistory = h ++ e :: t ∧ cutShort (sampleSession false) e = true
      ∧ ((untilNextLine t).any Event.isUploadSucceeded = true →
        ∃ l ∈ linesFrom Conn.isBackend (untilNextLine t), (stripped l).head? = some '2') := by
  have hcut : cutShort (sampleSession false) (brokenHistory.get ⟨brokenAt, by decide +kernel⟩)
      = true := by
    decide +kernel
  exact ⟨_, _, _, brokenHistory_split, hcut,
    (success_is_the_backends _ _ _ brokenHistory_split hcut).2⟩

/-- **A truncated upload can be reported as complete.** -/
theorem cut_short_upload_reported : ¬SuccessMeansWhole (sampleSession false) brokenHistory := by
  intro hwhole
  have hcut : cutShort (sampleSession false) (brokenHistory.get ⟨brokenAt, by decide +kernel⟩)
      = true := by
    decide +kernel
  exact absurd (hwhole _ _ _ brokenHistory_split hcut).2 (by decide +kernel)

end FtpGateway
