import FtpGateway.RelayPipe
import FtpGateway.Session.Counters

/-!
# The bytes that are counted

`upload_bytes_total` goes up when the relay returns `Ok`, and the upload is
counted as completed or failed when the backend's last reply is in. `movedAt` is
what is known of the upload in progress: its relay, whether its bytes are counted
and what the last reply was. `BytesStep` says how a session goes from one to the
next (`session_bytes`).

A relay that succeeds and a reply that is not `2yz` leave bytes in the total that
belong to no completed upload; a relay that fails and a `2yz` reply leave some
out. Where relay and reply agree (`ReplyAgrees`), the total is right in every run
of any number of sessions (`upload_bytes_counted_if_agreeing`).
-/

namespace FtpGateway

open Str Interact Counting

/-! ## What is to be counted -/

/-- The bytes written to the backend's data connection. -/
def RelayRun.written (run : RelayRun) : Nat := bytesWrote (eventsOf .up run.polls)

/-- Bytes written to the backend's data connection: for the upload in progress, and
for all that were counted as completed. -/
structure UploadLedger where
  written : Nat
  completed : Nat
deriving Repr, DecidableEq

def UploadLedger.after (l : UploadLedger) : Event → UploadLedger
  | ⟨.relay _ _, run⟩ => { l with written := l.written + run.written }
  | ⟨.metric .uploadSucceeded, _⟩ => ⟨0, l.completed + l.written⟩
  | ⟨.metric .uploadFailed, _⟩ => { l with written := 0 }
  | _ => l

def ledgerAt (h : History Io) : UploadLedger := h.foldl UploadLedger.after ⟨0, 0⟩

/-- The bytes of all completed uploads of a session. -/
def completedBytes (t : History Io) : Nat := (ledgerAt t).completed

/-- What one update adds to `upload_bytes_total`. -/
def Event.countedBytes : Event → Nat
  | ⟨.metric (.uploadBytes n), _⟩ => n
  | _ => 0

/-- All that was added to `upload_bytes_total`. -/
def bytesCounted (L : List GatewayEvent) : Nat :=
  (L.map (GatewayEvent.weigh Event.countedBytes)).sum

/-- The counter, as long as it has not saturated. -/
theorem toNat_uploadBytesTotal {L : List GatewayEvent} (hsat : bytesCounted L < 2 ^ 64) :
    (metricsAfter L).uploadBytesTotal.toNat = bytesCounted L := by
  induction L using List.reverseRecOn with
  | nil => rfl
  | append_singleton L e ih =>
      have hsum : bytesCounted (L ++ [e]) =
          bytesCounted L + GatewayEvent.weigh Event.countedBytes e := by
        simp [bytesCounted]
      rw [hsum] at hsat ⊢
      have hbefore := ih (by omega)
      rw [metricsAfter_append_single, ← hbefore]
      rw [← hbefore] at hsat
      generalize metricsAfter L = m at hsat
      cases e with
      | connectionRejected => rfl
      | exchange i e =>
          cases he : Event.metric? e with
          | none =>
              have hzero : e.countedBytes = 0 := by
                obtain ⟨r, a⟩ := e
                cases r <;> first | rfl | cases he
              simp only [Metrics.step, he, GatewayEvent.weigh, hzero]
              rfl
          | some k =>
              obtain rfl := eq_metric he
              cases k with
              | uploadBytes n =>
                  have hn : n < 2 ^ 64 := by
                    simp only [GatewayEvent.weigh, Event.countedBytes] at hsat
                    omega
                  show (satAdd m.uploadBytesTotal (UInt64.ofNat n)).toNat = _ + n
                  simp only [GatewayEvent.weigh, Event.countedBytes] at hsat
                  rw [toNat_satAdd, UInt64.toNat_ofNat', Nat.mod_eq_of_lt hn]
                  omega
              | _ => rfl

/-! ## The upload in progress -/

/-- What `relay_bidirectional` returned for the bytes uploaded, if it was `Ok`. -/
def uploadedBytes (idleTimeout : Nat) (run : RelayRun) : Option Nat :=
  match relayBidirectional idleTimeout run.start run.polls with
  | some ⟨some (.ok (bytesUploaded, _)), _⟩ => some bytesUploaded
  | _ => none

/-- The number is that of the bytes written. -/
theorem uploadedBytes_eq {idleTimeout n : Nat} {run : RelayRun}
    (h : uploadedBytes idleTimeout run = some n) : n = run.written := by
  unfold uploadedBytes at h
  split at h
  · rename_i up down final hrelay
    obtain rfl := Option.some.inj h
    obtain ⟨hlen, hok⟩ := relay_faithful hrelay
    obtain ⟨hup, -, hall⟩ := hok _ _ rfl
    rw [hup, ← (hall .up).1, (hlen .up).1]
    rfl
  · cases h

/-- A last reply with which an upload is counted as completed. -/
def LineRead.isCompletion : LineRead → Bool
  | .text t => (stripped t).head? = some '2'
  | .err _ => false
  | .elapsed => false

/-- `reply` is whether the last reply was `2yz`, once there is one. -/
structure Moved where
  run : RelayRun
  counted : Bool
  reply : Option Bool
deriving Repr, DecidableEq

/-- The upload in progress, from its relay on. -/
def movedAfter (m : Option Moved) : Event → Option Moved
  | ⟨.relay _ _, run⟩ => some ⟨run, false, none⟩
  | ⟨.metric (.uploadBytes _), _⟩ => m.map fun v => { v with counted := true }
  | ⟨.line (.backend _) x, _⟩ => m.map fun v => { v with reply := some x.isCompletion }
  | ⟨.metric .uploadSucceeded, _⟩ => none
  | ⟨.metric .uploadFailed, _⟩ => none
  | _ => m

def movedAt (h : History Io) : Option Moved := h.foldl movedAfter none

@[simp] theorem movedAt_append_single (h : History Io) (e : Event) :
    movedAt (h ++ [e]) = movedAfter (movedAt h) e := by
  rw [movedAt, List.foldl_append]
  rfl

/-- How the upload in progress gets on. -/
def BytesStep (idleTimeout : Nat) (h : History Io) : Event → Prop
  | ⟨.relay _ _, _⟩ => movedAt h = none
  | ⟨.metric (.uploadBytes n), _⟩ =>
      ∃ run, movedAt h = some ⟨run, false, none⟩ ∧ uploadedBytes idleTimeout run = some n
  | ⟨.line (.backend _) _, _⟩ => ∀ v ∈ movedAt h, v.reply = none ∧
      v.counted = (uploadedBytes idleTimeout v.run).isSome
  | ⟨.metric .uploadSucceeded, _⟩ => ∀ v ∈ movedAt h, v.reply = some true
  | ⟨.metric .uploadFailed, _⟩ => ∀ v ∈ movedAt h, v.reply = some false
  | _ => True

section Parts

variable {env : Env Io} {cfg : SessionConfig} {idleTimeout : Nat} {h : History Io}
  {m : Option Moved}

/-- Requests that have nothing to do with the bytes of an upload. -/
def Req.Weightless : Req → Prop
  | .relay _ _ => False
  | .line (.backend _) _ => False
  | .metric (.uploadBytes _) => False
  | .metric .uploadSucceeded => False
  | .metric .uploadFailed => False
  | _ => True

theorem Req.Weightless.movedAfter {r : Req} (hr : r.Weightless) (a : r.Ans) (m : Option Moved) :
    FtpGateway.movedAfter m ⟨r, a⟩ = m := by
  cases r with
  | relay client tls => exact hr.elim
  | line c x => cases c <;> first | exact hr.elim | rfl
  | metric k => cases k <;> first | exact hr.elim | rfl
  | _ => rfl

theorem Req.Weightless.step {r : Req} (hr : r.Weightless) (a : r.Ans) :
    BytesStep idleTimeout h ⟨r, a⟩ := by
  cases r with
  | relay client tls => exact hr.elim
  | line c x => cases c <;> first | exact hr.elim | trivial
  | metric k => cases k <;> first | exact hr.elim | trivial
  | _ => trivial

theorem wp_weightless {α : Type} {p : Sess α} (hp : p.Asks Req.Weightless) (hm : movedAt h = m) :
    wp env (BytesStep idleTimeout) (fun _ h' => movedAt h' = m) (fun _ h' => movedAt h' = m)
      p h := by
  refine wp_frame hp (fun h r a hr _ hm => ?_) hm
  rw [movedAt_append_single, hm]
  exact ⟨hr.step a, hr.movedAfter a m⟩

/-- The next step of a program, if it has nothing to do with the bytes. -/
theorem wp_then_weightless {α β : Type} {p : Sess α} {f : α → Sess β}
    {Q : β → History Io → Prop} {E : Leave → History Io → Prop} (hp : p.Asks Req.Weightless)
    (hf : ∀ a h', movedAt h' = movedAt h → wp env (BytesStep idleTimeout) Q E (f a) h')
    (hE : ∀ e h', movedAt h' = movedAt h → E e h') :
    wp env (BytesStep idleTimeout) Q E (p.bind f) h :=
  (wp_bind f).mpr (wp_post (wp_weightless hp rfl) hf hE)

/-- Before its relay an upload has no bytes. -/
theorem bytesStep_offUpload {r : Req} (hr : r.OffUpload) (a : r.Ans) (hm : movedAt h = none) :
    BytesStep idleTimeout h ⟨r, a⟩ ∧ movedAt (h ++ [⟨r, a⟩]) = none := by
  rw [movedAt_append_single, hm]
  cases r with
  | relay client tls => exact hr.elim
  | line c x =>
      cases c with
      | client => exact ⟨trivial, rfl⟩
      | backend tls => exact ⟨by simp [BytesStep, hm], rfl⟩
  | metric k => cases k <;> first | exact hr.elim | exact ⟨trivial, rfl⟩
  | _ => exact ⟨trivial, rfl⟩

theorem wp_offUpload {α : Type} {p : Sess α} (hp : p.Asks Req.OffUpload) (hm : movedAt h = none) :
    wp env (BytesStep idleTimeout) (fun _ h' => movedAt h' = none)
      (fun _ h' => movedAt h' = none) p h :=
  wp_frame hp (fun _ _ a hr _ hm => bytesStep_offUpload hr a hm) hm

/-- The relay is over, and its bytes are counted if it succeeded. -/
def Relayed (idleTimeout : Nat) (h : History Io) : Prop :=
  ∀ v ∈ movedAt h, v.reply = none ∧ v.counted = (uploadedBytes idleTimeout v.run).isSome

/-- The last reply is in. -/
def Answered (completed : Bool) (h : History Io) : Prop :=
  ∀ v ∈ movedAt h, v.reply = some completed

theorem Answered.same {completed : Bool} {h h' : History Io} (ha : Answered completed h)
    (hsame : movedAt h' = movedAt h) : Answered completed h' := by
  intro v hv
  rw [hsame] at hv
  exact ha v hv

theorem wp_relayIf_bytes {secured : Bool} {client : Arrival} {E : Leave → History Io → Prop}
    (hm : movedAt h = none) :
    wp env (BytesStep cfg.dataIdleTimeout) (fun _ => Relayed cfg.dataIdleTimeout) E
      (relayIf secured cfg client) h := by
  unfold relayIf
  split
  · refine (wp_request_bind _ _).mpr fun run _ => ⟨hm, ?_⟩
    have hrun : movedAt (h ++ [⟨.relay client cfg.backendTls, run⟩]) = some ⟨run, false, none⟩ :=
      movedAt_append_single h _
    split
    · rename_i n down final hrelay
      have hok : uploadedBytes cfg.dataIdleTimeout run = some n := by
        rw [uploadedBytes, hrelay]
      refine fun _ _ => ⟨⟨run, hrun, hok⟩, fun v hv => ?_⟩
      rw [movedAt_append_single, hrun] at hv
      obtain rfl := Option.some.inj hv
      exact ⟨rfl, by rw [hok]; rfl⟩
    · rename_i k final hrelay
      refine fun v hv => ?_
      rw [hrun] at hv
      obtain rfl := Option.some.inj hv
      exact ⟨rfl, by rw [uploadedBytes, hrelay]; rfl⟩
    · trivial
  · intro v hv
    rw [hm] at hv
    cases hv

/-- What is read ends the relay's part in it. -/
theorem wp_readLineBounded_bytes {n : Nat} {buf : Bytes} {E : Leave → History Io → Prop}
    (hr : Relayed idleTimeout h) :
    wp env (BytesStep idleTimeout) (fun x => Answered x.1.isCompletion) E
      (readLineBounded cfg.control n buf) h := by
  refine (wp_bind _).mpr (wp_noExit (delivers_takeReadLine _ _ _ _).noExit (wp_post (wp_weightless
    (asks_takeReadLine trivial _ _ _) rfl) (fun x h₁ hsame => ?_) fun _ _ => id))
  refine fun _ _ => ⟨?_, fun v hv => ?_⟩
  · show ∀ v ∈ movedAt h₁, _
    rw [hsame]
    exact hr
  · rw [movedAt_append_single] at hv
    obtain ⟨v', -, rfl⟩ := Option.map_eq_some_iff.mp hv
    rfl

theorem wp_backendReply_bytes {closed buf : Bytes} {leave : Leave}
    (hr : Relayed idleTimeout h) :
    wp env (BytesStep idleTimeout) (fun x => Answered (LineRead.text x.1).isCompletion)
      (fun _ => Answered false) (backendReply cfg cfg.control closed leave buf) h := by
  have hread : wp env (BytesStep idleTimeout)
      (fun x h' => ∃ r : LineRead, Answered r.isCompletion h' ∧
        (∀ t, x.1 = .ok t → r = .text t) ∧ (∀ k, x.1 = .error k → r.isCompletion = false))
      (fun _ => Answered false) (readLineWithTimeout cfg.control cfg.maxBytes buf) h := by
    refine (wp_bind _).mpr (wp_post (wp_readLineBounded_bytes hr) (fun x h₁ ha => ?_) fun _ _ => id)
    obtain ⟨r, buf'⟩ := x
    cases r with
    | text t => exact ⟨_, ha, fun t' heq => by rw [Except.ok.inj heq], nofun⟩
    | err k => exact ⟨_, ha, nofun, fun _ _ => rfl⟩
    | elapsed => exact ⟨_, ha, nofun, fun _ _ => rfl⟩
  refine (wp_bind _).mpr (wp_post hread (fun x h₁ hx => ?_) fun _ _ => id)
  obtain ⟨answer, buf'⟩ := x
  obtain ⟨r, ha, htext, herr⟩ := hx
  cases answer with
  | error k =>
      rw [herr k rfl] at ha
      have hgone : wp env (BytesStep idleTimeout) (fun _ _ => False) (fun _ => Answered false)
          (backendIo (.error k) : Sess Text) h₁ :=
        wp_then_weightless (asks_observeBackendIoError trivial k) (fun _ _ => ha.same)
          fun _ _ => ha.same
      exact (wp_bind _).mpr (wp_post hgone (fun _ _ => False.elim) fun _ _ => id)
  | ok reply =>
      obtain rfl := htext reply rfl
      show wp _ _ _ _ (if reply = [] then _ else _) h₁
      split
      · rename_i hnil
        rw [hnil] at ha
        exact wp_then_weightless (asks_tellClient (fun _ => trivial) _) (fun _ _ => ha.same)
          fun _ _ => ha.same
      · exact ha

theorem wp_transfer_bytes {client : Arrival} {buf : Bytes} (hm : movedAt h = none) :
    wp env (BytesStep cfg.dataIdleTimeout) (fun x => Answered (LineRead.text x.1).isCompletion)
      (fun _ => Answered false) (transfer cfg client buf) h := by
  have hnone : ∀ {h'}, movedAt h' = none → Answered false h' := by
    intro h' hm v hv
    rw [hm] at hv
    cases hv
  refine (wp_bind _).mpr (wp_post (wp_offUpload ((routine_offUpload cfg.control).secureData cfg) hm)
    (fun secured h₁ hm => ?_) fun _ _ => hnone)
  refine wp_then_weightless (asks_request trivial) (fun _ h₂ hsame => ?_)
    fun _ _ hsame => hnone (hsame.trans hm)
  exact (wp_bind _).mpr (wp_post (wp_relayIf_bytes (E := fun _ => Answered false) (hsame.trans hm))
    (fun _ h₃ hr => wp_backendReply_bytes hr) fun _ _ => id)

theorem wp_uploadFailed_bytes {E : Leave → History Io → Prop} (ha : Answered false h) :
    wp env (BytesStep idleTimeout) (fun _ h' => movedAt h' = none) E (metric .uploadFailed) h :=
  fun _ _ => ⟨ha, movedAt_append_single h _⟩

theorem wp_dropUpload_bytes {E : Leave → History Io → Prop} (ha : Answered false h) :
    wp env (BytesStep idleTimeout) (fun _ h' => movedAt h' = none) E (dropUpload false) h := by
  refine (wp_request_bind _ _).mpr fun _ _ => ⟨trivial, ?_⟩
  exact wp_uploadFailed_bytes (ha.same (movedAt_append_single h _))

theorem wp_finish_bytes {completion : Text}
    (ha : Answered (LineRead.text completion).isCompletion h) :
    wp env (BytesStep idleTimeout) (fun _ h' => movedAt h' = none)
      (fun _ h' => movedAt h' = none) (finish completion) h := by
  have hany : ∀ succeeded, Answered succeeded h → wp env (BytesStep idleTimeout)
      (fun _ h' => movedAt h' = none) (fun _ h' => movedAt h' = none)
      ((countSucceeded succeeded).bind fun _ =>
        (clientIo (utf8 completion)).finally_ (dropUpload succeeded)) h := by
    intro succeeded ha
    have htell := asks_clientIo (R := Req.Weightless) (fun _ => trivial) (utf8 completion)
    cases succeeded with
    | true =>
        refine (wp_request_bind _ _).mpr fun _ _ => ⟨ha, ?_⟩
        have hnone : movedAt (h ++ [⟨.metric .uploadSucceeded, ()⟩]) = none :=
          movedAt_append_single h _
        exact wp_weightless (asks_finally htell (asks_bind (asks_request trivial) fun _ => trivial))
          hnone
    | false =>
        exact (wp_finally _).mpr (wp_post (wp_weightless htell rfl)
          (fun _ _ hsame => wp_dropUpload_bytes (ha.same hsame))
          fun _ _ hsame => wp_dropUpload_bytes (ha.same hsame))
  exact hany _ ha

theorem uploadKeeps_bytes :
    UploadKeeps env cfg (BytesStep cfg.dataIdleTimeout) fun h => movedAt h = none where
  off _ _ a hr hm := bytesStep_offUpload hr a hm
  upload line client buf h hm := by
    have hfailed : ∀ {E : Leave → History Io → Prop} {h'}, movedAt h' = none →
        wp env (BytesStep cfg.dataIdleTimeout) (fun _ h' => movedAt h' = none) E
          (metric .uploadFailed) h' := by
      intro E h' hm
      refine wp_uploadFailed_bytes fun v hv => ?_
      rw [hm] at hv
      cases hv
    refine wp_then_weightless (asks_request trivial) (fun _ h₁ hsame => ?_)
      fun _ _ hsame => hsame.trans hm
    refine (wp_bind _).mpr ((wp_onExit _).mpr (wp_post (wp_offUpload
      ((routine_offUpload cfg.control).storReply (fun _ => trivial) line buf) (hsame.trans hm))
      (fun x h₂ hm => ?_) fun _ _ => hfailed))
    dsimp only
    split
    · exact (wp_bind _).mpr (hfailed hm)
    · refine (wp_bind _).mpr ((wp_onExit _).mpr (wp_post (wp_transfer_bytes hm)
        (fun y h₃ ha => ?_) fun _ _ => wp_dropUpload_bytes))
      exact (wp_bind _).mpr (wp_finish_bytes ha)

end Parts

/-- **Every session counts the bytes of an upload before its last reply is read**, if
its relay succeeded, and the upload after. -/
theorem session_bytes (w : World) (cfg : SessionConfig) (n : Nat) :
    Always (BytesStep cfg.dataIdleTimeout) (history w cfg n) :=
  (run_of_wp (uploadKeeps_bytes.handle rfl n) (always_nil _)).1

/-! ## Where relay and reply agree -/

def Event.backendLine? : Event → Option LineRead
  | ⟨.line (.backend _) x, _⟩ => some x
  | _ => none

/-- The last reply to an upload that moved bytes is `2yz` exactly if its relay
succeeded. -/
def ReplyAgrees (idleTimeout : Nat) (h : History Io) (e : Event) : Prop :=
  ∀ x ∈ e.backendLine?, ∀ v ∈ movedAt h,
    v.run.written = 0 ∨ (uploadedBytes idleTimeout v.run).isSome = x.isCompletion

instance (idleTimeout : Nat) (h : History Io) (e : Event) :
    Decidable (ReplyAgrees idleTimeout h e) :=
  inferInstanceAs (Decidable (∀ x ∈ e.backendLine?, _))

/-- Bytes of the upload in progress that are counted. -/
def Moved.inTotal (v : Moved) : Nat := if v.counted then v.run.written else 0

/-- All bytes of a session that are counted. -/
def countedIn (t : History Io) : Nat := (t.map Event.countedBytes).sum

/-- What is counted belongs to a completed upload, or to the one in progress. -/
structure BytesBalance (h : History Io) : Prop where
  counted : countedIn h = completedBytes h + (movedAt h).elim 0 Moved.inTotal
  written : (ledgerAt h).written = (movedAt h).elim 0 fun v => v.run.written
  replied : ∀ v ∈ movedAt h, ∀ completed, v.reply = some completed →
    v.run.written = 0 ∨ v.counted = completed

theorem countedIn_append_single (h : History Io) (e : Event) :
    countedIn (h ++ [e]) = countedIn h + e.countedBytes := by
  simp [countedIn]

theorem ledgerAt_append_single (h : History Io) (e : Event) :
    ledgerAt (h ++ [e]) = (ledgerAt h).after e := by
  rw [ledgerAt, List.foldl_append]
  rfl

section Balance

variable {idleTimeout : Nat} {h : History Io}

theorem BytesBalance.weightless {e : Event} (hb : BytesBalance h) (he : e.req.Weightless) :
    BytesBalance (h ++ [e]) := by
  obtain ⟨r, a⟩ := e
  have hmoved : movedAt (h ++ [⟨r, a⟩]) = movedAt h := by
    rw [movedAt_append_single]
    exact Req.Weightless.movedAfter he a _
  have hledger : ledgerAt (h ++ [⟨r, a⟩]) = ledgerAt h := by
    rw [ledgerAt_append_single]
    cases r with
    | relay client tls => exact he.elim
    | metric k => cases k <;> first | exact he.elim | rfl
    | _ => rfl
  have hcounted : countedIn (h ++ [⟨r, a⟩]) = countedIn h := by
    rw [countedIn_append_single]
    cases r with
    | metric k => cases k <;> first | exact he.elim | rfl
    | _ => rfl
  refine ⟨?_, ?_, ?_⟩
  · rw [hcounted, completedBytes, hledger, hmoved]
    exact hb.counted
  · rw [hledger, hmoved]
    exact hb.written
  · rw [hmoved]
    exact hb.replied

theorem BytesBalance.relay (hb : BytesBalance h) (client : Arrival) (tls : Bool) (run : RelayRun)
    (hnone : movedAt h = none) : BytesBalance (h ++ [⟨.relay client tls, run⟩]) := by
  have hmoved : movedAt (h ++ [⟨.relay client tls, run⟩]) = some ⟨run, false, none⟩ :=
    movedAt_append_single h _
  obtain ⟨hcounted, hwritten, -⟩ := hb
  rw [hnone] at hcounted hwritten
  refine ⟨?_, ?_, ?_⟩
  · rw [countedIn_append_single, completedBytes, ledgerAt_append_single, hmoved]
    exact hcounted
  · rw [ledgerAt_append_single, hmoved]
    show (ledgerAt h).written + run.written = run.written
    rw [hwritten]
    exact Nat.zero_add _
  · rw [hmoved]
    rintro v ⟨⟩ completed ⟨⟩

theorem BytesBalance.bytes {n : Nat} {run : RelayRun} (hb : BytesBalance h)
    (hrun : movedAt h = some ⟨run, false, none⟩) (hn : n = run.written) :
    BytesBalance (h ++ [⟨.metric (.uploadBytes n), ()⟩]) := by
  have hmoved : movedAt (h ++ [⟨.metric (.uploadBytes n), ()⟩]) = some ⟨run, true, none⟩ := by
    rw [movedAt_append_single, hrun]
    rfl
  obtain ⟨hcounted, hwritten, -⟩ := hb
  rw [hrun] at hcounted hwritten
  refine ⟨?_, ?_, ?_⟩
  · rw [countedIn_append_single, completedBytes, ledgerAt_append_single, hmoved, hcounted]
    show completedBytes h + 0 + n = completedBytes h + run.written
    rw [hn, Nat.add_zero]
  · rw [ledgerAt_append_single, hmoved]
    exact hwritten
  · rw [hmoved]
    rintro v ⟨⟩ completed ⟨⟩

theorem BytesBalance.reply {tls : Bool} {x : LineRead} (hb : BytesBalance h)
    (hagrees : ∀ v ∈ movedAt h, v.run.written = 0 ∨ v.counted = x.isCompletion) :
    BytesBalance (h ++ [⟨.line (.backend tls) x, ()⟩]) := by
  have hmoved : movedAt (h ++ [⟨.line (.backend tls) x, ()⟩]) =
      (movedAt h).map fun v => { v with reply := some x.isCompletion } :=
    movedAt_append_single h _
  refine ⟨?_, ?_, ?_⟩
  · rw [countedIn_append_single, completedBytes, ledgerAt_append_single, hmoved, Option.elim_map]
    exact hb.counted
  · rw [ledgerAt_append_single, hmoved, Option.elim_map]
    exact hb.written
  · rw [hmoved]
    intro v hv completed hreply
    obtain ⟨v', hv', rfl⟩ := Option.map_eq_some_iff.mp hv
    obtain rfl := Option.some.inj hreply
    exact hagrees v' hv'

/-- What is counted for an upload when its last reply is in. -/
theorem BytesBalance.inTotal {completed : Bool} (hb : BytesBalance h)
    (hreply : ∀ v ∈ movedAt h, v.reply = some completed) :
    (movedAt h).elim 0 Moved.inTotal = if completed then (ledgerAt h).written else 0 := by
  rw [hb.written]
  cases hmoved : movedAt h with
  | none => cases completed <;> rfl
  | some v =>
      show (if v.counted then v.run.written else 0) = if completed then v.run.written else 0
      rcases hb.replied v hmoved completed (hreply v hmoved) with hzero | hsame
      · simp [hzero]
      · rw [hsame]

/-- The upload is counted as completed or as failed, as its last reply says. -/
theorem BytesBalance.closed {completed : Bool} {e : Event} (hb : BytesBalance h)
    (hreply : ∀ v ∈ movedAt h, v.reply = some completed)
    (hmoved : movedAfter (movedAt h) e = none) (hbytes : e.countedBytes = 0)
    (hledger : (ledgerAt h).after e =
      ⟨0, (ledgerAt h).completed + if completed then (ledgerAt h).written else 0⟩) :
    BytesBalance (h ++ [e]) := by
  rw [← movedAt_append_single] at hmoved
  refine ⟨?_, ?_, ?_⟩
  · rw [countedIn_append_single, completedBytes, ledgerAt_append_single, hmoved, hledger, hbytes,
      hb.counted, hb.inTotal hreply]
    rfl
  · rw [ledgerAt_append_single, hmoved, hledger]
    rfl
  · rw [hmoved]
    rintro v ⟨⟩

theorem BytesBalance.step {e : Event} (hb : BytesBalance h) (hstep : BytesStep idleTimeout h e)
    (hagrees : ReplyAgrees idleTimeout h e) : BytesBalance (h ++ [e]) := by
  obtain ⟨r, a⟩ := e
  cases r with
  | relay client tls => exact hb.relay client tls a hstep
  | line c x =>
      cases c with
      | client => exact hb.weightless trivial
      | backend tls =>
          refine hb.reply fun v hv => ?_
          rcases hagrees x rfl v hv with hzero | hsame
          · exact Or.inl hzero
          · exact Or.inr ((hstep v hv).2.trans hsame)
  | metric k =>
      cases k with
      | uploadBytes n =>
          obtain ⟨run, hrun, hok⟩ := hstep
          exact hb.bytes hrun (uploadedBytes_eq hok)
      | uploadSucceeded => exact hb.closed hstep rfl rfl rfl
      | uploadFailed => exact hb.closed hstep rfl rfl rfl
      | _ => exact hb.weightless trivial
  | _ => exact hb.weightless trivial

theorem bytesBalance (hall : Always (BytesStep idleTimeout) h)
    (hagrees : Always (ReplyAgrees idleTimeout) h) : BytesBalance h := by
  induction h using List.reverseRecOn with
  | nil => exact ⟨rfl, rfl, nofun⟩
  | append_singleton h e ih =>
      obtain ⟨hall, hstep⟩ := always_append_single.mp hall
      obtain ⟨hagrees, hagree⟩ := always_append_single.mp hagrees
      exact (ih hall hagrees).step hstep hagree

end Balance

/-! ## All sessions -/

/-- Bytes are moved for an upload that is open. -/
theorem movedAt_eq_none {t : History Io} (hall : Always GuardStep t)
    (hclosed : isAttempting t = false) : movedAt t = none := by
  induction t using List.reverseRecOn with
  | nil => rfl
  | append_singleton t e ih =>
      obtain ⟨hall, hstep⟩ := always_append_single.mp hall
      rw [isAttempting, guardsAt_append_single] at hclosed
      rw [movedAt_append_single]
      have hbefore : (guardsAt t).attempt.live = false → movedAt t = none := ih hall
      cases he : Event.metric? e with
      | none =>
          rw [((guardsAt t).after_of_uncounted he).2.1] at hclosed
          obtain ⟨r, a⟩ := e
          cases r with
          | relay client tls =>
              rw [hstep.2.1] at hclosed
              cases hclosed
          | line c x => cases c <;> rw [hbefore hclosed] <;> rfl
          | metric k => cases he
          | _ => exact hbefore hclosed
      | some k =>
          obtain rfl := eq_metric he
          cases k with
          | uploadAttempted => cases hclosed
          | uploadSucceeded | uploadFailed => rfl
          | uploadBytes n =>
              rw [hbefore hclosed]
              rfl
          | _ => exact hbefore hclosed

/-- A session in which relay and reply agree: part of a run of `handle`, or of one
that panicked while no bytes of its upload in progress were counted. -/
inductive AgreeingTrace : History Io → Prop where
  | running {t : History Io} (w : World) (cfg : SessionConfig) (n : Nat)
      (ht : t <+: history w cfg n) (hagrees : Always (ReplyAgrees cfg.dataIdleTimeout) t) :
      AgreeingTrace t
  | panicked {h t : History Io} (w : World) (cfg : SessionConfig) (n : Nat)
      (hh : h <+: history w cfg n) (ht : t <+: h ++ (guardsAt h).unwinding)
      (hagrees : Always (ReplyAgrees cfg.dataIdleTimeout) h)
      (hpanic : ∀ v ∈ movedAt h, v.inTotal = 0) : AgreeingTrace t

namespace AgreeingTrace

theorem trace {t : History Io} (ht : AgreeingTrace t) : SessionTrace t := by
  cases ht with
  | running w cfg n ht => exact .running w cfg n ht
  | panicked w cfg n hh ht => exact .panicked w cfg n hh ht

/-- A panic counts no bytes, and completes no upload. -/
theorem unwinding_adds_nothing (g : Guards) {e : Event} (he : e ∈ g.unwinding) :
    e.countedBytes = 0 ∧ ∀ l : UploadLedger, (l.after e).completed = l.completed := by
  simp only [Guards.unwinding, List.mem_append] at he
  rcases he with ((he | he) | he) | he
  · split at he
    · obtain rfl := List.mem_singleton.mp he
      exact ⟨rfl, fun _ => rfl⟩
    · cases he
  · split at he
    · obtain rfl := List.mem_singleton.mp he
      exact ⟨rfl, fun _ => rfl⟩
    · cases he
  · cases hport : g.port with
    | none =>
        rw [hport] at he
        cases he
    | some port =>
        rw [hport] at he
        obtain rfl := List.mem_singleton.mp he
        exact ⟨rfl, fun _ => rfl⟩
  · split at he
    · obtain rfl := List.mem_singleton.mp he
      exact ⟨rfl, fun _ => rfl⟩
    · cases he

theorem unwound_adds_nothing {g : Guards} (h : History Io) {u : History Io}
    (hu : ∀ e ∈ u, e ∈ g.unwinding) :
    countedIn (h ++ u) = countedIn h ∧ completedBytes (h ++ u) = completedBytes h := by
  induction u using List.reverseRecOn with
  | nil => rw [List.append_nil]; exact ⟨rfl, rfl⟩
  | append_singleton u e ih =>
      obtain ⟨hcounted, hcompleted⟩ := ih fun e he => hu e (List.mem_append_left _ he)
      obtain ⟨hbytes, hledger⟩ := unwinding_adds_nothing g (hu e (by simp))
      rw [← List.append_assoc, countedIn_append_single, completedBytes, ledgerAt_append_single,
        hledger, hbytes]
      exact ⟨hcounted, hcompleted⟩

theorem counted_eq_completed {t : History Io} (ht : AgreeingTrace t)
    (hclosed : isAttempting t = false) : countedIn t = completedBytes t := by
  have hnone := movedAt_eq_none ht.trace.guards hclosed
  have hbalanced : BytesBalance t → countedIn t = completedBytes t := by
    intro hb
    rw [hb.counted, hnone]
    rfl
  cases ht with
  | running w cfg n hstart hagrees =>
      exact hbalanced (bytesBalance ((session_bytes w cfg n).initial hstart) hagrees)
  | @panicked h t w cfg n hh hstart hagrees hpanic =>
      have hbytes := (session_bytes w cfg n).initial hh
      rcases List.prefix_or_prefix_of_prefix hstart (List.prefix_append h _) with hearly | ⟨u, rfl⟩
      · exact hbalanced (bytesBalance (hbytes.initial hearly) (hagrees.initial hearly))
      · have hu := (List.prefix_append_right_inj h).mp hstart
        obtain ⟨hcounted, hcompleted⟩ := unwound_adds_nothing h fun e he => hu.subset he
        have hzero : (movedAt h).elim 0 Moved.inTotal = 0 := by
          cases hm : movedAt h with
          | none => rfl
          | some v => exact hpanic v hm
        rw [hcounted, hcompleted, (bytesBalance hbytes hagrees).counted, hzero]
        rfl

end AgreeingTrace

/-- **The total of uploaded bytes counts completed uploads**, in every interleaving of
sessions whose relays and last replies agree, whenever no upload is in progress. -/
theorem upload_bytes_counted_if_agreeing {L : List GatewayEvent}
    (hrun : ∀ i, AgreeingTrace (ofSession i L)) (hsat : bytesCounted L < 2 ^ 64)
    (hclosed : census isAttempting L = 0) :
    (metricsAfter L).uploadBytesTotal.toNat =
      ∑ i ∈ sessionsOf L, completedBytes (ofSession i L) := by
  rw [toNat_uploadBytesTotal hsat, bytesCounted, ← sum_weigh]
  refine Finset.sum_congr rfl fun i hi => ?_
  refine (hrun i).counted_eq_completed ?_
  rw [census, Finset.card_eq_zero, Finset.filter_eq_empty_iff] at hclosed
  simpa using hclosed hi

/-! ## One upload -/

theorem agreeing_of_check {t : History Io} {idleTimeout : Nat}
    (hcheck : checkFrom (fun h e => decide (ReplyAgrees idleTimeout h e)) [] t = true) :
    Always (ReplyAgrees idleTimeout) t :=
  (always_of_check hcheck).mono fun _ _ => of_decide_eq_true

/-- Session 0 uploads two bytes while session 1 panics before its relay. -/
def agreeingRun : List GatewayEvent :=
  doing 1 (upTo .uploadStarted) ++ doing 0 wholeUploadHistory ++
    doing 1 (guardsAt (upTo .uploadStarted)).unwinding

theorem agreeingRun_agrees (i : Nat) : AgreeingTrace (ofSession i agreeingRun) := by
  simp only [agreeingRun, ofSession_append, ofSession_doing]
  match i with
  | 0 =>
      exact .running wholeUpload.world (sampleSession false) 2 (List.prefix_refl _)
        (agreeing_of_check (by decide +kernel))
  | 1 =>
      refine .panicked wholeUpload.world (sampleSession false) 2 (isPrefix_upTo .uploadStarted)
        (List.prefix_refl _) (agreeing_of_check (by decide +kernel)) fun v hv => ?_
      rw [show movedAt (upTo .uploadStarted) = none by decide +kernel] at hv
      cases hv
  | i + 2 =>
      exact .running wholeUpload.world (sampleSession false) 2 List.nil_prefix (always_nil _)

theorem upload_bytes_counted_agreeingRun :
    (metricsAfter agreeingRun).uploadBytesTotal.toNat = 2 ∧
      2 = ∑ i ∈ sessionsOf agreeingRun, completedBytes (ofSession i agreeingRun) := by
  have hrun : (metricsAfter agreeingRun).uploadBytesTotal.toNat = 2 ∧
      bytesCounted agreeingRun < 2 ^ 64 ∧ census isAttempting agreeingRun = 0 := by
    decide +kernel
  obtain ⟨htotal, hsat, hclosed⟩ := hrun
  refine ⟨htotal, ?_⟩
  rw [← upload_bytes_counted_if_agreeing agreeingRun_agrees hsat hclosed]
  exact htotal.symm

/-- The backend takes two bytes, and then has no room for them. -/
def fullBackend : Script :=
  { wholeUpload with
    backend := ["220 hi\r\n", "227 ok (10,0,0,2,8,8)\r\n", "150 go\r\n", "452 full\r\n"].map
      fun reply => Script.chunk reply.toList }

def fullBackendRun : List GatewayEvent :=
  doing 0 (history fullBackend.world (sampleSession false) 2)

/-- **The bytes of a failed upload are counted.** -/
theorem failed_upload_bytes_counted :
    GatewayRun fullBackendRun ∧ bytesCounted fullBackendRun < 2 ^ 64 ∧
      census isAttempting fullBackendRun = 0 ∧
      (metricsAfter fullBackendRun).uploadsCompletedTotal = 0 ∧
      (metricsAfter fullBackendRun).uploadsFailedTotal = 1 ∧
      (metricsAfter fullBackendRun).uploadBytesTotal = 2 ∧
      (metricsAfter fullBackendRun).uploadBytesTotal.toNat ≠
        ∑ i ∈ sessionsOf fullBackendRun, completedBytes (ofSession i fullBackendRun) := by
  refine ⟨fun i => ?_, by decide +kernel⟩
  rw [fullBackendRun, ofSession_doing]
  split
  · exact .running fullBackend.world (sampleSession false) 2 (List.prefix_refl _)
  · exact .running fullBackend.world (sampleSession false) 2 List.nil_prefix

end FtpGateway
