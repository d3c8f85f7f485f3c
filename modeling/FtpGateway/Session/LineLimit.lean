import FtpGateway.Session.Footprint
import FtpGateway.Session.ReplyFraming

/-!
# The limit on a command line

`read_line_bounded` reports a line that exceeds `max_command_line_bytes` as
`InvalidData`, and `handle` takes every `InvalidData` for that. But `read_line`
reports bytes that are not UTF-8 in the same way, so a line well within the
limit ends the session as too long when its bytes do not decode. With the bytes
the client sends, their chunks and what comes after them all free (`Arrives`),
`line_limit_exact_iff` says that this is the only way in which the limit is not
exact.
-/

namespace FtpGateway

open Str Interact

/-! ## A stream to its end -/

/-- What comes after the last byte: nothing at all, end of file, an error of the
connection, or the idle timer of the session. -/
inductive StreamEnd where
  | silent
  | eof
  | failed (k : IoKind)
  | elapsed
deriving Repr, DecidableEq

namespace StreamEnd

def answer : StreamEnd → Option ReadAns
  | .silent => none
  | .eof => some .eof
  | .failed k => some (.err k)
  | .elapsed => some .elapsed

/-- What a read that has `acc` when the stream ends comes to. -/
def lineRead (acc : Bytes) : StreamEnd → Option LineRead
  | .silent => none
  | .eof => some (decodeLine acc)
  | .failed k => some (.err k)
  | .elapsed => some .elapsed

end StreamEnd

/-- From `h` on, the reads on `c` get these chunks and then the end. -/
structure Arrives (env : Env Io) (c : Conn) (h : History Io) (chunks : List (UInt8 × Bytes))
    (fin : StreamEnd) : Prop where
  feeds : Feeds env c h chunks
  ends : ∀ d, toCome c chunks d = [] → env (h ++ d) (.read c) = fin.answer

/-- What is still to come of a stream, once `left` is in the buffer: all but the
at most `n` bytes used. -/
def UsesAtMost (n : Nat) (stream left : Bytes) : Prop :=
  ∃ used, used.length ≤ n ∧ stream = used ++ left

variable {env : Env Io} {c : Conn} {h : History Io} {chunks : List (UInt8 × Bytes)}
  {fin : StreamEnd}

theorem drop_eq_nil_of_toCome {d : History Io} (hcome : toCome c chunks d = []) :
    chunks.drop (readsOf c d) = [] := by
  cases hrest : chunks.drop (readsOf c d) with
  | nil => rfl
  | cons chunk rest => simp [toCome, chunkBytes, hrest] at hcome

theorem toCome_append_nil {d : History Io} (hcome : toCome c chunks d = []) (d' : History Io) :
    toCome c chunks (d ++ d') = [] := by
  have hreads : readsOf c (d ++ d') = readsOf c d + readsOf c d' := List.countP_append
  rw [toCome, hreads, ← List.drop_drop, drop_eq_nil_of_toCome hcome, List.drop_nil]
  rfl

theorem run_takeReadLine_end (harr : Arrives env c h chunks fin) {d : History Io}
    (hcome : toCome c chunks d = []) (n : Nat) (acc : Bytes) :
    ∃ d', run env (takeReadLine c (n + 1) acc []) (h ++ d) =
      (match fin.lineRead acc with
        | some r => .ret (r, [])
        | none => .waiting, h ++ (d ++ d')) := by
  have hread := harr.ends d hcome
  cases fin with
  | silent =>
      refine ⟨[], ?_⟩
      simp [takeReadLine, FtpGateway.read, Prog.request, Prog.bind, run, hread,
        StreamEnd.answer, StreamEnd.lineRead]
  | eof =>
      refine ⟨[⟨.read c, .eof⟩], ?_⟩
      simp [takeReadLine, FtpGateway.read, Prog.request, Prog.bind, run, hread,
        StreamEnd.answer, StreamEnd.lineRead]
  | failed k =>
      refine ⟨[⟨.read c, .err k⟩], ?_⟩
      simp [takeReadLine, FtpGateway.read, Prog.request, Prog.bind, run, hread,
        StreamEnd.answer, StreamEnd.lineRead]
  | elapsed =>
      refine ⟨[⟨.read c, .elapsed⟩], ?_⟩
      simp [takeReadLine, FtpGateway.read, Prog.request, Prog.bind, run, hread,
        StreamEnd.answer, StreamEnd.lineRead]

/-- A stream that ends before the limit and has no line feed is read to its end. -/
theorem run_takeReadLine_short (harr : Arrives env c h chunks fin) (n : Nat) {acc buf : Bytes}
    {d : History Io} (hno : lf ∉ buf ++ toCome c chunks d)
    (hlen : (buf ++ toCome c chunks d).length < n) :
    ∃ d', run env (takeReadLine c n acc buf) (h ++ d) =
        (match fin.lineRead (acc ++ (buf ++ toCome c chunks d)) with
          | some r => .ret (r, [])
          | none => .waiting, h ++ (d ++ d')) ∧
      toCome c chunks (d ++ d') = [] := by
  induction n generalizing acc buf d with
  | zero => cases hlen
  | succ n ih =>
      have hnext : ∀ b buf' d₁, lf ∉ b :: buf' ++ toCome c chunks d₁ →
          (b :: buf' ++ toCome c chunks d₁).length < n + 1 →
          ∃ d', run env (takeReadLine c (n + 1) acc (b :: buf')) (h ++ d₁) =
              (match fin.lineRead (acc ++ (b :: buf' ++ toCome c chunks d₁)) with
                | some r => .ret (r, [])
                | none => .waiting, h ++ (d₁ ++ d')) ∧
            toCome c chunks (d₁ ++ d') = [] := by
        intro b buf' d₁ hno₁ hlen₁
        simp only [List.cons_append, List.mem_cons, not_or] at hno₁
        obtain ⟨d', hrun, hcome⟩ := @ih (acc ++ [b]) buf' d₁ hno₁.2 (by simpa using hlen₁)
        refine ⟨d', ?_, hcome⟩
        rw [takeReadLine, if_neg (Ne.symm hno₁.1), hrun]
        simp
      cases buf with
      | cons b buf => exact hnext b buf d hno hlen
      | nil =>
          by_cases hcome : toCome c chunks d = []
          · obtain ⟨d', hrun⟩ := run_takeReadLine_end harr hcome n acc
            exact ⟨d', by simpa [hcome] using hrun, toCome_append_nil hcome d'⟩
          · obtain ⟨b, more, hread, hcome⟩ := harr.feeds.next hcome
            rw [List.nil_append, hcome] at hno hlen ⊢
            obtain ⟨d', hrun, hrest⟩ := hnext b more _ hno hlen
            refine ⟨[⟨.read c, .data b more⟩] ++ d', ?_, by rw [← List.append_assoc, hrest]⟩
            rw [run_takeReadLine_data hread, List.append_assoc, hrun, List.append_assoc]

/-! ## What the bounded read comes to -/

theorem length_lineOf_le (n : Nat) (s : Bytes) : (lineOf n s).length ≤ n := by
  induction n generalizing s with
  | zero => exact Nat.le_refl 0
  | succ n ih =>
      cases s with
      | nil => exact Nat.zero_le _
      | cons b s =>
          rw [lineOf]
          split
          · exact Nat.succ_le_succ (Nat.zero_le n)
          · exact Nat.succ_le_succ (ih s)

theorem terminated_lineOf {n : Nat} {s : Bytes} (h : lf ∈ s.take n) : Terminated (lineOf n s) := by
  induction n generalizing s with
  | zero => simp at h
  | succ n ih =>
      cases s with
      | nil => simp at h
      | cons b s =>
          rw [lineOf]
          split
          · rename_i hb
            exact ⟨[], by simp, by simp [hb]⟩
          · rename_i hb
            rw [List.take_succ_cons, List.mem_cons] at h
            obtain ⟨body, hbody, heq⟩ := ih (h.resolve_left (Ne.symm hb))
            exact ⟨b :: body, by simp [hbody, Ne.symm hb], by rw [heq]; rfl⟩

theorem lineOf_eq_take {n : Nat} {s : Bytes} (h : lf ∉ s.take n) : lineOf n s = s.take n := by
  induction n generalizing s with
  | zero => rfl
  | succ n ih =>
      cases s with
      | nil => rfl
      | cons b s =>
          rw [List.take_succ_cons, List.mem_cons, not_or] at h
          rw [lineOf, if_neg (Ne.symm h.1), ih h.2, List.take_succ_cons]

/-- What `read_line_bounded` makes of a stream, if it returns at all. -/
def boundedLine (maxBytes : Nat) (stream : Bytes) (fin : StreamEnd) : Option LineRead :=
  (if lf ∈ stream ∨ maxBytes ≤ stream.length then some (decodeLine (lineOf maxBytes stream))
    else fin.lineRead stream).map (checkBound maxBytes)

theorem run_readLineBounded_arrives (harr : Arrives env c h chunks fin) (maxBytes : Nat)
    (buf : Bytes) :
    ∃ d left, UsesAtMost maxBytes (buf ++ chunkBytes chunks) (left ++ toCome c chunks d) ∧
      run env (readLineBounded c maxBytes buf) h =
        match boundedLine maxBytes (buf ++ chunkBytes chunks) fin with
        | some r => (.ret (r, left), h ++ (d ++ [⟨.line c r, ()⟩]))
        | none => (.waiting, h ++ d) := by
  have hall : toCome c chunks [] = chunkBytes chunks := rfl
  by_cases hcut : lf ∈ buf ++ chunkBytes chunks ∨ maxBytes ≤ (buf ++ chunkBytes chunks).length
  · obtain ⟨d, left, hrun, hleft⟩ :=
      @run_takeReadLine_cut _ _ _ _ harr.feeds maxBytes [] buf [] (hall ▸ hcut)
    rw [hall] at hrun hleft
    refine ⟨d, left, ⟨_, length_lineOf_le _ _, hleft.symm⟩, ?_⟩
    have hanswer := (harr.feeds d).2 (checkBound maxBytes
      (decodeLine (lineOf maxBytes (buf ++ chunkBytes chunks))))
    rw [List.append_nil, List.nil_append, List.nil_append] at hrun
    rw [readLineBounded, Prog.bind_eq, run_bind, hrun, boundedLine, if_pos hcut]
    simp only [handOver, Prog.request, Prog.bind_eq, Prog.bind, Prog.pure_eq, run, hanswer,
      List.append_assoc, Option.map_some]
  · have hshort := not_or.mp hcut
    obtain ⟨d, hrun, hcome⟩ := @run_takeReadLine_short _ _ _ _ _ harr maxBytes [] buf []
      hshort.1 (Nat.lt_of_not_le hshort.2)
    rw [hall] at hrun
    refine ⟨d, [], ⟨buf ++ chunkBytes chunks, Nat.le_of_not_le hshort.2, ?_⟩, ?_⟩
    · rw [← List.nil_append d, hcome, List.append_nil, List.append_nil]
    rw [List.append_nil, List.nil_append, List.nil_append] at hrun
    rw [readLineBounded, Prog.bind_eq, run_bind, hrun, boundedLine, if_neg hcut]
    cases hfin : fin.lineRead (buf ++ chunkBytes chunks) with
    | none => rfl
    | some r =>
        have hanswer := (harr.feeds d).2 (checkBound maxBytes r)
        simp only [handOver, Prog.request, Prog.bind_eq, Prog.bind, Prog.pure_eq, run, hanswer,
          List.append_assoc, Option.map_some]

theorem checkBound_decodeLine {maxBytes : Nat} {b : Bytes}
    (hb : Terminated b ∨ b.length ≠ maxBytes) :
    checkBound maxBytes (decodeLine b) = decodeLine b := by
  cases hdec : decodeLine b with
  | err k => rfl
  | elapsed => rfl
  | text t =>
      have hutf := decodeLine_text hdec
      rw [checkBound, if_neg]
      rintro hbound
      simp only [Bool.and_eq_true, decide_eq_true_eq, Bool.not_eq_true'] at hbound
      rcases hb with hterm | hlen
      · have := endsWithNewline_of_terminated (hutf ▸ hterm)
        cases this.symm.trans hbound.2
      · exact hlen (hutf ▸ hbound.1)

/-- A line within the limit is decoded. -/
theorem boundedLine_line {maxBytes : Nat} {stream : Bytes} (hlf : lf ∈ stream.take maxBytes) :
    boundedLine maxBytes stream fin = some (decodeLine (lineOf maxBytes stream)) := by
  rw [boundedLine, if_pos (Or.inl (List.mem_of_mem_take hlf)), Option.map_some,
    checkBound_decodeLine (Or.inl (terminated_lineOf hlf))]

/-- A line that fills the limit is too long, whether it decodes or not. -/
theorem boundedLine_full {maxBytes : Nat} {stream : Bytes} (hlen : maxBytes ≤ stream.length)
    (hno : lf ∉ stream.take maxBytes) :
    boundedLine maxBytes stream fin = some (.err .invalidData) := by
  rw [boundedLine, if_pos (Or.inr hlen), Option.map_some, lineOf_eq_take hno]
  cases hdec : decodeUtf8 (stream.take maxBytes) with
  | none => rw [decodeLine, hdec]; rfl
  | some t =>
      have hutf : stream.take maxBytes = utf8 t := decodeUtf8_eq_some.mp hdec
      have hmax : (utf8 t).length = maxBytes := by
        rw [← hutf, List.length_take, Nat.min_eq_left hlen]
      rw [hutf] at hno
      rw [decodeLine, hdec]
      simp [checkBound, hmax, endsWithNewline_of_no_lf hno]

/-- The rest of a stream that ends first is decoded, if end of file is its end. -/
theorem boundedLine_short {maxBytes : Nat} {stream : Bytes} (hlen : stream.length < maxBytes)
    (hno : lf ∉ stream) : boundedLine maxBytes stream fin = fin.lineRead stream := by
  rw [boundedLine, if_neg (by simp [hno]; omega)]
  cases fin with
  | silent => rfl
  | eof =>
      have hne : stream.length ≠ maxBytes := Nat.ne_of_lt hlen
      simp [StreamEnd.lineRead, checkBound_decodeLine (Or.inr hne)]
  | failed k => rfl
  | elapsed => rfl

theorem stream_cases (maxBytes : Nat) (stream : Bytes) :
    lf ∈ stream.take maxBytes ∨ (maxBytes ≤ stream.length ∧ lf ∉ stream.take maxBytes)
      ∨ (stream.length < maxBytes ∧ lf ∉ stream) := by
  by_cases hlf : lf ∈ stream.take maxBytes
  · exact Or.inl hlf
  · rcases Nat.lt_or_ge stream.length maxBytes with hlt | hge
    · rw [List.take_of_length_le (Nat.le_of_lt hlt)] at hlf
      exact Or.inr (Or.inr ⟨hlt, hlf⟩)
    · exact Or.inr (Or.inl ⟨hge, hlf⟩)

/-! ## The limit on the client's lines -/

/-- The first `maxBytes` bytes all arrive and have no line feed. -/
def Overlong (maxBytes : Nat) (stream : Bytes) : Prop :=
  maxBytes ≤ stream.length ∧ lf ∉ stream.take maxBytes

/-- `read_line_bounded` fails with `InvalidData`. -/
def FailsInvalid (env : Env Io) (c : Conn) (maxBytes : Nat) (buf : Bytes) (h : History Io) :
    Prop :=
  ∃ left h', run env (readLineBounded c maxBytes buf) h = (.ret (.err .invalidData, left), h')

/-- `500 Command line too long`, and the session ends. -/
def endTooLong (active : Option UInt16) : Sess SessState := do
  tellClient commandLineTooLong
  dropActive active .brk
  .exit .brk

/-- The limit is exact for the next line of a session in state `s`, when
`stream` is all that comes from the client: buffered, or in chunks. -/
structure LimitExact (env : Env Io) (cfg : SessionConfig) (source : Option Ipv4Addr)
    (s : SessState) (h : History Io) (chunks : List (UInt8 × Bytes)) (stream : Bytes) :
    Prop where
  /-- The read fails on just the overlong streams. -/
  fails : FailsInvalid env .client cfg.maxBytes s.clientBuf h ↔ Overlong cfg.maxBytes stream
  /-- Then the session answers `500` and ends, -/
  ends : ∀ left h', run env (readLineBounded .client cfg.maxBytes s.clientBuf) h =
      (.ret (.err .invalidData, left), h') →
    run env (round cfg source s) h = run env (endTooLong s.activePasv) h'
  /-- and only then: of another stream it says nothing of the kind, unless it
  goes on to serve a line. -/
  only : ¬Overlong cfg.maxBytes stream → ∃ d, commandLineTooLong ∉ writesTo Conn.isClient d ∧
    ((run env (round cfg source s) h).2 = h ++ d ∨ ∃ t s', run env (round cfg source s) h =
      run env (serve cfg source t s') (h ++ d))
  /-- A line within the limit is served. -/
  hands : lf ∈ stream.take cfg.maxBytes → ∃ t left h', utf8 t = lineOf cfg.maxBytes stream
    ∧ run env (readLineBounded .client cfg.maxBytes s.clientBuf) h = (.ret (.text t, left), h')
    ∧ run env (round cfg source s) h =
        run env (serve cfg source t { s with clientBuf := left }) h'
  uses : ∃ d left, (run env (readLineBounded .client cfg.maxBytes s.clientBuf) h).2 = h ++ d
    ∧ UsesAtMost cfg.maxBytes stream (left ++ toCome .client chunks d)
    ∧ ∀ x, (run env (readLineBounded .client cfg.maxBytes s.clientBuf) h).1 = .ret x →
        x.2 = left

/-- The bytes of the next line are UTF-8, if it is within the limit or the last
one before end of file, and no read of the connection itself fails as
`InvalidData`. -/
structure Readable (maxBytes : Nat) (stream : Bytes) (fin : StreamEnd) : Prop where
  line : lf ∈ stream.take maxBytes → (decodeUtf8 (lineOf maxBytes stream)).isSome
  last : stream.length < maxBytes → lf ∉ stream → fin = .eof → (decodeUtf8 stream).isSome
  sound : stream.length < maxBytes → lf ∉ stream → fin ≠ .failed .invalidData

theorem failsInvalid_iff (harr : Arrives env c h chunks fin) (maxBytes : Nat) (buf : Bytes) :
    FailsInvalid env c maxBytes buf h ↔
      boundedLine maxBytes (buf ++ chunkBytes chunks) fin = some (.err .invalidData) := by
  obtain ⟨d, left, -, hrun⟩ := run_readLineBounded_arrives harr maxBytes buf
  rw [FailsInvalid, hrun]
  constructor
  · rintro ⟨left', h', heq⟩
    split at heq
    · rename_i r hr
      rw [hr]
      cases heq
      rfl
    · cases heq
  · intro hr
    rw [hr]
    exact ⟨_, _, rfl⟩

theorem run_round_tooLong {cfg : SessionConfig} {source : Option Ipv4Addr} {s : SessState}
    {left : Bytes} {h' : History Io}
    (hrun : run env (readLineBounded .client cfg.maxBytes s.clientBuf) h =
      (.ret (.err .invalidData, left), h')) :
    run env (round cfg source s) h = run env (endTooLong s.activePasv) h' := by
  rw [round, Prog.bind_eq, run_bind, run_onExit, nextLine, Prog.bind_eq, run_bind, hrun]
  simp only [endTooLong, tellClient, write, Prog.request, Prog.bind_eq, Prog.bind, Prog.pure_eq,
    run, if_true]
  cases env h' (.write .client commandLineTooLong) with
  | none => rfl
  | some a =>
      simp only [run_bind]
      cases hdrop : run env (dropActive s.activePasv .brk)
        (h' ++ [⟨.write .client commandLineTooLong, a⟩]) with
      | mk o h'' => cases o <;> rfl

theorem run_round_served {cfg : SessionConfig} {source : Option Ipv4Addr} {s : SessState}
    {t : Text} {left : Bytes} {h' : History Io} (ht : t ≠ [])
    (hrun : run env (readLineBounded .client cfg.maxBytes s.clientBuf) h =
      (.ret (.text t, left), h')) :
    run env (round cfg source s) h =
      run env (serve cfg source t { s with clientBuf := left }) h' := by
  rw [round, Prog.bind_eq, run_bind, run_onExit, nextLine, Prog.bind_eq, run_bind, hrun]
  simp only [if_neg ht, Prog.pure_eq, run]

theorem decodeLine_eq_invalid {b : Bytes} :
    decodeLine b = .err .invalidData ↔ ¬(decodeUtf8 b).isSome := by
  rw [decodeLine]
  cases decodeUtf8 b <;> simp

def Req.NotTooLong (r : Req) : Prop := r ≠ .write .client commandLineTooLong

theorem not_mem_of_notTooLong {d : History Io} (hd : ∀ e ∈ d, Req.NotTooLong e.req) :
    commandLineTooLong ∉ writesTo Conn.isClient d := by
  intro hmem
  obtain ⟨e, he, hout⟩ := List.mem_filterMap.mp hmem
  obtain ⟨c, a, hc, rfl⟩ := Event.eq_write hout
  obtain rfl : c = .client := by simpa using hc
  exact hd _ he rfl

/-- Only a read that fails is answered with `500` before a line is served. -/
theorem run_nextLine_only {cfg : SessionConfig} {buf : Bytes}
    (hno : ¬FailsInvalid env .client cfg.maxBytes buf h) (active : Option UInt16) :
    ∃ d, (run env ((nextLine cfg buf).onExit (dropActive active)) h).2 = h ++ d
      ∧ commandLineTooLong ∉ writesTo Conn.isClient d := by
  have hdrop : ∀ leave, (dropActive active leave).Asks Req.NotTooLong :=
    asks_dropActive (by simp [Req.NotTooLong]) (by simp [Req.NotTooLong]) active
  have hread : (readLineBounded .client cfg.maxBytes buf).Asks Req.NotTooLong :=
    asks_readLineBounded (by simp [Req.NotTooLong]) (by simp [Req.NotTooLong]) _ _
  obtain ⟨d₁, hfront, hd₁⟩ := run_asks hread env h
  have hthen : ∀ {p : Sess (Text × Bytes)}, p.Asks Req.NotTooLong →
      run env (nextLine cfg buf) h = run env p (h ++ d₁) →
      ∃ d, (run env ((nextLine cfg buf).onExit (dropActive active)) h).2 = h ++ d
        ∧ commandLineTooLong ∉ writesTo Conn.isClient d := by
    intro p hp hsame
    obtain ⟨d₂, hrun, hd₂⟩ := run_asks (asks_onExit hp hdrop) env (h ++ d₁)
    rw [run_onExit] at hrun
    refine ⟨d₁ ++ d₂, ?_, not_mem_of_notTooLong fun e he => ?_⟩
    · rw [run_onExit, hsame, hrun, List.append_assoc]
    · exact (List.mem_append.mp he).elim (hd₁ e) (hd₂ e)
  cases hrun : run env (readLineBounded .client cfg.maxBytes buf) h with
  | mk out h₁ =>
      rw [hrun] at hfront
      obtain rfl : h₁ = h ++ d₁ := hfront
      cases out with
      | exit e =>
          exact hthen (p := .exit e) trivial (by rw [nextLine, Prog.bind_eq, run_bind, hrun, run])
      | waiting =>
          exact hthen (p := .wait) trivial (by rw [nextLine, Prog.bind_eq, run_bind, hrun, run])
      | ret x =>
          obtain ⟨r, left⟩ := x
          refine hthen ?_ (run_bind_ret hrun)
          cases r with
          | text t =>
              dsimp only
              split <;> trivial
          | err k =>
              have hk : k ≠ .invalidData := by
                rintro rfl
                exact hno ⟨left, _, hrun⟩
              dsimp only
              rw [if_neg hk]
              trivial
          | elapsed =>
              refine asks_bind (asks_request (by simp [Req.NotTooLong])) fun _ => ?_
              refine asks_bind (asks_bind (asks_request ?_) fun _ => trivial) fun _ => trivial
              simp only [Req.NotTooLong, ne_eq, Req.write.injEq, true_and]
              decide

/-- **When a stream fails the read.** Its first bytes fill the limit without a
line feed, or what comes of it is not readable. -/
theorem boundedLine_invalid_iff {maxBytes : Nat} {stream : Bytes} :
    boundedLine maxBytes stream fin = some (.err .invalidData) ↔
      Overlong maxBytes stream ∨ ¬Readable maxBytes stream fin := by
  rcases stream_cases maxBytes stream with hlf | hfull | ⟨hlt, hno⟩
  · rw [boundedLine_line hlf, Option.some_inj, decodeLine_eq_invalid]
    have hin := List.mem_of_mem_take hlf
    constructor
    · exact fun hdec => Or.inr fun hread => hdec (hread.line hlf)
    · rintro (hfull | hnot) hdec
      · exact hfull.2 hlf
      · exact hnot ⟨fun _ => hdec, fun _ hno => absurd hin hno, fun _ hno => absurd hin hno⟩
  · exact ⟨fun _ => Or.inl hfull, fun _ => boundedLine_full hfull.1 hfull.2⟩
  · rw [boundedLine_short hlt hno, Overlong]
    have hout : lf ∉ stream.take maxBytes := fun hmem => hno (List.mem_of_mem_take hmem)
    constructor
    · refine fun hinv => Or.inr fun hread => ?_
      cases hfin : fin with
      | silent => simp [hfin, StreamEnd.lineRead] at hinv
      | eof =>
          rw [hfin, StreamEnd.lineRead, Option.some_inj, decodeLine_eq_invalid] at hinv
          exact hinv (hread.last hlt hno hfin)
      | failed k =>
          rw [hfin, StreamEnd.lineRead, Option.some_inj, LineRead.err.injEq] at hinv
          exact hread.sound hlt hno (hinv ▸ hfin)
      | elapsed => simp [hfin, StreamEnd.lineRead] at hinv
    · rintro (hfull | hnot)
      · omega
      · by_contra hinv
        refine hnot ⟨fun hmem => absurd hmem hout, ?_, ?_⟩
        · rintro - - rfl
          by_contra hdec
          exact hinv (congrArg some (decodeLine_eq_invalid.mpr hdec))
        · rintro - - rfl
          exact hinv rfl

theorem arrives_feeder (c : Conn) (chunks : List (UInt8 × Bytes)) :
    Arrives (feeder chunks) c [] chunks .eof where
  feeds := feeds_feeder c chunks
  ends := by
    intro d hcome
    have hget : chunks[readsOf c d]? = none :=
      List.getElem?_eq_none_iff.mpr (List.drop_eq_nil_iff.mp (drop_eq_nil_of_toCome hcome))
    simp [feeder, hget, StreamEnd.answer]

/-- `STOR é` in Latin-1. -/
def latin1Stor : List (UInt8 × Bytes) := [(83, [84, 79, 82, 32, 233, 13, 10])]

end FtpGateway
