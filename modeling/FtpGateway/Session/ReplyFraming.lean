import FtpGateway.Session.CompleteLine

/-!
# Reading a reply during the TLS upgrade

`read_reply_code` against the replies RFC 959 allows: one line, or a first line
with a hyphen after its code, any lines, and a last line with the code and a
blank. The bytes arrive in full, in chunks of any size (`Feeds`). The reader
takes every such reply and stops right after it, with one exception: it insists
on a code at the start of the lines in between too
(`read_reply_code_accepts_iff`).
-/

namespace FtpGateway

open Str Interact

/-! ## A stream that arrives -/

def readsOf (c : Conn) (d : History Io) : Nat := d.countP fun e => e.req = .read c

def chunkBytes (chunks : List (UInt8 × Bytes)) : Bytes :=
  chunks.flatMap fun chunk => chunk.1 :: chunk.2

/-- The bytes still to come after the exchanges `d`. -/
def toCome (c : Conn) (chunks : List (UInt8 × Bytes)) (d : History Io) : Bytes :=
  chunkBytes (chunks.drop (readsOf c d))

/-- Reads on `c` get these chunks one after the other from `h` on. -/
def Feeds (env : Env Io) (c : Conn) (h : History Io) (chunks : List (UInt8 × Bytes)) : Prop :=
  ∀ d, (∀ b rest, chunks[readsOf c d]? = some (b, rest) →
      env (h ++ d) (.read c) = some (.data b rest)) ∧
    ∀ r, env (h ++ d) (.line c r) = some ()

variable {env : Env Io} {c : Conn} {h : History Io} {chunks : List (UInt8 × Bytes)}

theorem readsOf_read (d : History Io) (a : ReadAns) :
    readsOf c (d ++ [⟨.read c, a⟩]) = readsOf c d + 1 := by
  simp [readsOf]

theorem toCome_line (d : History Io) (r : LineRead) (a : Unit) :
    toCome c chunks (d ++ [⟨.line c r, a⟩]) = toCome c chunks d := by
  simp [toCome, readsOf]

/-- While something is to come, the next read brings its first chunk. -/
theorem Feeds.next (hfeed : Feeds env c h chunks) {d : History Io}
    (hne : toCome c chunks d ≠ []) :
    ∃ b rest, env (h ++ d) (.read c) = some (.data b rest) ∧
      toCome c chunks d = b :: rest ++ toCome c chunks (d ++ [⟨.read c, .data b rest⟩]) := by
  cases hget : chunks[readsOf c d]? with
  | none =>
      refine absurd ?_ hne
      rw [toCome, List.drop_eq_nil_of_le (List.getElem?_eq_none_iff.mp hget)]
      rfl
  | some chunk =>
      obtain ⟨b, rest⟩ := chunk
      refine ⟨b, rest, (hfeed d).1 b rest hget, ?_⟩
      obtain ⟨hlt, hchunk⟩ := List.getElem?_eq_some_iff.mp hget
      rw [toCome, toCome, readsOf_read, List.drop_eq_getElem_cons hlt, hchunk]
      rfl

/-! ## One line of it -/

/-- The bytes that `take(n).read_line` takes off the front of a stream. -/
def lineOf : Nat → Bytes → Bytes
  | 0, _ => []
  | _ + 1, [] => []
  | n + 1, b :: s => if b = lf then [b] else b :: lineOf n s

theorem lineOf_append {t : Bytes} (hterm : Terminated t) (rest : Bytes) {n : Nat}
    (hlen : t.length ≤ n) : lineOf n (t ++ rest) = t := by
  obtain ⟨body, hbody, rfl⟩ := hterm
  induction body generalizing n with
  | nil =>
      obtain ⟨n, rfl⟩ := Nat.exists_eq_add_of_lt hlen
      rfl
  | cons b body ih =>
      simp only [List.mem_cons, not_or] at hbody
      obtain ⟨n, rfl⟩ := Nat.exists_eq_add_of_le' (Nat.one_le_of_lt hlen)
      simp only [List.cons_append, lineOf, if_neg (Ne.symm hbody.1)]
      rw [ih hbody.2 (by simpa using hlen)]

/-- A read on an empty buffer takes the chunk that arrives. -/
theorem run_takeReadLine_data {n : Nat} {acc : Bytes} {h₁ : History Io} {b : UInt8} {more : Bytes}
    (hread : env h₁ (.read c) = some (.data b more)) :
    run env (takeReadLine c (n + 1) acc []) h₁ =
      run env (takeReadLine c (n + 1) acc (b :: more)) (h₁ ++ [⟨.read c, .data b more⟩]) := by
  simp only [takeReadLine, FtpGateway.read, Prog.request, Prog.bind_eq, Prog.bind, run, hread]

/-- A stream with a line feed in it, or long enough, is cut at the first line
feed or at the limit, whatever chunks it comes in. -/
theorem run_takeReadLine_cut (hfeed : Feeds env c h chunks) (n : Nat) {acc buf : Bytes}
    {d : History Io} (hcut : lf ∈ buf ++ toCome c chunks d ∨ n ≤ (buf ++ toCome c chunks d).length) :
    ∃ d' left, run env (takeReadLine c n acc buf) (h ++ d) =
        (.ret (decodeLine (acc ++ lineOf n (buf ++ toCome c chunks d)), left), h ++ (d ++ d')) ∧
      lineOf n (buf ++ toCome c chunks d) ++ (left ++ toCome c chunks (d ++ d')) =
        buf ++ toCome c chunks d := by
  induction n generalizing acc buf d with
  | zero => exact ⟨[], buf, by simp [takeReadLine, run, lineOf], by simp [lineOf]⟩
  | succ n ih =>
      have hnext : ∀ b buf' d₁, (lf ∈ b :: buf' ++ toCome c chunks d₁ ∨
            n + 1 ≤ (b :: buf' ++ toCome c chunks d₁).length) →
          ∃ d' left, run env (takeReadLine c (n + 1) acc (b :: buf')) (h ++ d₁) =
              (.ret (decodeLine (acc ++ lineOf (n + 1) (b :: buf' ++ toCome c chunks d₁)), left),
                h ++ (d₁ ++ d')) ∧
            lineOf (n + 1) (b :: buf' ++ toCome c chunks d₁) ++
              (left ++ toCome c chunks (d₁ ++ d')) = b :: buf' ++ toCome c chunks d₁ := by
        intro b buf' d₁ hcut₁
        by_cases hb : b = lf
        · exact ⟨[], buf', by simp [takeReadLine, run, lineOf, hb], by simp [lineOf, hb]⟩
        · have hrest : lf ∈ buf' ++ toCome c chunks d₁ ∨
              n ≤ (buf' ++ toCome c chunks d₁).length := by
            simpa [Ne.symm hb] using hcut₁
          obtain ⟨d', left, hrun, hleft⟩ := @ih (acc ++ [b]) buf' d₁ hrest
          refine ⟨d', left, ?_, ?_⟩
          · simp only [takeReadLine, if_neg hb, hrun, List.cons_append, lineOf]
            simp
          · simp only [List.cons_append, lineOf, if_neg hb]
            rw [hleft]
      cases buf with
      | cons b buf => exact hnext b buf d hcut
      | nil =>
          have hne : toCome c chunks d ≠ [] := by
            intro hnil
            simp [hnil] at hcut
          obtain ⟨b, more, hread, hcome⟩ := hfeed.next hne
          rw [List.nil_append, hcome] at hcut ⊢
          obtain ⟨d', left, hrun, hleft⟩ := hnext b more _ hcut
          refine ⟨[⟨.read c, .data b more⟩] ++ d', left, ?_, ?_⟩
          · rw [run_takeReadLine_data hread, List.append_assoc, hrun, List.append_assoc]
          · rw [← List.append_assoc d, hleft]

theorem run_readLine_fed (hfeed : Feeds env c h chunks) {max : Nat} {buf : Bytes}
    {d : History Io} {t : Text} {rest : Bytes}
    (hline : CompleteLine max (buf ++ toCome c chunks d) t rest) :
    ∃ d' left, run env (readLine c max buf) (h ++ d) = (.ret (.text t, left), h ++ (d ++ d'))
      ∧ left ++ toCome c chunks (d ++ d') = rest := by
  obtain ⟨hterm, hlen, hstream⟩ := hline
  have hcut : lf ∈ buf ++ toCome c chunks d := by
    obtain ⟨body, -, hbody⟩ := hterm
    simp [hstream, hbody]
  obtain ⟨d', left, hrun, hleft⟩ := @run_takeReadLine_cut _ _ _ _ hfeed max [] _ _ (Or.inl hcut)
  rw [hstream, lineOf_append hterm rest hlen] at hrun hleft
  rw [List.nil_append, decodeLine_utf8] at hrun
  have hleft := List.append_cancel_left hleft
  refine ⟨d' ++ [⟨.line c (.text t), ()⟩], left, ?_, ?_⟩
  · have hanswer := (hfeed (d ++ d')).2 (.text t)
    rw [readLine, Prog.bind_eq, run_bind, hrun]
    simp only [handOver, Prog.request, Prog.bind_eq, Prog.bind, Prog.pure_eq, run, hanswer,
      List.append_assoc]
  · rw [← List.append_assoc, toCome_line]
    exact hleft

/-! ## Replies -/

/-- The three digits of a reply and the byte after them, at the start of a line. -/
def StartsReply (code : Bytes) (sep : Char) (t : Text) : Prop :=
  code ++ [sep.toUInt8] <+: utf8 t

instance (code : Bytes) (sep : Char) (t : Text) : Decidable (StartsReply code sep t) :=
  inferInstanceAs (Decidable (_ <+: _))

/-- The line shapes of a reply with this code: one line, or several, of which those in
between are free text that does not look like the last one. -/
inductive ReplyShape (code : Bytes) : List Text → Prop where
  | single {t : Text} (ht : StartsReply code ' ' t) : ReplyShape code [t]
  | multi {first last : Text} {middle : List Text} (hfirst : StartsReply code '-' first)
      (hmiddle : ∀ m ∈ middle, ¬ StartsReply code ' ' m) (hlast : StartsReply code ' ' last) :
      ReplyShape code (first :: (middle ++ [last]))

/-- A reply as RFC 959 has it, in lines of at most `max` bytes. -/
structure WellFormedReply (max : Nat) (code : Bytes) (lines : List Text) : Prop where
  three : code.length = 3
  digits : code.all isAsciiDigit = true
  shape : ReplyShape code lines
  terminated : ∀ t ∈ lines, Terminated (utf8 t)
  bounded : ∀ t ∈ lines, (utf8 t).length ≤ max

/-- The check `read_reply_code` makes on each line. -/
def startsWithCode (t : Text) : Bool :=
  4 ≤ (utf8 t).length && ((utf8 t).take 3).all isAsciiDigit

theorem replyCode?_eq_some {t : Text} {code : Bytes} {sep : UInt8} :
    replyCode? t = some (code, sep) ↔
      code.length = 3 ∧ code.all isAsciiDigit = true ∧ code ++ [sep] <+: utf8 t := by
  rw [replyCode?]
  constructor
  · intro h
    split at h
    case h_1 d₁ d₂ d₃ sep' tail heq =>
      split at h
      case isTrue hall =>
        simp only [Option.some.injEq, Prod.mk.injEq] at h
        obtain ⟨rfl, rfl⟩ := h
        exact ⟨rfl, hall, tail, by rw [heq]; rfl⟩
      case isFalse => cases h
    case h_2 => cases h
  · rintro ⟨hlen, hall, tail, htail⟩
    obtain ⟨d₁, d₂, d₃, rfl⟩ := List.length_eq_three.mp hlen
    rw [← htail]
    simp only [List.cons_append, List.nil_append]
    rw [if_pos hall]

theorem isSome_replyCode? (t : Text) : (replyCode? t).isSome = startsWithCode t := by
  rw [replyCode?, startsWithCode]
  split
  case h_1 d₁ d₂ d₃ sep tail heq =>
    rw [heq]
    cases hall : [d₁, d₂, d₃].all isAsciiDigit with
    | true => simpa using hall
    | false => simpa using hall
  case h_2 hshort =>
    refine (Bool.and_eq_false_imp.mpr fun hlen => ?_).symm
    match hbytes : utf8 t with
    | [] | [_] | [_, _] | [_, _, _] => simp [hbytes] at hlen
    | d₁ :: d₂ :: d₃ :: sep :: tail => exact absurd hbytes (hshort d₁ d₂ d₃ sep tail)

/-- What a line makes of the loop, before the first code and after it. -/
theorem run_replyLines_line (hfeed : Feeds env c h chunks) {max : Nat} {buf : Bytes}
    {d : History Io} {t : Text} {rest : Bytes}
    (hline : CompleteLine max (buf ++ toCome c chunks d) t rest) :
    ∃ d' left, left ++ toCome c chunks (d ++ d') = rest ∧
      (∀ n code, replyCode? t = none →
        run env (replyLines c max (n + 1) code buf) (h ++ d) =
          (.ret (.error .invalidData), h ++ (d ++ d'))) ∧
      ∀ n digits sep, replyCode? t = some (digits, sep) →
        run env (replyLines c max (n + 1) none buf) (h ++ d) =
          (if sep ≠ '-'.toUInt8 then (.ret (.ok (digits, left)), h ++ (d ++ d'))
          else run env (replyLines c max n (some digits) left) (h ++ (d ++ d'))) ∧
        ∀ first, run env (replyLines c max (n + 1) (some first) buf) (h ++ d) =
          if digits = first ∧ sep = ' '.toUInt8 then (.ret (.ok (first, left)), h ++ (d ++ d'))
          else run env (replyLines c max n (some first) left) (h ++ (d ++ d')) := by
  obtain ⟨d', left, hrun, hleft⟩ := run_readLine_fed hfeed hline
  have hne : t ≠ [] := by
    rintro rfl
    obtain ⟨⟨body, -, hbody⟩, -, -⟩ := hline
    simp [utf8] at hbody
  have hnl := endsWithNewline_of_terminated hline.1
  refine ⟨d', left, hleft, ?_, ?_⟩
  · intro n code hcode
    rw [replyLines, Prog.bind_eq, run_bind, hrun]
    simp [hne, hnl, hcode, run]
  · intro n digits sep hcode
    refine ⟨?_, fun first => ?_⟩
    · rw [replyLines, Prog.bind_eq, run_bind, hrun]
      simp only [hne, hnl, hcode, if_false, Bool.not_true, Bool.false_eq_true]
      split
      · rfl
      · rfl
    · rw [replyLines, Prog.bind_eq, run_bind, hrun]
      simp only [hne, hnl, hcode, if_false, Bool.not_true, Bool.false_eq_true]
      split
      · rfl
      · rfl

/-! ## Whole replies -/

def lineBytes (lines : List Text) : Bytes := lines.flatMap utf8

variable {max : Nat} {code buf rest : Bytes} {d : History Io}

theorem StartsReply.replyCode? {sep : Char} {t : Text} (ht : StartsReply code sep t)
    (hthree : code.length = 3) (hdigits : code.all isAsciiDigit = true) :
    FtpGateway.replyCode? t = some (code, sep.toUInt8) :=
  replyCode?_eq_some.mpr ⟨hthree, hdigits, ht⟩

theorem completeLine_cons {t : Text} {more : List Text} {stream : Bytes}
    (hterm : Terminated (utf8 t)) (hlen : (utf8 t).length ≤ max)
    (hstream : stream = lineBytes (t :: more) ++ rest) :
    CompleteLine max stream t (lineBytes more ++ rest) :=
  ⟨hterm, hlen, by rw [hstream, lineBytes, lineBytes, List.flatMap_cons, List.append_assoc]⟩

/-- From `d` on, `p` comes to the code and leaves exactly `rest` unread. -/
def Takes (env : Env Io) (c : Conn) (h : History Io) (chunks : List (UInt8 × Bytes))
    (d : History Io) (p : Sess (Except IoKind (Bytes × Bytes))) (code rest : Bytes) : Prop :=
  ∃ d' left, run env p (h ++ d) = (.ret (.ok (code, left)), h ++ (d ++ d')) ∧
    left ++ toCome c chunks (d ++ d') = rest

/-- `p` fails. -/
def Refuses (env : Env Io) (h d : History Io) (p : Sess (Except IoKind (Bytes × Bytes))) :
    Prop :=
  ∃ d', run env p (h ++ d) = (.ret (.error .invalidData), h ++ (d ++ d'))

theorem Takes.of_run {p q : Sess (Except IoKind (Bytes × Bytes))} {d' : History Io}
    (hq : Takes env c h chunks (d ++ d') q code rest)
    (hrun : run env p (h ++ d) = run env q (h ++ (d ++ d'))) :
    Takes env c h chunks d p code rest := by
  obtain ⟨d₂, left, hret, hleft⟩ := hq
  rw [List.append_assoc] at hret hleft
  exact ⟨d' ++ d₂, left, hrun.trans hret, hleft⟩

theorem Refuses.of_run {p q : Sess (Except IoKind (Bytes × Bytes))} {d' : History Io}
    (hq : Refuses env h (d ++ d') q) (hrun : run env p (h ++ d) = run env q (h ++ (d ++ d'))) :
    Refuses env h d p := by
  obtain ⟨d₂, hret⟩ := hq
  rw [List.append_assoc] at hret
  exact ⟨d' ++ d₂, hrun.trans hret⟩

/-- The lines after the first: the loop gets to the last one if it finds a code
on each line before, and stops with an error if it does not. -/
theorem replyLines_middle (hfeed : Feeds env c h chunks) (hthree : code.length = 3)
    (hdigits : code.all isAsciiDigit = true) {last : Text} (hlast : StartsReply code ' ' last)
    (middle : List Text) (n : Nat) (hn : middle.length < n)
    (hmiddle : ∀ m ∈ middle, ¬ StartsReply code ' ' m)
    (hterm : ∀ t ∈ middle ++ [last], Terminated (utf8 t))
    (hlen : ∀ t ∈ middle ++ [last], (utf8 t).length ≤ max)
    (hstream : buf ++ toCome c chunks d = lineBytes (middle ++ [last]) ++ rest) :
    ((∀ m ∈ middle, startsWithCode m = true) →
        Takes env c h chunks d (replyLines c max n (some code) buf) code rest) ∧
      ((∃ m ∈ middle, startsWithCode m = false) →
        Refuses env h d (replyLines c max n (some code) buf)) := by
  induction middle generalizing n buf d with
  | nil =>
      obtain ⟨n, rfl⟩ := Nat.exists_eq_add_of_lt hn
      obtain ⟨d', left, hleft, -, hcode⟩ := run_replyLines_line hfeed
        (completeLine_cons (hterm last (by simp)) (hlen last (by simp)) hstream)
      refine ⟨fun _ => ⟨d', left, ?_, hleft⟩, ?_⟩
      · rw [(hcode _ code _ (hlast.replyCode? hthree hdigits)).2 code]
        exact if_pos ⟨rfl, rfl⟩
      · rintro ⟨m, hm, -⟩
        cases hm
  | cons m middle ih =>
      obtain ⟨n, rfl⟩ := Nat.exists_eq_add_of_lt hn
      obtain ⟨d', left, hleft, hnone, hsome⟩ := run_replyLines_line hfeed
        (completeLine_cons (hterm m (by simp)) (hlen m (by simp)) hstream)
      cases hm : FtpGateway.replyCode? m with
      | none =>
          have hbare : startsWithCode m = false := by rw [← isSome_replyCode?, hm]; rfl
          refine ⟨fun hall => ?_, fun _ => ⟨d', hnone _ _ hm⟩⟩
          rw [hall m (by simp)] at hbare
          cases hbare
      | some x =>
          obtain ⟨digits, sep⟩ := x
          have hcode : startsWithCode m = true := by rw [← isSome_replyCode?, hm]; rfl
          have hgo : ¬ (digits = code ∧ sep = ' '.toUInt8) := by
            rintro ⟨rfl, rfl⟩
            exact hmiddle m (by simp) (replyCode?_eq_some.mp hm).2.2
          have hrun := (hsome (middle.length + 1 + n) digits sep hm).2 code
          rw [if_neg hgo] at hrun
          obtain ⟨htakes, hrefuses⟩ := ih (middle.length + 1 + n) (by omega)
            (fun x hx => hmiddle x (by simp [hx]))
            (fun x hx => hterm x (List.mem_cons_of_mem m hx))
            (fun x hx => hlen x (List.mem_cons_of_mem m hx)) hleft
          constructor
          · intro hall
            exact (htakes fun x hx => hall x (List.mem_cons_of_mem m hx)).of_run hrun
          · rintro ⟨x, hx, hbare⟩
            rcases List.mem_cons.mp hx with rfl | hx
            · rw [hcode] at hbare
              cases hbare
            · exact (hrefuses ⟨x, hx, hbare⟩).of_run hrun

/-- **A reply is read to its end exactly if the lines in between begin with
three digits too**: the reader insists on a code on every line. -/
theorem read_reply_code_accepts_iff (env : Env Io) (c : Conn) (h : History Io)
    (chunks : List (UInt8 × Bytes)) (max : Nat) (buf code rest : Bytes) (lines : List Text)
    (hfeed : Feeds env c h chunks) (hreply : WellFormedReply max code lines)
    (hcount : lines.length ≤ maxReplyLines)
    (hstream : buf ++ chunkBytes chunks = lineBytes lines ++ rest) :
    (∃ d left, run env (readReplyCode c max buf) h = (.ret (.ok (code, left)), h ++ d) ∧
      left ++ toCome c chunks d = rest) ↔
    ∀ m ∈ lines.tail.dropLast, startsWithCode m = true := by
  obtain ⟨hthree, hdigits, hshape, hterm, hlen⟩ := hreply
  suffices hiff : Takes env c h chunks [] (readReplyCode c max buf) code rest ↔
      ∀ m ∈ lines.tail.dropLast, startsWithCode m = true by
    simpa only [Takes, List.append_nil, List.nil_append] using hiff
  have hstream' : buf ++ toCome c chunks [] = lineBytes lines ++ rest := hstream
  cases hshape with
  | single ht =>
      obtain ⟨d', left, hleft, -, hcode⟩ := run_replyLines_line hfeed
        (completeLine_cons (hterm _ (by simp)) (hlen _ (by simp)) hstream')
      refine ⟨fun _ m hm => absurd hm List.not_mem_nil, fun _ => ⟨d', left, ?_, hleft⟩⟩
      rw [readReplyCode, maxReplyLines, (hcode _ code _ (ht.replyCode? hthree hdigits)).1]
      exact if_pos (by decide)
  | @multi first last middle hfirst hmiddle hlast =>
      obtain ⟨d', left, hleft, -, hcode⟩ := run_replyLines_line hfeed
        (completeLine_cons (hterm _ (by simp)) (hlen _ (by simp)) hstream')
      have hrun : run env (readReplyCode c max buf) (h ++ []) =
          run env (replyLines c max 31 (some code) left) (h ++ ([] ++ d')) := by
        rw [readReplyCode, maxReplyLines, (hcode _ code _ (hfirst.replyCode? hthree hdigits)).1]
        exact if_neg (by decide)
      have hn : middle.length < 31 := by
        simp only [List.length_cons, List.length_append, List.length_nil, maxReplyLines] at hcount
        omega
      obtain ⟨htakes, hrefuses⟩ := replyLines_middle hfeed hthree hdigits hlast middle 31 hn
        hmiddle (fun t ht => hterm t (List.mem_cons_of_mem first ht))
        (fun t ht => hlen t (List.mem_cons_of_mem first ht)) hleft
      rw [List.tail_cons, List.dropLast_concat]
      refine ⟨fun hok => ?_, fun hall => (htakes hall).of_run hrun⟩
      by_contra hbare
      simp only [not_forall, Bool.not_eq_true, exists_prop] at hbare
      obtain ⟨_, left, hret, -⟩ := hok
      obtain ⟨_, herr⟩ := (hrefuses hbare).of_run hrun
      rw [hret] at herr
      cases herr

/-- A connection that brings these chunks and then its end. -/
def feeder (chunks : List (UInt8 × Bytes)) : Env Io
  | h, .read c =>
      match chunks[readsOf c h]? with
      | some (b, rest) => some (.data b rest)
      | none => some .eof
  | _, .line _ _ => some ()
  | _, _ => none

theorem feeds_feeder (c : Conn) (chunks : List (UInt8 × Bytes)) :
    Feeds (feeder chunks) c [] chunks := by
  intro d
  refine ⟨fun b rest hget => ?_, fun r => rfl⟩
  simp [feeder, hget]

def chunksOf (parts : List String) : List (UInt8 × Bytes) :=
  parts.filterMap fun part =>
    match utf8 part.toList with
    | b :: rest => some (b, rest)
    | [] => none

instance (l : Bytes) : Decidable (Terminated l) :=
  decidable_of_iff (l.getLast? = some lf ∧ lf ∉ l.dropLast) (by
    constructor
    · rintro ⟨hlast, hno⟩
      obtain ⟨body, rfl⟩ := List.getLast?_eq_some_iff.mp hlast
      exact ⟨body, by simpa using hno, rfl⟩
    · rintro ⟨body, hno, rfl⟩
      simpa using hno)

/-- Three lines in three pieces, and the next reply behind them. -/
theorem read_reply_code_accepts_numbered :
    ∃ d left, run (feeder (chunksOf ["234-a\r\n23", "4-b\r\n234 c", "\r\n220 d\r\n"]))
        (readReplyCode (.backend false) 4096 []) [] = (.ret (.ok ([50, 51, 52], left)), [] ++ d) ∧
      left ++ toCome (.backend false)
        (chunksOf ["234-a\r\n23", "4-b\r\n234 c", "\r\n220 d\r\n"]) d =
        utf8 "220 d\r\n".toList := by
  refine (read_reply_code_accepts_iff _ _ _ _ _ _ _ _
    ["234-a\r\n".toList, "234-b\r\n".toList, "234 c\r\n".toList]
    (feeds_feeder _ _) ⟨rfl, by decide +kernel, ?_, by decide +kernel, by decide +kernel⟩
    (by decide) (by decide +kernel)).mpr (by decide +kernel)
  have hmiddle : ∀ m ∈ ["234-b\r\n".toList], ¬ StartsReply [50, 51, 52] ' ' m := by
    decide +kernel
  exact .multi (by decide +kernel) hmiddle (by decide +kernel)

/-- **Free text in between fails the negotiation**: the second line begins with a
blank. -/
theorem free_text_line_refused :
    Feeds (feeder (chunksOf ["234-a\r\n b\r\n234 c\r\n"])) (.backend false) []
        (chunksOf ["234-a\r\n b\r\n234 c\r\n"]) ∧
      WellFormedReply 4096 [50, 51, 52]
        ["234-a\r\n".toList, " b\r\n".toList, "234 c\r\n".toList] ∧
      chunkBytes (chunksOf ["234-a\r\n b\r\n234 c\r\n"]) =
        lineBytes ["234-a\r\n".toList, " b\r\n".toList, "234 c\r\n".toList] ∧
      (run (feeder (chunksOf ["234-a\r\n b\r\n234 c\r\n"]))
        (readReplyCode (.backend false) 4096 []) []).1 = .ret (.error .invalidData) := by
  refine ⟨feeds_feeder _ _, ⟨rfl, by decide +kernel, ?_, by decide +kernel, by decide +kernel⟩,
    by decide +kernel, by decide +kernel⟩
  have hmiddle : ∀ m ∈ [" b\r\n".toList], ¬ StartsReply [50, 51, 52] ' ' m := by
    decide +kernel
  exact .multi (by decide +kernel) hmiddle (by decide +kernel)

end FtpGateway
