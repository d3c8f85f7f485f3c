import FtpGateway.Session.Io

/-!
# Reading lines

The line readers of `server/session.rs` over a buffered connection. The buffer
of a `BufReader` is passed along explicitly: a reader takes bytes out of it and
asks the connection for more when it is empty, so bytes that arrive together
with a line stay behind for the next read, as in the source.

`wp_takeReadLine` is the accounting every later proof about lines starts from:
what a reader hands out and what it leaves in the buffer are together exactly
what arrived.
-/

namespace FtpGateway

open Str Interact

/-! ## The readers -/

def read (c : Conn) : Sess ReadAns := Prog.request (S := Io) (.read c)

def handOver (c : Conn) (r : LineRead) : Sess Unit := Prog.request (S := Io) (.line c r)

/-- `read_line` decodes what it has read once it has read all of it. -/
def decodeLine (b : Bytes) : LineRead :=
  match decodeUtf8 b with
  | some t => .text t
  | none => .err .invalidData

/-- `take(limit).read_line`, having read `acc` already. -/
def takeReadLine (c : Conn) : Nat → Bytes → Bytes → Sess (LineRead × Bytes)
  | 0, acc, buf => pure (decodeLine acc, buf)
  | n + 1, acc, b :: buf =>
      if b = lf then pure (decodeLine (acc ++ [b]), buf)
      else takeReadLine c n (acc ++ [b]) buf
  | n + 1, acc, [] => do
      match ← read c with
      | .data b rest =>
          if b = lf then pure (decodeLine (acc ++ [b]), rest)
          else takeReadLine c n (acc ++ [b]) rest
      | .eof => pure (decodeLine acc, [])
      | .err k => pure (.err k, [])
      | .elapsed => pure (.elapsed, [])

/-- A line of at most `maxBytes`, as `command_reply` and `read_reply_code`
read it. -/
def readLine (c : Conn) (maxBytes : Nat) (buf : Bytes) : Sess (LineRead × Bytes) := do
  let (r, buf) ← takeReadLine c maxBytes [] buf
  handOver c r
  pure (r, buf)

def endsWithNewline (t : Text) : Bool := t.getLast? = some '\n'

/-- Hitting the cap before a `\n` is an error. -/
def checkBound (maxBytes : Nat) : LineRead → LineRead
  | .text t =>
      if (utf8 t).length = maxBytes && !endsWithNewline t then .err .invalidData else .text t
  | r => r

def readLineBounded (c : Conn) (maxBytes : Nat) (buf : Bytes) : Sess (LineRead × Bytes) := do
  let (r, buf) ← takeReadLine c maxBytes [] buf
  let r := checkBound maxBytes r
  handOver c r
  pure (r, buf)

/-- The timer of a backend read turns into an error of its own. -/
def readLineWithTimeout (c : Conn) (maxBytes : Nat) (buf : Bytes) :
    Sess (Except IoKind Text × Bytes) := do
  match ← readLineBounded c maxBytes buf with
  | (.text t, buf) => pure (.ok t, buf)
  | (.err k, buf) => pure (.error k, buf)
  | (.elapsed, buf) => pure (.error .timedOut, buf)

/-! ## What is read and what is left -/

theorem decodeLine_text {b : Bytes} {t : Text} (h : decodeLine b = .text t) : b = utf8 t := by
  unfold decodeLine at h
  split at h
  · rename_i t' ht
    obtain rfl := LineRead.text.inj h
    exact decodeUtf8_eq_some.mp ht
  · cases h

theorem checkBound_text {maxBytes : Nat} {r : LineRead} {t : Text}
    (h : checkBound maxBytes r = .text t) :
    r = .text t ∧ ¬((utf8 t).length = maxBytes ∧ endsWithNewline t = false) := by
  cases r with
  | text t' =>
      simp only [checkBound] at h
      split at h
      · cases h
      · rename_i hb
        obtain rfl := LineRead.text.inj h
        exact ⟨rfl, by simpa using hb⟩
  | err k => cases h
  | elapsed => cases h

/-- How a line that was handed out ends: with its line feed, or, having none,
because the limit was reached or the stream had ended. -/
def LineEnd (c : Conn) (maxBytes : Nat) (line buf : Bytes) (h : History Io) : Prop :=
  Terminated line
    ∨ (lf ∉ line ∧ (line.length = maxBytes ∨ (⟨.read c, .eof⟩ ∈ h ∧ buf = [])))

/-- The account of a read: `base` was used before, then the line, then what is
still buffered. -/
def Account (c : Conn) (base : Bytes) (maxBytes : Nat) (r : LineRead) (buf : Bytes)
    (h : History Io) : Prop :=
  ∀ t, r = .text t → received (· = c) h = base ++ utf8 t ++ buf
    ∧ LineEnd c maxBytes (utf8 t) buf h

theorem account_of_bytes {c : Conn} {base line buf : Bytes} {maxBytes : Nat} {h : History Io}
    (hrec : received (· = c) h = base ++ line ++ buf) (hend : LineEnd c maxBytes line buf h) :
    Account c base maxBytes (decodeLine line) buf h := by
  intro t ht
  rw [← decodeLine_text ht]
  exact ⟨hrec, hend⟩

theorem wp_takeReadLine {env : Env Io} {Φ : History Io → Event → Prop}
    {E : Leave → History Io → Prop} {I : History Io → Prop} {c : Conn} {base : Bytes}
    {maxBytes : Nat}
    (hread : ∀ h a, I h → env h (.read c) = some a →
      Φ h ⟨.read c, a⟩ ∧ I (h ++ [⟨.read c, a⟩]))
    (n : Nat) {acc buf : Bytes} {h : History Io} (hI : I h)
    (hrec : received (· = c) h = base ++ acc ++ buf) (hacc : lf ∉ acc)
    (hlen : acc.length + n = maxBytes) :
    wp env Φ (fun x h' => Account c base maxBytes x.1 x.2 h' ∧ I h') E
      (takeReadLine c n acc buf) h := by
  induction n generalizing acc buf h with
  | zero =>
      exact ⟨account_of_bytes hrec (Or.inr ⟨hacc, Or.inl (by simpa using hlen)⟩), hI⟩
  | succ n ih =>
      have hnext : ∀ b rest h', I h' → received (· = c) h' = base ++ acc ++ b :: rest →
          wp env Φ (fun x h' => Account c base maxBytes x.1 x.2 h' ∧ I h') E
            (if b = lf then pure (decodeLine (acc ++ [b]), rest)
              else takeReadLine c n (acc ++ [b]) rest) h' := by
        intro b rest h' hI' hrec'
        split
        · rename_i hb
          refine ⟨account_of_bytes (by simpa using hrec') (Or.inl ⟨acc, hacc, by rw [hb]⟩), hI'⟩
        · rename_i hb
          refine ih hI' (by simpa using hrec') ?_ (by simp; omega)
          simp [hacc, Ne.symm hb]
      cases buf with
      | cons b buf => exact hnext b buf h hI hrec
      | nil =>
          intro a ha
          obtain ⟨hphi, hI'⟩ := hread h a hI ha
          refine ⟨hphi, ?_⟩
          cases a with
          | data b rest =>
              exact hnext b rest _ hI' (by simp [hrec])
          | eof =>
              refine ⟨account_of_bytes (by simpa using hrec)
                (Or.inr ⟨hacc, Or.inr ⟨by simp, rfl⟩⟩), hI'⟩
          | err k => exact ⟨fun t ht => absurd ht (by simp), hI'⟩
          | elapsed => exact ⟨fun t ht => absurd ht (by simp), hI'⟩

theorem endsWithNewline_of_no_lf {t : Text} (h : lf ∉ utf8 t) : endsWithNewline t = false := by
  rw [endsWithNewline, decide_eq_false_iff_not]
  intro hlast
  exact h (lf_mem_utf8.mpr (List.mem_of_getLast? hlast))

/-- The account of a bounded read: a line without its line feed is the last one
of a stream that has ended. -/
def BoundedAccount (c : Conn) (base : Bytes) (r : LineRead) (buf : Bytes)
    (h : History Io) : Prop :=
  ∀ t, r = .text t → received (· = c) h = base ++ utf8 t ++ buf
    ∧ (Terminated (utf8 t) ∨ (lf ∉ utf8 t ∧ ⟨.read c, .eof⟩ ∈ h ∧ buf = []))

theorem Account.checkBound {c : Conn} {base : Bytes} {maxBytes : Nat} {r : LineRead}
    {buf : Bytes} {h : History Io} (hacc : Account c base maxBytes r buf h) :
    BoundedAccount c base (checkBound maxBytes r) buf h := by
  intro t ht
  obtain ⟨rfl, hbound⟩ := checkBound_text ht
  obtain ⟨hrec, hend⟩ := hacc t rfl
  refine ⟨hrec, ?_⟩
  rcases hend with hterm | ⟨hno, hfull | heof⟩
  · exact Or.inl hterm
  · exact absurd ⟨hfull, endsWithNewline_of_no_lf hno⟩ hbound
  · exact Or.inr ⟨hno, heof⟩

theorem BoundedAccount.handOver {c : Conn} {base : Bytes} {r r' : LineRead} {buf : Bytes}
    {h : History Io} {a : Unit} (hacc : BoundedAccount c base r buf h) :
    BoundedAccount c base r buf (h ++ [⟨.line c r', a⟩]) := by
  intro t ht
  obtain ⟨hrec, hend⟩ := hacc t ht
  refine ⟨by simpa using hrec, ?_⟩
  rcases hend with hterm | ⟨hno, heof, hbuf⟩
  · exact Or.inl hterm
  · exact Or.inr ⟨hno, List.mem_append_left _ heof, hbuf⟩

theorem wp_readLineBounded {env : Env Io} {Φ : History Io → Event → Prop}
    {I : History Io → Prop} {c : Conn} {base buf : Bytes} {maxBytes : Nat} {h : History Io}
    (hread : ∀ h a, I h → env h (.read c) = some a →
      Φ h ⟨.read c, a⟩ ∧ I (h ++ [⟨.read c, a⟩]))
    (hline : ∀ h r buf a, I h → BoundedAccount c base r buf h → env h (.line c r) = some a →
      Φ h ⟨.line c r, a⟩ ∧ I (h ++ [⟨.line c r, a⟩]))
    (hI : I h) (hrec : received (· = c) h = base ++ buf) :
    wp env Φ (fun x h' => BoundedAccount c base x.1 x.2 h' ∧ I h') (fun _ => I)
      (readLineBounded c maxBytes buf) h := by
  have htake : wp env Φ (fun x h' => Account c base maxBytes x.1 x.2 h' ∧ I h')
      (fun _ => I) (takeReadLine c maxBytes [] buf) h :=
    wp_takeReadLine hread _ hI (by simpa using hrec) (by simp) (by simp)
  refine (wp_bind _).mpr (wp_post htake ?_ fun _ _ => id)
  intro x h' hx a ha
  obtain ⟨hacc, hI'⟩ := hx
  obtain ⟨hphi, hI''⟩ := hline h' _ _ a hI' hacc.checkBound ha
  exact ⟨hphi, hacc.checkBound.handOver, hI''⟩

/-! ## A read comes to an end -/

theorem delivers_takeReadLine (c : Conn) (n : Nat) (acc buf : Bytes) :
    (takeReadLine c n acc buf).Delivers := by
  induction n generalizing acc buf with
  | zero => trivial
  | succ n ih =>
      have hnext : ∀ b rest, (if b = lf then pure (decodeLine (acc ++ [b]), rest)
          else takeReadLine c n (acc ++ [b]) rest : Sess (LineRead × Bytes)).Delivers := by
        intro b rest
        split
        · trivial
        · exact ih _ _
      cases buf with
      | cons b buf => exact hnext b buf
      | nil =>
          intro a
          cases a with
          | data b rest => exact hnext b rest
          | eof => trivial
          | err k => trivial
          | elapsed => trivial

theorem delivers_readLine (c : Conn) (maxBytes : Nat) (buf : Bytes) :
    (readLine c maxBytes buf).Delivers :=
  delivers_bind (delivers_takeReadLine _ _ _ _) fun _ => delivers_bind (delivers_request _)
    fun _ => trivial

end FtpGateway
