import FtpGateway.Session.Backend

/-!
# Complete lines of a stream

What a reader makes of the bytes that reach it, stated on the stream alone:
`CompleteLine max stream t rest` says that the stream begins with the line `t`,
terminated, decodable and within the limit, and goes on with `rest`. A read
whose result is a line that ends with its line feed has found exactly that line
(`wp_readLine`), whatever chunks the bytes came in and however the read ended.
-/

namespace FtpGateway

open Str Interact

/-! ## The first line of a stream -/

def CompleteLine (max : Nat) (stream : Bytes) (t : Text) (rest : Bytes) : Prop :=
  Terminated (utf8 t) ∧ (utf8 t).length ≤ max ∧ stream = utf8 t ++ rest

theorem append_terminated_inj {a b x y : Bytes} (ha : Terminated a) (hb : Terminated b)
    (h : a ++ x = b ++ y) : a = b ∧ x = y := by
  obtain ⟨a, hno, rfl⟩ := ha
  obtain ⟨b, hno', rfl⟩ := hb
  induction a generalizing b with
  | nil =>
      cases b with
      | nil => simpa using h
      | cons c b =>
          obtain ⟨rfl, -⟩ := List.cons.inj h
          simp at hno'
  | cons c a ih =>
      cases b with
      | nil =>
          obtain ⟨rfl, -⟩ := List.cons.inj h
          simp at hno
      | cons c' b =>
          obtain ⟨rfl, htail⟩ := List.cons.inj h
          simp only [List.mem_cons, not_or] at hno hno'
          obtain ⟨hab, hxy⟩ := ih hno.2 b hno'.2 htail
          exact ⟨by simpa using hab, hxy⟩

theorem not_completeLine_of_no_lf {max : Nat} {stream : Bytes} (h : lf ∉ stream) (t : Text)
    (rest : Bytes) : ¬ CompleteLine max stream t rest := by
  rintro ⟨⟨body, -, hbody⟩, -, hstream⟩
  refine h ?_
  rw [hstream, hbody]
  simp

/-- The limit is reached before a line feed. -/
theorem not_completeLine_of_full {acc rest' : Bytes} (h : lf ∉ acc) (t : Text) (rest : Bytes) :
    ¬ CompleteLine acc.length (acc ++ rest') t rest := by
  rintro ⟨⟨body, -, hbody⟩, hlen, hstream⟩
  have hpre : utf8 t <+: acc := by
    have hline : utf8 t <+: acc ++ rest' := hstream ▸ List.prefix_append ..
    exact List.prefix_of_prefix_length_le hline (List.prefix_append ..) hlen
  refine h (hpre.subset ?_)
  rw [hbody]
  simp

theorem endsWithNewline_iff {t : Text} : endsWithNewline t = true ↔ (utf8 t).getLast? = some lf := by
  rw [endsWithNewline, decide_eq_true_iff]
  rcases t.eq_nil_or_concat with rfl | ⟨s, c, rfl⟩
  · simp
  · rw [List.concat_eq_append, List.getLast?_concat, utf8_append]
    constructor
    · intro hc
      obtain rfl := Option.some.inj hc
      exact List.getLast?_concat
    · intro hlast
      have hne : utf8 [c] ≠ [] := by
        simp [utf8, String.utf8EncodeChar_ne_nil]
      rw [List.getLast?_append_of_ne_nil _ hne] at hlast
      have hmem : lf ∈ String.utf8EncodeChar c := by
        simpa [utf8] using List.mem_of_getLast? hlast
      have hval := mem_utf8EncodeChar_ascii (by decide) hmem
      rw [show c = '\n' from Char.ext (UInt32.toNat_inj.mp hval)]

theorem endsWithNewline_of_terminated {t : Text} (h : Terminated (utf8 t)) :
    endsWithNewline t = true := by
  obtain ⟨body, -, hbody⟩ := h
  rw [endsWithNewline_iff, hbody]
  exact List.getLast?_concat

/-! ## What a read finds -/

/-- The result of a read and what it leaves in the buffer, against the bytes it
could see: a line with its line feed is the stream's first line, and if the
stream has one within the limit the read has found it. -/
def Finds (max : Nat) (stream : Bytes) (x : LineRead × Bytes) : Prop :=
  ∀ t rest, (x.1 = .text t ∧ endsWithNewline t = true ∧ x.2 = rest) ↔
    CompleteLine max stream t rest

theorem finds_none {max : Nat} {stream : Bytes} {x : LineRead × Bytes}
    (hx : ∀ t, x.1 = .text t → endsWithNewline t = false)
    (hstream : ∀ t rest, ¬ CompleteLine max stream t rest) : Finds max stream x := by
  intro t rest
  refine ⟨?_, fun h => absurd h (hstream t rest)⟩
  rintro ⟨ht, hnl, -⟩
  rw [hx t ht] at hnl
  cases hnl

theorem decodeLine_no_lf {acc : Bytes} (h : lf ∉ acc) (t : Text)
    (ht : decodeLine acc = .text t) : endsWithNewline t = false :=
  endsWithNewline_of_no_lf (decodeLine_text ht ▸ h)

theorem decodeLine_utf8 (t : Text) : decodeLine (utf8 t) = .text t := by
  rw [decodeLine, decodeUtf8_utf8]

theorem finds_line {max : Nat} {acc rest : Bytes} (hacc : lf ∉ acc) (hlen : acc.length < max) :
    Finds max (acc ++ lf :: rest) (decodeLine (acc ++ [lf]), rest) := by
  have hterm : Terminated (acc ++ [lf]) := ⟨acc, hacc, rfl⟩
  intro t rest'
  constructor
  · rintro ⟨ht, -, rfl⟩
    have hutf := decodeLine_text ht
    refine ⟨hutf ▸ hterm, ?_, ?_⟩
    · rw [← hutf, List.length_append, List.length_singleton]; omega
    · rw [← hutf]; simp
  · rintro ⟨hline, -, hstream⟩
    have happ : (acc ++ [lf]) ++ rest = utf8 t ++ rest' := by simpa using hstream
    obtain ⟨hutf, hrest⟩ := append_terminated_inj hterm hline happ
    exact ⟨by rw [hutf, decodeLine_utf8], endsWithNewline_of_terminated hline, hrest⟩

/-- The events of a read are on its own connection. -/
def Event.OnConn (c : Conn) (e : Event) : Prop := e.req = .read c ∨ ∃ r, e.req = .line c r

variable {env : Env Io} {E : Leave → History Io → Prop} {c : Conn}

theorem wp_takeReadLine_finds (n : Nat) {acc buf : Bytes} {h : History Io} (hacc : lf ∉ acc) :
    wp env (fun _ _ => True)
      (fun x h' => ∃ d, h' = h ++ d ∧ (∀ e ∈ d, Event.OnConn c e) ∧
        Finds (acc.length + n) (acc ++ buf ++ received (· = c) d) x)
      E (takeReadLine c n acc buf) h := by
  induction n generalizing acc buf h with
  | zero =>
      refine ⟨[], by simp, by simp, ?_⟩
      simpa using finds_none (decodeLine_no_lf hacc) (not_completeLine_of_full hacc)
  | succ n ih =>
      have hnext : ∀ b rest pre, (∀ e ∈ pre, Event.OnConn c e) →
          acc ++ buf ++ received (· = c) pre = acc ++ b :: rest →
          wp env (fun _ _ => True)
            (fun x h' => ∃ d, h' = h ++ d ∧ (∀ e ∈ d, Event.OnConn c e) ∧
              Finds (acc.length + (n + 1)) (acc ++ buf ++ received (· = c) d) x)
            E (if b = lf then pure (decodeLine (acc ++ [b]), rest)
              else takeReadLine c n (acc ++ [b]) rest) (h ++ pre) := by
        intro b rest pre hpre hstream
        split
        case isTrue hb =>
          refine ⟨pre, rfl, hpre, ?_⟩
          rw [hstream, hb]
          exact finds_line hacc (by omega)
        case isFalse hb =>
          have hacc' : lf ∉ acc ++ [b] := by simp [hacc, Ne.symm hb]
          refine wp_post (ih hacc') ?_ fun _ _ => id
          rintro x h' ⟨d, rfl, hd, hfinds⟩
          refine ⟨pre ++ d, by simp, ?_, ?_⟩
          · intro e he
            rcases List.mem_append.mp he with he | he
            · exact hpre e he
            · exact hd e he
          · rw [received_append, ← List.append_assoc, hstream]
            have hlen : (acc ++ [b]).length + n = acc.length + (n + 1) := by simp; omega
            rw [hlen] at hfinds
            simpa using hfinds
      cases buf with
      | cons b buf =>
          have := hnext b buf [] (by simp) (by simp)
          rwa [List.append_nil] at this
      | nil =>
          intro a ha
          refine ⟨trivial, ?_⟩
          have hone : ∀ e ∈ ([⟨.read c, a⟩] : History Io), Event.OnConn c e := by
            intro e he
            rw [List.mem_singleton.mp he]
            exact .inl rfl
          cases a with
          | data b rest => exact hnext b rest _ hone (by simp)
          | eof =>
              refine ⟨_, rfl, hone, ?_⟩
              refine finds_none (decodeLine_no_lf hacc) (not_completeLine_of_no_lf ?_)
              simpa using hacc
          | err k =>
              refine ⟨_, rfl, hone, finds_none (fun t ht => nomatch ht)
                (not_completeLine_of_no_lf ?_)⟩
              simpa using hacc
          | elapsed =>
              refine ⟨_, rfl, hone, finds_none (fun t ht => nomatch ht)
                (not_completeLine_of_no_lf ?_)⟩
              simpa using hacc

theorem wp_readLine (max : Nat) (buf : Bytes) (h : History Io) :
    wp env (fun _ _ => True)
      (fun x h' => ∃ d, h' = h ++ d ∧ (∀ e ∈ d, Event.OnConn c e) ∧
        Finds max (buf ++ received (· = c) d) x)
      E (readLine c max buf) h := by
  refine (wp_bind _).mpr (wp_post
    (@wp_takeReadLine_finds env E c max [] buf h List.not_mem_nil) ?_ fun _ _ => id)
  rintro ⟨r, buf'⟩ h' ⟨d, rfl, hd, hfinds⟩
  intro a ha
  refine ⟨trivial, d ++ [⟨.line c r, a⟩], by simp, ?_, ?_⟩
  · intro e he
    rcases List.mem_append.mp he with he | he
    · exact hd e he
    · rw [List.mem_singleton.mp he]
      exact .inr ⟨r, rfl⟩
  · simpa using hfinds

end FtpGateway
