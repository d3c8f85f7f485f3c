import FtpGateway.Str

/-!
# Reading an HTTP response

How the receiver of a response takes it apart: the head ends at the first empty
line, its first line has the status, the others are fields, and the body is as
many bytes as `Content-Length` says. `render` writes a response from its parts; a
response that fits on its lines is read back as it was written (`parse_render`).
-/

namespace Http

open Str

structure Response where
  status : Text
  fields : List (Text × Text)
  body : Bytes
deriving Repr, DecidableEq

/-! ## Writing -/

def crlf : Bytes := [cr, lf]

def version : Text := ['H', 'T', 'T', 'P', '/', '1', '.', '1', ' ']

def contentLength : Text :=
  ['C', 'o', 'n', 't', 'e', 'n', 't', '-', 'L', 'e', 'n', 'g', 't', 'h']

def fieldLine (f : Text × Text) : Text := f.1 ++ ':' :: ' ' :: f.2

/-- The lines of the head, without their ends. -/
def headLines (r : Response) : List Text := (version ++ r.status) :: r.fields.map fieldLine

def writeLine (line : Text) : Bytes := utf8 line ++ crlf

def render (r : Response) : Bytes := (headLines r).flatMap writeLine ++ (crlf ++ r.body)

/-! ## Reading -/

/-- The lines before the first empty one, and the bytes after it. -/
def takeHead : List Bytes → Option (List Bytes × Bytes)
  | [] => none
  | l :: ls =>
      if l = crlf then some ([], ls.flatten)
      else (takeHead ls).map fun (head, body) => (l :: head, body)

def readLine (l : Bytes) : Option Text :=
  if l.drop (l.length - 2) = crlf then decodeUtf8 (l.take (l.length - 2)) else none

def readField (line : Text) : Option (Text × Text) :=
  (splitOnce ':' line).map fun (name, value) => (name, value.dropWhile (· = ' '))

def readStatus (line : Text) : Option Text :=
  if version.isPrefixOf line then some (line.drop version.length) else none

/-- The head has been read; the body is there if it has the length it should. -/
def readBody (status : Text) (fields : List (Text × Text)) (body : Bytes) : Option Response :=
  if fields.lookup contentLength = some (Nat.toDigits 10 body.length) then
    some ⟨status, fields, body⟩
  else none

def parse (s : Bytes) : Option Response := do
  let (head, body) ← takeHead (linesOf s)
  match ← head.mapM readLine with
  | [] => none
  | first :: lines => readBody (← readStatus first) (← lines.mapM readField) body

/-! ## Round trip -/

/-- A field that fits on a line. -/
structure FieldOk (f : Text × Text) : Prop where
  name : ':' ∉ f.1 ∧ '\n' ∉ f.1
  value : '\n' ∉ f.2 ∧ f.2.head? ≠ some ' '

structure Fits (r : Response) : Prop where
  status : '\n' ∉ r.status
  fields : ∀ f ∈ r.fields, FieldOk f
  length : r.fields.lookup contentLength = some (Nat.toDigits 10 r.body.length)

theorem splitOnce_append {c : Char} {a : Text} (h : c ∉ a) (b : Text) :
    splitOnce c (a ++ c :: b) = some (a, b) := by
  induction a with
  | nil => rw [List.nil_append, splitOnce, if_pos rfl]
  | cons d a ih =>
      rw [List.mem_cons, not_or] at h
      rw [List.cons_append, splitOnce, if_neg (Ne.symm h.1), ih h.2]
      rfl

theorem readField_fieldLine {f : Text × Text} (h : FieldOk f) :
    readField (fieldLine f) = some f := by
  have hvalue : (' ' :: f.2).dropWhile (· = ' ') = f.2 := by
    rw [List.dropWhile_cons_of_pos (by simp)]
    cases hf : f.2 with
    | nil => rfl
    | cons c rest =>
        have hc : c ≠ ' ' := fun hc => h.value.2 (by rw [hf, hc]; rfl)
        rw [List.dropWhile_cons_of_neg (by simpa using hc)]
  rw [readField, fieldLine, splitOnce_append h.name.1, Option.map_some]
  simp only [hvalue]

theorem readStatus_version (status : Text) : readStatus (version ++ status) = some status := by
  rw [readStatus, if_pos (List.isPrefixOf_iff_prefix.mpr (List.prefix_append _ _)),
    List.drop_left]

theorem readLine_writeLine (line : Text) : readLine (writeLine line) = some line := by
  have hlen : (writeLine line).length - 2 = (utf8 line).length := by
    simp [writeLine, crlf]
  rw [readLine, hlen, writeLine, List.drop_left, if_pos rfl, List.take_left, decodeUtf8_utf8]

/-- A line of the head is not an empty one. -/
theorem writeLine_ne_crlf {line : Text} (h : line ≠ []) : writeLine line ≠ crlf := by
  intro heq
  have hnil : utf8 line = [] := List.append_cancel_right (heq.trans (List.nil_append crlf).symm)
  exact h (utf8_injective hnil)

theorem linesOf_writeLine {line : Text} (h : '\n' ∉ line) (rest : Bytes) :
    linesOf (writeLine line ++ rest) = writeLine line :: linesOf rest := by
  have hno : lf ∉ utf8 line ++ [cr] := by
    rw [List.mem_append, not_or]
    exact ⟨fun hmem => h (lf_mem_utf8.mp hmem), by decide⟩
  have hline : writeLine line = utf8 line ++ [cr] ++ [lf] := by
    rw [writeLine, crlf, List.append_assoc]
    rfl
  rw [hline]
  simpa using linesOf_line hno rest

theorem takeHead_lines {lines : List Text} (h : ∀ line ∈ lines, line ≠ [] ∧ '\n' ∉ line)
    (body : Bytes) : takeHead (linesOf (lines.flatMap writeLine ++ (crlf ++ body))) =
      some (lines.map writeLine, body) := by
  induction lines with
  | nil =>
      have hno : lf ∉ [cr] := by decide
      have hblank : linesOf (crlf ++ body) = crlf :: linesOf body := linesOf_line hno body
      rw [List.flatMap_nil, List.nil_append, hblank, takeHead, if_pos rfl, flatten_linesOf]
      rfl
  | cons line lines ih =>
      obtain ⟨⟨hne, hno⟩, hlines⟩ := List.forall_mem_cons.mp h
      rw [List.flatMap_cons, List.append_assoc, linesOf_writeLine hno, takeHead,
        if_neg (writeLine_ne_crlf hne), ih hlines]
      rfl

theorem mapM_eq_some {α β : Type} {f : α → Option β} {g : β → α} {l : List β}
    (h : ∀ b ∈ l, f (g b) = some b) : (l.map g).mapM f = some l := by
  induction l with
  | nil => rfl
  | cons b l ih =>
      obtain ⟨hb, hl⟩ := List.forall_mem_cons.mp h
      rw [List.map_cons, List.mapM_cons, hb, ih hl]
      rfl

/-- **What is written is what is read.** -/
theorem parse_render {r : Response} (h : Fits r) : parse (render r) = some r := by
  have hlines : ∀ line ∈ headLines r, line ≠ [] ∧ '\n' ∉ line := by
    refine List.forall_mem_cons.mpr ⟨⟨nofun, ?_⟩, fun line hline => ?_⟩
    · rw [List.mem_append, not_or]
      exact ⟨by decide, h.status⟩
    · obtain ⟨f, hf, rfl⟩ := List.mem_map.mp hline
      have hok := h.fields f hf
      refine ⟨by simp [fieldLine], ?_⟩
      simp [fieldLine, hok.name.2, hok.value.1]
  have hread : ((headLines r).map writeLine).mapM readLine = some (headLines r) :=
    mapM_eq_some fun line _ => readLine_writeLine line
  have hfields : (r.fields.map fieldLine).mapM readField = some r.fields :=
    mapM_eq_some fun f hf => readField_fieldLine (h.fields f hf)
  have hbody : readBody r.status r.fields r.body = some r := if_pos h.length
  rw [parse, render, takeHead_lines hlines]
  show (((headLines r).map writeLine).mapM readLine).bind _ = _
  rw [hread]
  show (readStatus (version ++ r.status)).bind (fun status =>
    ((r.fields.map fieldLine).mapM readField).bind fun fields => readBody status fields r.body) = _
  rw [readStatus_version, hfields, Option.bind_some, Option.bind_some, hbody]

end Http
