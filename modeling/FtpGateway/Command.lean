import Mathlib.Data.List.Forall2
import FtpGateway.Str

/-!
# Client commands

`protocol/command.rs`: the commands an upload-only client may send, how a
control line is parsed into one of them, and how a command is written to the
log. `FtpCommand.parse` is total: a verb outside the list becomes `unknown`,
which the session refuses (`parse_forwarded` is the converse: a command that
is not refused and not handled by the gateway itself has one of ten verbs).

A log line is client text between fixed words. Escaping replaces each control
character by a backslash sequence of printable characters and touches nothing
else (`escapeControlChars_eq`, `isControl_of_mem_escapeChar`), so no client can
write a second log line.
-/

namespace FtpGateway

open Str

/-- `char::is_control`: the Unicode category `Cc`. -/
def isControl (c : Char) : Bool :=
  c.toNat < 0x20 || (0x7F ≤ c.toNat && c.toNat ≤ 0x9F)

/-- `char::escape_default`. -/
def escapeDefault (c : Char) : Text :=
  if c = '\t' then ['\\', 't']
  else if c = '\r' then ['\\', 'r']
  else if c = '\n' then ['\\', 'n']
  else if c = '\'' || c = '"' || c = '\\' then ['\\', c]
  else if 0x20 ≤ c.toNat && c.toNat ≤ 0x7E then [c]
  else ['\\', 'u', '\x7b'] ++ Nat.toDigits 16 c.toNat ++ ['\x7d']

def escapeControlChars (input : Text) : Text :=
  if !input.any isControl then input
  else input.flatMap fun c => if isControl c then escapeDefault c else [c]

/-- What ends a line: `['\r', '\n']` as a pattern. -/
def isLineBreak (c : Char) : Bool := c = '\r' || c = '\n'

/-- A line with its terminator taken off. -/
def stripped (line : Text) : Text := trimEndMatches isLineBreak line

/-- Whether a command line stripped of its terminator still holds a CR or LF. -/
def hasEmbeddedLineBreak (body : Text) : Bool :=
  body.contains '\r' || body.contains '\n'

inductive FtpCommand where
  | user (arg : Text)
  | pass (arg : Text)
  | syst
  | type (arg : Text)
  | pwd
  | cwd (arg : Text)
  | pasv
  | epsv
  | stor (arg : Text)
  | mkd (arg : Text)
  | quit
  | noop
  | unknown (verb : Text)
deriving Repr, DecidableEq

namespace FtpCommand

/-- The verb and the trimmed rest of a line: the split `parse` starts with. -/
def verbAndRest (line : Text) : Text × Text :=
  match splitOnce ' ' (trim line) with
  | some (verb, rest) => (verb, trim rest)
  | none => (trim line, [])

/-- The upper-case verb of a line. -/
def verbOf (line : Text) : Text := toAsciiUppercase (verbAndRest line).1

def parse (line : Text) : FtpCommand :=
  let verb := verbOf line
  let rest := (verbAndRest line).2
  if verb = "USER".toList then .user rest
  else if verb = "PASS".toList then .pass rest
  else if verb = "SYST".toList then .syst
  else if verb = "TYPE".toList then .type rest
  else if verb = "PWD".toList then .pwd
  else if verb = "CWD".toList then .cwd rest
  else if verb = "PASV".toList then .pasv
  -- the optional network-protocol argument of EPSV is ignored
  else if verb = "EPSV".toList then .epsv
  else if verb = "STOR".toList then .stor rest
  else if verb = "MKD".toList then .mkd rest
  else if verb = "QUIT".toList then .quit
  else if verb = "NOOP".toList then .noop
  else .unknown verb

/-- The log form of a command. The argument of `PASS` is never part of it. -/
def asLogStr : FtpCommand → Text
  | .user arg => "USER ".toList ++ escapeControlChars arg
  | .pass _ => "PASS <redacted>".toList
  | .syst => "SYST".toList
  | .type arg => "TYPE ".toList ++ escapeControlChars arg
  | .pwd => "PWD".toList
  | .cwd arg => "CWD ".toList ++ escapeControlChars arg
  | .pasv => "PASV".toList
  | .epsv => "EPSV".toList
  | .stor arg => "STOR ".toList ++ escapeControlChars arg
  | .mkd arg => "MKD ".toList ++ escapeControlChars arg
  | .quit => "QUIT".toList
  | .noop => "NOOP".toList
  | .unknown verb => "UNKNOWN ".toList ++ escapeControlChars verb

def isUnknown : FtpCommand → Bool
  | .unknown _ => true
  | _ => false

/-- `PASV` and `EPSV`, which the gateway answers itself. -/
def isPassive : FtpCommand → Bool
  | .pasv => true
  | .epsv => true
  | _ => false

/-- The verbs the gateway passes on to a backend. -/
def forwardedVerbs : List Text :=
  ["USER", "PASS", "SYST", "TYPE", "PWD", "CWD", "STOR", "MKD", "QUIT", "NOOP"].map
    String.toList

/-- What reaches a backend has one of the ten forwarded verbs. -/
theorem parse_forwarded {line : Text} (hunk : (parse line).isUnknown = false)
    (hpas : (parse line).isPassive = false) : verbOf line ∈ forwardedVerbs := by
  by_contra hnot
  simp only [forwardedVerbs, List.map_cons, List.map_nil, List.mem_cons,
    List.not_mem_nil, or_false, not_or] at hnot
  obtain ⟨h1, h2, h3, h4, h5, h6, h7, h8, h9, h10⟩ := hnot
  simp only [parse, h1, h2, h3, h4, h5, h6, h7, h8, h9, h10, if_false] at hunk hpas
  split at hpas
  · simp [isPassive] at hpas
  · rename_i hp
    rw [if_neg hp] at hunk
    split at hpas
    · simp [isPassive] at hpas
    · rename_i he
      rw [if_neg he] at hunk
      simp [isUnknown] at hunk

/-! ## What a client can put into the log -/

/-- The rebuilding loop: what `escape_control_chars` pushes, character by character. -/
def rebuildEscaped (input : Text) : Text :=
  input.foldl (fun escaped c =>
    if isControl c then escaped ++ escapeDefault c else escaped ++ [c]) []

/-- What the loop pushes for one character. -/
def escapeChar (c : Char) : Text := if isControl c then escapeDefault c else [c]

theorem escapeChar_of_not_control {c : Char} (h : isControl c = false) : escapeChar c = [c] := by
  rw [escapeChar, h]
  rfl

theorem rebuildEscaped_eq (input : Text) : rebuildEscaped input = input.flatMap escapeChar := by
  have hloop : ∀ escaped : Text, input.foldl (fun escaped c =>
      if isControl c then escaped ++ escapeDefault c else escaped ++ [c]) escaped =
        escaped ++ input.flatMap escapeChar := by
    induction input with
    | nil => simp
    | cons c input ih =>
        intro escaped
        rw [List.foldl_cons, ih, List.flatMap_cons, ← List.append_assoc]
        congr 1
        rw [escapeChar]
        split <;> rfl
  exact hloop []

theorem flatMap_escapeChar_of_clean {input : Text} (h : ∀ c ∈ input, isControl c = false) :
    input.flatMap escapeChar = input := by
  induction input with
  | nil => rfl
  | cons c input ih =>
      rw [List.forall_mem_cons] at h
      rw [List.flatMap_cons, escapeChar_of_not_control h.1, ih h.2]
      rfl

theorem escapeControlChars_eq (input : Text) :
    escapeControlChars input = input.flatMap escapeChar := by
  rw [escapeControlChars]
  split
  case isTrue hclean =>
    rw [Bool.not_eq_true', List.any_eq_false] at hclean
    exact (flatMap_escapeChar_of_clean fun c hc => by simpa using hclean c hc).symm
  case isFalse => rfl

theorem isControl_digitChar : ∀ d < 16, isControl d.digitChar = false := by decide

theorem isControl_of_mem_toDigits {n : Nat} {c : Char} (h : c ∈ Nat.toDigits 16 n) :
    isControl c = false := by
  induction n using Nat.strongRecOn with
  | ind n ih =>
      rcases Nat.lt_or_ge n 16 with hlt | hge
      · rw [Nat.toDigits_of_lt_base hlt, List.mem_singleton] at h
        rw [h]
        exact isControl_digitChar n hlt
      · rw [Nat.toDigits_of_base_le (by decide) hge, List.mem_append, List.mem_singleton] at h
        rcases h with h | rfl
        · exact ih (n / 16) (Nat.div_lt_self (by omega) (by decide)) h
        · exact isControl_digitChar _ (Nat.mod_lt n (by decide))

/-- A control character is written as a backslash and printable characters. -/
theorem escapeDefault_of_control {c : Char} (h : isControl c = true) :
    ∃ rest, escapeDefault c = '\\' :: rest ∧ ∀ d ∈ rest, isControl d = false := by
  have hprintable : ¬ (0x20 ≤ c.toNat && c.toNat ≤ 0x7E) = true := by
    simp only [isControl, Bool.or_eq_true, Bool.and_eq_true, decide_eq_true_eq] at h ⊢
    omega
  have hquoted : ¬ (c = '\'' || c = '"' || c = '\\') = true := by
    intro hc
    simp only [Bool.or_eq_true, decide_eq_true_eq] at hc
    rcases hc with (rfl | rfl) | rfl <;> cases h
  rw [escapeDefault, if_neg hquoted, if_neg hprintable]
  split
  · exact ⟨['t'], rfl, List.forall_mem_singleton.mpr rfl⟩
  · split
    · exact ⟨['r'], rfl, List.forall_mem_singleton.mpr rfl⟩
    · split
      · exact ⟨['n'], rfl, List.forall_mem_singleton.mpr rfl⟩
      · refine ⟨['u', '\x7b'] ++ Nat.toDigits 16 c.toNat ++ ['\x7d'], rfl, fun d hd => ?_⟩
        simp only [List.cons_append, List.nil_append, List.mem_append, List.mem_cons,
          List.not_mem_nil, or_false] at hd
        rcases hd with rfl | rfl | hd | rfl
        · rfl
        · rfl
        · exact isControl_of_mem_toDigits hd
        · rfl

theorem isControl_of_mem_escapeChar {c d : Char} (h : d ∈ escapeChar c) :
    isControl d = false := by
  rw [escapeChar] at h
  split at h
  case isTrue hc =>
    obtain ⟨rest, heq, hrest⟩ := escapeDefault_of_control hc
    rw [heq] at h
    rcases List.mem_cons.mp h with rfl | h
    · rfl
    · exact hrest d h
  case isFalse hc =>
    obtain rfl := List.mem_singleton.mp h
    simpa using hc

theorem isControl_of_mem_escapeControlChars {input : Text} {d : Char}
    (h : d ∈ escapeControlChars input) : isControl d = false := by
  rw [escapeControlChars_eq, List.mem_flatMap] at h
  obtain ⟨c, -, hd⟩ := h
  exact isControl_of_mem_escapeChar hd

/-- Nothing is changed exactly if there is nothing to escape. -/
theorem escapeControlChars_eq_self_iff {input : Text} :
    escapeControlChars input = input ↔ ∀ c ∈ input, isControl c = false := by
  constructor
  · intro h c hc
    rw [← h] at hc
    exact isControl_of_mem_escapeControlChars hc
  · intro h
    rw [escapeControlChars_eq, flatMap_escapeChar_of_clean h]

theorem isControl_of_mem_asLogStr {command : FtpCommand} {c : Char}
    (h : c ∈ command.asLogStr) : isControl c = false := by
  have hwords : ∀ {word arg : Text}, word.all (fun d => !isControl d) = true →
      c ∈ word ++ escapeControlChars arg → isControl c = false := by
    intro word arg hword hc
    rcases List.mem_append.mp hc with hc | hc
    · simpa using List.all_eq_true.mp hword c hc
    · exact isControl_of_mem_escapeControlChars hc
  have hfixed : ∀ {word : Text}, word.all (fun d => !isControl d) = true →
      c ∈ word → isControl c = false := by
    intro word hword hc
    simpa using List.all_eq_true.mp hword c hc
  cases command with
  | user arg => exact hwords rfl h
  | pass arg => exact hfixed rfl h
  | syst => exact hfixed rfl h
  | type arg => exact hwords rfl h
  | pwd => exact hfixed rfl h
  | cwd arg => exact hwords rfl h
  | pasv => exact hfixed rfl h
  | epsv => exact hfixed rfl h
  | stor arg => exact hwords rfl h
  | mkd arg => exact hwords rfl h
  | quit => exact hfixed rfl h
  | noop => exact hfixed rfl h
  | unknown verb => exact hwords rfl h

/-- Client text cannot forge log lines: what is logged has no control character,
the other characters stay where they are, and the two paths of the escaping
agree. -/
theorem client_text_stays_on_one_log_line :
    (∀ input : Text,
      (∀ c ∈ escapeControlChars input, isControl c = false) ∧
      (∃ pieces : List Text, pieces.flatten = escapeControlChars input ∧
        List.Forall₂ (fun c piece =>
          if isControl c then piece = escapeDefault c else piece = [c]) input pieces) ∧
      rebuildEscaped input = escapeControlChars input ∧
      ((∀ c ∈ input, isControl c = false) → rebuildEscaped input = input) ∧
      (escapeControlChars input = input ↔ ∀ c ∈ input, isControl c = false) ∧
      escapeControlChars (escapeControlChars input) = escapeControlChars input) ∧
    ∀ line : Text, ∀ c ∈ (parse line).asLogStr, isControl c = false := by
  refine ⟨fun input => ⟨fun c => isControl_of_mem_escapeControlChars, ?_, ?_, ?_,
    escapeControlChars_eq_self_iff, ?_⟩, fun line c => isControl_of_mem_asLogStr⟩
  · refine ⟨input.map escapeChar, ?_, ?_⟩
    · rw [escapeControlChars_eq, List.flatMap_def]
    · rw [List.forall₂_map_right_iff, List.forall₂_same]
      intro c _
      rw [escapeChar]
      split <;> rfl
  · rw [rebuildEscaped_eq, escapeControlChars_eq]
  · intro hclean
    rw [rebuildEscaped_eq, flatMap_escapeChar_of_clean hclean]
  · rw [escapeControlChars_eq_self_iff]
    exact fun c => isControl_of_mem_escapeControlChars

end FtpCommand

end FtpGateway
