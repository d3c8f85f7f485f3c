import FtpGateway.PassiveGrammar
import FtpGateway.Session.DataConnect

/-!
# The reply code of a passive reply

A data connection belongs to a `229` or a `227`. The parsers do not look at the
code, so a refusal whose text happens to hold a group they can read is taken for
an announcement. `passive_code_respected_iff` says for which replies the code is
respected all the same: those that have it, and those without such a group.
-/

namespace FtpGateway

open Str Interact

def passiveCode : BackendPassiveMode → Text
  | .epsv => ['2', '2', '9']
  | .pasv => ['2', '2', '7']

/-- The line has the code of a positive reply to the command. -/
def HasCode (answered : BackendPassiveMode) (line : Text) : Prop := passiveCode answered <+: line

instance (answered : BackendPassiveMode) (line : Text) : Decidable (HasCode answered line) :=
  inferInstanceAs (Decidable (_ <+: _))

/-- The line holds a group the parser for the command can read. -/
def HasGroup (answered : BackendPassiveMode) (line : Text) : Prop :=
  match answered with
  | .epsv => EpsvGroup line
  | .pasv => PasvGroup line

/-- A connection is made exactly if there is such a group and, after `EPSV`, the
backend's address is known. -/
theorem dataAddr_eq_none {answered : BackendPassiveMode} {line : Text}
    {control : Option IpAddr} {fallback : Bool} :
    dataAddr answered line control fallback = none ↔
      ¬ HasGroup answered line ∨ (answered = .epsv ∧ control = none) := by
  cases answered with
  | epsv =>
      have hgroup : HasGroup .epsv line ↔ (parseEpsvReply line).isSome = true :=
        (parseEpsvReply_isSome line).symm
      rw [hgroup]
      cases hparse : parseEpsvReply line with
      | none => simp [dataAddr, hparse]
      | some port =>
          cases control with
          | none => simp [dataAddr, hparse]
          | some peer => simp [dataAddr, hparse]
  | pasv =>
      have hgroup : HasGroup .pasv line ↔ (parsePasvReply line).isSome = true :=
        (parsePasvReply_isSome line).symm
      rw [hgroup]
      cases hparse : parsePasvReply line with
      | none => simp [dataAddr, hparse]
      | some x => simp [dataAddr, hparse]

/-- No connection without the code, and every other reply is unusable. -/
def RespectsCode (answered : BackendPassiveMode) (line : Text) (made : History Io)
    (result : Except DataConnectError Unit) : Prop :=
  (∀ addr src a, ⟨.connectData addr src, a⟩ ∈ made → HasCode answered line) ∧
  (¬ HasCode answered line → result = .error .unusableReply ∧
    ∀ addr src a, ⟨.connectData addr src, a⟩ ∉ made)

/-- **Exactly which replies are judged by their code.** For each parser, and for
every run that has a whole line answering its last command: the code is
respected if the line has it, if it holds no group the parser can read, or if
there is nowhere to connect to. -/
theorem passive_code_respected_iff (t : Text) (env : Env Io) (h : History Io) (c : Conn)
    (source : Option Ipv4Addr) (limits : LimitsConfig) (buf left : Bytes)
    (result : Except DataConnectError Unit) (H : History Io)
    (hrun : run env (openBackendDataConnection c source limits buf) h =
      (.ret (result, left), H)) :
    (((parseEpsvReply t).isSome = true → HasCode .epsv t) ↔ HasCode .epsv t ∨ ¬ EpsvGroup t) ∧
    (((parsePasvReply t).isSome = true → HasCode .pasv t) ↔ HasCode .pasv t ∨ ¬ PasvGroup t) ∧
    ∃ control d dc, H = h ++ ⟨.backendPeer, control⟩ :: d ++ dc ∧
      ((∃ k, result = .error (.controlConnection k)) ∨
        ∃ answered lines line, OneLineEach c limits.maxCommandLineBytes buf d lines left ∧
          lines.getLast? = some line ∧
          (writesTo (· = c) d).getLast? = some (passiveCommand answered) ∧
          (RespectsCode answered line (d ++ dc) result ↔
            HasCode answered line ∨ ¬ HasGroup answered line ∨
              (answered = .epsv ∧ control = none))) := by
  refine ⟨?_, ?_, ?_⟩
  · rw [parseEpsvReply_isSome, imp_iff_or_not]
  · rw [parsePasvReply_isSome, imp_iff_or_not]
  have hspec := (run_of_wp (@wp_openBackendDataConnection env (fun _ _ => True) c
    source limits buf h) fun _ _ _ _ => trivial).2.1 (result, left) (by rw [hrun])
  rw [hrun] at hspec
  obtain ⟨control, d, used, dc, rfl, hpassive, hopened⟩ := hspec
  refine ⟨control, d, dc, rfl, ?_⟩
  cases hopened with
  | lost k => exact .inl ⟨k, rfl⟩
  | @unusable answered line rest haddr =>
      obtain ⟨lines, hone, hlast, hcmd⟩ := hpassive.used
      refine .inr ⟨answered, lines, line, hone, hlast, hcmd, ?_⟩
      rw [List.append_nil]
      refine ⟨fun _ => .inr (dataAddr_eq_none.mp haddr), fun _ => ⟨?_, fun _ => ⟨rfl, ?_⟩⟩⟩
      · intro addr src a hmem
        exact absurd hmem hpassive.no_connect
      · intro addr src a
        exact hpassive.no_connect
  | @dialed answered line rest addr haddr a =>
      obtain ⟨lines, hone, hlast, hcmd⟩ := hpassive.used
      refine .inr ⟨answered, lines, line, hone, hlast, hcmd, ?_⟩
      have hmade : ⟨.connectData addr source, a⟩ ∈ d ++ [⟨.connectData addr source, a⟩] :=
        List.mem_append_right _ (List.mem_singleton.mpr rfl)
      constructor
      · intro hresp
        exact .inl (hresp.1 addr source a hmade)
      · intro hcond
        have hcode : HasCode answered line := by
          rcases hcond with hcode | hnone
          · exact hcode
          · rw [dataAddr_eq_none.mpr hnone] at haddr
            cases haddr
        exact ⟨fun _ _ _ _ => hcode, fun hno => absurd hcode hno⟩

/-- A backend that answers the `EPSV` with one line and accepts connections. -/
def answeringBackend (line : Text) : Env Io := fun _ r =>
  match r with
  | .backendPeer => some (some (.v4 ⟨10, 0, 0, 9⟩))
  | .write _ _ => some (.ok ())
  | .read _ =>
      match utf8 line with
      | first :: rest => some (.data first rest)
      | [] => some .eof
  | .line _ _ => some ()
  | .connectData _ _ => some (.ok ())
  | _ => none

/-- One `EPSV` and its answer. -/
def epsvRun (line : Text) : Outcome Leave (Except DataConnectError Unit × Bytes) × History Io :=
  run (answeringBackend line) (openBackendDataConnection (.backend false) none
    ⟨512, true, true, .epsv⟩ []) []

theorem passive_code_respected_iff_refused :
    (epsvRun "425 busy\r\n".toList).1 = .ret (.error .unusableReply, []) ∧
    ∃ control d dc, (epsvRun "425 busy\r\n".toList).2 = [] ++ ⟨.backendPeer, control⟩ :: d ++ dc ∧
      ((∃ k, (.error .unusableReply : Except DataConnectError Unit) =
          .error (.controlConnection k)) ∨
        ∃ answered lines line, OneLineEach (.backend false) 512 [] d lines [] ∧
          lines.getLast? = some line ∧
          (writesTo (· = .backend false) d).getLast? = some (passiveCommand answered) ∧
          (RespectsCode answered line (d ++ dc) (.error .unusableReply) ↔
            HasCode answered line ∨ ¬ HasGroup answered line ∨
              (answered = .epsv ∧ control = none))) := by
  have hresult : (epsvRun "425 busy\r\n".toList).1 = .ret (.error .unusableReply, []) := by
    decide +kernel
  have hrun : epsvRun "425 busy\r\n".toList =
      (.ret (.error .unusableReply, []), (epsvRun "425 busy\r\n".toList).2) :=
    Prod.ext hresult rfl
  exact ⟨hresult, (passive_code_respected_iff [] _ _ _ _ _ _ _ _ _ hrun).2.2⟩

theorem refusal_with_group_connects :
    parseEpsvReply "425 busy, see (|||2121|)\r\n".toList = some 2121 ∧
    ¬ HasCode .epsv "425 busy, see (|||2121|)\r\n".toList ∧
    (epsvRun "425 busy, see (|||2121|)\r\n".toList).1 = .ret (.ok (), []) ∧
    linesFrom (fun _ => true) (epsvRun "425 busy, see (|||2121|)\r\n".toList).2
      = ["425 busy, see (|||2121|)\r\n".toList] ∧
    (epsvRun "425 busy, see (|||2121|)\r\n".toList).2.any
      (fun e => e.req = .connectData ⟨.v4 ⟨10, 0, 0, 9⟩, 2121⟩ none) = true := by
  decide +kernel

end FtpGateway
