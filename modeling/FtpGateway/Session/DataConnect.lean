import FtpGateway.Session.CompleteLine

/-!
# Opening a backend data connection

Everything `open_backend_data_connection` can do, read off the exchanges it
makes. One command of its own is a write and the read of one line
(`Answers`); `PassiveRun` puts one or two of them together and `Opened` adds
the connection to the address the last reply names. The headline
`data_connection_outcome` says that there is a result, when the control
connection is given up, how much of it has been read otherwise, when `PASV`
follows `EPSV`, where the connection goes, and that its answer is the result.
-/

namespace FtpGateway

open Str Interact

/-! ## One command -/

/-- The exchanges `d` of one command with `buf` buffered before, and the reply:
the first line of what could be read, if the command was sent. -/
def Answers (c : Conn) (max : Nat) (command : Text) (buf : Bytes) (d : History Io)
    (r : Option (Text × Bytes)) : Prop :=
  ∃ a d', d = ⟨.write c (withCrLf command), a⟩ :: d' ∧ (∀ e ∈ d', Event.OnConn c e) ∧
    ∀ t rest, r = some (t, rest) ↔
      a = .ok () ∧ CompleteLine max (buf ++ received (· = c) d') t rest

variable {env : Env Io} {E : Leave → History Io → Prop} {c : Conn}

theorem wp_commandReply (command : Text) (max : Nat) (buf : Bytes) (h : History Io) :
    wp env (fun _ _ => True)
      (fun x h' => ∃ d, h' = h ++ d ∧ Answers c max command buf d x.toOption)
      E (commandReply c command max buf) h := by
  refine (wp_bind _).mpr ?_
  intro a ha
  refine ⟨trivial, ?_⟩
  cases a with
  | error k =>
      refine ⟨_, rfl, .error k, [], rfl, by simp, fun t rest => ?_⟩
      constructor
      · intro hr; cases hr
      · rintro ⟨herr, -⟩; cases herr
  | ok u =>
      refine (wp_bind _).mpr (wp_post (wp_readLine max buf _) ?_ fun _ _ => id)
      rintro ⟨r, buf'⟩ h' ⟨d, rfl, hd, hfinds⟩
      have hresult : ∀ x : Except IoKind (Text × Bytes),
          (∀ t rest, x.toOption = some (t, rest) ↔
            CompleteLine max (buf ++ received (· = c) d) t rest) →
          ∃ d', h ++ [⟨.write c (withCrLf command), .ok u⟩] ++ d = h ++ d' ∧
            Answers c max command buf d' x.toOption := by
        intro x hx
        refine ⟨⟨.write c (withCrLf command), .ok u⟩ :: d, by simp, .ok u, d, rfl, hd, ?_⟩
        intro t rest
        rw [hx t rest]
        exact ⟨fun hline => ⟨rfl, hline⟩, fun hline => hline.2⟩
      have herror : (∀ t, r = .text t → endsWithNewline t = false) → ∀ k,
          ∃ d', h ++ [⟨.write c (withCrLf command), .ok u⟩] ++ d = h ++ d' ∧
            Answers c max command buf d'
              (Except.error k : Except IoKind (Text × Bytes)).toOption := by
        intro hno k
        refine hresult (.error k) fun t rest => ?_
        rw [← hfinds t rest]
        refine ⟨fun hr => (nomatch hr), ?_⟩
        rintro ⟨ht, hnl, -⟩
        rw [hno t ht] at hnl
        cases hnl
      cases r with
      | err k => exact herror (fun t ht => nomatch ht) k
      | elapsed => exact herror (fun t ht => nomatch ht) .timedOut
      | text t₀ =>
          cases hnl : endsWithNewline t₀ with
          | false =>
              have hno : ∀ t, LineRead.text t₀ = .text t → endsWithNewline t = false := by
                rintro t ⟨⟩
                exact hnl
              by_cases hempty : t₀ = []
              · simp only [hempty, if_true]
                exact herror hno .unexpectedEof
              · simp only [hempty, if_false, hnl, Bool.not_false, if_true]
                exact herror hno .invalidData
          | true =>
              have hne : t₀ ≠ [] := by rintro rfl; cases hnl
              simp only [hne, if_false, hnl, Bool.not_true, Bool.false_eq_true]
              refine hresult (.ok (t₀, buf')) fun t rest => ?_
              rw [← hfinds t rest]
              simp only [Except.toOption, Option.some.injEq, Prod.mk.injEq, LineRead.text.injEq]
              constructor
              · rintro ⟨rfl, rfl⟩; exact ⟨rfl, hnl, rfl⟩
              · rintro ⟨rfl, -, rfl⟩; exact ⟨rfl, rfl⟩

/-! ## The passive reply -/

/-- The exchanges of `EPSV` and `PASV`, and the reply that is used, with the
command it answers. -/
inductive PassiveRun (c : Conn) (max : Nat) : BackendPassiveMode → Bytes → History Io →
    Option (BackendPassiveMode × Text × Bytes) → Prop where
  | pasv {buf : Bytes} {d : History Io} {r : Option (Text × Bytes)}
      (hans : Answers c max "PASV".toList buf d r) :
      PassiveRun c max .pasv buf d (r.map fun (t, rest) => (.pasv, t, rest))
  | epsv {buf : Bytes} {d : History Io} {r : Option (Text × Bytes)}
      (hans : Answers c max "EPSV".toList buf d r)
      (hno : ∀ t rest, r = some (t, rest) → t.head? ≠ some '5') :
      PassiveRun c max .epsv buf d (r.map fun (t, rest) => (.epsv, t, rest))
  | fallback {buf rest : Bytes} {d₁ d₂ : History Io} {t : Text} {r : Option (Text × Bytes)}
      (hrej : Answers c max "EPSV".toList buf d₁ (some (t, rest))) (h5 : t.head? = some '5')
      (hans : Answers c max "PASV".toList rest d₂ r) :
      PassiveRun c max .epsv buf (d₁ ++ d₂) (r.map fun (t, rest) => (.pasv, t, rest))

theorem wp_passiveReply (mode : BackendPassiveMode) (max : Nat) (buf : Bytes) (h : History Io) :
    wp env (fun _ _ => True)
      (fun x h' => ∃ d, h' = h ++ d ∧ PassiveRun c max mode buf d x.toOption)
      E (passiveReply c mode max buf) h := by
  cases mode with
  | pasv =>
      refine (wp_bind _).mpr (wp_post (wp_commandReply _ max buf h) ?_ fun _ _ => id)
      rintro x h' ⟨d, rfl, hans⟩
      cases x with
      | error k => exact ⟨d, rfl, .pasv hans⟩
      | ok y => exact ⟨d, rfl, .pasv hans⟩
  | epsv =>
      refine (wp_bind _).mpr (wp_post (wp_commandReply _ max buf h) ?_ fun _ _ => id)
      rintro x h' ⟨d, rfl, hans⟩
      cases x with
      | error k => exact ⟨d, rfl, .epsv hans fun t rest hr => nomatch hr⟩
      | ok y =>
          obtain ⟨t, rest⟩ := y
          simp only
          split
          case isTrue h5 =>
            refine (wp_bind _).mpr (wp_post (wp_commandReply _ max rest _) ?_ fun _ _ => id)
            rintro x h' ⟨d₂, rfl, hans₂⟩
            cases x with
            | error k => exact ⟨d ++ d₂, by simp, .fallback hans h5 hans₂⟩
            | ok y => exact ⟨d ++ d₂, by simp, .fallback hans h5 hans₂⟩
          case isFalse h5 =>
            refine ⟨d, rfl, .epsv hans ?_⟩
            rintro t' rest' hr
            obtain ⟨rfl, rfl⟩ := Prod.mk.injEq .. |>.mp (Option.some.inj hr)
            exact h5

/-! ## The connection -/

/-- What the attempt to connect to the data port is reported as. -/
def connected : Except IoKind Unit → Except DataConnectError Unit
  | .ok () => .ok ()
  | .error k => .error (.connectFailed k)

/-- What is made of the passive reply: the exchanges after it, the result and
what is left unread. -/
inductive Opened (source : Option Ipv4Addr) (control : Option IpAddr) (fallback : Bool) :
    Option (BackendPassiveMode × Text × Bytes) → History Io → Except DataConnectError Unit →
    Bytes → Prop where
  | lost {left : Bytes} (k : IoKind) :
      Opened source control fallback none [] (.error (.controlConnection k)) left
  | unusable {answered : BackendPassiveMode} {line : Text} {rest : Bytes}
      (haddr : dataAddr answered line control fallback = none) :
      Opened source control fallback (some (answered, line, rest)) [] (.error .unusableReply) rest
  | dialed {answered : BackendPassiveMode} {line : Text} {rest : Bytes} {addr : SocketAddr}
      (haddr : dataAddr answered line control fallback = some addr) (a : Except IoKind Unit) :
      Opened source control fallback (some (answered, line, rest))
        [⟨.connectData addr source, a⟩] (connected a) rest

theorem wp_openBackendDataConnection (source : Option Ipv4Addr) (limits : LimitsConfig)
    (buf : Bytes) (h : History Io) :
    wp env (fun _ _ => True)
      (fun x h' => ∃ control d r dc, h' = h ++ ⟨.backendPeer, control⟩ :: d ++ dc ∧
        PassiveRun c limits.maxCommandLineBytes limits.backendPassiveMode buf d r ∧
        Opened source control limits.backendPasvFallbackToControlIp r dc x.1 x.2)
      E (openBackendDataConnection c source limits buf) h := by
  refine (wp_request_bind _ _).mpr fun control hcontrol => ⟨trivial, ?_⟩
  refine (wp_bind _).mpr (wp_post
    (wp_passiveReply limits.backendPassiveMode limits.maxCommandLineBytes buf _) ?_ fun _ _ => id)
  rintro x h' ⟨d, rfl, hrun⟩
  cases x with
  | error k => exact ⟨control, d, none, [], by simp, hrun, .lost k⟩
  | ok y =>
      obtain ⟨answered, line, rest⟩ := y
      simp only
      split
      case h_1 haddr => exact ⟨control, d, _, [], by simp, hrun, .unusable haddr⟩
      case h_2 addr haddr =>
        intro a ha
        refine ⟨trivial, ?_⟩
        cases a with
        | ok u => exact ⟨control, d, _, _, by simp, hrun, .dialed haddr (.ok u)⟩
        | error k => exact ⟨control, d, _, _, by simp, hrun, .dialed haddr (.error k)⟩

/-! ## One line for each command -/

/-- Every command in `d` was sent, and of the bytes that could be read one whole
line was used for each; `left` comes after the last of them. -/
structure OneLineEach (c : Conn) (max : Nat) (buf : Bytes) (d : History Io) (lines : List Text)
    (left : Bytes) : Prop where
  sent : ∀ b a, ⟨.write c b, a⟩ ∈ d → a = .ok ()
  length : lines.length = (writesTo (· = c) d).length
  whole : ∀ t ∈ lines, Terminated (utf8 t) ∧ (utf8 t).length ≤ max
  bytes : buf ++ received (· = c) d = (lines.map utf8).flatten ++ left

theorem writesTo_onConn {d : History Io} (h : ∀ e ∈ d, Event.OnConn c e) :
    writesTo (· = c) d = [] := by
  refine List.filterMap_eq_nil_iff.mpr fun e he => ?_
  obtain ⟨req, ans⟩ := e
  rcases h _ he with hreq | ⟨r, hreq⟩
  · obtain rfl : req = .read c := hreq
    rfl
  · obtain rfl : req = .line c r := hreq
    rfl

variable {max : Nat} {buf rest : Bytes} {d d₁ d₂ : History Io} {command : Text}
  {r : Option (Text × Bytes)}

theorem Answers.writesTo (h : Answers c max command buf d r) :
    writesTo (· = c) d = [withCrLf command] := by
  obtain ⟨a, d', rfl, hd, -⟩ := h
  rw [writesTo_cons, writesTo_onConn hd]
  simp

theorem Answers.some_iff (h : Answers c max command buf d r) (t : Text) (rest : Bytes) :
    r = some (t, rest) ↔ ⟨.write c (withCrLf command), .ok ()⟩ ∈ d ∧
      CompleteLine max (buf ++ received (· = c) d) t rest := by
  obtain ⟨a, d', rfl, hd, hiff⟩ := h
  have hrec : received (· = c) (⟨.write c (withCrLf command), a⟩ :: d') =
      received (· = c) d' := by simp
  rw [hiff, hrec]
  refine and_congr_left fun _ => ?_
  constructor
  · rintro rfl; exact List.mem_cons_self ..
  · intro hmem
    rcases List.mem_cons.mp hmem with heq | hmem
    · cases heq; rfl
    · rcases hd _ hmem with hreq | ⟨_, hreq⟩ <;> cases hreq

/-- The command was answered, so its line is the one used. -/
theorem Answers.oneLineEach {t : Text} (h : Answers c max command buf d (some (t, rest))) :
    OneLineEach c max buf d [t] rest := by
  obtain ⟨hsent, hterm, hlen, hbytes⟩ := (h.some_iff t rest).mp rfl
  refine ⟨?_, by rw [h.writesTo]; rfl, by simpa using ⟨hterm, hlen⟩, by simpa using hbytes⟩
  intro b a hmem
  obtain ⟨a', d', rfl, hd, hiff⟩ := h
  obtain ⟨rfl, -⟩ := (hiff t rest).mp rfl
  rcases List.mem_cons.mp hmem with heq | hmem
  · cases heq; rfl
  · rcases hd _ hmem with hreq | ⟨_, hreq⟩ <;> cases hreq

/-- A command that is not answered leaves no whole line for it. -/
theorem Answers.not_oneLineEach (h : Answers c max command buf d none) (lines : List Text)
    (left : Bytes) : ¬ OneLineEach c max buf d lines left := by
  intro hone
  have hlen := hone.length
  rw [h.writesTo, List.length_singleton, List.length_eq_one_iff] at hlen
  obtain ⟨t, rfl⟩ := hlen
  obtain ⟨hterm, hmax⟩ := hone.whole t (List.mem_singleton.mpr rfl)
  obtain ⟨a, d', rfl, -, -⟩ := id h
  have hsent := hone.sent _ a (List.mem_cons_self ..)
  refine nomatch (h.some_iff t left).mpr ⟨?_, hterm, hmax, by simpa using hone.bytes⟩
  rw [hsent]
  exact List.mem_cons_self ..

/-- The lines of a second command come after those of the first. -/
theorem OneLineEach.append {lines lines' : List Text} {left : Bytes}
    (h₁ : OneLineEach c max buf d₁ lines rest) (h₂ : OneLineEach c max rest d₂ lines' left) :
    OneLineEach c max buf (d₁ ++ d₂) (lines ++ lines') left where
  sent b a hmem := by
    rcases List.mem_append.mp hmem with hmem | hmem
    · exact h₁.sent b a hmem
    · exact h₂.sent b a hmem
  length := by rw [writesTo_append, List.length_append, List.length_append, h₁.length, h₂.length]
  whole t ht := by
    rcases List.mem_append.mp ht with ht | ht
    · exact h₁.whole t ht
    · exact h₂.whole t ht
  bytes := by
    rw [received_append, ← List.append_assoc, h₁.bytes, List.append_assoc, h₂.bytes]
    simp

/-- And what is left for the second command is what the first one's line
leaves. -/
theorem OneLineEach.second {t : Text} {lines : List Text} {left : Bytes}
    (h₁ : OneLineEach c max buf d₁ [t] rest)
    (h : OneLineEach c max buf (d₁ ++ d₂) lines left) :
    ∃ lines', lines = t :: lines' ∧ OneLineEach c max rest d₂ lines' left := by
  have hlen := h.length
  rw [writesTo_append, List.length_append, ← h₁.length] at hlen
  cases lines with
  | nil => simp at hlen; omega
  | cons x lines' =>
      have hbytes : utf8 t ++ (rest ++ received (· = c) d₂) =
          utf8 x ++ ((lines'.map utf8).flatten ++ left) := by
        have h₁b := h₁.bytes
        have hb := h.bytes
        rw [received_append, ← List.append_assoc, h₁b] at hb
        simpa using hb
      obtain ⟨hx, hrest⟩ := append_terminated_inj (h₁.whole t (by simp)).1
        (h.whole x (by simp)).1 hbytes
      obtain rfl := utf8_injective hx
      refine ⟨lines', rfl, fun b a hmem => h.sent b a (List.mem_append_right _ hmem), ?_,
        fun t' ht' => h.whole t' (List.mem_cons_of_mem _ ht'), hrest⟩
      simp only [List.length_cons, List.length_nil] at hlen
      omega

/-- The command whose reply is used. -/
def passiveCommand : BackendPassiveMode → Bytes
  | .epsv => withCrLf "EPSV".toList
  | .pasv => withCrLf "PASV".toList

/-- A used reply: its command was the last one sent, and its line is the last
of the lines used. -/
theorem PassiveRun.used {mode answered : BackendPassiveMode} {line : Text}
    (h : PassiveRun c max mode buf d (some (answered, line, rest))) :
    ∃ lines, OneLineEach c max buf d lines rest ∧ lines.getLast? = some line ∧
      (writesTo (· = c) d).getLast? = some (passiveCommand answered) := by
  generalize hr : some (answered, line, rest) = used at h
  cases h with
  | @pasv _ _ r hans =>
      cases r with
      | none => cases hr
      | some x =>
          obtain ⟨line, rest⟩ := x
          cases hr
          exact ⟨[line], hans.oneLineEach, rfl, by rw [hans.writesTo]; rfl⟩
  | @epsv _ _ r hans hno =>
      cases r with
      | none => cases hr
      | some x =>
          obtain ⟨line, rest⟩ := x
          cases hr
          exact ⟨[line], hans.oneLineEach, rfl, by rw [hans.writesTo]; rfl⟩
  | @fallback _ mid d₁ d₂ t r hrej h5 hans =>
      cases r with
      | none => cases hr
      | some x =>
          obtain ⟨line, rest⟩ := x
          cases hr
          refine ⟨[t] ++ [line], hrej.oneLineEach.append hans.oneLineEach, rfl, ?_⟩
          rw [writesTo_append, hrej.writesTo, hans.writesTo]
          rfl

theorem PassiveRun.unanswered {mode : BackendPassiveMode}
    (h : PassiveRun c max mode buf d none) (lines : List Text) (left : Bytes) :
    ¬ OneLineEach c max buf d lines left := by
  generalize hr : none = used at h
  cases h with
  | @pasv _ _ r hans =>
      obtain rfl : r = none := Option.map_eq_none_iff.mp hr.symm
      exact hans.not_oneLineEach lines left
  | @epsv _ _ r hans hno =>
      obtain rfl : r = none := Option.map_eq_none_iff.mp hr.symm
      exact hans.not_oneLineEach lines left
  | @fallback _ mid d₁ d₂ t r hrej h5 hans =>
      obtain rfl : r = none := Option.map_eq_none_iff.mp hr.symm
      intro hone
      obtain ⟨lines', -, hsecond⟩ := hrej.oneLineEach.second hone
      exact hans.not_oneLineEach lines' left hsecond

/-- The commands sent: the one of the mode, and `PASV` after an `EPSV` whose
reply starts with a `5`. -/
theorem PassiveRun.commands {mode : BackendPassiveMode}
    {used : Option (BackendPassiveMode × Text × Bytes)} (h : PassiveRun c max mode buf d used) :
    (writesTo (· = c) d = [passiveCommand mode] ∨
      writesTo (· = c) d = [passiveCommand .epsv, passiveCommand .pasv]) ∧
    (writesTo (· = c) d = [passiveCommand .epsv, passiveCommand .pasv] ↔
      mode = .epsv ∧ ⟨.write c (passiveCommand .epsv), .ok ()⟩ ∈ d ∧
        ∃ t rest, CompleteLine max (buf ++ received (· = c) d) t rest ∧ t.head? = some '5') := by
  cases h with
  | pasv hans =>
      rw [hans.writesTo]
      refine ⟨.inl rfl, fun heq => ?_, fun hm => nomatch hm.1⟩
      simp at heq
  | @epsv _ _ r hans hno =>
      rw [hans.writesTo]
      refine ⟨.inl rfl, fun heq => ?_, ?_⟩
      · simp at heq
      · rintro ⟨-, hsent, t, rest, hline, h5⟩
        exact absurd h5 (hno t rest ((hans.some_iff t rest).mpr ⟨hsent, hline⟩))
  | @fallback _ mid d₁ d₂ t r hrej h5 hans =>
      obtain ⟨hsent, hterm, hlen, hbytes⟩ := (hrej.some_iff t mid).mp rfl
      rw [writesTo_append, hrej.writesTo, hans.writesTo]
      refine ⟨.inr rfl, fun _ => ⟨rfl, List.mem_append_left _ hsent, t,
        mid ++ received (· = c) d₂, ⟨hterm, hlen, ?_⟩, h5⟩, fun _ => rfl⟩
      rw [received_append, ← List.append_assoc, hbytes, List.append_assoc]

theorem Answers.no_connect (h : Answers c max command buf d r) {addr : SocketAddr}
    {source : Option Ipv4Addr} {a : Except IoKind Unit} : ⟨.connectData addr source, a⟩ ∉ d := by
  obtain ⟨a', d', rfl, hd, -⟩ := h
  intro hmem
  rcases List.mem_cons.mp hmem with heq | hmem
  · cases heq
  · rcases hd _ hmem with hreq | ⟨_, hreq⟩ <;> cases hreq

theorem PassiveRun.no_connect {mode : BackendPassiveMode}
    {used : Option (BackendPassiveMode × Text × Bytes)} (h : PassiveRun c max mode buf d used)
    {addr : SocketAddr} {source : Option Ipv4Addr} {a : Except IoKind Unit} :
    ⟨.connectData addr source, a⟩ ∉ d := by
  cases h with
  | pasv hans => exact hans.no_connect
  | epsv hans => exact hans.no_connect
  | fallback hrej h5 hans =>
      intro hmem
      rcases List.mem_append.mp hmem with hmem | hmem
      · exact hrej.no_connect hmem
      · exact hans.no_connect hmem

/-! ## The outcome -/

/-- Where the connection goes, given the command its reply answers. -/
structure GoesTo (answered : BackendPassiveMode) (line : Text) (control : Option IpAddr)
    (fallback : Bool) (addr : SocketAddr) : Prop where
  epsv : answered = .epsv → control = some addr.ip ∧ parseEpsvReply line = some addr.port
  pasv : answered = .pasv → ∃ announced, parsePasvReply line = some (announced, addr.port) ∧
    (∀ ip, control = some (.v4 ip) → fallback = true → announced = .unspecified →
      addr.ip = .v4 ip) ∧
    ((∀ ip, control ≠ some (.v4 ip)) ∨ fallback = false ∨ announced ≠ .unspecified →
      addr.ip = .v4 announced)

theorem goesTo_of_dataAddr {answered : BackendPassiveMode} {line : Text}
    {control : Option IpAddr} {fallback : Bool} {addr : SocketAddr}
    (h : dataAddr answered line control fallback = some addr) :
    GoesTo answered line control fallback addr := by
  cases answered with
  | epsv =>
      simp only [dataAddr, Option.bind_eq_bind, Option.bind_eq_some_iff, Option.pure_def,
        Option.some.injEq] at h
      obtain ⟨port, hport, peer, hpeer, rfl⟩ := h
      exact ⟨fun _ => ⟨hpeer, hport⟩, fun h => nomatch h⟩
  | pasv =>
      simp only [dataAddr, Option.bind_eq_bind, Option.bind_eq_some_iff, Option.pure_def,
        Option.some.injEq] at h
      obtain ⟨⟨announced, port⟩, hparse, rfl⟩ := h
      refine ⟨fun h => (nomatch h), fun _ => ⟨announced, hparse, ?_, ?_⟩⟩
      · rintro ip rfl rfl rfl
        rfl
      · intro hno
        rcases control with _ | (ip | ip)
        · rfl
        · have hcond : (fallback && announced.isUnspecified) = false := by
            rcases hno with hno | rfl | hno
            · exact absurd rfl (hno ip)
            · rfl
            · simp [Ipv4Addr.isUnspecified, hno]
          simp only [dataIp, hcond, Bool.false_eq_true, if_false]
        · rfl

theorem dataAddr_of_goesTo {answered : BackendPassiveMode} {line : Text}
    {control : Option IpAddr} {fallback : Bool} {addr : SocketAddr}
    (h : GoesTo answered line control fallback addr) :
    dataAddr answered line control fallback = some addr := by
  cases answered with
  | epsv =>
      obtain ⟨hcontrol, hport⟩ := h.epsv rfl
      simp [dataAddr, hcontrol, hport]
  | pasv =>
      obtain ⟨announced, hparse, hsteered, hannounced⟩ := h.pasv rfl
      have hip : .v4 (dataIp announced control fallback) = addr.ip := by
        by_cases hcond : ∃ ip, control = some (.v4 ip) ∧ fallback = true ∧ announced = .unspecified
        · obtain ⟨ip, rfl, rfl, rfl⟩ := hcond
          exact (hsteered ip rfl rfl rfl).symm
        · have hno : (∀ ip, control ≠ some (.v4 ip)) ∨ fallback = false
              ∨ announced ≠ .unspecified := by
            by_contra hall
            simp only [not_or, not_forall, not_not, Bool.not_eq_false] at hall
            obtain ⟨⟨ip, hip⟩, hfallback, hannounced⟩ := hall
            exact hcond ⟨ip, hip, hfallback, hannounced⟩
          rw [hannounced hno]
          rcases control with _ | (ip | ip)
          · rfl
          · have hoff : (fallback && announced.isUnspecified) = false := by
              rcases hno with hno | rfl | hno
              · exact absurd rfl (hno ip)
              · rfl
              · simp [Ipv4Addr.isUnspecified, hno]
            simp only [dataIp, hoff, Bool.false_eq_true, if_false]
          · rfl
      simp [dataAddr, hparse, hip]

/-- What an attempt came to: `control` is the peer of the control connection, `d`
the exchanges of its commands, `dc` those after them. It gives the control connection
up for want of a whole line, with nothing else done; otherwise `left` comes after one
line for each command, and one connection is made where the last reply says, whose
answer is the result. A reply that says nowhere is unusable. -/
structure ConnectionOutcome (c : Conn) (source : Option Ipv4Addr) (limits : LimitsConfig)
    (buf : Bytes) (control : Option IpAddr) (d dc : History Io)
    (result : Except DataConnectError Unit) (left : Bytes) : Prop where
  lost : (∃ k, result = .error (.controlConnection k)) ↔
    ¬ ∃ lines rest, OneLineEach c limits.maxCommandLineBytes buf d lines rest
  undialed : (∃ k, result = .error (.controlConnection k)) → dc = []
  inStep : (∀ k, result ≠ .error (.controlConnection k)) →
    (∃ lines, OneLineEach c limits.maxCommandLineBytes buf d lines left) ∧
    received (· = c) dc = [] ∧ writesTo (· = c) dc = []
  commands : writesTo (· = c) d = [passiveCommand limits.backendPassiveMode] ∨
    writesTo (· = c) d = [passiveCommand .epsv, passiveCommand .pasv]
  fallback : writesTo (· = c) d = [passiveCommand .epsv, passiveCommand .pasv] ↔
    limits.backendPassiveMode = .epsv ∧ ⟨.write c (passiveCommand .epsv), .ok ()⟩ ∈ d ∧
      ∃ t rest, CompleteLine limits.maxCommandLineBytes (buf ++ received (· = c) d) t rest ∧
        t.head? = some '5'
  dialed : (∀ k, result ≠ .error (.controlConnection k)) →
    ∃ answered lines line, OneLineEach c limits.maxCommandLineBytes buf d lines left ∧
      lines.getLast? = some line ∧
      (writesTo (· = c) d).getLast? = some (passiveCommand answered) ∧
      ((∃ addr a, GoesTo answered line control limits.backendPasvFallbackToControlIp addr ∧
          dc = [⟨.connectData addr source, a⟩] ∧ result = connected a) ∨
        (∀ addr, ¬GoesTo answered line control limits.backendPasvFallbackToControlIp addr) ∧
          dc = [] ∧ result = .error .unusableReply)
  noneBefore : ∀ addr src a, ⟨.connectData addr src, a⟩ ∉ d

/-- **What opening a backend data connection comes to.** For every backend and
every timing it comes to a result, if the surroundings leave none of its requests
unanswered: the control connection is given up exactly if some command that was
sent has no whole line answering it; otherwise one line was used for each command
and `left` is what follows the last; `PASV` follows `EPSV` exactly if its reply
starts with a `5`; and the one connection that is made goes where the last
command says, and decides the result. -/
theorem data_connection_outcome (env : Env Io) (h : History Io) (c : Conn)
    (source : Option Ipv4Addr) (limits : LimitsConfig) (buf : Bytes) :
    ((∃ x, (run env (openBackendDataConnection c source limits buf) h).1 = .ret x) ∨
      (run env (openBackendDataConnection c source limits buf) h).1 = .waiting ∧
        ∃ r, env (run env (openBackendDataConnection c source limits buf) h).2 r = none) ∧
    ∀ result left H, run env (openBackendDataConnection c source limits buf) h =
        (.ret (result, left), H) →
      ∃ control d dc, H = h ++ ⟨.backendPeer, control⟩ :: d ++ dc ∧
        ConnectionOutcome c source limits buf control d dc result left := by
  refine ⟨run_of_delivers (delivers_openBackendDataConnection _ _ _ _) _ _,
    fun result left H hrun => ?_⟩
  have hspec := (run_of_wp (@wp_openBackendDataConnection env (fun _ _ => True) c
    source limits buf h) fun _ _ _ _ => trivial).2.1 (result, left) (by rw [hrun])
  rw [hrun] at hspec
  obtain ⟨control, d, used, dc, rfl, hpassive, hopened⟩ := hspec
  obtain ⟨hcommands, hfallback⟩ := hpassive.commands
  refine ⟨control, d, dc, rfl, ?_⟩
  cases hopened with
  | lost k =>
      have hnone : ¬ ∃ lines rest, OneLineEach c limits.maxCommandLineBytes buf d lines rest :=
        fun ⟨lines, rest, hone⟩ => hpassive.unanswered lines rest hone
      exact {
        lost := ⟨fun _ => hnone, fun _ => ⟨k, rfl⟩⟩
        undialed := fun _ => rfl
        inStep := fun hno => absurd rfl (hno k)
        commands := hcommands
        fallback := hfallback
        dialed := fun hno => absurd rfl (hno k)
        noneBefore := fun _ _ _ => hpassive.no_connect }
  | @unusable answered line _ haddr =>
      obtain ⟨lines, hone, hlast, hcommand⟩ := hpassive.used
      have hnowhere : ∀ addr,
          ¬GoesTo answered line control limits.backendPasvFallbackToControlIp addr := by
        intro addr hgoes
        rw [dataAddr_of_goesTo hgoes] at haddr
        cases haddr
      exact {
        lost := ⟨fun ⟨_, hk⟩ => (by cases hk), fun hno => absurd ⟨lines, _, hone⟩ hno⟩
        undialed := fun _ => rfl
        inStep := fun _ => ⟨⟨lines, hone⟩, rfl, rfl⟩
        commands := hcommands
        fallback := hfallback
        dialed := fun _ => ⟨answered, lines, line, hone, hlast, hcommand,
          Or.inr ⟨hnowhere, rfl, rfl⟩⟩
        noneBefore := fun _ _ _ => hpassive.no_connect }
  | @dialed answered line _ addr haddr a =>
      obtain ⟨lines, hone, hlast, hcommand⟩ := hpassive.used
      have hkept : ¬∃ k, connected a = .error (.controlConnection k) := by
        rintro ⟨k, hk⟩
        cases a <;> cases hk
      exact {
        lost := ⟨fun hk => absurd hk hkept, fun hno => absurd ⟨lines, _, hone⟩ hno⟩
        undialed := fun hk => absurd hk hkept
        inStep := fun _ => ⟨⟨lines, hone⟩, rfl, rfl⟩
        commands := hcommands
        fallback := hfallback
        dialed := fun _ => ⟨answered, lines, line, hone, hlast, hcommand,
          Or.inl ⟨addr, a, goesTo_of_dataAddr haddr, rfl, rfl⟩⟩
        noneBefore := fun _ _ _ => hpassive.no_connect }

/-- A backend at `10.0.0.9` that rejects `EPSV` and announces no address in its
`PASV` reply. -/
def vsftpdLike : Env Io := fun h r =>
  match r with
  | .backendPeer => some (some (.v4 ⟨10, 0, 0, 9⟩))
  | .write _ _ => some (.ok ())
  | .read _ =>
      if writesTo (fun _ => true) h = [passiveCommand .epsv] then
        some (.data 53 (utf8 "00 what?\r\n".toList))
      else some (.data 50 (utf8 "27 ok (0,0,0,0,8,73)\r\n".toList))
  | .line _ _ => some ()
  | .connectData _ _ => some (.ok ())
  | _ => none

theorem data_connection_outcome_fallback :
    ∃ H, run vsftpdLike (openBackendDataConnection (.backend false) none
        ⟨512, true, true, .epsv⟩ []) [] = (.ret (.ok (), []), H) ∧
      ∃ control d dc, H = [] ++ ⟨.backendPeer, control⟩ :: d ++ dc ∧
        ConnectionOutcome (.backend false) none ⟨512, true, true, .epsv⟩ [] control d dc
          (.ok ()) [] := by
  have hret : (run vsftpdLike (openBackendDataConnection (.backend false) none
      ⟨512, true, true, .epsv⟩ []) []).1 = .ret (.ok (), []) := by decide +kernel
  have hrun : run vsftpdLike (openBackendDataConnection (.backend false) none
      ⟨512, true, true, .epsv⟩ []) [] = (.ret (.ok (), []), _) := Prod.ext hret rfl
  exact ⟨_, hrun, (data_connection_outcome _ _ _ _ _ _).2 _ _ _ hrun⟩

end FtpGateway
