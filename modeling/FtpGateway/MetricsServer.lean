import FtpGateway.CloudWatch
import FtpGateway.Http
import FtpGateway.MetricsRequest
import FtpGateway.Session.Footprint

/-!
# The metrics endpoint

`handle_request` and `write_response` of `server/metrics_server.rs`. One request is
read and at most one response written, and what is written is a whole HTTP
response, whatever was sent (`endpoint_answers`). A scraper that keeps its
side open after its request is answered all the same, since the reader stops at the
empty line (`run_readRequest_whole`, `run_scrape`).
-/

namespace FtpGateway

open Str Interact

/-! ## The handler -/

def response (status contentType body : Text) : Text :=
  "HTTP/1.1 ".toList ++ status ++ "\r\nContent-Type: ".toList ++ contentType ++
    "\r\nContent-Length: ".toList ++ decimal (utf8 body).length ++
    "\r\nConnection: close\r\n\r\n".toList ++ body

/-- The answer to the write covers the `shutdown` after it. -/
def writeResponse (c : Conn) (status contentType body : Text) : Sess (Except IoKind Unit) :=
  write c (utf8 (response status contentType body))

/-- What is answered to a request, if anything. `body` is what `render` gives. -/
def answerTo (body : Text) : ParsedRequest → Option (Text × Text × Text)
  | .connectionClosed => none
  | .malformed => some ("400 Bad Request".toList, "text/plain".toList, [])
  | .ok method path =>
      if method ≠ "GET".toList then
        some ("405 Method Not Allowed".toList, "text/plain".toList, [])
      else if path ≠ "/metrics".toList then
        some ("404 Not Found".toList, "text/plain".toList, [])
      else some ("200 OK".toList, "text/plain; version=0.0.4".toList, body)

def handleRequest (c : Conn) (body : Text) : Sess (Except IoKind Unit) := do
  match ← readRequest c [] with
  | (.failed k, _) => pure (.error k)
  | (.elapsed, _) => pure (.ok ())
  -- the subtraction would panic
  | (.underflow, _) => .wait
  | (.parsed request, _) =>
      match answerTo body request with
      | none => pure (.ok ())
      | some (status, contentType, body) => writeResponse c status contentType body

/-! ## Responses -/

def httpResponse (status contentType body : Text) : Http.Response :=
  ⟨status, [("Content-Type".toList, contentType),
    ("Content-Length".toList, decimal (utf8 body).length), ("Connection".toList, "close".toList)],
    utf8 body⟩

theorem utf8_response (status contentType body : Text) :
    utf8 (response status contentType body) =
      Http.render (httpResponse status contentType body) := by
  have hversion : "HTTP/1.1 ".toList = Http.version := by rw [String.toList_ofList]; rfl
  have htype : "\r\nContent-Type: ".toList =
      ['\r', '\n'] ++ "Content-Type".toList ++ [':', ' '] := by
    rw [String.toList_ofList, String.toList_ofList]; rfl
  have hlength : "\r\nContent-Length: ".toList =
      ['\r', '\n'] ++ "Content-Length".toList ++ [':', ' '] := by
    rw [String.toList_ofList, String.toList_ofList]; rfl
  have hclose : "\r\nConnection: close\r\n\r\n".toList = ['\r', '\n'] ++ "Connection".toList ++
      [':', ' '] ++ "close".toList ++ ['\r', '\n'] ++ ['\r', '\n'] := by
    rw [String.toList_ofList, String.toList_ofList, String.toList_ofList]; rfl
  have hcrlf : utf8 ['\r', '\n'] = Http.crlf := by decide
  unfold response httpResponse
  rw [hversion, htype, hlength, hclose]
  generalize "Content-Type".toList = typeName
  generalize "Content-Length".toList = lengthName
  generalize "Connection".toList = closeName
  generalize "close".toList = closeValue
  have hfield : ∀ f, Http.fieldLine f = f.1 ++ ([':', ' '] ++ f.2) := fun f => rfl
  simp only [utf8_append, hcrlf, hfield, Http.render, Http.headLines, Http.writeLine,
    List.map_cons, List.map_nil, List.flatMap_cons, List.flatMap_nil, List.append_assoc,
    List.nil_append]

theorem fits_httpResponse {status contentType : Text} (hstatus : '\n' ∉ status)
    (htype : '\n' ∉ contentType ∧ contentType.head? ≠ some ' ') (body : Text) :
    Http.Fits (httpResponse status contentType body) := by
  have hdigits : '\n' ∉ decimal (utf8 body).length ∧
      (decimal (utf8 body).length).head? ≠ some ' ' := by
    refine ⟨notMem_decimal rfl _, fun hhead => ?_⟩
    exact notMem_decimal (c := ' ') rfl _ (List.mem_of_mem_head? hhead)
  have hnames : (["Content-Type", "Content-Length", "Connection"].all fun name =>
      !name.toList.contains ':' && !name.toList.contains '\n') = true := by
    decide +kernel
  have hname : ∀ name ∈ ["Content-Type", "Content-Length", "Connection"],
      ':' ∉ name.toList ∧ '\n' ∉ name.toList := by
    intro name hmem
    simpa using List.all_eq_true.mp hnames name hmem
  have hclose : '\n' ∉ "close".toList ∧ "close".toList.head? ≠ some ' ' := by decide +kernel
  have hlookup : (httpResponse status contentType body).fields.lookup Http.contentLength =
      some (decimal (utf8 body).length) := by
    have hother : (Http.contentLength == "Content-Type".toList) = false := by decide +kernel
    have hlength : (Http.contentLength == "Content-Length".toList) = true := by decide +kernel
    unfold httpResponse
    rw [List.lookup_cons, hother, List.lookup_cons, hlength]
  refine ⟨hstatus, ?_, hlookup⟩
  unfold httpResponse
  refine List.forall_mem_cons.mpr ⟨⟨hname _ List.mem_cons_self, htype⟩, ?_⟩
  refine List.forall_mem_cons.mpr ⟨⟨hname _ (by simp), hdigits⟩, ?_⟩
  exact List.forall_mem_singleton.mpr ⟨hname _ (by simp), hclose⟩

theorem parse_response {status contentType : Text} (hstatus : '\n' ∉ status)
    (htype : '\n' ∉ contentType ∧ contentType.head? ≠ some ' ') (body : Text) :
    Http.parse (utf8 (response status contentType body)) =
      some (httpResponse status contentType body) := by
  rw [utf8_response]
  exact Http.parse_render (fits_httpResponse hstatus htype body)

/-- The four answers, and what each is an answer to. -/
def AnswersFor (body : Text) (request : ParsedRequest) (status contentType sent : Text) : Prop :=
  (request = .ok "GET".toList "/metrics".toList ∧ status = "200 OK".toList ∧
      contentType = "text/plain; version=0.0.4".toList ∧ sent = body) ∨
    (contentType = "text/plain".toList ∧ sent = [] ∧
      ((request = .malformed ∧ status = "400 Bad Request".toList) ∨
        (∃ method path, request = .ok method path ∧ method ≠ "GET".toList ∧
          status = "405 Method Not Allowed".toList) ∨
        ∃ path, request = .ok "GET".toList path ∧ path ≠ "/metrics".toList ∧
          status = "404 Not Found".toList))

theorem answerTo_cases {body status contentType sent : Text} {request : ParsedRequest}
    (h : answerTo body request = some (status, contentType, sent)) :
    AnswersFor body request status contentType sent := by
  cases request with
  | connectionClosed => cases h
  | malformed =>
      obtain ⟨rfl, rfl, rfl⟩ := by simpa only [answerTo, Option.some.injEq, Prod.mk.injEq] using h
      exact Or.inr ⟨rfl, rfl, Or.inl ⟨rfl, rfl⟩⟩
  | ok method path =>
      rw [answerTo] at h
      by_cases hget : method = "GET".toList
      · rw [if_neg (not_not_intro hget)] at h
        subst hget
        by_cases hpath : path = "/metrics".toList
        · rw [if_neg (not_not_intro hpath)] at h
          obtain ⟨rfl, rfl, rfl⟩ := by simpa only [Option.some.injEq, Prod.mk.injEq] using h
          exact Or.inl ⟨by rw [hpath], rfl, rfl, rfl⟩
        · rw [if_pos hpath] at h
          obtain ⟨rfl, rfl, rfl⟩ := by simpa only [Option.some.injEq, Prod.mk.injEq] using h
          exact Or.inr ⟨rfl, rfl, Or.inr (Or.inr ⟨path, rfl, hpath, rfl⟩)⟩
      · rw [if_pos hget] at h
        obtain ⟨rfl, rfl, rfl⟩ := by simpa only [Option.some.injEq, Prod.mk.injEq] using h
        exact Or.inr ⟨rfl, rfl, Or.inr (Or.inl ⟨method, path, rfl, hget, rfl⟩)⟩

theorem answerTo_eq_none {body : Text} {request : ParsedRequest} :
    answerTo body request = none ↔ request = .connectionClosed := by
  cases request with
  | connectionClosed => simp [answerTo]
  | malformed => simp [answerTo]
  | ok method path =>
      rw [answerTo]
      split
      · simp
      · split <;> simp

/-- Every answer of the endpoint is read back whole. -/
theorem parse_answerTo {body status contentType sent : Text} {request : ParsedRequest}
    (h : AnswersFor body request status contentType sent) :
    Http.parse (utf8 (response status contentType sent)) =
      some (httpResponse status contentType sent) := by
  have hlines : (["400 Bad Request", "405 Method Not Allowed", "404 Not Found", "200 OK"].all
      fun status => !status.toList.contains '\n') = true := by
    decide +kernel
  have hstatus : ∀ status ∈ ["400 Bad Request", "405 Method Not Allowed", "404 Not Found",
      "200 OK"], '\n' ∉ status.toList := by
    intro status hmem
    simpa using List.all_eq_true.mp hlines status hmem
  have hplain : '\n' ∉ "text/plain".toList ∧ "text/plain".toList.head? ≠ some ' ' := by
    decide +kernel
  have hversion : '\n' ∉ "text/plain; version=0.0.4".toList ∧
      "text/plain; version=0.0.4".toList.head? ≠ some ' ' := by
    decide +kernel
  rcases h with ⟨-, rfl, rfl, -⟩ | ⟨rfl, -, ⟨-, rfl⟩ | ⟨_, _, -, -, rfl⟩ | ⟨_, -, -, rfl⟩⟩
  · exact parse_response (hstatus _ (by simp)) hversion _
  · exact parse_response (hstatus _ (by simp)) hplain _
  · exact parse_response (hstatus _ (by simp)) hplain _
  · exact parse_response (hstatus _ (by simp)) hplain _

/-! ## Requests that are there as a whole -/

/-- A request line, header lines and the empty line, within the limits. -/
structure WholeRequest where
  line : Text
  headers : List Text
  blank : Text
  line_ends : Terminated (utf8 line)
  headers_end : ∀ l ∈ headers, Terminated (utf8 l) ∧ isBlankLine (utf8 l) = false
  blank_ends : Terminated (utf8 blank) ∧ isBlankLine (utf8 blank) = true
  line_fits : (utf8 line).length ≤ maxRequestLineBytes
  headers_fit : (headers.flatMap utf8 ++ utf8 blank).length ≤ maxHeaderBytes

def WholeRequest.bytes (r : WholeRequest) : Bytes :=
  utf8 r.line ++ (r.headers.flatMap utf8 ++ utf8 r.blank)

section Runs

variable {env : Env Io} {c : Conn} {h : History Io} {chunks : List (UInt8 × Bytes)}

/-- A line that is there is read, and nothing else of the stream. -/
theorem run_takeReadLine_line (hfeeds : Feeds env c h chunks) {n : Nat} {buf rest : Bytes}
    {d : History Io} {line : Text} (hterm : Terminated (utf8 line))
    (hlen : (utf8 line).length ≤ n) (hs : buf ++ toCome c chunks d = utf8 line ++ rest) :
    ∃ d' left, run env (takeReadLine c n [] buf) (h ++ d) =
        (.ret (.text line, left), h ++ (d ++ d')) ∧ left ++ toCome c chunks (d ++ d') = rest := by
  have hlf : lf ∈ buf ++ toCome c chunks d := by
    rw [hs]
    exact List.mem_append_left _ (lf_mem_of_terminated hterm)
  obtain ⟨d', left, hrun, hleft⟩ := @run_takeReadLine_cut _ _ _ _ hfeeds n [] buf d (Or.inl hlf)
  rw [hs, lineOf_append hterm rest hlen] at hrun hleft
  refine ⟨d', left, ?_, List.append_cancel_left hleft⟩
  rw [hrun, List.nil_append, decodeLine_utf8]

/-- A line within the budget is a round of the header loop. -/
theorem run_readHeaders_line (hfeeds : Feeds env c h chunks) (rounds : Nat) {budget : Nat}
    (hmax : budget ≤ maxHeaderBytes) {buf rest : Bytes} {d : History Io} {line : Text}
    (hterm : Terminated (utf8 line)) (hlen : (utf8 line).length ≤ budget)
    (hs : buf ++ toCome c chunks d = utf8 line ++ rest) :
    ∃ d' left, run env (readHeaders c (rounds + 1) budget buf) (h ++ d) =
        run env (if isBlankLine (utf8 line) then pure (none, left)
          else readHeaders c rounds (budget - (utf8 line).length) left) (h ++ (d ++ d')) ∧
      left ++ toCome c chunks (d ++ d') = rest := by
  obtain ⟨d', left, hrun, hleft⟩ := run_takeReadLine_line hfeeds hterm hlen hs
  have hfull : 0 < (utf8 line).length := List.length_pos_of_mem (lf_mem_of_terminated hterm)
  refine ⟨d', left, ?_, hleft⟩
  rw [run_readHeaders_round rounds (by omega) hmax hrun,
    headerRound_text (ne_nil_of_terminated hterm) hlen, endsWithNewline_of_terminated hterm,
    Bool.not_true, Bool.and_false, if_neg Bool.false_ne_true]

theorem run_readHeaders_whole (hfeeds : Feeds env c h chunks) {blank : Text}
    (hblank : Terminated (utf8 blank) ∧ isBlankLine (utf8 blank) = true) {headers : List Text}
    (hheaders : ∀ l ∈ headers, Terminated (utf8 l) ∧ isBlankLine (utf8 l) = false)
    {rounds budget : Nat} {buf rest : Bytes} {d : History Io}
    (hfit : (headers.flatMap utf8 ++ utf8 blank).length ≤ budget) (hmax : budget ≤ maxHeaderBytes)
    (hrounds : budget < rounds)
    (hs : buf ++ toCome c chunks d = headers.flatMap utf8 ++ (utf8 blank ++ rest)) :
    ∃ d' left, run env (readHeaders c rounds budget buf) (h ++ d) =
        (.ret (none, left), h ++ (d ++ d')) ∧ left ++ toCome c chunks (d ++ d') = rest := by
  induction headers generalizing rounds budget buf d with
  | nil =>
      obtain ⟨rounds, rfl⟩ := Nat.exists_eq_add_of_lt hrounds
      obtain ⟨d', left, hrun, hleft⟩ :=
        run_readHeaders_line hfeeds (budget + rounds) hmax hblank.1 hfit hs
      refine ⟨d', left, ?_, hleft⟩
      rw [hrun, if_pos hblank.2]
      rfl
  | cons line headers ih =>
      obtain ⟨hline, hrest⟩ := List.forall_mem_cons.mp hheaders
      have hfull : 0 < (utf8 line).length := List.length_pos_of_mem (lf_mem_of_terminated hline.1)
      rw [List.flatMap_cons, List.append_assoc, List.length_append] at hfit
      rw [List.flatMap_cons, List.append_assoc] at hs
      obtain ⟨rounds, rfl⟩ := Nat.exists_eq_add_of_lt hrounds
      obtain ⟨d₁, left₁, hrun₁, hleft₁⟩ :=
        run_readHeaders_line hfeeds (budget + rounds) hmax hline.1 (by omega) hs
      rw [if_neg (by simp [hline.2])] at hrun₁
      have hfit' : (headers.flatMap utf8 ++ utf8 blank).length ≤ budget - (utf8 line).length := by
        omega
      have hrounds' : budget - (utf8 line).length < budget + rounds := by omega
      obtain ⟨d₂, left, hrun, hleft⟩ := ih hrest hfit' (by omega) hrounds' hleft₁
      exact ⟨d₁ ++ d₂, left, by rw [hrun₁, hrun, List.append_assoc], by
        rw [← List.append_assoc]; exact hleft⟩

/-- **A whole request is read**, and nothing after it is waited for. -/
theorem run_readRequest_whole (hfeeds : Feeds env c h chunks) (r : WholeRequest) {rest : Bytes}
    (hs : chunkBytes chunks = r.bytes ++ rest) :
    ∃ d left, run env (readRequest c []) h = (.ret (.parsed (requestOf r.line), left), h ++ d) := by
  have hcome : [] ++ toCome c chunks [] =
      utf8 r.line ++ (r.headers.flatMap utf8 ++ (utf8 r.blank ++ rest)) := by
    rw [List.nil_append, toCome, readsOf, List.countP_nil, List.drop_zero, hs, WholeRequest.bytes]
    simp only [List.append_assoc]
  obtain ⟨d₁, left₁, hrun₁, hleft₁⟩ :=
    run_takeReadLine_line hfeeds r.line_ends r.line_fits hcome
  obtain ⟨d₂, left, hrun, -⟩ := run_readHeaders_whole hfeeds r.blank_ends r.headers_end
    r.headers_fit (Nat.le_refl _) (Nat.lt_succ_self _) hleft₁
  have hfull : (utf8 r.line).length ≠ 0 :=
    Nat.ne_of_gt (List.length_pos_of_mem (lf_mem_of_terminated r.line_ends))
  rw [List.append_nil] at hrun₁
  refine ⟨[] ++ d₁ ++ d₂, left, ?_⟩
  rw [readRequest]
  simp only [Prog.bind_eq, run_bind, hrun₁, if_neg hfull,
    endsWithNewline_of_terminated r.line_ends, Bool.not_true, Bool.and_false, if_false, hrun,
    Bool.false_eq_true]
  rw [List.append_assoc]
  rfl

/-! ## What is written -/

/-- The reader only reads. -/
theorem asks_readRequest {R : Req → Prop} (hread : R (.read c)) (buf : Bytes) :
    (readRequest c buf).Asks R := by
  have hheaders : ∀ rounds budget buf, (readHeaders c rounds budget buf).Asks R := by
    intro rounds
    induction rounds with
    | zero => exact fun _ _ => trivial
    | succ rounds ih =>
        intro budget buf
        rw [readHeaders]
        split
        · trivial
        · refine asks_bind (asks_takeReadLine hread _ _ _) fun x => ?_
          obtain ⟨r, buf⟩ := x
          cases r with
          | err k => trivial
          | elapsed => trivial
          | text line =>
              simp only [headerRound]
              repeat' split
              all_goals first
                | trivial
                | exact ih _ _
  refine asks_bind (asks_takeReadLine hread _ _ _) fun x => ?_
  obtain ⟨r, buf⟩ := x
  cases r with
  | err k => trivial
  | elapsed => trivial
  | text line =>
      dsimp only
      repeat' split
      · trivial
      · trivial
      · refine asks_bind (hheaders _ _ _) fun x => ?_
        obtain ⟨r, buf⟩ := x
        cases r <;> trivial

/-- Whatever comes of reading the request, nothing has been written. -/
theorem run_readRequest_writes (env : Env Io) (c : Conn) (h : History Io) (on : Conn → Bool) :
    ∃ d, (run env (readRequest c []) h).2 = h ++ d ∧ writesTo on d = [] := by
  obtain ⟨d, hd, hall⟩ := run_asks (asks_readRequest (R := fun r => r = .read c) rfl []) env h
  refine ⟨d, hd, List.filterMap_eq_nil_iff.mpr fun e he => ?_⟩
  obtain ⟨r, a⟩ := e
  obtain rfl : r = .read c := hall _ he
  rfl

theorem writesTo_readRequest {on : Conn → Bool} {x : RequestRead × Bytes} {d : History Io}
    (hrun : run env (readRequest c []) h = (.ret x, h ++ d)) : writesTo on d = [] := by
  obtain ⟨d', hd, hnone⟩ := run_readRequest_writes env c h on
  rw [hrun] at hd
  rwa [← List.append_cancel_left hd] at hnone

/-- What is answered is written, in one piece. -/
theorem run_handleRequest {request : ParsedRequest} {left : Bytes} {d : History Io}
    (hrun : run env (readRequest c []) h = (.ret (.parsed request, left), h ++ d))
    (hwrites : ∀ h b, ∃ a, env h (.write c b) = some a) (body : Text) :
    ∃ d' result, run env (handleRequest c body) h = (.ret result, h ++ d') ∧
      writesTo (· = c) d' = ((answerTo body request).map fun (status, contentType, sent) =>
        utf8 (response status contentType sent)).toList := by
  have hread : writesTo (· = c) d = [] := writesTo_readRequest hrun
  cases hanswer : answerTo body request with
  | none =>
      refine ⟨d, .ok (), ?_, hread⟩
      simp only [handleRequest, Prog.bind_eq, run_bind, hrun, hanswer]
      rfl
  | some answer =>
      obtain ⟨status, contentType, sent⟩ := answer
      obtain ⟨a, ha⟩ := hwrites (h ++ d) (utf8 (response status contentType sent))
      refine ⟨d ++ [⟨.write c (utf8 (response status contentType sent)), a⟩], a, ?_, ?_⟩
      · simp only [handleRequest, Prog.bind_eq, run_bind, hrun, hanswer, writeResponse, write,
          Prog.request, run, ha, List.append_assoc]
      · simp [hread]

/-- One of the four responses to what the reader made of a request. -/
def WholeAnswer (body : Text) (b : Bytes) : Prop :=
  ∃ request status contentType sent, AnswersFor body request status contentType sent ∧
    Http.parse b = some (httpResponse status contentType sent)

/-- Whatever is sent and however it ends, one response is written at most, and whole. -/
theorem handleRequest_writes (env : Env Io) (c : Conn) (h : History Io) (body : Text) :
    ∃ d, (run env (handleRequest c body) h).2 = h ++ d ∧ (writesTo (· = c) d).length ≤ 1 ∧
      ∀ b ∈ writesTo (· = c) d, WholeAnswer body b := by
  obtain ⟨d, hd, hnone⟩ := run_readRequest_writes env c h (· = c)
  have hsilent : (run env (handleRequest c body) h).2 = h ++ d →
      ∃ d, (run env (handleRequest c body) h).2 = h ++ d ∧ (writesTo (· = c) d).length ≤ 1 ∧
        ∀ b ∈ writesTo (· = c) d, WholeAnswer body b :=
    fun heq => ⟨d, heq, by simp [hnone], by simp [hnone]⟩
  obtain ⟨out, h₁, hrun⟩ : ∃ out h₁, run env (readRequest c []) h = (out, h₁) := ⟨_, _, rfl⟩
  obtain rfl : h₁ = h ++ d := by rw [hrun] at hd; exact hd
  cases out with
  | exit e => exact hsilent (by simp only [handleRequest, Prog.bind_eq, run_bind, hrun])
  | waiting => exact hsilent (by simp only [handleRequest, Prog.bind_eq, run_bind, hrun])
  | ret x =>
      obtain ⟨r, left⟩ := x
      cases r with
      | failed k => exact hsilent (by simp only [handleRequest, Prog.bind_eq, run_bind, hrun]; rfl)
      | elapsed => exact hsilent (by simp only [handleRequest, Prog.bind_eq, run_bind, hrun]; rfl)
      | underflow => exact hsilent (by simp only [handleRequest, Prog.bind_eq, run_bind, hrun]; rfl)
      | parsed request =>
          cases hanswer : answerTo body request with
          | none =>
              exact hsilent (by
                simp only [handleRequest, Prog.bind_eq, run_bind, hrun, hanswer]; rfl)
          | some answer =>
              obtain ⟨status, contentType, sent⟩ := answer
              have hfor := answerTo_cases hanswer
              cases hwrite : env (h ++ d) (.write c (utf8 (response status contentType sent))) with
              | none =>
                  refine hsilent ?_
                  simp only [handleRequest, Prog.bind_eq, run_bind, hrun, hanswer, writeResponse,
                    write, Prog.request, run, hwrite]
              | some a =>
                  refine ⟨d ++ [⟨.write c (utf8 (response status contentType sent)), a⟩], ?_,
                    by simp [hnone], fun b hb => ?_⟩
                  · simp only [handleRequest, Prog.bind_eq, run_bind, hrun, hanswer,
                      writeResponse, write, Prog.request, run, hwrite, List.append_assoc]
                  · obtain rfl : b = utf8 (response status contentType sent) := by
                      simpa [hnone] using hb
                    exact ⟨request, status, contentType, sent, hfor, parse_answerTo hfor⟩

/-- The answer a stream gets: at most one response, whole, none exactly if nothing
came or a limit cut a character. The metrics are in it exactly if they were asked for. -/
structure AnsweredOnce (s : Bytes) (body : Text) (sent : List Bytes) : Prop where
  once : sent.length ≤ 1
  silent : sent = [] ↔ s = [] ∨ ¬CutsBetween s
  whole : ∀ b ∈ sent, ∃ r, Http.parse b = some r ∧
    ((r.status = "200 OK".toList ∧ r.body = utf8 body ∧
        Served s "GET".toList "/metrics".toList) ∨
      (r.body = [] ∧
        ((r.status = "400 Bad Request".toList ∧ ∀ method path, ¬Served s method path) ∨
          (r.status = "405 Method Not Allowed".toList ∧
            ∃ method path, Served s method path ∧ method ≠ "GET".toList) ∨
          (r.status = "404 Not Found".toList ∧
            ∃ path, Served s "GET".toList path ∧ path ≠ "/metrics".toList))))

theorem answeredOnce_parsed {t body : Text} {request : ParsedRequest}
    (hend : requestEnd (utf8 t) = .parsed request) (hcuts : utf8 t = [] ∨ CutsBetween (utf8 t)) :
    AnsweredOnce (utf8 t) body ((answerTo body request).map fun (status, contentType, sent) =>
      utf8 (response status contentType sent)).toList := by
  have hserved : ∀ {method path}, request = .ok method path → Served (utf8 t) method path :=
    fun hok => (requestEnd_ok_iff t _ _).mp (by rw [hend, hok])
  cases hanswer : answerTo body request with
  | none =>
      have hclosed : utf8 t = [] :=
        (requestEnd_closed_iff t).mp (by rw [hend, answerTo_eq_none.mp hanswer])
      exact ⟨by simp, iff_of_true rfl (Or.inl hclosed), by simp⟩
  | some answer =>
      obtain ⟨status, contentType, sent⟩ := answer
      have hne : utf8 t ≠ [] := by
        intro hnil
        rw [(requestEnd_closed_iff t).mpr hnil, RequestRead.parsed.injEq] at hend
        rw [answerTo_eq_none.mpr hend.symm] at hanswer
        cases hanswer
      refine ⟨by simp, iff_of_false (by simp) ?_, fun b hb => ?_⟩
      · rintro (hnil | hcut)
        · exact hne hnil
        · exact hcut (hcuts.resolve_left hne)
      · obtain rfl : b = utf8 (response status contentType sent) := by simpa using hb
        have hfor := answerTo_cases hanswer
        refine ⟨_, parse_answerTo hfor, ?_⟩
        rcases hfor with ⟨hok, rfl, -, rfl⟩ |
          ⟨-, rfl, ⟨rfl, rfl⟩ | ⟨method, path, hok, hget, rfl⟩ | ⟨path, hok, hpath, rfl⟩⟩
        · exact Or.inl ⟨rfl, rfl, hserved hok⟩
        · refine Or.inr ⟨rfl, Or.inl ⟨rfl, fun method path hserved => ?_⟩⟩
          rw [(requestEnd_ok_iff t method path).mpr hserved] at hend
          cases hend
        · exact Or.inr ⟨rfl, Or.inr (Or.inl ⟨rfl, method, path, hserved hok, hget⟩)⟩
        · exact Or.inr ⟨rfl, Or.inr (Or.inr ⟨rfl, path, hserved hok, hpath⟩)⟩

/-- The answer is exact for text that the client ends, for any chunks. -/
theorem answeredOnce (harr : Arrives env c h chunks .eof) {t : Text}
    (hs : chunkBytes chunks = utf8 t) (hwrites : ∀ h b, ∃ a, env h (.write c b) = some a)
    (body : Text) :
    ∃ d result, run env (handleRequest c body) h = (.ret result, h ++ d) ∧
      AnsweredOnce (utf8 t) body (writesTo (· = c) d) := by
  obtain ⟨d, left, hrun, -⟩ := run_readRequest harr hs
  by_cases hnil : utf8 t = []
  · have hend := (requestEnd_closed_iff t).mpr hnil
    rw [hend] at hrun
    obtain ⟨d', result, hrun', hsent⟩ := run_handleRequest hrun hwrites body
    exact ⟨d', result, hrun', hsent ▸ answeredOnce_parsed hend (Or.inl hnil)⟩
  rcases requestEnd_cases hnil with ⟨-, hcuts, line, -, hend⟩ | ⟨-, hcuts, hend⟩ | ⟨-, hcut, hend⟩
  · rw [hend] at hrun
    obtain ⟨d', result, hrun', hsent⟩ := run_handleRequest hrun hwrites body
    exact ⟨d', result, hrun', hsent ▸ answeredOnce_parsed hend (Or.inr hcuts)⟩
  · rw [hend] at hrun
    obtain ⟨d', result, hrun', hsent⟩ := run_handleRequest hrun hwrites body
    exact ⟨d', result, hrun', hsent ▸ answeredOnce_parsed hend (Or.inr hcuts)⟩
  · rw [hend] at hrun
    refine ⟨d, .error .invalidData, ?_, ?_⟩
    · simp only [handleRequest, Prog.bind_eq, run_bind, hrun]
      rfl
    · rw [writesTo_readRequest hrun]
      exact ⟨by simp, iff_of_true rfl (Or.inr hcut), by simp⟩

/-- A scraper gets the metrics as soon as its request is there, and need not close its
side for them. -/
theorem run_scrape (hfeeds : Feeds env c h chunks) (r : WholeRequest) {rest : Bytes}
    (hs : chunkBytes chunks = r.bytes ++ rest)
    (hasks : requestOf r.line = .ok "GET".toList "/metrics".toList)
    (hwrites : ∀ h b, ∃ a, env h (.write c b) = some a) (body : Text) :
    ∃ d result, run env (handleRequest c body) h = (.ret result, h ++ d) ∧
      writesTo (· = c) d =
        [utf8 (response "200 OK".toList "text/plain; version=0.0.4".toList body)] := by
  obtain ⟨d, left, hrun⟩ := run_readRequest_whole hfeeds r hs
  rw [hasks] at hrun
  obtain ⟨d', result, hrun', hsent⟩ := run_handleRequest hrun hwrites body
  have hanswer : answerTo body (.ok "GET".toList "/metrics".toList) =
      some ("200 OK".toList, "text/plain; version=0.0.4".toList, body) := by
    rw [answerTo, if_neg (not_not_intro rfl), if_neg (not_not_intro rfl)]
  rw [hanswer] at hsent
  exact ⟨d', result, hrun', hsent⟩

end Runs

/-- A connection that brings these chunks and takes every write. -/
def scraper (chunks : List (UInt8 × Bytes)) : Env Io
  | _, .write _ _ => some (.ok ())
  | h, r => feeder chunks h r

theorem arrives_scraper (c : Conn) (chunks : List (UInt8 × Bytes)) :
    Arrives (scraper chunks) c [] chunks .eof :=
  ⟨fun d => feeds_feeder c chunks d, (arrives_feeder c chunks).ends⟩

end FtpGateway
