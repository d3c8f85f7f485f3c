import FtpGateway.Session.LineLimit

/-!
# Reading a request to the metrics endpoint

`read_request` of `server/metrics_server.rs`: a request line of at most
`MAX_REQUEST_LINE_BYTES` bytes, then header lines up to a blank one, of at most
`MAX_HEADER_BYTES` bytes together. Each header line may be as long as what is
left of that budget, so a line that does not fit is cut where the budget ends.

`headersEnd` and `requestEnd` say what becomes of a stream from its bytes alone,
for any chunks it comes in (`run_readHeaders`, `run_readRequest`). A request that
is too large is answered with `Malformed` only if its cut is between two
characters. In the middle of one, `read_line` fails with `InvalidData` and the
request ends as an I/O error.
-/

namespace FtpGateway

open Str Interact

/-! ## The reader -/

def maxRequestLineBytes : Nat := 8192

def maxHeaderBytes : Nat := 8192

inductive ParsedRequest where
  | ok (method path : Text)
  | connectionClosed
  | malformed
deriving Repr, DecidableEq

/-- How a call of `read_request` can end: `elapsed` when the timer of the caller drops
it, `underflow` at `header_budget -= n` with `n` larger than the budget. -/
inductive RequestRead where
  | parsed (request : ParsedRequest)
  | failed (k : IoKind)
  | elapsed
  | underflow
deriving Repr, DecidableEq

/-- `str::split_whitespace`. -/
def splitWhitespace (t : Text) : List Text :=
  (t.splitOnP isWhitespace).filter fun word => !word.isEmpty

/-- The body of the header loop once a line has been read: `none` if the headers
are done, else what `read_request` returns, or the next round. -/
def headerRound (next : Nat → Bytes → Sess (Option RequestRead × Bytes)) (headerBudget cap : Nat)
    (buf : Bytes) : LineRead → Sess (Option RequestRead × Bytes)
  | .err k => pure (some (.failed k), buf)
  | .elapsed => pure (some .elapsed, buf)
  | .text headerLine =>
      let n := (utf8 headerLine).length
      if n = 0 then pure (none, buf)
      else if headerBudget < n then pure (some .underflow, buf)
      else if n = cap && !endsWithNewline headerLine then pure (some (.parsed .malformed), buf)
      else if headerLine = ['\r', '\n'] || headerLine = ['\n'] then pure (none, buf)
      else next (headerBudget - n) buf

/-- The loop over the header lines. Every round but the last uses up some of the
budget, so `rounds` need not be more than the budget and one. -/
def readHeaders (c : Conn) : Nat → Nat → Bytes → Sess (Option RequestRead × Bytes)
  | 0, _, _ => .wait
  | rounds + 1, headerBudget, buf =>
      if headerBudget = 0 then pure (some (.parsed .malformed), buf)
      else do
        let cap := min headerBudget maxRequestLineBytes
        let (headerLine, buf) ← takeReadLine c cap [] buf
        headerRound (readHeaders c rounds) headerBudget cap buf headerLine

/-- Method and path of a request line. -/
def requestOf (requestLine : Text) : ParsedRequest :=
  let parts := splitWhitespace requestLine
  let method := parts.head?.getD []
  let path := parts[1]?.getD []
  if method = [] then .malformed else .ok method path

def readRequest (c : Conn) (buf : Bytes) : Sess (RequestRead × Bytes) := do
  match ← takeReadLine c maxRequestLineBytes [] buf with
  | (.err k, buf) => pure (.failed k, buf)
  | (.elapsed, buf) => pure (.elapsed, buf)
  | (.text requestLine, buf) =>
      let bytesRead := (utf8 requestLine).length
      if bytesRead = 0 then pure (.parsed .connectionClosed, buf)
      else if bytesRead = maxRequestLineBytes && !endsWithNewline requestLine then
        pure (.parsed .malformed, buf)
      else
        match ← readHeaders c (maxHeaderBytes + 1) maxHeaderBytes buf with
        | (some r, buf) => pure (r, buf)
        | (none, buf) => pure (.parsed (requestOf requestLine), buf)

/-! ## What fits -/

def isBlankLine (l : Bytes) : Bool := l = [cr, lf] || l = [lf]

/-- The header block: the lines up to and including the first blank one. -/
def headerBlock : List Bytes → Option Bytes
  | [] => none
  | l :: ls => if isBlankLine l then some l else (headerBlock ls).map (l ++ ·)

/-- The header block at the start of `s` is at most `budget` bytes, or `s` ends
before. -/
def HeadersFit (budget : Nat) (s : Bytes) : Prop :=
  s.length < budget ∨ ∃ block ∈ headerBlock (linesOf s), block.length ≤ budget

instance (budget : Nat) (s : Bytes) : Decidable (HeadersFit budget s) :=
  inferInstanceAs (Decidable (_ ∨ _))

/-- What the header loop makes of the bytes `s` that are still to come. -/
def headersEnd (budget : Nat) (s : Bytes) : Option RequestRead :=
  if HeadersFit budget s then none
  else if (decodeUtf8 (s.take budget)).isSome then some (.parsed .malformed)
  else some (.failed .invalidData)

section Fitting

variable {s line rest : Bytes} {budget : Nat}

theorem linesOf_append (hterm : Terminated line) (rest : Bytes) :
    linesOf (line ++ rest) = line :: linesOf rest := by
  obtain ⟨body, hbody, rfl⟩ := hterm
  rw [List.append_assoc]
  exact linesOf_line hbody rest

/-- The block is a first part of the bytes, and ends in a line feed. -/
theorem headerBlock_spec {ls : List Bytes} {block : Bytes} (h : headerBlock ls = some block) :
    block <+: ls.flatten ∧ lf ∈ block := by
  induction ls generalizing block with
  | nil => cases h
  | cons l ls ih =>
      rw [headerBlock] at h
      split at h
      · rename_i hblank
        obtain rfl := Option.some.inj h
        refine ⟨List.prefix_append _ _, ?_⟩
        simp only [isBlankLine, Bool.or_eq_true, decide_eq_true_eq] at hblank
        rcases hblank with rfl | rfl <;> decide
      · obtain ⟨block', hblock, rfl⟩ := Option.map_eq_some_iff.mp h
        obtain ⟨hstart, hlf⟩ := ih hblock
        rw [List.flatten_cons]
        exact ⟨(List.prefix_append_right_inj l).mpr hstart, List.mem_append_right _ hlf⟩

theorem headersFit_blank (hterm : Terminated line) (hblank : isBlankLine line = true)
    (hlen : line.length ≤ budget) (rest : Bytes) : HeadersFit budget (line ++ rest) := by
  refine Or.inr ⟨line, ?_, hlen⟩
  rw [linesOf_append hterm, headerBlock, if_pos hblank]
  rfl

/-- A line that is not blank only takes its length off the budget. -/
theorem headersFit_line (hterm : Terminated line) (hblank : isBlankLine line = false)
    (hlen : line.length ≤ budget) (rest : Bytes) :
    HeadersFit budget (line ++ rest) ↔ HeadersFit (budget - line.length) rest := by
  have hblock : headerBlock (linesOf (line ++ rest)) =
      (headerBlock (linesOf rest)).map (line ++ ·) := by
    rw [linesOf_append hterm, headerBlock, if_neg (by simp [hblank])]
  rw [HeadersFit, HeadersFit, hblock, List.length_append]
  constructor
  · rintro (hshort | ⟨block, hmem, hle⟩)
    · exact Or.inl (by omega)
    · obtain ⟨block', hmem', rfl⟩ := Option.map_eq_some_iff.mp hmem
      rw [List.length_append] at hle
      exact Or.inr ⟨block', hmem', by omega⟩
  · rintro (hshort | ⟨block, hmem, hle⟩)
    · exact Or.inl (by omega)
    · refine Or.inr ⟨line ++ block, ?_, ?_⟩
      · rw [show headerBlock (linesOf rest) = some block from hmem]
        rfl
      · rw [List.length_append]
        omega

/-- Without a line feed in its first `budget` bytes, a longer stream does not fit. -/
theorem not_headersFit (hlen : budget ≤ s.length) (hno : lf ∉ s.take budget) :
    ¬HeadersFit budget s := by
  rintro (hshort | ⟨block, hmem, hle⟩)
  · omega
  · obtain ⟨hstart, hlf⟩ := headerBlock_spec hmem
    rw [flatten_linesOf] at hstart
    refine hno (List.IsPrefix.subset ?_ hlf)
    exact List.prefix_take_iff.mpr ⟨hstart, hle⟩

end Fitting

/-! ## One line of a stream that ends -/

variable {env : Env Io} {c : Conn} {h : History Io} {chunks : List (UInt8 × Bytes)}

theorem lf_mem_of_terminated {line : Bytes} (hterm : Terminated line) : lf ∈ line := by
  obtain ⟨body, -, rfl⟩ := hterm
  exact List.mem_append_right _ (List.mem_singleton_self lf)

theorem ne_nil_of_terminated {t : Text} (hterm : Terminated (utf8 t)) : t ≠ [] := by
  rintro rfl
  cases lf_mem_of_terminated hterm

/-- A stream that ends within its first line. -/
theorem lineOf_eq_self {s : Bytes} {n : Nat} (hshort : s.length < n) (hno : lf ∉ s) :
    lineOf n s = s := by
  rw [lineOf_eq_take fun hmem => hno (List.mem_of_mem_take hmem),
    List.take_of_length_le (Nat.le_of_lt hshort)]

/-- A read takes a line off the front of what is still to come. -/
theorem run_takeReadLine_eof (harr : Arrives env c h chunks .eof) (n : Nat) (buf : Bytes)
    (d : History Io) :
    ∃ d' left, run env (takeReadLine c n [] buf) (h ++ d) =
        (.ret (decodeLine (lineOf n (buf ++ toCome c chunks d)), left), h ++ (d ++ d')) ∧
      buf ++ toCome c chunks d =
        lineOf n (buf ++ toCome c chunks d) ++ (left ++ toCome c chunks (d ++ d')) := by
  by_cases hcut : lf ∈ buf ++ toCome c chunks d ∨ n ≤ (buf ++ toCome c chunks d).length
  · obtain ⟨d', left, hrun, hleft⟩ := @run_takeReadLine_cut _ _ _ _ harr.feeds n [] buf d hcut
    exact ⟨d', left, hrun, hleft.symm⟩
  · obtain ⟨hno, hlen⟩ := not_or.mp hcut
    obtain ⟨d', hrun, hcome⟩ :=
      @run_takeReadLine_short _ _ _ _ _ harr n [] buf d hno (Nat.lt_of_not_le hlen)
    have hline := lineOf_eq_self (Nat.lt_of_not_le hlen) hno
    refine ⟨d', [], ?_, ?_⟩
    · rw [hrun, hline]
      rfl
    · rw [hline, hcome, List.append_nil, List.append_nil]

/-- The first line of a text, and the text after it. -/
theorem utf8_eq_append {t : Text} {line rest : Bytes} (hterm : Terminated line)
    (h : utf8 t = line ++ rest) : ∃ first more, line = utf8 first ∧ rest = utf8 more := by
  have hlf : lf ∈ utf8 t := by
    obtain ⟨body, -, rfl⟩ := hterm
    simp [h]
  obtain ⟨body, more, rfl, hbody⟩ := List.eq_append_cons_of_mem (lf_mem_utf8.mp hlf)
  have hfirst : Terminated (utf8 (body ++ ['\n'])) :=
    ⟨utf8 body, fun hmem => hbody (lf_mem_utf8.mp hmem), utf8_append body ['\n']⟩
  rw [List.append_cons, utf8_append] at h
  obtain ⟨hline, hrest⟩ := append_terminated_inj hfirst hterm h
  exact ⟨body ++ ['\n'], more, hline.symm, hrest.symm⟩

theorem utf8_eq_nil {t : Text} (h : utf8 t = []) : t = [] := utf8_injective (t := []) h

theorem isBlankLine_utf8 (t : Text) :
    isBlankLine (utf8 t) = (t = ['\r', '\n'] || t = ['\n'] : Bool) := by
  have hcrlf : [cr, lf] = utf8 ['\r', '\n'] := rfl
  have hlf : [lf] = utf8 ['\n'] := rfl
  rw [isBlankLine, hcrlf, hlf]
  congr 1
  · exact decide_eq_decide.mpr ⟨utf8_injective, fun h => by rw [h]⟩
  · exact decide_eq_decide.mpr ⟨utf8_injective, fun h => by rw [h]⟩

/-! ## The header lines -/

theorem headersEnd_line {line rest : Bytes} {budget : Nat} {first : Text}
    (hfirst : line = utf8 first) (hterm : Terminated line) (hblank : isBlankLine line = false)
    (hlen : line.length ≤ budget) :
    headersEnd budget (line ++ rest) = headersEnd (budget - line.length) rest := by
  have hfit := headersFit_line hterm hblank hlen rest
  have hdecode : (decodeUtf8 ((line ++ rest).take budget)).isSome =
      (decodeUtf8 (rest.take (budget - line.length))).isSome := by
    rw [List.take_append, List.take_of_length_le hlen, hfirst, decodeUtf8_append, Option.isSome_map]
  rw [headersEnd, headersEnd, hdecode]
  simp only [hfit]

theorem headersEnd_cut {s : Bytes} {budget : Nat} (hlen : budget ≤ s.length)
    (hno : lf ∉ s.take budget) :
    headersEnd budget s = if (decodeUtf8 (s.take budget)).isSome then some (.parsed .malformed)
      else some (.failed .invalidData) := by
  rw [headersEnd, if_neg (not_headersFit hlen hno)]

theorem headersEnd_short {s : Bytes} {budget : Nat} (hlen : s.length < budget) :
    headersEnd budget s = none :=
  if_pos (Or.inl hlen)

theorem run_readHeaders_round (rounds : Nat) {budget : Nat} {buf left : Bytes} {r : LineRead}
    {h₀ h₁ : History Io} (hpos : budget ≠ 0) (hmax : budget ≤ maxHeaderBytes)
    (hrun : run env (takeReadLine c budget [] buf) h₀ = (.ret (r, left), h₁)) :
    run env (readHeaders c (rounds + 1) budget buf) h₀ =
      run env (headerRound (readHeaders c rounds) budget budget left r) h₁ := by
  have hcap : min budget maxRequestLineBytes = budget := Nat.min_eq_left hmax
  rw [readHeaders, if_neg hpos]
  simp only [hcap, Prog.bind_eq, run_bind, hrun]

/-- A round on a line that is not empty, by its bytes. -/
theorem headerRound_text {next : Nat → Bytes → Sess (Option RequestRead × Bytes)} {budget : Nat}
    {left : Bytes} {line : Text} (hne : line ≠ []) (hle : (utf8 line).length ≤ budget) :
    headerRound next budget budget left (.text line) =
      if (utf8 line).length = budget && !endsWithNewline line then
        pure (some (.parsed .malformed), left)
      else if isBlankLine (utf8 line) then pure (none, left)
      else next (budget - (utf8 line).length) left := by
  have hlen : (utf8 line).length ≠ 0 := fun h0 =>
    hne (utf8_eq_nil (List.eq_nil_of_length_eq_zero h0))
  rw [headerRound, if_neg hlen, if_neg (Nat.not_lt.mpr hle), isBlankLine_utf8]

/-- The budget ends within a line. -/
theorem run_readHeaders_cut (rounds : Nat) {budget : Nat} {buf left s : Bytes}
    {h₀ h₁ : History Io} (hpos : budget ≠ 0) (hmax : budget ≤ maxHeaderBytes)
    (hlong : budget ≤ s.length) (hno : lf ∉ s.take budget)
    (hread : run env (takeReadLine c budget [] buf) h₀ =
      (.ret (decodeLine (s.take budget), left), h₁)) :
    run env (readHeaders c (rounds + 1) budget buf) h₀ =
      (.ret (headersEnd budget s, left), h₁) := by
  rw [run_readHeaders_round rounds hpos hmax hread, headersEnd_cut hlong hno]
  cases hdec : decodeUtf8 (s.take budget) with
  | none =>
      rw [decodeLine, hdec]
      rfl
  | some cut =>
      have hcut := decodeUtf8_eq_some.mp hdec
      have hlen : (utf8 cut).length = budget := by
        rw [← hcut, List.length_take, Nat.min_eq_left hlong]
      have hne : cut ≠ [] := by
        rintro rfl
        exact hpos hlen.symm
      rw [hcut] at hno
      rw [decodeLine, hdec]
      show run env (headerRound _ budget budget left (.text cut)) _ = _
      rw [headerRound_text hne (Nat.le_of_eq hlen), hlen, endsWithNewline_of_no_lf hno,
        if_pos (by simp)]
      rfl

/-- **The header loop**, for any chunks: it ends, on the bytes alone, and uses at
most its budget. -/
theorem run_readHeaders (harr : Arrives env c h chunks .eof) {rounds budget : Nat}
    (hrounds : budget < rounds) (hmax : budget ≤ maxHeaderBytes) {buf : Bytes} {d : History Io}
    {t : Text} (hs : buf ++ toCome c chunks d = utf8 t) :
    ∃ d' left, run env (readHeaders c rounds budget buf) (h ++ d) =
        (.ret (headersEnd budget (utf8 t), left), h ++ (d ++ d')) ∧
      UsesAtMost budget (utf8 t) (left ++ toCome c chunks (d ++ d')) := by
  induction rounds generalizing budget buf d t with
  | zero => cases hrounds
  | succ rounds ih =>
      by_cases hpos : budget = 0
      · subst hpos
        refine ⟨[], buf, ?_, [], Nat.le_refl 0, ?_⟩
        · rw [readHeaders, if_pos rfl, headersEnd_cut (Nat.zero_le _) (by simp), List.take_zero]
          simp [run, decodeUtf8_utf8 [], ← utf8_nil]
        · simpa using hs.symm
      obtain ⟨d₁, left₁, hread, hsplit⟩ := run_takeReadLine_eof harr budget buf d
      rw [hs] at hsplit hread
      rcases stream_cases budget (utf8 t) with hlf | ⟨hlong, hno⟩ | ⟨hshort, hno⟩
      · have hterm := terminated_lineOf hlf
        have hle := length_lineOf_le budget (utf8 t)
        obtain ⟨first, more, hfirst, hmore⟩ := utf8_eq_append hterm hsplit
        rw [hfirst] at hterm hle hread hsplit
        have hfull : 0 < (utf8 first).length := List.length_pos_of_mem (lf_mem_of_terminated hterm)
        have hne := ne_nil_of_terminated hterm
        have hround := run_readHeaders_round rounds hpos hmax hread
        rw [decodeLine_utf8, headerRound_text hne hle, endsWithNewline_of_terminated hterm,
          Bool.not_true, Bool.and_false, if_neg Bool.false_ne_true] at hround
        cases hblank : isBlankLine (utf8 first) with
        | true =>
            refine ⟨d₁, left₁, ?_, utf8 first, hle, hsplit⟩
            rw [hround, if_pos hblank, hsplit, headersEnd,
              if_pos (headersFit_blank hterm hblank hle _)]
            rfl
        | false =>
            have hrounds' : budget - (utf8 first).length < rounds := by omega
            obtain ⟨d₂, left, hrun, used, hused, hrest⟩ := ih hrounds' (by omega) hmore
            refine ⟨d₁ ++ d₂, left, ?_, utf8 first ++ used, ?_, ?_⟩
            · rw [hround, if_neg (by simp [hblank]), hrun, hsplit, hmore,
                headersEnd_line rfl hterm hblank hle, List.append_assoc]
            · rw [List.length_append]
              omega
            · rw [hsplit, hmore, hrest, List.append_assoc]
              simp only [List.append_assoc]
      · rw [lineOf_eq_take hno] at hsplit hread
        refine ⟨d₁, left₁, run_readHeaders_cut rounds hpos hmax hlong hno hread,
          (utf8 t).take budget, ?_, hsplit⟩
        rw [List.length_take]
        exact Nat.min_le_left _ _
      · rw [lineOf_eq_self hshort hno] at hsplit hread
        have hdone : left₁ ++ toCome c chunks (d ++ d₁) = utf8 [] :=
          List.self_eq_append_right.mp hsplit
        have hround := run_readHeaders_round rounds hpos hmax hread
        rw [decodeLine_utf8] at hround
        rw [headersEnd_short hshort]
        by_cases hnil : t = []
        · refine ⟨d₁, left₁, ?_, utf8 t, Nat.le_of_lt hshort, hsplit⟩
          rw [hround, hnil]
          rfl
        · have hlen : 0 < (utf8 t).length :=
            List.length_pos_of_ne_nil fun h0 => hnil (utf8_eq_nil h0)
          have hplain : isBlankLine (utf8 t) = false := by
            simp only [isBlankLine, Bool.or_eq_false_iff, decide_eq_false_iff_not]
            refine ⟨fun heq => ?_, fun heq => ?_⟩ <;> exact hno (by rw [heq]; decide)
          rw [headerRound_text hnil (Nat.le_of_lt hshort), if_neg (by simp; omega),
            if_neg (by simp [hplain])] at hround
          have hrounds' : budget - (utf8 t).length < rounds := by omega
          obtain ⟨d₂, left, hrun, used, hused, hrest⟩ := ih (t := []) hrounds' (by omega) hdone
          rw [headersEnd_short (by simp; omega)] at hrun
          refine ⟨d₁ ++ d₂, left, ?_, utf8 t ++ used, ?_, ?_⟩
          · rw [hround, hrun, List.append_assoc]
          · rw [List.length_append]
            omega
          · rw [← List.append_assoc d, List.append_assoc, ← hrest]
            exact (List.append_nil _).symm

/-! ## The request -/

def firstLine (s : Bytes) : Bytes := (linesOf s).head?.getD []

def afterFirstLine (s : Bytes) : Bytes := s.drop (firstLine s).length

/-- The first line with its line feed is within the limit, or the stream ends
before. -/
def LineFits (s : Bytes) : Prop :=
  (lf ∈ firstLine s ∧ (firstLine s).length ≤ maxRequestLineBytes) ∨
    (lf ∉ s ∧ s.length < maxRequestLineBytes)

instance (s : Bytes) : Decidable (LineFits s) :=
  inferInstanceAs (Decidable (_ ∨ _))

/-- What `read_request` makes of the stream `s`. -/
def requestEnd (s : Bytes) : RequestRead :=
  if s = [] then .parsed .connectionClosed
  else if LineFits s then
    (headersEnd maxHeaderBytes (afterFirstLine s)).getD
      (.parsed (requestOf ((decodeUtf8 (firstLine s)).getD [])))
  else if (decodeUtf8 (s.take maxRequestLineBytes)).isSome then .parsed .malformed
  else .failed .invalidData

section FirstLine

variable {s line : Bytes}

theorem firstLine_append (hterm : Terminated line) (rest : Bytes) :
    firstLine (line ++ rest) = line := by
  rw [firstLine, linesOf_append hterm]
  rfl

theorem afterFirstLine_append (hterm : Terminated line) (rest : Bytes) :
    afterFirstLine (line ++ rest) = rest := by
  rw [afterFirstLine, firstLine_append hterm, List.drop_left]

theorem firstLine_tail (hno : lf ∉ s) : firstLine s = s := by
  by_cases hne : s = []
  · rw [hne]
    rfl
  · rw [firstLine, linesOf_tail hno hne]
    rfl

theorem afterFirstLine_tail (hno : lf ∉ s) : afterFirstLine s = [] := by
  rw [afterFirstLine, firstLine_tail hno, List.drop_length]

theorem lineFits_append (hterm : Terminated line) (hle : line.length ≤ maxRequestLineBytes)
    (rest : Bytes) : LineFits (line ++ rest) := by
  rw [LineFits, firstLine_append hterm]
  exact Or.inl ⟨lf_mem_of_terminated hterm, hle⟩

theorem not_lineFits (hlong : maxRequestLineBytes ≤ s.length)
    (hno : lf ∉ s.take maxRequestLineBytes) : ¬LineFits s := by
  rintro (⟨hlf, hle⟩ | ⟨-, hshort⟩)
  · have hstart : firstLine s <+: s := by
      nth_rewrite 2 [← flatten_linesOf s]
      rw [firstLine]
      cases linesOf s with
      | nil => exact List.nil_prefix
      | cons l ls => exact List.prefix_append l ls.flatten
    exact hno ((List.prefix_take_iff.mpr ⟨hstart, hle⟩).subset hlf)
  · omega

end FirstLine

/-- Past a request line that is not cut, the headers are read. -/
theorem run_readRequest_line {buf left : Bytes} {line : Text} {h₀ h₁ : History Io}
    (hne : line ≠ [])
    (hcut : ((utf8 line).length = maxRequestLineBytes && !endsWithNewline line) = false)
    (hread : run env (takeReadLine c maxRequestLineBytes [] buf) h₀ = (.ret (.text line, left), h₁))
    {r : Option RequestRead} {left' : Bytes} {h₂ : History Io}
    (hheaders : run env (readHeaders c (maxHeaderBytes + 1) maxHeaderBytes left) h₁ =
      (.ret (r, left'), h₂)) :
    run env (readRequest c buf) h₀ = (.ret (r.getD (.parsed (requestOf line)), left'), h₂) := by
  have hlen : (utf8 line).length ≠ 0 := fun h0 =>
    hne (utf8_eq_nil (List.eq_nil_of_length_eq_zero h0))
  simp only [readRequest, Prog.bind_eq, run_bind, hread, if_neg hlen, hcut, Bool.false_eq_true,
    if_false, hheaders]
  cases r <;> rfl

/-- The limit is reached within the request line. -/
theorem run_readRequest_cut {buf left s : Bytes} {h₀ h₁ : History Io}
    (hlong : maxRequestLineBytes ≤ s.length) (hno : lf ∉ s.take maxRequestLineBytes)
    (hread : run env (takeReadLine c maxRequestLineBytes [] buf) h₀ =
      (.ret (decodeLine (s.take maxRequestLineBytes), left), h₁)) :
    run env (readRequest c buf) h₀ = (.ret (requestEnd s, left), h₁) := by
  have hne : s ≠ [] := by
    rintro rfl
    cases hlong
  rw [requestEnd, if_neg hne, if_neg (not_lineFits hlong hno)]
  cases hdec : decodeUtf8 (s.take maxRequestLineBytes) with
  | none =>
      rw [decodeLine, hdec] at hread
      simp only [readRequest, Prog.bind_eq, run_bind, hread]
      rfl
  | some cut =>
      have hcut := decodeUtf8_eq_some.mp hdec
      have hlen : (utf8 cut).length = maxRequestLineBytes := by
        rw [← hcut, List.length_take, Nat.min_eq_left hlong]
      rw [hcut] at hno
      rw [decodeLine, hdec] at hread
      simp only [readRequest, Prog.bind_eq, run_bind, hread]
      rw [if_neg (by rw [hlen]; decide), if_pos (by simp [hlen, endsWithNewline_of_no_lf hno])]
      rfl

/-- **`read_request`**, for any chunks: it ends, on the bytes alone, and uses at most
the two limits together. -/
theorem run_readRequest (harr : Arrives env c h chunks .eof) {t : Text}
    (hs : chunkBytes chunks = utf8 t) :
    ∃ d left, run env (readRequest c []) h = (.ret (requestEnd (utf8 t), left), h ++ d) ∧
      UsesAtMost (maxRequestLineBytes + maxHeaderBytes) (utf8 t) (left ++ toCome c chunks d) := by
  obtain ⟨d₁, left₁, hread, hsplit⟩ := run_takeReadLine_eof harr maxRequestLineBytes [] []
  have hcome : toCome c chunks [] = utf8 t := by
    rw [← hs]
    rfl
  rw [hcome, List.nil_append] at hsplit
  rw [hcome, List.nil_append, List.append_nil, List.nil_append] at hread
  rw [List.nil_append] at hsplit
  rcases stream_cases maxRequestLineBytes (utf8 t) with hlf | ⟨hlong, hno⟩ | ⟨hshort, hno⟩
  · have hterm := terminated_lineOf hlf
    have hle := length_lineOf_le maxRequestLineBytes (utf8 t)
    obtain ⟨line, more, hline, hmore⟩ := utf8_eq_append hterm hsplit
    rw [hline] at hterm hle hsplit hread
    rw [decodeLine_utf8] at hread
    have hne := ne_nil_of_terminated hterm
    obtain ⟨d₂, left, hheaders, used, hused, hrest⟩ :=
      run_readHeaders harr (Nat.lt_succ_self _) (Nat.le_refl maxHeaderBytes) hmore
    refine ⟨d₁ ++ d₂, left, ?_, utf8 line ++ used, ?_, ?_⟩
    · rw [run_readRequest_line hne (by simp [endsWithNewline_of_terminated hterm]) hread hheaders,
        hsplit, hmore, requestEnd,
        if_neg (List.append_ne_nil_of_left_ne_nil (mt utf8_eq_nil hne) _), if_pos (lineFits_append hterm hle _), afterFirstLine_append hterm, firstLine_append hterm,
        decodeUtf8_utf8]
      rfl
    · rw [List.length_append]
      omega
    · rw [hsplit, hmore, hrest, List.append_assoc]
  · rw [lineOf_eq_take hno] at hsplit hread
    refine ⟨d₁, left₁, run_readRequest_cut hlong hno hread, (utf8 t).take maxRequestLineBytes, ?_,
      hsplit⟩
    rw [List.length_take]
    omega
  · rw [lineOf_eq_self hshort hno] at hsplit hread
    rw [decodeLine_utf8] at hread
    have hdone : left₁ ++ toCome c chunks d₁ = utf8 [] := List.self_eq_append_right.mp hsplit
    by_cases hnil : t = []
    · refine ⟨d₁, left₁, ?_, utf8 t, by omega, hsplit⟩
      simp only [readRequest, Prog.bind_eq, run_bind, hread]
      rw [hnil]
      rfl
    · obtain ⟨d₂, left, hheaders, used, hused, hrest⟩ :=
        run_readHeaders harr (Nat.lt_succ_self _) (Nat.le_refl maxHeaderBytes) hdone
      have hfits : LineFits (utf8 t) := Or.inr ⟨hno, hshort⟩
      refine ⟨d₁ ++ d₂, left, ?_, utf8 t ++ used, ?_, ?_⟩
      · rw [run_readRequest_line hnil (by simp; omega) hread hheaders, requestEnd,
          if_neg (mt utf8_eq_nil hnil), if_pos hfits, afterFirstLine_tail hno, firstLine_tail hno,
          decodeUtf8_utf8]
        rfl
      · rw [List.length_append]
        omega
      · nth_rewrite 1 [hsplit]
        rw [hdone, hrest, List.append_assoc]

/-! ## The limits are exact -/

/-- A request that fits, with a word on its first line. -/
structure Served (s : Bytes) (method path : Text) : Prop where
  line : LineFits s
  headers : HeadersFit maxHeaderBytes (afterFirstLine s)
  words : ∃ line, firstLine s = utf8 line ∧ (splitWhitespace line).head? = some method ∧
    (splitWhitespace line)[1]?.getD [] = path

/-- The reader is bounded, and its answer is exact for the stream `s`. -/
def ExactlyBounded (env : Env Io) (c : Conn) (h : History Io) (chunks : List (UInt8 × Bytes))
    (s : Bytes) : Prop :=
  ∃ result left d, run env (readRequest c []) h = (.ret (result, left), h ++ d) ∧
    UsesAtMost 16384 s (left ++ toCome c chunks d) ∧ result ≠ .underflow ∧
    (result = .parsed .connectionClosed ↔ s = []) ∧
    (∀ method path, result = .parsed (.ok method path) ↔ Served s method path) ∧
    (s ≠ [] → (∀ method path, ¬Served s method path) → result = .parsed .malformed)

/-- Where a limit cuts the stream, it does so between two characters. -/
structure CutsBetween (s : Bytes) : Prop where
  line : ¬LineFits s → (decodeUtf8 (s.take maxRequestLineBytes)).isSome
  headers : LineFits s → ¬HeadersFit maxHeaderBytes (afterFirstLine s) →
    (decodeUtf8 ((afterFirstLine s).take maxHeaderBytes)).isSome

theorem splitWhitespace_ne_nil {t word : Text} (h : word ∈ splitWhitespace t) : word ≠ [] := by
  obtain ⟨-, hword⟩ := List.mem_filter.mp h
  simpa using hword

/-- The words of a request line that `read_request` returns. -/
theorem requestOf_eq_ok {line method path : Text} :
    requestOf line = .ok method path ↔ (splitWhitespace line).head? = some method ∧
      (splitWhitespace line)[1]?.getD [] = path := by
  unfold requestOf
  cases hwords : splitWhitespace line with
  | nil => simp
  | cons word words =>
      have hne : word ≠ [] := splitWhitespace_ne_nil (hwords ▸ List.mem_cons_self)
      simp [hne]

theorem requestOf_cases (line : Text) :
    requestOf line = .malformed ∨ ∃ method path, requestOf line = .ok method path := by
  unfold requestOf
  dsimp only
  split
  · exact Or.inl rfl
  · exact Or.inr ⟨_, _, rfl⟩

theorem firstLine_utf8 (t : Text) : ∃ line, firstLine (utf8 t) = utf8 line := by
  by_cases hlf : lf ∈ utf8 t
  · obtain ⟨body, rest, hsplit, hbody⟩ := List.eq_append_cons_of_mem hlf
    have hterm : Terminated (body ++ [lf]) := ⟨body, hbody, rfl⟩
    rw [List.append_cons] at hsplit
    obtain ⟨line, -, hline, -⟩ := utf8_eq_append hterm hsplit
    exact ⟨line, by rw [hsplit, firstLine_append hterm, hline]⟩
  · exact ⟨t, firstLine_tail hlf⟩

def RequestFits (s : Bytes) : Prop := LineFits s ∧ HeadersFit maxHeaderBytes (afterFirstLine s)

instance (s : Bytes) : Decidable (RequestFits s) :=
  inferInstanceAs (Decidable (_ ∧ _))

/-- A request that fits is cut nowhere. -/
theorem cutsBetween_of_fits {s : Bytes} (hfits : RequestFits s) : CutsBetween s :=
  ⟨absurd hfits.1, fun _ => absurd hfits.2⟩

/-- A request that does not fit is cut at one of the limits. -/
theorem requestEnd_cases {t : Text} (hne : utf8 t ≠ []) :
    (RequestFits (utf8 t) ∧ CutsBetween (utf8 t) ∧ ∃ line, firstLine (utf8 t) = utf8 line ∧
        requestEnd (utf8 t) = .parsed (requestOf line)) ∨
      (¬RequestFits (utf8 t) ∧ CutsBetween (utf8 t) ∧
        requestEnd (utf8 t) = .parsed .malformed) ∨
      (¬RequestFits (utf8 t) ∧ ¬CutsBetween (utf8 t) ∧
        requestEnd (utf8 t) = .failed .invalidData) := by
  obtain ⟨line, hline⟩ := firstLine_utf8 t
  rw [requestEnd, if_neg hne]
  by_cases hfits : LineFits (utf8 t)
  · rw [if_pos hfits, headersEnd]
    by_cases hheaders : HeadersFit maxHeaderBytes (afterFirstLine (utf8 t))
    · have hall : RequestFits (utf8 t) := ⟨hfits, hheaders⟩
      refine Or.inl ⟨hall, cutsBetween_of_fits hall, line, hline, ?_⟩
      rw [if_pos hheaders, hline, decodeUtf8_utf8]
      rfl
    · have hnot : ¬RequestFits (utf8 t) := fun hall => hheaders hall.2
      rw [if_neg hheaders]
      by_cases hcut : (decodeUtf8 ((afterFirstLine (utf8 t)).take maxHeaderBytes)).isSome
      · refine Or.inr (Or.inl ⟨hnot, ⟨absurd hfits, fun _ _ => hcut⟩, ?_⟩)
        rw [if_pos hcut]
        rfl
      · refine Or.inr (Or.inr ⟨hnot, fun hall => hcut (hall.headers hfits hheaders), ?_⟩)
        rw [if_neg hcut]
        rfl
  · have hnot : ¬RequestFits (utf8 t) := fun hall => hfits hall.1
    rw [if_neg hfits]
    by_cases hcut : (decodeUtf8 ((utf8 t).take maxRequestLineBytes)).isSome
    · exact Or.inr (Or.inl ⟨hnot, ⟨fun _ => hcut, fun h => absurd h hfits⟩, if_pos hcut⟩)
    · exact Or.inr (Or.inr ⟨hnot, fun hall => hcut (hall.line hfits), if_neg hcut⟩)

theorem Served.fits {s : Bytes} {method path : Text} (hserved : Served s method path) :
    RequestFits s :=
  ⟨hserved.line, hserved.headers⟩

theorem not_served_nil (method path : Text) : ¬Served [] method path := by
  rintro ⟨-, -, line, hline, hhead, -⟩
  have hnil : line = [] := utf8_eq_nil hline.symm
  rw [hnil] at hhead
  cases hhead

/-- The answer is the one the request asks for, but for a cut within a character. -/
theorem requestEnd_ok_iff (t method path : Text) :
    requestEnd (utf8 t) = .parsed (.ok method path) ↔ Served (utf8 t) method path := by
  by_cases hne : utf8 t = []
  · rw [hne]
    exact ⟨nofun, fun h => absurd h (not_served_nil method path)⟩
  rcases requestEnd_cases hne with ⟨hfits, -, line, hline, hend⟩ | ⟨hnot, -, hend⟩ | ⟨hnot, -, hend⟩
  · rw [hend, RequestRead.parsed.injEq, requestOf_eq_ok]
    constructor
    · exact fun hwords => ⟨hfits.1, hfits.2, line, hline, hwords⟩
    · rintro ⟨-, -, line', hline', hwords⟩
      rwa [← utf8_injective (hline.symm.trans hline')] at hwords
  · rw [hend]
    exact ⟨fun h => by simp at h, fun h => absurd h.fits hnot⟩
  · rw [hend]
    exact ⟨fun h => by simp at h, fun h => absurd h.fits hnot⟩

theorem requestEnd_closed_iff (t : Text) :
    requestEnd (utf8 t) = .parsed .connectionClosed ↔ utf8 t = [] := by
  constructor
  · intro hend
    by_contra hne
    rcases requestEnd_cases hne with ⟨-, -, line, -, h⟩ | ⟨-, -, h⟩ | ⟨-, -, h⟩
    · rw [hend, RequestRead.parsed.injEq] at h
      rcases requestOf_cases line with h' | ⟨_, _, h'⟩ <;> simp [h'] at h
    · simp [hend] at h
    · simp [hend] at h
  · intro hnil
    rw [hnil]
    rfl

/-- What is not served is `Malformed` exactly if no limit cuts a character. -/
theorem requestEnd_malformed_iff {t : Text} (hne : utf8 t ≠ [])
    (hnot : ∀ method path, ¬Served (utf8 t) method path) :
    requestEnd (utf8 t) = .parsed .malformed ↔ CutsBetween (utf8 t) := by
  rcases requestEnd_cases hne with ⟨-, hcuts, line, -, hend⟩ | ⟨-, hcuts, hend⟩ | ⟨-, hcuts, hend⟩
  · refine iff_of_true ?_ hcuts
    rcases requestOf_cases line with h | ⟨method, path, h⟩
    · rw [hend, h]
    · exact absurd ((requestEnd_ok_iff t method path).mp (by rw [hend, h])) (hnot method path)
  · exact iff_of_true hend hcuts
  · exact iff_of_false (by simp [hend]) hcuts

theorem requestEnd_ne_underflow (t : Text) : requestEnd (utf8 t) ≠ .underflow := by
  by_cases hne : utf8 t = []
  · rw [hne]
    exact nofun
  rcases requestEnd_cases hne with ⟨-, -, _, -, h⟩ | ⟨-, -, h⟩ | ⟨-, -, h⟩
  all_goals
    rw [h]
    exact nofun

/-- **The request reader is exactly bounded** for a stream of whole characters if and
only if none of its limits cuts a character. -/
theorem readRequest_exactly_bounded_iff (harr : Arrives env c h chunks .eof) {t : Text}
    (hs : chunkBytes chunks = utf8 t) :
    ExactlyBounded env c h chunks (utf8 t) ↔ CutsBetween (utf8 t) := by
  obtain ⟨d, left, hrun, huses⟩ := run_readRequest harr hs
  constructor
  · rintro ⟨result, left', d', hrun', -, -, -, hok, hother⟩
    obtain ⟨⟨rfl, -⟩, -⟩ : (requestEnd (utf8 t) = result ∧ left = left') ∧ h ++ d = h ++ d' := by
      simpa only [Prod.mk.injEq, Outcome.ret.injEq] using hrun.symm.trans hrun'
    by_cases hne : utf8 t = []
    · rw [hne]
      exact cutsBetween_of_fits ⟨Or.inr ⟨by simp, by decide⟩, Or.inl (by decide)⟩
    by_cases hserved : ∃ method path, Served (utf8 t) method path
    · obtain ⟨method, path, hserved⟩ := hserved
      exact cutsBetween_of_fits hserved.fits
    · have hnot : ∀ method path, ¬Served (utf8 t) method path :=
        fun method path h => hserved ⟨method, path, h⟩
      exact (requestEnd_malformed_iff hne hnot).mp (hother hne hnot)
  · intro hcuts
    exact ⟨_, left, d, hrun, huses, requestEnd_ne_underflow t, requestEnd_closed_iff t,
      requestEnd_ok_iff t, fun hne hnot => (requestEnd_malformed_iff hne hnot).mpr hcuts⟩

/-- A request of a scraper, in two pieces. -/
theorem readRequest_exactly_bounded_scrape :
    ExactlyBounded (feeder (chunksOf ["GET /met", "rics HTTP/1.1\r\nHost: gw\r\n\r\n"])) .client []
      (chunksOf ["GET /met", "rics HTTP/1.1\r\nHost: gw\r\n\r\n"])
      (utf8 "GET /metrics HTTP/1.1\r\nHost: gw\r\n\r\n".toList) := by
  refine (readRequest_exactly_bounded_iff (arrives_feeder _ _) ?_).mpr (cutsBetween_of_fits ?_)
  · decide +kernel
  · decide +kernel

/-- A word of 8193 bytes, whose last character is the bytes 8192 and 8193. -/
def longWord : Text := List.replicate 8191 'a' ++ ['é']

def longWordChunks : List (UInt8 × Bytes) := [(97, List.replicate 8190 97 ++ [0xC3, 0xA9])]

theorem utf8_replicate (n : Nat) : utf8 (List.replicate n 'a') = List.replicate n 97 := by
  induction n with
  | zero => rfl
  | succ n ih =>
      rw [List.replicate_succ, List.replicate_succ, ← ih]
      rfl

theorem utf8_longWord : utf8 longWord = List.replicate 8191 97 ++ [0xC3, 0xA9] := by
  rw [longWord, utf8_append, utf8_replicate]
  rfl

theorem chunkBytes_longWordChunks : chunkBytes longWordChunks = utf8 longWord := by
  rw [utf8_longWord, longWordChunks, chunkBytes, List.flatMap_singleton, ← List.cons_append,
    ← List.replicate_succ]

theorem take_longWord :
    (utf8 longWord).take maxRequestLineBytes = utf8 (List.replicate 8191 'a') ++ [0xC3] := by
  rw [utf8_longWord, utf8_replicate, List.take_append, List.length_replicate,
    List.take_of_length_le (by rw [List.length_replicate]; decide)]
  rfl

theorem requestEnd_longWord : requestEnd (utf8 longWord) = .failed .invalidData := by
  have hlong : maxRequestLineBytes ≤ (utf8 longWord).length := by
    rw [utf8_longWord, List.length_append, List.length_replicate]
    decide
  have hno : lf ∉ (utf8 longWord).take maxRequestLineBytes := by
    rw [take_longWord, utf8_replicate, List.mem_append, List.mem_replicate]
    decide
  have hcut : decodeUtf8 ((utf8 longWord).take maxRequestLineBytes) = none := by
    rw [take_longWord, decodeUtf8_append]
    rfl
  have hne : utf8 longWord ≠ [] := by
    rw [utf8_longWord]
    exact List.append_ne_nil_of_right_ne_nil _ nofun
  rw [requestEnd, if_neg hne, if_neg (not_lineFits hlong hno), hcut]
  rfl

/-- The limit falls within the last character: the reader fails where the answer
should be `Malformed`. -/
theorem longWord_fails :
    Arrives (feeder longWordChunks) .client [] longWordChunks .eof ∧
      chunkBytes longWordChunks = utf8 longWord ∧
      (∃ left d, run (feeder longWordChunks) (readRequest .client []) [] =
        (.ret (.failed .invalidData, left), d)) ∧
      ¬ExactlyBounded (feeder longWordChunks) .client [] longWordChunks (utf8 longWord) := by
  obtain ⟨d, left, hrun, -⟩ :=
    run_readRequest (arrives_feeder .client longWordChunks) chunkBytes_longWordChunks
  rw [requestEnd_longWord] at hrun
  refine ⟨arrives_feeder _ _, chunkBytes_longWordChunks, ⟨left, _, hrun⟩, ?_⟩
  rintro ⟨result, left', d', hrun', -, -, hclosed, hok, hother⟩
  obtain ⟨⟨rfl, -⟩, -⟩ : (.failed .invalidData = result ∧ left = left') ∧ [] ++ d = [] ++ d' := by
    simpa only [Prod.mk.injEq, Outcome.ret.injEq] using hrun.symm.trans hrun'
  have hne : utf8 longWord ≠ [] := fun hnil => by simpa using hclosed.mpr hnil
  have hnot : ∀ method path, ¬Served (utf8 longWord) method path :=
    fun method path hserved => by simpa using (hok method path).mpr hserved
  simpa using hother hne hnot

end FtpGateway
