import FtpGateway.PassiveCodec
import FtpGateway.Prometheus
import FtpGateway.PyStr

/-!
# The CloudWatch script reads the `/metrics` text

`samples/cloudwatch_metrics.py`: `parse_prometheus_text`, which turns the text
back into samples. Where the script holds an index into the line, `parseLabels`
and `readValue` hold the rest of the line from there on.

`Metrics.series` lists the samples that the text was rendered from. The text is
a list of lines (`Metrics.render_eq`), of which the script takes the samples and
skips the comments, so what it reads is that list
(`parsePrometheusText_render`). A backend's name may hold any character but the
line boundaries of Python other than the line feed, the only one of them that is
escaped.
-/

namespace FtpGateway

open Str

/-! ## The script -/

/-- A `dict` of labels, in the order of insertion. -/
abbrev Labels := List (Text × Text)

/-- `labels[name] = value`. -/
def Labels.set (labels : Labels) (name value : Text) : Labels :=
  match labels with
  | [] => [(name, value)]
  | (n, v) :: labels =>
      if n = name then (name, value) :: labels else (n, v) :: Labels.set labels name value

structure Sample where
  name : Text
  labels : Labels
  value : Rat
deriving DecidableEq

/-- `escapes`. -/
def unescape (c : Char) : Option Char :=
  if c = '\\' then some '\\' else if c = '"' then some '"' else if c = 'n' then some '\n' else none

/-- The inner loop of `parse_labels`: a label's value up to its closing quote, and
the rest of the line. -/
def readValue : Text → Option (Text × Text)
  | [] => none
  | ch :: rest =>
      if ch = '\\' then
        match rest with
        | [] => none
        | e :: rest =>
            match unescape e with
            | none => none
            | some c => (readValue rest).map fun (value, rest) => (c :: value, rest)
      else if ch = '"' then some ([], rest)
      else (readValue rest).map fun (value, rest) => (ch :: value, rest)

theorem readValue_length {t value rest : Text} (h : readValue t = some (value, rest)) :
    rest.length < t.length := by
  fun_induction readValue t generalizing value with
  | case1 => cases h
  | case2 => cases h
  | case3 => cases h
  | case4 e t c hc ih =>
      obtain ⟨⟨v, r⟩, hr, heq⟩ := Option.map_eq_some_iff.mp h
      obtain ⟨-, rfl⟩ := Prod.mk.injEq .. |>.mp heq
      have := ih hr
      simp only [List.length_cons]
      omega
  | case5 t hb =>
      obtain ⟨-, rfl⟩ := Prod.mk.injEq .. |>.mp (Option.some.inj h)
      exact Nat.lt_succ_self _
  | case6 ch t hb hq ih =>
      obtain ⟨⟨v, r⟩, hr, heq⟩ := Option.map_eq_some_iff.mp h
      obtain ⟨-, rfl⟩ := Prod.mk.injEq .. |>.mp heq
      have := ih hr
      simp only [List.length_cons]
      omega

def skipSpaces (t : Text) : Text := t.dropWhile (· = ' ')

def skipComma : Text → Text
  | ',' :: t => t
  | t => t

theorem length_skipSpaces_le (t : Text) : (skipSpaces t).length ≤ t.length :=
  (List.dropWhile_sublist _).length_le

theorem length_skipComma_le (t : Text) : (skipComma t).length ≤ t.length := by
  unfold skipComma
  split
  · exact Nat.le_succ _
  · exact Nat.le_refl _

/-- One round of `parse_labels` past the spaces: a label's name and value, and
where the next round starts. -/
def readLabel (rest : Text) : Option (Text × Text × Text) :=
  match splitOnce '=' rest with
  | some (name, '"' :: t) =>
      match readValue t with
      | none => none
      | some (value, t) =>
          if Py.strip name = [] then none
          else some (Py.strip name, value, skipComma (skipSpaces t))
  | _ => none

theorem readLabel_length {t name value rest : Text}
    (h : readLabel t = some (name, value, rest)) : rest.length < t.length := by
  unfold readLabel at h
  split at h
  · rename_i before after hsplit
    split at h
    · cases h
    · rename_i value' after' hread
      split at h
      · cases h
      · obtain ⟨-, hrest⟩ := Prod.mk.injEq .. |>.mp (Option.some.inj h)
        obtain ⟨-, rfl⟩ := Prod.mk.injEq .. |>.mp hrest
        obtain ⟨rfl, -⟩ := splitOnce_eq_some.mp hsplit
        have hlt := readValue_length hread
        have hcomma := length_skipComma_le (skipSpaces after')
        have hspaces := length_skipSpaces_le after'
        simp only [List.length_append, List.length_cons]
        omega
  · cases h

/-- `parse_labels` from the rest of the line on. The labels it has, and what
follows the closing brace. -/
def parseLabels (labels : Labels) (rest : Text) : Option (Labels × Text) :=
  match _hskip : skipSpaces rest with
  | [] => none
  | c :: t =>
      if c = '\x7d' then some (labels, t)
      else
        match _hread : readLabel (c :: t) with
        | none => none
        | some (name, value, rest') => parseLabels (labels.set name value) rest'
termination_by rest.length
decreasing_by
  have hle := length_skipSpaces_le rest
  rw [_hskip] at hle
  exact Nat.lt_of_lt_of_le (readLabel_length _hread) hle

/-- What `parse_sample_line` makes of a name, labels and the text of a value. -/
def sampleOf (name : Text) (labels : Labels) (rawValue : Text) : Option Sample :=
  match Py.float rawValue with
  | some (.finite value) => if name = [] then none else some ⟨name, labels, value⟩
  | _ => none

def parseSampleLine (line : Text) : Option Sample :=
  match Py.find line '\x7b' with
  | none => plain
  | some brace =>
      if (Py.find line ' ').any (· < brace) then plain
      else
        match parseLabels [] (line.drop (brace + 1)) with
        | none => none
        | some (labels, rest) =>
            match Py.split rest with
            | [rawValue] => sampleOf (line.take brace) labels rawValue
            | [rawValue, _] => sampleOf (line.take brace) labels rawValue
            | _ => none
where
  -- `name value [timestamp]`
  plain : Option Sample :=
    match Py.split line with
    | [name, rawValue] => sampleOf name [] rawValue
    | [name, rawValue, _] => sampleOf name [] rawValue
    | _ => none

/-- What the loop of `parse_prometheus_text` appends for a line. -/
def sampleOfLine (line : Text) : Option Sample :=
  let line := Py.strip line
  if line = [] || line.head? = some '#' then none else parseSampleLine line

def parsePrometheusText (text : Text) : List Sample := (Py.splitlines text).filterMap sampleOfLine

/-! ## Names and values -/

/-- The characters of metric and label names. -/
def isNameChar (c : Char) : Bool := c.isLower || c = '_'

def NameOk (name : Text) : Prop := name ≠ [] ∧ name.all isNameChar = true

theorem notMem_of_nameOk {name : Text} (h : NameOk name) {c : Char} (hc : isNameChar c = false) :
    c ∉ name := by
  intro hmem
  rw [List.all_eq_true.mp h.2 c hmem] at hc
  cases hc

theorem toNat_of_isNameChar {c : Char} (h : isNameChar c = true) :
    95 ≤ c.toNat ∧ c.toNat ≤ 122 := by
  rw [isNameChar, Bool.or_eq_true] at h
  rcases h with h | h
  · have hrange : (decide (c.val ≥ 'a'.val) && decide (c.val ≤ 'z'.val)) = true := h
    simp only [Bool.and_eq_true, decide_eq_true_eq] at hrange
    have hlo : 97 ≤ c.toNat := UInt32.le_iff_toNat_le.mp hrange.1
    have hhi : c.toNat ≤ 122 := UInt32.le_iff_toNat_le.mp hrange.2
    omega
  · obtain rfl := of_decide_eq_true h
    decide

theorem isSpace_of_isNameChar {c : Char} (h : isNameChar c = true) : Py.isSpace c = false := by
  have := toNat_of_isNameChar h
  simp only [Py.isSpace, Bool.or_eq_false_iff, Bool.and_eq_false_iff, decide_eq_false_iff_not]
  omega

theorem isLineBoundary_of_isNameChar {c : Char} (h : isNameChar c = true) :
    Py.isLineBoundary c = false := by
  have := toNat_of_isNameChar h
  simp only [Py.isLineBoundary, Bool.or_eq_false_iff, Bool.and_eq_false_iff,
    decide_eq_false_iff_not]
  omega

theorem isSpace_of_mem_name {name : Text} (h : NameOk name) {c : Char} (hc : c ∈ name) :
    Py.isSpace c = false :=
  isSpace_of_isNameChar (List.all_eq_true.mp h.2 c hc)

theorem isDigit_of_mem_decimal {n : Nat} {c : Char} (h : c ∈ decimal n) : c.isDigit = true :=
  List.all_eq_true.mp (decimal_digits n).2.1 c h

theorem split_decimal (n : Nat) : Py.split (decimal n) = [decimal n] :=
  Py.split_word (decimal_digits n).1 fun _ hc => Py.isSpace_digit (isDigit_of_mem_decimal hc)

theorem float_decimal (v : UInt64) :
    Py.float (decimal v.toNat) = some (.finite v.toNat) := by
  obtain ⟨hne, hall, hvalue⟩ := decimal_digits v.toNat
  have hdigits : Py.digitsValue (decimal v.toNat) = v.toNat := hvalue.symm
  have h := Py.float_digits hne hall (by rw [hdigits]; exact Py.lt_firstInfinite v.toNat_lt)
  rwa [hdigits] at h

theorem sampleOf_decimal {name : Text} (h : NameOk name) (labels : Labels) (v : UInt64) :
    sampleOf name labels (decimal v.toNat) = some ⟨name, labels, v.toNat⟩ := by
  rw [sampleOf, float_decimal]
  exact if_neg h.1

/-! ## Labels -/

theorem readValue_cons {c : Char} (hb : c ≠ '\\') (hq : c ≠ '"') (t : Text) :
    readValue (c :: t) = (readValue t).map fun (value, rest) => (c :: value, rest) := by
  rw [readValue.eq_def]
  simp only [if_neg hb, if_neg hq]

theorem readValue_escape {e c : Char} (h : unescape e = some c) (t : Text) :
    readValue ('\\' :: e :: t) = (readValue t).map fun (value, rest) => (c :: value, rest) := by
  rw [readValue.eq_def]
  simp only [h, if_true]

theorem readValue_escapeLabelValue (value rest : Text) :
    readValue (escapeLabelValue value ++ '"' :: rest) = some (value, rest) := by
  induction value with
  | nil =>
      show readValue ('"' :: rest) = _
      rw [readValue.eq_def]
      rfl
  | cons c value ih =>
      rw [escapeLabelValue, List.flatMap_cons, List.append_assoc, ← escapeLabelValue,
        escapeLabelChar]
      split
      · rename_i hc
        subst hc
        show readValue ('\\' :: '\\' :: (escapeLabelValue value ++ '"' :: rest)) = _
        rw [readValue_escape rfl, ih]
        rfl
      rename_i hb
      split
      · rename_i hc
        subst hc
        show readValue ('\\' :: '"' :: (escapeLabelValue value ++ '"' :: rest)) = _
        rw [readValue_escape rfl, ih]
        rfl
      rename_i hq
      split
      · rename_i hc
        subst hc
        show readValue ('\\' :: 'n' :: (escapeLabelValue value ++ '"' :: rest)) = _
        rw [readValue_escape rfl, ih]
        rfl
      · show readValue (c :: (escapeLabelValue value ++ '"' :: rest)) = _
        rw [readValue_cons hb hq, ih]
        rfl

/-- An address needs no escaping. -/
theorem escapeLabelValue_eq_self {value : Text}
    (h : ∀ c ∈ value, c ≠ '\\' ∧ c ≠ '"' ∧ c ≠ '\n') : escapeLabelValue value = value := by
  induction value with
  | nil => rfl
  | cons c value ih =>
      rw [List.forall_mem_cons] at h
      obtain ⟨⟨hb, hq, hn⟩, hrest⟩ := h
      rw [escapeLabelValue, List.flatMap_cons, ← escapeLabelValue, ih hrest, escapeLabelChar,
        if_neg hb, if_neg hq, if_neg hn]
      rfl

theorem mem_ipv4_text {ip : Ipv4Addr} {c : Char} (h : c ∈ ip.text) :
    c.isDigit = true ∨ c = '.' := by
  simp only [Ipv4Addr.text, List.mem_append, List.mem_cons] at h
  rcases h with h | rfl | h | rfl | h | rfl | h
  · exact Or.inl (isDigit_of_mem_decimal h)
  · exact Or.inr rfl
  · exact Or.inl (isDigit_of_mem_decimal h)
  · exact Or.inr rfl
  · exact Or.inl (isDigit_of_mem_decimal h)
  · exact Or.inr rfl
  · exact Or.inl (isDigit_of_mem_decimal h)

theorem escapeLabelValue_ipv4 (ip : Ipv4Addr) : escapeLabelValue ip.text = ip.text := by
  refine escapeLabelValue_eq_self fun c hc => ?_
  refine ⟨?_, ?_, ?_⟩ <;>
  · rintro rfl
    rcases mem_ipv4_text hc with h | h <;> cases h

theorem skipSpaces_cons {c : Char} (h : c ≠ ' ') (t : Text) : skipSpaces (c :: t) = c :: t := by
  rw [skipSpaces, List.dropWhile_cons_of_neg (by simpa using h)]

theorem parseLabels_close (labels : Labels) (rest : Text) :
    parseLabels labels ('\x7d' :: rest) = some (labels, rest) := by
  rw [parseLabels.eq_def, skipSpaces_cons (by decide)]
  rfl

/-- A label `name="value"` with its value escaped. -/
def labelText (name value : Text) : Text :=
  name ++ '=' :: '"' :: (escapeLabelValue value ++ ['"'])

theorem readLabel_labelText {name : Text} (h : NameOk name) (value rest : Text) :
    readLabel (labelText name value ++ rest) =
      some (name, value, skipComma (skipSpaces rest)) := by
  have hsplit : splitOnce '=' (labelText name value ++ rest) =
      some (name, '"' :: (escapeLabelValue value ++ '"' :: rest)) :=
    splitOnce_eq_some.mpr ⟨by simp [labelText], notMem_of_nameOk h rfl⟩
  have hstrip : Py.strip name = name :=
    Py.strip_eq_self (fun c hc => isSpace_of_mem_name h (List.mem_of_mem_head? hc))
      fun c hc => isSpace_of_mem_name h (List.mem_of_getLast? hc)
  rw [readLabel, hsplit]
  simp only [readValue_escapeLabelValue, hstrip, if_neg h.1]

/-- One round of `parse_labels`. -/
theorem parseLabels_label {name : Text} (h : NameOk name) (labels : Labels) (value rest : Text) :
    parseLabels labels (labelText name value ++ rest) =
      parseLabels (labels.set name value) (skipComma (skipSpaces rest)) := by
  have hread := readLabel_labelText h value rest
  cases hname : name with
  | nil => exact absurd hname h.1
  | cons c name' =>
      subst hname
      have hc : isNameChar c = true := List.all_eq_true.mp h.2 c (List.mem_cons_self ..)
      have hspace : c ≠ ' ' := by
        rintro rfl
        cases hc
      have hbrace : c ≠ '\x7d' := by
        rintro rfl
        cases hc
      rw [parseLabels.eq_def]
      split
      · rename_i hskip
        rw [labelText, List.cons_append, List.cons_append, skipSpaces_cons hspace] at hskip
        cases hskip
      · rename_i d t hskip
        have hsame : d :: t = labelText (c :: name') value ++ rest := by
          rw [← hskip, labelText, List.cons_append, List.cons_append, skipSpaces_cons hspace]
        obtain rfl : d = c := by
          rw [labelText, List.cons_append, List.cons_append] at hsame
          exact (List.cons.inj hsame).1
        rw [if_neg hbrace]
        split
        · rename_i hnone
          rw [hsame, hread] at hnone
          cases hnone
        · rename_i name₁ value₁ rest₁ hsome
          rw [hsame, hread] at hsome
          cases hsome
          rfl

/-! ## Sample lines -/

theorem sampleOfLine_comment (t : Text) : sampleOfLine ('#' :: t) = none := by
  have hhead := Py.head?_strip (c := '#') rfl t
  rw [sampleOfLine, hhead]
  simp

theorem sampleOfLine_of_strip {line : Text} (hstrip : Py.strip line = line) (hnil : line ≠ [])
    (hsharp : line.head? ≠ some '#') : sampleOfLine line = parseSampleLine line := by
  rw [sampleOfLine, hstrip]
  simp [hsharp, hnil]

/-- A line from a metric's name to its value is left as it is. -/
theorem sampleOfLine_eq {name line : Text} (h : NameOk name) (middle : Text) (n : Nat)
    (hline : line = name ++ middle ++ decimal n) : sampleOfLine line = parseSampleLine line := by
  subst hline
  obtain ⟨hne, hall, -⟩ := decimal_digits n
  have hhead : ∀ c ∈ (name ++ middle ++ decimal n).head?, c ∈ name := by
    intro c hc
    cases name with
    | nil => exact absurd rfl h.1
    | cons d name =>
        obtain rfl := Option.some.inj hc
        exact List.mem_cons_self ..
  have hstrip : Py.strip (name ++ middle ++ decimal n) = name ++ middle ++ decimal n := by
    refine Py.strip_eq_self (fun c hc => isSpace_of_mem_name h (hhead c hc)) fun c hc => ?_
    rw [List.getLast?_append_of_ne_nil _ hne] at hc
    exact Py.isSpace_digit (List.all_eq_true.mp hall c (List.mem_of_getLast? hc))
  have hsharp : (name ++ middle ++ decimal n).head? ≠ some '#' := fun heq =>
    notMem_of_nameOk h rfl (hhead '#' heq)
  exact sampleOfLine_of_strip hstrip (by simp [h.1]) hsharp

theorem parseSampleLine_plain {name : Text} (h : NameOk name) (v : UInt64) :
    parseSampleLine (name ++ ' ' :: decimal v.toNat) = some ⟨name, [], v.toNat⟩ := by
  have hbrace : '\x7b' ∉ name ++ ' ' :: decimal v.toNat := by
    simp [notMem_of_nameOk h (c := '\x7b') rfl, notMem_decimal (c := '\x7b') rfl]
  have hsplit : Py.split (name ++ ' ' :: decimal v.toNat) = [name, decimal v.toNat] :=
    Py.split_two_words h.1 (fun _ hc => isSpace_of_mem_name h hc) (decimal_digits _).1
      fun _ hc => Py.isSpace_digit (isDigit_of_mem_decimal hc)
  rw [parseSampleLine, Py.find_eq_none hbrace]
  show parseSampleLine.plain _ = _
  rw [parseSampleLine.plain, hsplit]
  exact sampleOf_decimal h [] v

theorem parseSampleLine_labelled {name body : Text} {labels : Labels} (h : NameOk name)
    (v : UInt64) (hbody : parseLabels [] body = some (labels, ' ' :: decimal v.toNat)) :
    parseSampleLine (name ++ '\x7b' :: body) = some ⟨name, labels, v.toNat⟩ := by
  have hbrace : Py.find (name ++ '\x7b' :: body) '\x7b' = some name.length := by
    rw [Py.find_append (notMem_of_nameOk h rfl), Py.find, List.findIdx?_cons]
    simp
  have hspace : (Py.find (name ++ '\x7b' :: body) ' ').any (· < name.length) = false := by
    rw [Py.find_append (notMem_of_nameOk h rfl)]
    cases Py.find ('\x7b' :: body) ' ' <;> simp
  have hsplit : Py.split (' ' :: decimal v.toNat) = [decimal v.toNat] := by
    have := Py.split_append_space (c := ' ') rfl [] (decimal v.toNat)
    rw [split_decimal] at this
    exact this
  have htake : (name ++ '\x7b' :: body).take name.length = name := List.take_left
  have hdrop : (name ++ '\x7b' :: body).drop (name.length + 1) = body := by
    rw [← List.drop_drop, List.drop_left]
    rfl
  rw [parseSampleLine, hbrace]
  simp only [hspace, hdrop, hbody, hsplit, htake]
  exact sampleOf_decimal h labels v

/-! ## The text as lines -/

def PlainMetric.lines (metric : PlainMetric) : List Text :=
  [helpLine metric.name metric.help, typeLine metric.name metric.kind, metric.sampleLine]

def TransferSeries.lines (transfers : List SourceTransferStat) (series : TransferSeries) :
    List Text :=
  [helpLine series.name series.help, typeLine series.name series.kind] ++
    transfers.map series.sampleLine

def rotationLines (rotation : RotatorSnapshot) : List Text :=
  [helpLine unhealthyName unhealthyHelp, typeLine unhealthyName "gauge".toList] ++
    rotation.sources.map SourceHealth.sampleLine ++
    transferSeries.flatMap (TransferSeries.lines rotation.transfers)

def Metrics.lines (m : Metrics) (pasvPortsActive pasvPortsCapacity : UInt64)
    (rotation : Option RotatorSnapshot) : List Text :=
  (m.gatewayMetrics pasvPortsActive pasvPortsCapacity).flatMap PlainMetric.lines ++
    (rotation.map rotationLines).getD []

theorem flatMap_writeln (ls : List Text) : ls.flatMap writeln = ls.flatMap (· ++ ['\n']) := rfl

theorem PlainMetric.render_eq (metric : PlainMetric) :
    metric.render = metric.lines.flatMap writeln := by
  simp [render, lines]

theorem TransferSeries.render_eq (transfers : List SourceTransferStat) (series : TransferSeries) :
    series.render transfers = (series.lines transfers).flatMap writeln := by
  simp [render, lines, List.flatMap_map]

theorem renderRotationMetrics_eq (rotation : RotatorSnapshot) :
    renderRotationMetrics rotation = (rotationLines rotation).flatMap writeln := by
  have hseries : transferSeries.flatMap (TransferSeries.render rotation.transfers) =
      (transferSeries.flatMap (TransferSeries.lines rotation.transfers)).flatMap writeln := by
    rw [List.flatMap_assoc]
    exact List.flatMap_congr fun series _ => series.render_eq rotation.transfers
  rw [renderRotationMetrics, hseries, rotationLines]
  simp [List.flatMap_map]

theorem Metrics.render_eq (m : Metrics) (pasvPortsActive pasvPortsCapacity : UInt64)
    (rotation : Option RotatorSnapshot) :
    m.render pasvPortsActive pasvPortsCapacity rotation =
      (m.lines pasvPortsActive pasvPortsCapacity rotation).flatMap writeln := by
  have hplain : m.renderGatewayMetrics pasvPortsActive pasvPortsCapacity =
      ((m.gatewayMetrics pasvPortsActive pasvPortsCapacity).flatMap
        PlainMetric.lines).flatMap writeln := by
    rw [renderGatewayMetrics, List.flatMap_assoc]
    exact List.flatMap_congr fun metric _ => metric.render_eq
  rw [lines, List.flatMap_append]
  cases rotation with
  | none =>
      show m.renderGatewayMetrics pasvPortsActive pasvPortsCapacity = _
      rw [hplain]
      exact (List.append_nil _).symm
  | some rotation =>
      show m.renderGatewayMetrics pasvPortsActive pasvPortsCapacity ++
        renderRotationMetrics rotation = _
      rw [hplain, renderRotationMetrics_eq]
      rfl

/-! ## No line boundary in a line -/

/-- A text that stays on its line. -/
def Unbroken (t : Text) : Prop := ∀ c ∈ t, Py.isLineBoundary c = false

theorem Unbroken.append {s t : Text} (hs : Unbroken s) (ht : Unbroken t) : Unbroken (s ++ t) := by
  intro c hc
  rcases List.mem_append.mp hc with hc | hc
  · exact hs c hc
  · exact ht c hc

theorem unbroken_of_all {t : Text} (h : t.all (fun c => !Py.isLineBoundary c) = true) :
    Unbroken t := by
  intro c hc
  simpa using List.all_eq_true.mp h c hc

theorem NameOk.unbroken {name : Text} (h : NameOk name) : Unbroken name := fun c hc =>
  isLineBoundary_of_isNameChar (List.all_eq_true.mp h.2 c hc)

theorem isLineBoundary_digit {c : Char} (hc : c.isDigit = true) : Py.isLineBoundary c = false :=
  Py.forall_isDigit (p := fun c => Py.isLineBoundary c = false) (by decide) hc

theorem unbroken_decimal (n : Nat) : Unbroken (decimal n) := fun _ hc =>
  isLineBoundary_digit (isDigit_of_mem_decimal hc)

theorem unbroken_ipv4 (ip : Ipv4Addr) : Unbroken ip.text := by
  intro c hc
  rcases mem_ipv4_text hc with h | rfl
  · exact isLineBoundary_digit h
  · rfl

/-- A backend's name the script can read: of Python's line boundaries it holds at
most line feeds. -/
def OnlyLineFeeds (backend : Text) : Prop := ∀ c ∈ backend, Py.isLineBoundary c = true → c = '\n'

theorem unbroken_escapeLabelValue {value : Text} (h : OnlyLineFeeds value) :
    Unbroken (escapeLabelValue value) := by
  intro d hd
  rw [escapeLabelValue, List.mem_flatMap] at hd
  obtain ⟨c, hc, hd⟩ := hd
  rw [escapeLabelChar] at hd
  split at hd
  · simp only [List.mem_cons, List.not_mem_nil, or_false, or_self] at hd
    rw [hd]
    rfl
  split at hd
  · simp only [List.mem_cons, List.not_mem_nil, or_false] at hd
    rcases hd with rfl | rfl <;> rfl
  split at hd
  · simp only [List.mem_cons, List.not_mem_nil, or_false] at hd
    rcases hd with rfl | rfl <;> rfl
  · rename_i hn
    obtain rfl := List.mem_singleton.mp hd
    by_contra hboundary
    exact hn (h d hc (by simpa using hboundary))

theorem unbroken_helpLine {name help : Text} (h : NameOk name) (hhelp : Unbroken help) :
    Unbroken (helpLine name help) :=
  (((unbroken_of_all rfl).append h.unbroken).append (unbroken_of_all rfl)).append hhelp

theorem unbroken_typeLine {name kind : Text} (h : NameOk name) (hkind : Unbroken kind) :
    Unbroken (typeLine name kind) :=
  (((unbroken_of_all rfl).append h.unbroken).append (unbroken_of_all rfl)).append hkind

/-! ## One metric at a time -/

/-- What the fixed texts of a metric have to be. -/
structure Described (name kind help : Text) : Prop where
  name : NameOk name
  kind : Unbroken kind
  help : Unbroken help

instance (name : Text) : Decidable (NameOk name) := inferInstanceAs (Decidable (_ ∧ _))

def describedOk (name kind help : Text) : Bool :=
  decide (NameOk name) && kind.all (fun c => !Py.isLineBoundary c) &&
    help.all (fun c => !Py.isLineBoundary c)

theorem described_of_ok {name kind help : Text} (h : describedOk name kind help = true) :
    Described name kind help := by
  rw [describedOk, Bool.and_eq_true, Bool.and_eq_true, decide_eq_true_eq] at h
  exact ⟨h.1.1, unbroken_of_all h.1.2, unbroken_of_all h.2⟩

theorem Metrics.described {m : Metrics} {pasvPortsActive pasvPortsCapacity : UInt64}
    {metric : PlainMetric} (h : metric ∈ m.gatewayMetrics pasvPortsActive pasvPortsCapacity) :
    Described metric.name metric.kind metric.help := by
  apply described_of_ok
  simp only [gatewayMetrics, List.mem_cons, List.not_mem_nil, or_false] at h
  rcases h with rfl | rfl | rfl | rfl | rfl | rfl | rfl | rfl | rfl | rfl | rfl | rfl | rfl |
    rfl | rfl <;>
  · dsimp only [gauge, counter]
    rw [String.toList_ofList, String.toList_ofList, String.toList_ofList]
    decide +kernel

theorem transferSeries_described {series : TransferSeries} (h : series ∈ transferSeries) :
    Described series.name series.kind series.help := by
  apply described_of_ok
  simp only [transferSeries, List.mem_cons, List.not_mem_nil, or_false] at h
  rcases h with rfl | rfl | rfl | rfl <;>
  · dsimp only
    rw [String.toList_ofList, String.toList_ofList, String.toList_ofList]
    decide +kernel

theorem unhealthy_described : Described unhealthyName "gauge".toList unhealthyHelp := by
  apply described_of_ok
  unfold unhealthyName unhealthyHelp
  rw [String.toList_ofList, String.toList_ofList, String.toList_ofList]
  decide +kernel

/-! ## The samples a text was rendered from -/

def PlainMetric.sample (metric : PlainMetric) : Sample :=
  ⟨metric.name, [], metric.value.toNat⟩

def SourceHealth.sample (health : SourceHealth) : Sample :=
  ⟨unhealthyName, [("source".toList, health.source.text)], health.value.toNat⟩

def TransferSeries.sample (series : TransferSeries) (stat : SourceTransferStat) : Sample :=
  ⟨series.name, [("backend".toList, stat.backend), ("source".toList, stat.source.text)],
    (series.value stat).toNat⟩

def rotationSeries (rotation : RotatorSnapshot) : List Sample :=
  rotation.sources.map SourceHealth.sample ++
    transferSeries.flatMap fun series => rotation.transfers.map series.sample

def Metrics.series (m : Metrics) (pasvPortsActive pasvPortsCapacity : UInt64)
    (rotation : Option RotatorSnapshot) : List Sample :=
  (m.gatewayMetrics pasvPortsActive pasvPortsCapacity).map PlainMetric.sample ++
    (rotation.map rotationSeries).getD []

theorem sampleOfLine_helpLine (name help : Text) : sampleOfLine (helpLine name help) = none := by
  have hsharp : helpLine name help = '#' :: (" HELP ".toList ++ name ++ [' '] ++ help) := by
    unfold helpLine
    rw [String.toList_ofList, String.toList_ofList]
    rfl
  rw [hsharp]
  exact sampleOfLine_comment _

theorem sampleOfLine_typeLine (name kind : Text) : sampleOfLine (typeLine name kind) = none := by
  have hsharp : typeLine name kind = '#' :: (" TYPE ".toList ++ name ++ [' '] ++ kind) := by
    unfold typeLine
    rw [String.toList_ofList, String.toList_ofList]
    rfl
  rw [hsharp]
  exact sampleOfLine_comment _

theorem PlainMetric.sampleOfLine_sampleLine {metric : PlainMetric} (h : NameOk metric.name) :
    sampleOfLine metric.sampleLine = some metric.sample := by
  have hkeep : sampleOfLine metric.sampleLine = parseSampleLine metric.sampleLine :=
    sampleOfLine_eq h [' '] _ (by rw [List.append_assoc]; rfl)
  exact hkeep.trans (parseSampleLine_plain h metric.value)

theorem nameOk_source : NameOk "source".toList := by decide +kernel

theorem nameOk_backend : NameOk "backend".toList := by decide +kernel

theorem SourceHealth.sampleLine_eq (health : SourceHealth) :
    health.sampleLine = unhealthyName ++ '\x7b' ::
      (labelText "source".toList health.source.text ++
        '\x7d' :: ' ' :: decimal health.value.toNat) := by
  rw [sampleLine, labelText, escapeLabelValue_ipv4]
  simp

theorem TransferSeries.sampleLine_eq (series : TransferSeries) (stat : SourceTransferStat) :
    series.sampleLine stat = series.name ++ '\x7b' ::
      (labelText "backend".toList stat.backend ++ ',' ::
        (labelText "source".toList stat.source.text ++
          '\x7d' :: ' ' :: decimal (series.value stat).toNat)) := by
  rw [sampleLine, labelText, labelText, escapeLabelValue_ipv4]
  simp

theorem SourceHealth.sampleOfLine_sampleLine (health : SourceHealth) :
    sampleOfLine health.sampleLine = some health.sample := by
  have hlabels : parseLabels [] (labelText "source".toList health.source.text ++
      '\x7d' :: ' ' :: decimal health.value.toNat) =
        some ([("source".toList, health.source.text)], ' ' :: decimal health.value.toNat) := by
    rw [parseLabels_label nameOk_source, skipSpaces_cons (by decide)]
    exact parseLabels_close _ _
  rw [sampleLine_eq, sampleOfLine_eq unhealthy_described.name
    ('\x7b' :: (labelText "source".toList health.source.text ++ ['\x7d', ' ']))
    health.value.toNat (by simp)]
  exact parseSampleLine_labelled unhealthy_described.name health.value hlabels

theorem TransferSeries.sampleOfLine_sampleLine {series : TransferSeries} (h : NameOk series.name)
    (stat : SourceTransferStat) :
    sampleOfLine (series.sampleLine stat) = some (series.sample stat) := by
  have hlabels : parseLabels [] (labelText "backend".toList stat.backend ++ ',' ::
      (labelText "source".toList stat.source.text ++
        '\x7d' :: ' ' :: decimal (series.value stat).toNat)) =
      some ([("backend".toList, stat.backend), ("source".toList, stat.source.text)],
        ' ' :: decimal (series.value stat).toNat) := by
    rw [parseLabels_label nameOk_backend, skipSpaces_cons (by decide), skipComma,
      parseLabels_label nameOk_source, skipSpaces_cons (by decide)]
    exact parseLabels_close _ _
  rw [sampleLine_eq, sampleOfLine_eq h
    ('\x7b' :: (labelText "backend".toList stat.backend ++ ',' ::
      (labelText "source".toList stat.source.text ++ ['\x7d', ' '])))
    (series.value stat).toNat (by simp)]
  exact parseSampleLine_labelled h (series.value stat) hlabels

/-! ## The whole text -/

theorem PlainMetric.filterMap_lines {metric : PlainMetric} (h : NameOk metric.name) :
    metric.lines.filterMap sampleOfLine = [metric.sample] := by
  simp only [lines, List.filterMap_cons, sampleOfLine_helpLine, sampleOfLine_typeLine,
    metric.sampleOfLine_sampleLine h, List.filterMap_nil]

theorem TransferSeries.filterMap_lines {series : TransferSeries} (h : NameOk series.name)
    (transfers : List SourceTransferStat) :
    (series.lines transfers).filterMap sampleOfLine = transfers.map series.sample := by
  have hstats : (transfers.map series.sampleLine).filterMap sampleOfLine =
      transfers.map series.sample := by
    rw [List.filterMap_map, ← List.filterMap_eq_map]
    exact List.filterMap_congr fun stat _ => sampleOfLine_sampleLine h stat
  simp only [lines, List.filterMap_append, List.filterMap_cons, sampleOfLine_helpLine,
    sampleOfLine_typeLine, List.filterMap_nil, List.nil_append, hstats]

theorem filterMap_rotationLines (rotation : RotatorSnapshot) :
    (rotationLines rotation).filterMap sampleOfLine = rotationSeries rotation := by
  have hsources : (rotation.sources.map SourceHealth.sampleLine).filterMap sampleOfLine =
      rotation.sources.map SourceHealth.sample := by
    rw [List.filterMap_map, ← List.filterMap_eq_map]
    exact List.filterMap_congr fun health _ => health.sampleOfLine_sampleLine
  have hseries : (transferSeries.flatMap (TransferSeries.lines rotation.transfers)).filterMap
      sampleOfLine = transferSeries.flatMap fun series => rotation.transfers.map series.sample := by
    rw [List.filterMap_flatMap]
    exact List.flatMap_congr fun series hmem =>
      series.filterMap_lines (transferSeries_described hmem).name rotation.transfers
  simp only [rotationLines, List.filterMap_append, List.filterMap_cons, sampleOfLine_helpLine,
    sampleOfLine_typeLine, List.filterMap_nil, List.nil_append, hsources, hseries]
  rfl

theorem Metrics.filterMap_lines (m : Metrics) (pasvPortsActive pasvPortsCapacity : UInt64)
    (rotation : Option RotatorSnapshot) :
    (m.lines pasvPortsActive pasvPortsCapacity rotation).filterMap sampleOfLine =
      m.series pasvPortsActive pasvPortsCapacity rotation := by
  have hplain : ((m.gatewayMetrics pasvPortsActive pasvPortsCapacity).flatMap
      PlainMetric.lines).filterMap sampleOfLine =
        (m.gatewayMetrics pasvPortsActive pasvPortsCapacity).map PlainMetric.sample := by
    rw [List.filterMap_flatMap, List.map_eq_flatMap]
    exact List.flatMap_congr fun metric hmem => metric.filterMap_lines (Metrics.described hmem).name
  rw [lines, series, List.filterMap_append, hplain]
  cases rotation with
  | none => rfl
  | some rotation =>
      show _ ++ (rotationLines rotation).filterMap sampleOfLine = _
      rw [filterMap_rotationLines]
      rfl

theorem PlainMetric.unbroken_lines {metric : PlainMetric}
    (h : Described metric.name metric.kind metric.help) : ∀ l ∈ metric.lines, Unbroken l := by
  intro l hl
  simp only [lines, List.mem_cons, List.not_mem_nil, or_false] at hl
  rcases hl with rfl | rfl | rfl
  · exact unbroken_helpLine h.name h.help
  · exact unbroken_typeLine h.name h.kind
  · exact h.name.unbroken.append
      ((unbroken_of_all rfl : Unbroken [' ']).append (unbroken_decimal _))

theorem unbroken_labelText {name value : Text} (h : NameOk name) (hvalue : OnlyLineFeeds value) :
    Unbroken (labelText name value) :=
  h.unbroken.append ((unbroken_of_all rfl : Unbroken ['=', '"']).append
    ((unbroken_escapeLabelValue hvalue).append (unbroken_of_all rfl)))

theorem onlyLineFeeds_ipv4 (ip : Ipv4Addr) : OnlyLineFeeds ip.text := by
  intro c hc hboundary
  rw [unbroken_ipv4 ip c hc] at hboundary
  cases hboundary

theorem SourceHealth.unbroken_sampleLine (health : SourceHealth) : Unbroken health.sampleLine := by
  rw [sampleLine_eq]
  exact unhealthy_described.name.unbroken.append ((unbroken_of_all rfl : Unbroken ['\x7b']).append
    ((unbroken_labelText nameOk_source (onlyLineFeeds_ipv4 _)).append
      ((unbroken_of_all rfl : Unbroken ['\x7d', ' ']).append (unbroken_decimal _))))

theorem TransferSeries.unbroken_sampleLine {series : TransferSeries} (h : NameOk series.name)
    {stat : SourceTransferStat} (hbackend : OnlyLineFeeds stat.backend) :
    Unbroken (series.sampleLine stat) := by
  rw [sampleLine_eq]
  exact h.unbroken.append ((unbroken_of_all rfl : Unbroken ['\x7b']).append
    ((unbroken_labelText nameOk_backend hbackend).append
      ((unbroken_of_all rfl : Unbroken [',']).append
        ((unbroken_labelText nameOk_source (onlyLineFeeds_ipv4 _)).append
          ((unbroken_of_all rfl : Unbroken ['\x7d', ' ']).append (unbroken_decimal _))))))

theorem TransferSeries.unbroken_lines {series : TransferSeries}
    (h : Described series.name series.kind series.help) {transfers : List SourceTransferStat}
    (hbackends : ∀ stat ∈ transfers, OnlyLineFeeds stat.backend) :
    ∀ l ∈ series.lines transfers, Unbroken l := by
  intro l hl
  rcases List.mem_append.mp hl with hl | hl
  · simp only [List.mem_cons, List.not_mem_nil, or_false] at hl
    rcases hl with rfl | rfl
    · exact unbroken_helpLine h.name h.help
    · exact unbroken_typeLine h.name h.kind
  · obtain ⟨stat, hstat, rfl⟩ := List.mem_map.mp hl
    exact unbroken_sampleLine h.name (hbackends stat hstat)

theorem unbroken_rotationLines {rotation : RotatorSnapshot}
    (hbackends : ∀ stat ∈ rotation.transfers, OnlyLineFeeds stat.backend) :
    ∀ l ∈ rotationLines rotation, Unbroken l := by
  intro l hl
  rcases List.mem_append.mp hl with hl | hl
  · rcases List.mem_append.mp hl with hl | hl
    · simp only [List.mem_cons, List.not_mem_nil, or_false] at hl
      rcases hl with rfl | rfl
      · exact unbroken_helpLine unhealthy_described.name unhealthy_described.help
      · exact unbroken_typeLine unhealthy_described.name unhealthy_described.kind
    · obtain ⟨health, -, rfl⟩ := List.mem_map.mp hl
      exact health.unbroken_sampleLine
  · obtain ⟨series, hseries, hl⟩ := List.mem_flatMap.mp hl
    exact series.unbroken_lines (transferSeries_described hseries) hbackends l hl

/-- **What the gateway renders is what the script reads**: every sample, in order,
with its name, its labels unescaped and its value. -/
theorem parsePrometheusText_render {m : Metrics} {pasvPortsActive pasvPortsCapacity : UInt64}
    {rotation : Option RotatorSnapshot}
    (hbackends : ∀ snapshot ∈ rotation, ∀ stat ∈ snapshot.transfers, ∀ c ∈ stat.backend,
      Py.isLineBoundary c = true → c = '\n') :
    parsePrometheusText (m.render pasvPortsActive pasvPortsCapacity rotation) =
      m.series pasvPortsActive pasvPortsCapacity rotation := by
  have hlines : ∀ l ∈ m.lines pasvPortsActive pasvPortsCapacity rotation, Unbroken l := by
    intro l hl
    rcases List.mem_append.mp hl with hl | hl
    · obtain ⟨metric, hmetric, hl⟩ := List.mem_flatMap.mp hl
      exact metric.unbroken_lines (Metrics.described hmetric) l hl
    · cases rotation with
      | none => cases hl
      | some snapshot => exact unbroken_rotationLines (hbackends snapshot rfl) l hl
  rw [parsePrometheusText, Metrics.render_eq, flatMap_writeln, Py.splitlines_lines hlines]
  exact m.filterMap_lines pasvPortsActive pasvPortsCapacity rotation

/-- A backend whose name is full of the syntax's own characters. -/
def awkwardRotation : RotatorSnapshot :=
  ⟨[⟨⟨10, 0, 0, 5⟩, true⟩],
    [⟨"a\\b\"c\nd\x7be\x7d,f=g h:21".toList, ⟨10, 0, 0, 5⟩, 9, 2, 77, 18446744073709551615⟩]⟩

theorem parsePrometheusText_render_awkward :
    parsePrometheusText (Metrics.new.render 3 100 (some awkwardRotation)) =
      Metrics.new.series 3 100 (some awkwardRotation) := by
  refine parsePrometheusText_render fun snapshot hsnapshot stat hstat c hc hboundary => ?_
  obtain rfl := Option.some.inj hsnapshot
  obtain rfl := List.mem_singleton.mp hstat
  have hall : ("a\\b\"c\nd\x7be\x7d,f=g h:21".toList.all fun c =>
      !Py.isLineBoundary c || c = '\n') = true := by
    decide +kernel
  simpa [hboundary] using List.all_eq_true.mp hall c hc

end FtpGateway
