import FtpGateway.PassiveCodec

/-!
# The list of backends

`parse_backends` of `config.rs`, which reads `GATEWAY_BACKENDS`: entries
`host:port[@first:last]` between commas. A `BackendEntry` is what such an entry
says, with the conditions under which its text is read back; `Listed` adds what
may stand around it. Reading the joined text gives the backends in order
(`parseBackends_listed`), and whatever the text, the port ranges that come out
are not empty (`parseBackends_ranges`), which is what `PortRange::len` rests on.

An error is the list of its context messages, outermost first.
-/

namespace FtpGateway

open Str

/-! ## The parser -/

/-- `with_context` on an `Option`. -/
def orContext {α : Type} (message : Text) : Option α → Except (List Text) α
  | some a => .ok a
  | none => .error [message]

/-- `with_context` on a `Result`. -/
def withContext {α : Type} (message : Text) : Except (List Text) α → Except (List Text) α
  | .ok a => .ok a
  | .error messages => .error (message :: messages)

/-- `str::rsplit_once` at a character. -/
def rsplitOnce (c : Char) (t : Text) : Option (Text × Text) :=
  (splitOnce c t.reverse).map fun (b, a) => (a.reverse, b.reverse)

namespace PortRange

def parseFirstLast (raw : Text) : Except (List Text) PortRange := do
  let (first, last) ← orContext
    ("invalid port range '".toList ++ raw ++ "', expected first:last".toList) (splitOnce ':' raw)
  let start ← orContext ("invalid first port in range '".toList ++ raw ++ "'".toList)
    (parseU16 (trim first))
  let «end» ← orContext ("invalid last port in range '".toList ++ raw ++ "'".toList)
    (parseU16 (trim last))
  if start > «end» then
    throw ["invalid port range '".toList ++ raw ++
      "': first port is greater than last port".toList]
  return ⟨start, «end»⟩

end PortRange

/-- The part of an entry before its first `@`, and the range after it. -/
def addressAndPorts (entry : Text) : Except (List Text) (Text × PortRange) :=
  match splitOnce '@' entry with
  | some (address, ports) =>
      (withContext ("invalid backend entry '".toList ++ entry ++ "'".toList)
        (PortRange.parseFirstLast ports)).map fun range => (address, range)
  | none => .ok (entry, defaultBackendPassivePorts)

/-- What `parse_backends` does with an entry that is not blank. -/
def parseBackend (entry : Text) : Except (List Text) BackendConfig := do
  let (address, passivePorts) ← addressAndPorts entry
  let (host, port) ← orContext ("invalid backend entry '".toList ++ entry ++
    "', expected host:port[@first:last]".toList) (rsplitOnce ':' address)
  let port ← orContext ("invalid port in backend entry '".toList ++ entry ++ "'".toList)
    (parseU16 port)
  return ⟨host, port, passivePorts⟩

def parseBackends (raw : Text) : Except (List Text) (List BackendConfig) :=
  (((raw.splitOn ',').map trim).filter fun entry => !entry.isEmpty).mapM parseBackend

/-! ## Ranges that come out -/

theorem bind_eq_ok {ε α β : Type} {r : Except ε α} {f : α → Except ε β} {b : β} :
    (r >>= f) = .ok b ↔ ∃ a, r = .ok a ∧ f a = .ok b := by
  cases r with
  | error e => exact ⟨fun h => (by cases h), fun ⟨a, h, _⟩ => (by cases h)⟩
  | ok a =>
      constructor
      · exact fun h => ⟨a, rfl, h⟩
      · rintro ⟨_, h, hb⟩
        obtain rfl := Except.ok.inj h
        exact hb

theorem PortRange.parseFirstLast_le {raw : Text} {r : PortRange}
    (h : PortRange.parseFirstLast raw = .ok r) : r.start ≤ r.end := by
  unfold parseFirstLast at h
  obtain ⟨⟨first, last⟩, -, h⟩ := bind_eq_ok.mp h
  obtain ⟨start, -, h⟩ := bind_eq_ok.mp h
  obtain ⟨last', -, h⟩ := bind_eq_ok.mp h
  split at h
  · cases h
  · rename_i hle
    obtain rfl := Except.ok.inj h
    exact UInt16.not_lt.mp hle

theorem addressAndPorts_le {entry address : Text} {r : PortRange}
    (h : addressAndPorts entry = .ok (address, r)) : r.start ≤ r.end := by
  unfold addressAndPorts at h
  split at h
  · rename_i ports hsplit
    cases hparse : PortRange.parseFirstLast ports with
    | error messages =>
        rw [hparse] at h
        cases h
    | ok range =>
        rw [hparse] at h
        obtain ⟨-, rfl⟩ := Prod.mk.injEq .. |>.mp (Except.ok.inj h)
        exact PortRange.parseFirstLast_le hparse
  · obtain ⟨-, rfl⟩ := Prod.mk.injEq .. |>.mp (Except.ok.inj h)
    decide

theorem parseBackend_le {entry : Text} {b : BackendConfig} (h : parseBackend entry = .ok b) :
    b.passivePorts.start ≤ b.passivePorts.end := by
  unfold parseBackend at h
  obtain ⟨⟨address, range⟩, hrange, h⟩ := bind_eq_ok.mp h
  obtain ⟨⟨host, port⟩, -, h⟩ := bind_eq_ok.mp h
  obtain ⟨port', -, h⟩ := bind_eq_ok.mp h
  obtain rfl := Except.ok.inj h
  exact addressAndPorts_le hrange

theorem mem_of_mapM_eq_ok {ε α β : Type} {f : α → Except ε β} {l : List α} {l' : List β}
    (h : l.mapM f = .ok l') {b : β} (hb : b ∈ l') : ∃ a ∈ l, f a = .ok b := by
  induction l generalizing l' with
  | nil =>
      obtain rfl := Except.ok.inj h
      cases hb
  | cons a l ih =>
      rw [List.mapM_cons] at h
      obtain ⟨b₁, hb₁, h⟩ := bind_eq_ok.mp h
      obtain ⟨rest, hrest, h⟩ := bind_eq_ok.mp h
      obtain rfl := Except.ok.inj h
      rcases List.mem_cons.mp hb with rfl | hb
      · exact ⟨a, List.mem_cons_self .., hb₁⟩
      · obtain ⟨a', ha', hf⟩ := ih hrest hb
        exact ⟨a', List.mem_cons_of_mem _ ha', hf⟩

theorem parseBackends_ranges {raw : Text} {backends : List BackendConfig}
    (h : parseBackends raw = .ok backends) {b : BackendConfig} (hb : b ∈ backends) :
    b.passivePorts.start ≤ b.passivePorts.end := by
  obtain ⟨entry, -, hentry⟩ := mem_of_mapM_eq_ok h hb
  exact parseBackend_le hentry

/-! ## Entries and what may stand around them -/

/-- An entry of the list. The host may be empty and may hold colons. -/
structure BackendEntry where
  host : Text
  port : UInt16
  range : Option PortRange
  host_no_comma : ',' ∉ host
  host_no_at : '@' ∉ host
  host_starts : ∀ c ∈ host.head?, isWhitespace c = false
  range_le : ∀ r ∈ range, r.start ≤ r.end

namespace BackendEntry

/-- `@first:last`, or nothing. -/
def rangeText (e : BackendEntry) : Text :=
  match e.range with
  | some r => '@' :: (decimal r.start.toNat ++ ':' :: decimal r.end.toNat)
  | none => []

/-- `host:port`. -/
def addressText (e : BackendEntry) : Text := e.host ++ ':' :: decimal e.port.toNat

def text (e : BackendEntry) : Text := e.addressText ++ e.rangeText

def backend (e : BackendEntry) : BackendConfig :=
  ⟨e.host, e.port, e.range.getD defaultBackendPassivePorts⟩

end BackendEntry

/-- White space, possibly none. -/
abbrev Padding := { t : Text // ∀ c ∈ t, isWhitespace c = true }

/-- What stands between two commas. -/
inductive Listed where
  | blank (padding : Padding)
  | entry (before : Padding) (e : BackendEntry) (after : Padding)

namespace Listed

def text : Listed → Text
  | .blank padding => padding.val
  | .entry before e after => before.val ++ e.text ++ after.val

def backend : Listed → Option BackendConfig
  | .blank _ => none
  | .entry _ e _ => some e.backend

end Listed

/-! ## Reading an entry back -/

theorem rsplitOnce_eq_some {c : Char} {t a b : Text} (h : t = a ++ c :: b) (hb : c ∉ b) :
    rsplitOnce c t = some (a, b) := by
  have hrev : splitOnce c t.reverse = some (b.reverse, a.reverse) :=
    splitOnce_eq_some.mpr ⟨by simp [h], by simpa using hb⟩
  rw [rsplitOnce, hrev]
  simp

theorem parseU16_decimal (p : UInt16) : parseU16 (decimal p.toNat) = some p :=
  parseU16_eq_some_iff.mpr (numeral_decimal _)

theorem parseFirstLast_decimal {r : PortRange} (h : r.start ≤ r.end) :
    PortRange.parseFirstLast (decimal r.start.toNat ++ ':' :: decimal r.end.toNat) = .ok r := by
  have hsplit : splitOnce ':' (decimal r.start.toNat ++ ':' :: decimal r.end.toNat) =
      some (decimal r.start.toNat, decimal r.end.toNat) :=
    splitOnce_eq_some.mpr ⟨rfl, notMem_decimal rfl _⟩
  have hle : ¬r.start > r.end := UInt16.not_lt.mpr h
  unfold PortRange.parseFirstLast
  rw [hsplit]
  simp only [orContext, bind, Except.bind, trim_decimal, parseU16_decimal, if_neg hle]
  rfl

namespace BackendEntry

variable (e : BackendEntry)

theorem addressAndPorts_text :
    addressAndPorts e.text = .ok (e.addressText, e.range.getD defaultBackendPassivePorts) := by
  have hat : '@' ∉ e.addressText := by
    simp [addressText, e.host_no_at, notMem_decimal]
  unfold addressAndPorts text rangeText
  cases hr : e.range with
  | none =>
      simp only [List.append_nil, splitOnce_eq_none hat]
      rfl
  | some r =>
      have hsplit (ports : Text) :
          splitOnce '@' (e.addressText ++ '@' :: ports) = some (e.addressText, ports) :=
        splitOnce_eq_some.mpr ⟨rfl, hat⟩
      simp only [hsplit, parseFirstLast_decimal (e.range_le r hr)]
      rfl

theorem parseBackend_text : parseBackend e.text = .ok e.backend := by
  have hsplit : rsplitOnce ':' e.addressText = some (e.host, decimal e.port.toNat) :=
    rsplitOnce_eq_some rfl (notMem_decimal rfl _)
  unfold parseBackend
  rw [addressAndPorts_text]
  simp only [orContext, bind, Except.bind, hsplit, parseU16_decimal]
  rfl

theorem comma_notMem_text : ',' ∉ e.text := by
  unfold text addressText rangeText
  cases e.range <;> simp [e.host_no_comma, notMem_decimal]

theorem isWhitespace_head_text : ∀ c ∈ e.text.head?, isWhitespace c = false := by
  intro c hc
  have hstarts := e.host_starts
  unfold text addressText at hc
  cases hhost : e.host with
  | nil =>
      rw [hhost] at hc
      obtain rfl := Option.some.inj hc
      rfl
  | cons d host =>
      rw [hhost] at hc hstarts
      exact hstarts c hc

/-- An entry ends in a digit. -/
theorem isWhitespace_getLast_text : ∀ c ∈ e.text.getLast?, isWhitespace c = false := by
  have hend (t : Text) (x : Char) (n : Nat) :
      ∀ c ∈ (t ++ x :: decimal n).getLast?, isWhitespace c = false := by
    intro c hc
    obtain ⟨hne, hall, -⟩ := decimal_digits n
    rw [List.append_cons, List.getLast?_append_of_ne_nil _ hne] at hc
    exact isWhitespace_of_isDigit (List.all_eq_true.mp hall c (List.mem_of_getLast? hc))
  unfold text rangeText
  cases e.range with
  | none =>
      rw [List.append_nil]
      exact hend e.host ':' _
  | some r =>
      show ∀ c ∈ (e.addressText ++ '@' ::
        (decimal r.start.toNat ++ ':' :: decimal r.end.toNat)).getLast?, isWhitespace c = false
      rw [← List.cons_append, ← List.append_assoc]
      exact hend _ ':' _

end BackendEntry

/-! ## Reading a list back -/

theorem comma_notMem_padding (padding : Padding) : ',' ∉ padding.val := by
  intro h
  cases padding.property ',' h

theorem Listed.comma_notMem_text (l : Listed) : ',' ∉ l.text := by
  cases l with
  | blank padding => exact comma_notMem_padding padding
  | entry before e after =>
      simp [text, comma_notMem_padding, e.comma_notMem_text]

/-- The entry in a piece, trimmed. -/
def Listed.trimmed : Listed → Text
  | .blank _ => []
  | .entry _ e _ => e.text

theorem Listed.trim_text (l : Listed) : trim l.text = l.trimmed := by
  cases l with
  | blank padding =>
      have h := @trim_padded_of isWhitespace _ [] [] padding.property
        (by simp) (by simp) (by simp)
      simpa [text, trimmed, trim] using h
  | entry before e after =>
      exact trim_padded_of before.property after.property e.isWhitespace_head_text
        e.isWhitespace_getLast_text

/-- The text of the setting. -/
def listText (pieces : List Listed) : Text := [','].intercalate (pieces.map Listed.text)

theorem map_trim_splitOn_listText {pieces : List Listed} (hne : pieces ≠ []) :
    ((listText pieces).splitOn ',').map trim = pieces.map Listed.trimmed := by
  have hsplit : (listText pieces).splitOn ',' = pieces.map Listed.text := by
    refine List.splitOn_intercalate ',' ?_ (by simpa using hne)
    intro t ht
    obtain ⟨l, -, rfl⟩ := List.mem_map.mp ht
    exact l.comma_notMem_text
  rw [hsplit, List.map_map]
  exact List.map_congr_left fun l _ => l.trim_text

theorem mapM_parseBackend_trimmed (pieces : List Listed) :
    ((pieces.map Listed.trimmed).filter fun entry => !entry.isEmpty).mapM parseBackend =
      .ok (pieces.filterMap Listed.backend) := by
  induction pieces with
  | nil => rfl
  | cons l pieces ih =>
      cases l with
      | blank padding => exact ih
      | entry before e after =>
          have hne : e.text.isEmpty = false := by
            simp [BackendEntry.text, BackendEntry.addressText]
          show ((e.text :: pieces.map Listed.trimmed).filter
            fun entry => !entry.isEmpty).mapM parseBackend = _
          rw [List.filter_cons, hne]
          show (e.text :: (pieces.map Listed.trimmed).filter
            fun entry => !entry.isEmpty).mapM parseBackend = _
          rw [List.mapM_cons, e.parseBackend_text, ih]
          rfl

theorem parseBackends_listed (pieces : List Listed) :
    parseBackends (listText pieces) = .ok (pieces.filterMap Listed.backend) := by
  cases pieces with
  | nil => rfl
  | cons l pieces =>
      rw [parseBackends, map_trim_splitOn_listText (List.cons_ne_nil l pieces)]
      exact mapM_parseBackend_trimmed _

/-- **The setting is read back.** Any entries, with any white space around them
and any blank ones between, come out as the backends they name, in order; and
every range that comes out of any text holds between 1 and 65536 ports. -/
theorem gateway_backends_round_trip :
    (∀ pieces : List Listed,
      parseBackends (listText pieces) = .ok (pieces.filterMap Listed.backend)) ∧
    ∀ (raw : Text) (backends : List BackendConfig), parseBackends raw = .ok backends →
      ∀ b ∈ backends, b.passivePorts.start ≤ b.passivePorts.end ∧
        b.passivePorts.len.toNat =
          b.passivePorts.end.toNat - b.passivePorts.start.toNat + 1 ∧
        1 ≤ b.passivePorts.len.toNat ∧ b.passivePorts.len.toNat ≤ 65536 := by
  refine ⟨parseBackends_listed, fun raw backends h b hb => ?_⟩
  have hle := parseBackends_ranges h hb
  have hlen := PortRange.toNat_len hle
  have hend := b.passivePorts.end.toNat_lt
  refine ⟨hle, hlen, ?_, ?_⟩
  · omega
  · omega

/-- Two entries, one with an IPv6 host and a range, and a blank one. -/
def twoBackends : List Listed :=
  [.entry ⟨[' '], by simp [isWhitespace]⟩
      ⟨"::1".toList, 21, some ⟨30000, 30009⟩, by simp, by simp, by simp [isWhitespace], by simp⟩
      ⟨[], by simp⟩,
    .blank ⟨[' ', '\t'], by simp [isWhitespace]⟩,
    .entry ⟨[], by simp⟩
      ⟨"ftp03".toList, 2121, none, by simp, by simp, by simp [isWhitespace], by simp⟩
      ⟨[], by simp⟩]

theorem gateway_backends_round_trip_two :
    listText twoBackends = " ::1:21@30000:30009, \t,ftp03:2121".toList ∧
      parseBackends (listText twoBackends) =
        .ok [⟨"::1".toList, 21, ⟨30000, 30009⟩⟩, ⟨"ftp03".toList, 2121, ⟨8192, 8200⟩⟩] :=
  ⟨by decide +kernel, gateway_backends_round_trip.1 twoBackends⟩

end FtpGateway
