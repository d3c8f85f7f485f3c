import FtpGateway.PassiveGrammar

/-!
# Passive replies, written and read back

The gateway answers its clients with `pasv_reply` and `epsv_reply` and reads a
backend's answers with the two parsers. What the writers print is in the
grammar of the parsers, with the numbers that went in, so reading gives them
back; and whatever a 227 is read as, its six fields are there to be seen.

A 229 may use any graphic character as its delimiter. The parser ends the
group at the first closing parenthesis and splits it at every delimiter, so
it misses the delimiter `)` and those that are digits of the port
(`parseEpsvReply_delimiter_iff`).
-/

namespace FtpGateway

open Str

/-! ## Decimal numbers -/

theorem decimal_of_lt {n : Nat} (h : n < 10) : decimal n = [n.digitChar] :=
  Nat.toDigits_of_lt_base h

/-- The last digit comes off the end. -/
theorem decimal_of_le {n : Nat} (h : 10 ≤ n) :
    decimal n = decimal (n / 10) ++ [(n % 10).digitChar] :=
  Nat.toDigits_of_base_le (by decide) h

theorem decimalValue_append (digits : Text) (c : Char) :
    decimalValue (digits ++ [c]) = decimalValue digits * 10 + (c.toNat - 48) := by
  rw [decimalValue, List.foldl_append]
  rfl

theorem decimal_digits (n : Nat) :
    decimal n ≠ [] ∧ (decimal n).all Char.isDigit = true ∧ n = decimalValue (decimal n) := by
  induction n using Nat.strongRecOn with
  | ind n ih =>
      rcases Nat.lt_or_ge n 10 with hlt | hge
      · rw [decimal_of_lt hlt]
        refine ⟨List.cons_ne_nil _ _, by simp [Nat.isDigit_digitChar, hlt], ?_⟩
        show n = 0 * 10 + (n.digitChar.toNat - 48)
        rw [Nat.toNat_digitChar_sub_48_of_lt_ten hlt]
        omega
      · obtain ⟨-, hall, hvalue⟩ := ih (n / 10) (by omega)
        have hmod : n % 10 < 10 := Nat.mod_lt n (by decide)
        rw [decimal_of_le hge]
        refine ⟨by simp, by simp [List.all_append, hall, Nat.isDigit_digitChar, hmod], ?_⟩
        rw [decimalValue_append, ← hvalue, Nat.toNat_digitChar_sub_48_of_lt_ten hmod]
        omega

theorem numeral_decimal (n : Nat) : Numeral (decimal n) n :=
  ⟨decimal n, .inl rfl, decimal_digits n⟩

theorem notMem_decimal {c : Char} (hc : c.isDigit = false) (n : Nat) : c ∉ decimal n := by
  intro h
  rw [List.all_eq_true.mp (decimal_digits n).2.1 c h] at hc
  cases hc

theorem isWhitespace_of_isDigit {c : Char} (h : c.isDigit = true) : isWhitespace c = false := by
  have hlo : 48 ≤ c.toNat := (Char.isDigit_iff_toNat.mp h).1
  have hhi : c.toNat ≤ 57 := (Char.isDigit_iff_toNat.mp h).2
  unfold isWhitespace
  simp only [Bool.or_eq_false_iff, Bool.and_eq_false_iff, decide_eq_false_iff_not]
  omega

theorem trim_decimal (n : Nat) : trim (decimal n) = decimal n := by
  have hno : ∀ c ∈ decimal n, ¬ isWhitespace c = true := by
    intro c hc
    rw [isWhitespace_of_isDigit (List.all_eq_true.mp (decimal_digits n).2.1 c hc)]
    exact Bool.false_ne_true
  have hstart : (decimal n).dropWhile isWhitespace = decimal n :=
    List.dropWhile_eq_self_iff.mpr fun hl => hno _ (List.getElem_mem hl)
  have hend : (decimal n).reverse.dropWhile isWhitespace = (decimal n).reverse :=
    List.dropWhile_eq_self_iff.mpr fun hl => hno _ (List.mem_reverse.mp (List.getElem_mem hl))
  rw [trim, trimEndMatches, hstart, hend, List.reverse_reverse]

/-! ## Round trips -/

theorem toNat_high_byte (port : UInt16) : (port >>> 8).toUInt8.toNat = port.toNat / 256 := by
  have hlt := port.toNat_lt
  rw [UInt16.toNat_toUInt8, UInt16.toNat_shiftRight]
  show port.toNat >>> 8 % 256 = port.toNat / 256
  rw [Nat.shiftRight_eq_div_pow]
  omega

theorem toNat_low_byte (port : UInt16) : (port &&& 0xFF).toUInt8.toNat = port.toNat % 256 := by
  rw [UInt16.toNat_toUInt8, UInt16.toNat_and]
  show (port.toNat &&& (2 ^ 8 - 1)) % 256 = port.toNat % 256
  rw [Nat.and_two_pow_sub_one_eq_mod, Nat.mod_mod]

theorem firstGroup_six {a b c d p1 p2 : Text}
    (hno : ∀ field ∈ [a, b, c, d, p1, p2], ')' ∉ field) :
    FirstGroup ("227 Entering Passive Mode (".toList ++ a ++ [','] ++ b ++ [','] ++ c ++ [',']
      ++ d ++ [','] ++ p1 ++ [','] ++ p2 ++ ").\r\n".toList)
      ([','].intercalate [a, b, c, d, p1, p2]) := by
  refine ⟨"227 Entering Passive Mode ".toList, ".\r\n".toList, ?_, by decide, ?_⟩
  · simp [List.intercalate]
  · simpa [List.intercalate] using hno

theorem pasvFields_pasvReply (ip : Ipv4Addr) (port : UInt16) :
    PasvFields (pasvReply ip port) [ip.a.toNat, ip.b.toNat, ip.c.toNat, ip.d.toNat,
      port.toNat / 256, port.toNat % 256] := by
  have hfields : ∀ bytes : List UInt8,
      List.Forall₂ (fun field n => Numeral (trim field) n ∧ n < 256)
        (bytes.map fun byte => decimal byte.toNat) (bytes.map UInt8.toNat) := by
    intro bytes
    rw [List.forall₂_map_left_iff, List.forall₂_map_right_iff, List.forall₂_same]
    intro byte _
    rw [trim_decimal]
    exact ⟨numeral_decimal _, byte.toNat_lt⟩
  have hno : ∀ (x : Char) (bytes : List UInt8), x.isDigit = false →
      ∀ field ∈ bytes.map fun byte => decimal byte.toNat, x ∉ field := by
    intro x bytes hx field hfield
    obtain ⟨byte, -, rfl⟩ := List.mem_map.mp hfield
    exact notMem_decimal hx _
  rw [← toNat_high_byte port, ← toNat_low_byte port]
  refine ⟨[ip.a, ip.b, ip.c, ip.d, (port >>> 8).toUInt8, (port &&& 0xFF).toUInt8].map
    fun byte : UInt8 => decimal byte.toNat, ?_, hno ',' _ rfl, hfields _⟩
  exact firstGroup_six (hno ')' [ip.a, ip.b, ip.c, ip.d, (port >>> 8).toUInt8,
    (port &&& 0xFF).toUInt8] rfl)

theorem firstGroup_epsv {port : Text} (hno : ')' ∉ port) :
    FirstGroup ("229 Entering Extended Passive Mode (|||".toList ++ port ++ "|).\r\n".toList)
      ('|' :: '|' :: '|' :: (port ++ ['|'])) := by
  refine ⟨"229 Entering Extended Passive Mode ".toList, ".\r\n".toList, ?_, by decide, ?_⟩
  · simp
  · simpa using hno

theorem epsvPort_epsvReply (port : UInt16) : EpsvPort (epsvReply port) port.toNat :=
  ⟨'|', decimal port.toNat, firstGroup_epsv (notMem_decimal rfl _), rfl, notMem_decimal rfl _,
    numeral_decimal _⟩

/-- **The codec.** What the gateway writes reads back as it was, for every
address and port; and a line that reads as `(ip', port')` has in its first
group six fields between commas, numbers at most 255 once trimmed, that are
the address and the two bytes of the port, the shift of the high byte losing
nothing. -/
theorem passive_codec (ip : Ipv4Addr) (port : UInt16) (line : Text) :
    parsePasvReply (pasvReply ip port) = some (ip, port) ∧
    (port ≠ 0 → parseEpsvReply (epsvReply port) = some port) ∧
    ∀ ip' port', parsePasvReply line = some (ip', port') →
      ∃ f1 f2 f3 f4 f5 f6 p1 p2,
        FirstGroup line ([','].intercalate [f1, f2, f3, f4, f5, f6]) ∧
        (∀ field ∈ [f1, f2, f3, f4, f5, f6], ',' ∉ field) ∧
        parseU16 (trim f1) = some ip'.a.toUInt16 ∧ parseU16 (trim f2) = some ip'.b.toUInt16 ∧
        parseU16 (trim f3) = some ip'.c.toUInt16 ∧ parseU16 (trim f4) = some ip'.d.toUInt16 ∧
        parseU16 (trim f5) = some p1 ∧ parseU16 (trim f6) = some p2 ∧ p1 ≤ 255 ∧ p2 ≤ 255 ∧
        (p1 <<< 8).toNat = 256 * p1.toNat ∧ port'.toNat = 256 * p1.toNat + p2.toNat := by
  refine ⟨parsePasvReply_eq_some.mpr (pasvFields_pasvReply ip port),
    fun hne => parseEpsvReply_eq_some.mpr ⟨hne, epsvPort_epsvReply port⟩, fun ip' port' h => ?_⟩
  obtain ⟨fields, hgroup, hno, hvalues⟩ := parsePasvReply_eq_some.mp h
  match fields, hvalues.length_eq with
  | [f1, f2, f3, f4, f5, f6], _ =>
      simp only [List.forall₂_cons, List.Forall₂.nil, and_true] at hvalues
      obtain ⟨⟨h1, -⟩, ⟨h2, -⟩, ⟨h3, -⟩, ⟨h4, -⟩, ⟨h5, hhi⟩, h6, hlo⟩ := hvalues
      have hp1 := toNat_ofNat_of_lt (show port'.toNat / 256 < 65536 by omega)
      have hp2 := toNat_ofNat_of_lt (show port'.toNat % 256 < 65536 by omega)
      refine ⟨f1, f2, f3, f4, f5, f6, .ofNat (port'.toNat / 256), .ofNat (port'.toNat % 256),
        hgroup, hno, ?_, ?_, ?_, ?_, ?_, ?_, ?_, ?_, ?_, ?_⟩
      · rwa [parseU16_eq_some_iff, UInt8.toNat_toUInt16]
      · rwa [parseU16_eq_some_iff, UInt8.toNat_toUInt16]
      · rwa [parseU16_eq_some_iff, UInt8.toNat_toUInt16]
      · rwa [parseU16_eq_some_iff, UInt8.toNat_toUInt16]
      · rwa [parseU16_eq_some_iff, hp1]
      · rwa [parseU16_eq_some_iff, hp2]
      · rw [UInt16.le_iff_toNat_le, hp1]
        exact Nat.le_of_lt_succ hhi
      · rw [UInt16.le_iff_toNat_le, hp2]
        exact Nat.le_of_lt_succ hlo
      · exact (toNat_shift_or (by rwa [hp1]) (by rwa [hp2])).1
      · rw [hp1, hp2, Nat.div_add_mod]

/-! ## Delimiters -/

theorem FirstGroup.unique {line inner inner' : Text} (h : FirstGroup line inner)
    (h' : FirstGroup line inner') : inner = inner' := by
  rw [← inParens_eq_some] at h h'
  exact Option.some.inj (h.symm.trans h')

/-- **Which delimiters are understood**: all graphic characters but the closing
parenthesis and the digits the port is written with. -/
theorem parseEpsvReply_delimiter_iff (d : Char) (p : UInt16) (before after : Text)
    (hd : isAsciiGraphic d = true) (hp : p ≠ 0) (hbefore : '(' ∉ before) :
    parseEpsvReply (before ++ '(' :: d :: d :: d :: (decimal p.toNat ++ d :: ')' :: after)) =
        some p ↔
      d ≠ ')' ∧ d ∉ decimal p.toNat := by
  constructor
  · intro h
    obtain ⟨-, d', port, hgroup, -, hno, -⟩ := parseEpsvReply_eq_some.mp h
    have hclose : d ≠ ')' := by
      rintro rfl
      have hempty : FirstGroup (before ++ '(' :: ')' :: ')' :: ')' ::
          (decimal p.toNat ++ ')' :: ')' :: after)) [] :=
        ⟨before, _, rfl, hbefore, List.not_mem_nil⟩
      cases hempty.unique hgroup
    refine ⟨hclose, ?_⟩
    have hfull : FirstGroup (before ++ '(' :: d :: d :: d ::
        (decimal p.toNat ++ d :: ')' :: after)) (d :: d :: d :: (decimal p.toNat ++ [d])) :=
      ⟨before, after, by simp, hbefore, by simp [Ne.symm hclose, notMem_decimal]⟩
    have hinner := hfull.unique hgroup
    simp only [List.cons.injEq] at hinner
    obtain ⟨rfl, -, -, hport⟩ := hinner
    rwa [List.append_cancel_right hport]
  · rintro ⟨hclose, hno⟩
    refine parseEpsvReply_eq_some.mpr ⟨hp, d, decimal p.toNat, ⟨before, after, ?_, hbefore, ?_⟩,
      hd, hno, numeral_decimal _⟩
    · simp
    · simp [Ne.symm hclose, notMem_decimal]

theorem parseEpsvReply_delimiter_iff_bang :
    parseEpsvReply "229 ok (!!!2121!)".toList = some 2121 :=
  (parseEpsvReply_delimiter_iff '!' 2121 "229 ok ".toList [] (by decide) (by decide)
    (by decide)).mpr (by decide)

/-- A closing parenthesis or a digit of the port as the delimiter is not
understood. -/
theorem parseEpsvReply_misses_delimiters :
    (isAsciiGraphic ')' = true ∧ parseEpsvReply ("229 ok ".toList ++ '(' :: ')' :: ')' :: ')' ::
      (decimal 2121 ++ ')' :: ')' :: [])) = none) ∧
    (isAsciiGraphic '1' = true ∧ parseEpsvReply ("229 ok ".toList ++ '(' :: '1' :: '1' :: '1' ::
      (decimal 2121 ++ '1' :: ')' :: [])) = none) := by
  decide

end FtpGateway
