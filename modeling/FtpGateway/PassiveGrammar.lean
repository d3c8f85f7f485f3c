import Mathlib.Data.List.Forall2
import FtpGateway.Reply

/-!
# What the passive parsers accept

The texts `parse_epsv_reply` and `parse_pasv_reply` take, as a grammar of their
own: a first parenthesised group anywhere in the line, holding a port between
delimiters or six numbers between commas, and what is read from it
(`parseEpsvReply_eq_some`, `parsePasvReply_eq_some`). The reply code in front
of the group plays no part.
-/

namespace FtpGateway

open Str

/-! ## Pieces -/

theorem splitOnce_eq_some {c : Char} {t a b : Text} :
    splitOnce c t = some (a, b) ↔ t = a ++ c :: b ∧ c ∉ a := by
  induction t generalizing a with
  | nil => simp [splitOnce]
  | cons d t ih =>
      rw [splitOnce]
      split
      case isTrue hd =>
        subst hd
        constructor
        · intro h
          obtain ⟨rfl, rfl⟩ := Prod.mk.injEq .. |>.mp (Option.some.inj h)
          exact ⟨rfl, List.not_mem_nil⟩
        · rintro ⟨h, hno⟩
          cases a with
          | nil => rw [(List.cons.inj h).2]
          | cons x a =>
              obtain ⟨rfl, -⟩ := List.cons.inj h
              exact absurd (List.mem_cons_self ..) hno
      case isFalse hd =>
        rw [Option.map_eq_some_iff]
        constructor
        · rintro ⟨⟨a', b'⟩, hsplit, heq⟩
          obtain ⟨rfl, rfl⟩ := Prod.mk.injEq .. |>.mp heq
          obtain ⟨rfl, hno⟩ := ih.mp hsplit
          exact ⟨rfl, by simp [hno, Ne.symm hd]⟩
        · rintro ⟨h, hno⟩
          cases a with
          | nil => exact absurd (List.cons.inj h).1 hd
          | cons x a =>
              obtain ⟨rfl, rfl⟩ := List.cons.inj h
              exact ⟨(a, b), ih.mpr ⟨rfl, fun hmem => hno (List.mem_cons_of_mem _ hmem)⟩, rfl⟩

theorem splitOnce_eq_none {c : Char} {t : Text} (h : c ∉ t) : splitOnce c t = none := by
  cases hsplit : splitOnce c t with
  | none => rfl
  | some pair =>
      obtain ⟨rfl, -⟩ := splitOnce_eq_some.mp hsplit
      exact absurd (by simp) h

theorem notMem_of_mem_splitOn {x : Char} {t piece : Text} (h : piece ∈ t.splitOn x) :
    x ∉ piece := by
  induction t generalizing piece with
  | nil =>
      rw [List.splitOn_eq_singleton List.not_mem_nil, List.mem_singleton] at h
      rw [h]
      exact List.not_mem_nil
  | cons d t ih =>
      rw [List.splitOn_cons_eq_if_modifyHead] at h
      split at h
      case isTrue =>
        rcases List.mem_cons.mp h with rfl | h
        · exact List.not_mem_nil
        · exact ih h
      case isFalse hd =>
        have hne : x ≠ d := fun heq => hd (by rw [heq]; exact beq_self_eq_true d)
        cases hsplit : t.splitOn x with
        | nil => exact absurd hsplit (List.splitOn_ne_nil x t)
        | cons first rest =>
            rw [hsplit] at h ih
            rcases List.mem_cons.mp h with rfl | h
            · simp [hne, ih (List.mem_cons_self ..)]
            · exact ih (List.mem_cons_of_mem _ h)

/-- The pieces of a text are those that make it up, free of the separator. -/
theorem splitOn_eq_iff {x : Char} {t : Text} {pieces : List Text} :
    t.splitOn x = pieces ↔
      pieces ≠ [] ∧ (∀ piece ∈ pieces, x ∉ piece) ∧ t = [x].intercalate pieces := by
  constructor
  · rintro rfl
    exact ⟨List.splitOn_ne_nil x t, fun piece => notMem_of_mem_splitOn,
      (List.intercalate_splitOn x).symm⟩
  · rintro ⟨hne, hno, rfl⟩
    exact List.splitOn_intercalate x hno hne

/-! ## Numbers -/

def decimalValue (digits : Text) : Nat :=
  digits.foldl (fun acc c => acc * 10 + (c.toNat - 48)) 0

/-- At least one digit, with at most a plus sign before it. -/
def Numeral (t : Text) (n : Nat) : Prop :=
  ∃ digits, (t = digits ∨ t = '+' :: digits) ∧ digits ≠ [] ∧
    digits.all Char.isDigit = true ∧ n = decimalValue digits

/-- What `parse_u16` makes of the digits. -/
def unsignedU16 (digits : Text) : Option UInt16 :=
  if digits ≠ [] ∧ digits.all Char.isDigit then
    if decimalValue digits < 65536 then some (UInt16.ofNat (decimalValue digits)) else none
  else none

theorem unsignedU16_eq_some {digits : Text} {p : UInt16} :
    unsignedU16 digits = some p ↔ digits ≠ [] ∧ digits.all Char.isDigit = true ∧
      decimalValue digits < 65536 ∧ p = UInt16.ofNat (decimalValue digits) := by
  rw [unsignedU16]
  by_cases hd : digits ≠ [] ∧ digits.all Char.isDigit = true
  · rw [if_pos hd]
    by_cases hn : decimalValue digits < 65536
    · rw [if_pos hn]
      constructor
      · intro h; exact ⟨hd.1, hd.2, hn, (Option.some.inj h).symm⟩
      · rintro ⟨-, -, -, rfl⟩; rfl
    · rw [if_neg hn]
      exact ⟨fun h => (nomatch h), fun h => absurd h.2.2.1 hn⟩
  · rw [if_neg hd]
    exact ⟨fun h => (nomatch h), fun h => absurd ⟨h.1, h.2.1⟩ hd⟩

theorem parseU16_plus (digits : Text) : parseU16 ('+' :: digits) = unsignedU16 digits := rfl

theorem parseU16_of_head {t : Text} (h : t.head? ≠ some '+') : parseU16 t = unsignedU16 t := by
  cases t with
  | nil => rfl
  | cons c t =>
      unfold parseU16
      split
      case h_1 digits heq =>
        rw [heq] at h
        exact absurd rfl h
      case h_2 => rfl

theorem parseU16_eq_some {t : Text} {p : UInt16} :
    parseU16 t = some p ↔ ∃ n, Numeral t n ∧ n < 65536 ∧ p = UInt16.ofNat n := by
  constructor
  · intro h
    by_cases hplus : t.head? = some '+'
    · cases t with
      | nil => cases hplus
      | cons c digits =>
          obtain rfl : c = '+' := Option.some.inj hplus
          rw [parseU16_plus] at h
          obtain ⟨hne, hall, hlt, hp⟩ := unsignedU16_eq_some.mp h
          exact ⟨_, ⟨digits, .inr rfl, hne, hall, rfl⟩, hlt, hp⟩
    · rw [parseU16_of_head hplus] at h
      obtain ⟨hne, hall, hlt, hp⟩ := unsignedU16_eq_some.mp h
      exact ⟨_, ⟨t, .inl rfl, hne, hall, rfl⟩, hlt, hp⟩
  · rintro ⟨n, ⟨digits, ht, hne, hall, rfl⟩, hlt, hp⟩
    have hdigits := unsignedU16_eq_some.mpr ⟨hne, hall, hlt, hp⟩
    rcases ht with rfl | rfl
    · rw [parseU16_of_head]
      · exact hdigits
      · intro hplus
        have := List.all_eq_true.mp hall '+' (List.mem_of_mem_head? hplus)
        cases this
    · rw [parseU16_plus, hdigits]

/-- A number and its text determine each other as far as the type goes. -/
theorem parseU16_eq_some_iff {t : Text} {p : UInt16} :
    parseU16 t = some p ↔ Numeral t p.toNat := by
  rw [parseU16_eq_some]
  constructor
  · rintro ⟨n, hnum, hlt, rfl⟩
    rwa [UInt16.toNat_ofNat', Nat.mod_eq_of_lt hlt]
  · intro hnum
    exact ⟨p.toNat, hnum, p.toNat_lt, UInt16.ofNat_toNat.symm⟩

/-! ## The group -/

/-- The first parenthesised group of a line. -/
def FirstGroup (line inner : Text) : Prop :=
  ∃ before after, line = before ++ '(' :: (inner ++ ')' :: after) ∧ '(' ∉ before ∧ ')' ∉ inner

theorem inParens_eq_some {line inner : Text} :
    inParens line = some inner ↔ FirstGroup line inner := by
  simp only [inParens, Option.bind_eq_some_iff, Option.map_eq_some_iff, Prod.exists,
    splitOnce_eq_some, FirstGroup]
  constructor
  · rintro ⟨before, rest, ⟨rfl, hbefore⟩, inner', after, ⟨rfl, hinner⟩, rfl⟩
    exact ⟨before, after, rfl, hbefore, hinner⟩
  · rintro ⟨before, after, rfl, hbefore, hinner⟩
    exact ⟨before, _, ⟨rfl, hbefore⟩, inner, after, ⟨rfl, hinner⟩, rfl⟩

/-- `(<d><d><d>port<d>)` with a graphic delimiter and a port that is not 0. -/
def EpsvGroup (line : Text) : Prop :=
  ∃ d port n, FirstGroup line (d :: d :: d :: (port ++ [d])) ∧ isAsciiGraphic d = true ∧
    d ∉ port ∧ Numeral port n ∧ 0 < n ∧ n < 65536

theorem splitOn_epsv {d : Char} {inner port : Text} :
    inner.splitOnP (· == d) = [[], [], [], port, []] ↔
      inner = d :: d :: d :: (port ++ [d]) ∧ d ∉ port := by
  rw [← List.splitOn_eq_splitOnP, splitOn_eq_iff]
  simp [List.intercalate, and_comm]

/-- The port `n` in such a group. -/
def EpsvPort (line : Text) (n : Nat) : Prop :=
  ∃ d port, FirstGroup line (d :: d :: d :: (port ++ [d])) ∧ isAsciiGraphic d = true ∧
    d ∉ port ∧ Numeral port n

theorem parseEpsvReply_eq_some {line : Text} {p : UInt16} :
    parseEpsvReply line = some p ↔ p ≠ 0 ∧ EpsvPort line p.toNat := by
  constructor
  · intro h
    simp only [parseEpsvReply, Option.bind_eq_bind, Option.bind_eq_some_iff] at h
    obtain ⟨inner, hinner, d, hd, h⟩ := h
    split at h
    case isFalse => cases h
    case isTrue hgraphic =>
      split at h
      case h_2 => cases h
      case h_1 port hsplit =>
        obtain ⟨p', hport, h⟩ := Option.bind_eq_some_iff.mp h
        split at h
        case isFalse => cases h
        case isTrue hne =>
          obtain rfl := Option.some.inj h
          obtain ⟨rfl, hno⟩ := splitOn_epsv.mp hsplit
          exact ⟨hne, d, port, inParens_eq_some.mp hinner, hgraphic, hno,
            parseU16_eq_some_iff.mp hport⟩
  · rintro ⟨hne, d, port, hgroup, hgraphic, hno, hnum⟩
    simp only [parseEpsvReply, inParens_eq_some.mpr hgroup, Option.bind_eq_bind, Option.bind_some,
      List.head?_cons, hgraphic, if_true, splitOn_epsv.mpr ⟨rfl, hno⟩,
      parseU16_eq_some_iff.mpr hnum]
    rw [if_pos hne]

theorem parseEpsvReply_isSome (line : Text) :
    (parseEpsvReply line).isSome = true ↔ EpsvGroup line := by
  rw [Option.isSome_iff_exists]
  constructor
  · rintro ⟨p, h⟩
    obtain ⟨hne, d, port, hgroup, hgraphic, hno, hnum⟩ := parseEpsvReply_eq_some.mp h
    refine ⟨d, port, p.toNat, hgroup, hgraphic, hno, hnum, ?_, p.toNat_lt⟩
    exact Nat.pos_of_ne_zero fun h0 => hne (UInt16.toNat_inj.mp h0)
  · rintro ⟨d, port, n, hgroup, hgraphic, hno, hnum, hpos, hlt⟩
    have hvalue : (UInt16.ofNat n).toNat = n := by
      rw [UInt16.toNat_ofNat', Nat.mod_eq_of_lt hlt]
    refine ⟨UInt16.ofNat n, parseEpsvReply_eq_some.mpr ⟨fun h0 => ?_, d, port, hgroup, hgraphic,
      hno, by rwa [hvalue]⟩⟩
    rw [h0] at hvalue
    exact Nat.ne_of_lt hpos hvalue

/-! ### Six numbers -/

/-- Six numbers below 256 between commas, with white space around them. -/
def PasvGroup (line : Text) : Prop :=
  ∃ fields : List Text, FirstGroup line ([','].intercalate fields) ∧ fields.length = 6 ∧
    ∀ field ∈ fields, ',' ∉ field ∧ ∃ n, Numeral (trim field) n ∧ n < 256

/-- The numbers in the group. -/
def PasvFields (line : Text) (values : List Nat) : Prop :=
  ∃ fields : List Text, FirstGroup line ([','].intercalate fields) ∧
    (∀ field ∈ fields, ',' ∉ field) ∧
    List.Forall₂ (fun field n => Numeral (trim field) n ∧ n < 256) fields values

theorem mapM_eq_some_iff {α β : Type} {f : α → Option β} {l : List α} {l' : List β} :
    l.mapM f = some l' ↔ List.Forall₂ (fun a b => f a = some b) l l' := by
  induction l generalizing l' with
  | nil => simp [List.forall₂_nil_left_iff, eq_comm]
  | cons a l ih =>
      rw [List.mapM_cons]
      simp only [Option.bind_eq_bind, Option.bind_eq_some_iff, Option.pure_def,
        Option.some.injEq, List.forall₂_cons_left_iff, ih]
      constructor
      · rintro ⟨b, hb, rest, hrest, rfl⟩
        exact ⟨b, rest, hb, hrest, rfl⟩
      · rintro ⟨b, rest, hb, hrest, rfl⟩
        exact ⟨b, hb, rest, hrest, rfl⟩

/-- A value for every element makes a list of values. -/
theorem exists_forall₂_iff {α β : Type} {R : α → β → Prop} {l : List α} :
    (∃ l', List.Forall₂ R l l') ↔ ∀ a ∈ l, ∃ b, R a b := by
  induction l with
  | nil => simp
  | cons a l ih =>
      rw [List.forall_mem_cons, ← ih]
      constructor
      · rintro ⟨l', hl'⟩
        obtain ⟨b, rest, hb, hrest, rfl⟩ := List.forall₂_cons_left_iff.mp hl'
        exact ⟨⟨b, hb⟩, rest, hrest⟩
      · rintro ⟨⟨b, hb⟩, rest, hrest⟩
        exact ⟨b :: rest, .cons hb hrest⟩

theorem forall₂_and_right {α β : Type} {R : α → β → Prop} {p : β → Prop} {l : List α}
    {l' : List β} :
    List.Forall₂ (fun a b => R a b ∧ p b) l l' ↔ List.Forall₂ R l l' ∧ ∀ b ∈ l', p b := by
  constructor
  · intro h
    induction h with
    | nil => simp
    | cons hb _ ih => exact ⟨.cons hb.1 ih.1, List.forall_mem_cons.mpr ⟨hb.2, ih.2⟩⟩
  · rintro ⟨h, hp⟩
    induction h with
    | nil => exact .nil
    | cons hb _ ih =>
        rw [List.forall_mem_cons] at hp
        exact .cons ⟨hb, hp.1⟩ (ih hp.2)

theorem toNat_ofNat_of_lt {n : Nat} (h : n < 65536) : (UInt16.ofNat n).toNat = n := by
  rw [UInt16.toNat_ofNat', Nat.mod_eq_of_lt h]

/-- Two numbers below 256 packed into a port. -/
theorem toNat_shift_or {p1 p2 : UInt16} (h1 : p1.toNat < 256) (h2 : p2.toNat < 256) :
    (p1 <<< 8).toNat = 256 * p1.toNat ∧ ((p1 <<< 8) ||| p2).toNat = 256 * p1.toNat + p2.toNat := by
  have hshift : (p1 <<< 8).toNat = p1.toNat <<< 8 := by
    rw [UInt16.toNat_shiftLeft]
    show p1.toNat <<< 8 % 2 ^ 16 = p1.toNat <<< 8
    rw [Nat.mod_eq_of_lt]
    rw [Nat.shiftLeft_eq]
    omega
  rw [UInt16.toNat_or, hshift, ← Nat.shiftLeft_add_eq_or_of_lt h2, Nat.shiftLeft_eq]
  exact ⟨Nat.mul_comm _ _, by rw [Nat.mul_comm]⟩

theorem parsePasvReply_eq_some {line : Text} {ip : Ipv4Addr} {port : UInt16} :
    parsePasvReply line = some (ip, port) ↔
      PasvFields line [ip.a.toNat, ip.b.toNat, ip.c.toNat, ip.d.toNat, port.toNat / 256,
        port.toNat % 256] := by
  constructor
  · intro h
    simp only [parsePasvReply, Option.bind_eq_bind, Option.bind_eq_some_iff] at h
    obtain ⟨inner, hinner, numbers, hnumbers, h⟩ := h
    split at h
    case h_2 => cases h
    case h_1 o1 o2 o3 o4 p1 p2 =>
      split at h
      case isTrue => cases h
      case isFalse hsmall =>
        have hlt : ∀ v ∈ [o1, o2, o3, o4, p1, p2], v.toNat < 256 := by
          intro v hv
          by_contra hbig
          refine hsmall (List.any_eq_true.mpr ⟨v, hv, decide_eq_true ?_⟩)
          exact UInt16.lt_iff_toNat_lt.mpr (Nat.lt_of_succ_le (Nat.le_of_not_lt hbig))
        obtain ⟨rfl, rfl⟩ := Prod.mk.inj (Option.some.inj h)
        rw [← List.splitOn_eq_splitOnP] at hnumbers
        obtain ⟨hne, hno, hjoin⟩ := splitOn_eq_iff.mp (rfl : inner.splitOn ',' = _)
        have hvalues := (mapM_eq_some_iff.mp hnumbers).imp fun _ _ => parseU16_eq_some_iff.mp
        rw [← List.forall₂_map_right_iff] at hvalues
        have hport := (toNat_shift_or (hlt p1 (by simp)) (hlt p2 (by simp))).2
        have hlo := hlt p2 (by simp)
        have hbytes : [o1.toUInt8.toNat, o2.toUInt8.toNat, o3.toUInt8.toNat, o4.toUInt8.toNat,
            ((p1 <<< 8) ||| p2).toNat / 256, ((p1 <<< 8) ||| p2).toNat % 256] =
            [o1, o2, o3, o4, p1, p2].map UInt16.toNat := by
          simp only [List.forall_mem_cons] at hlt
          obtain ⟨h1, h2, h3, h4, h5, h6, -⟩ := hlt
          simp only [UInt16.toNat_toUInt8, hport, List.map_cons, List.map_nil, List.cons.injEq,
            and_true]
          omega
        rw [hbytes]
        refine ⟨inner.splitOn ',', ?_, hno, forall₂_and_right.mpr ⟨hvalues, ?_⟩⟩
        · rw [← hjoin]; exact inParens_eq_some.mp hinner
        · rwa [List.forall_mem_map]
  · rintro ⟨fields, hgroup, hno, hvalues⟩
    have hsplit : ([','].intercalate fields).splitOnP (· == ',') = fields := by
      rw [← List.splitOn_eq_splitOnP, splitOn_eq_iff]
      refine ⟨?_, hno, rfl⟩
      rintro rfl
      cases hvalues
    have hnumbers : fields.mapM (fun part => parseU16 (trim part)) =
        some ([ip.a.toNat, ip.b.toNat, ip.c.toNat, ip.d.toNat, port.toNat / 256,
          port.toNat % 256].map UInt16.ofNat) := by
      rw [mapM_eq_some_iff, List.forall₂_map_right_iff]
      refine hvalues.imp fun field n h => parseU16_eq_some.mpr ⟨n, h.1, ?_, rfl⟩
      exact Nat.lt_trans h.2 (by decide)
    have hsmall : (([ip.a.toNat, ip.b.toNat, ip.c.toNat, ip.d.toNat, port.toNat / 256,
        port.toNat % 256].map UInt16.ofNat).any fun n => n > 255) = false := by
      rw [List.any_eq_false]
      intro v hv
      obtain ⟨n, hn, rfl⟩ := List.mem_map.mp hv
      have hlt := (forall₂_and_right.mp hvalues).2 n hn
      rw [decide_eq_true_eq, gt_iff_lt, UInt16.lt_iff_toNat_lt, toNat_ofNat_of_lt (by omega)]
      exact Nat.not_lt_of_le (Nat.le_of_lt_succ hlt)
    have hbyte : ∀ x : UInt8, (UInt16.ofNat x.toNat).toUInt8 = x := by
      intro x
      have hlt := x.toNat_lt
      rw [← UInt8.toNat_inj, UInt16.toNat_toUInt8, toNat_ofNat_of_lt (by omega)]
      exact Nat.mod_eq_of_lt hlt
    have hport : (UInt16.ofNat (port.toNat / 256) <<< 8) ||| UInt16.ofNat (port.toNat % 256) =
        port := by
      have hlt := port.toNat_lt
      have hhi : (UInt16.ofNat (port.toNat / 256)).toNat = port.toNat / 256 :=
        toNat_ofNat_of_lt (by omega)
      have hlo : (UInt16.ofNat (port.toNat % 256)).toNat = port.toNat % 256 :=
        toNat_ofNat_of_lt (by omega)
      rw [← UInt16.toNat_inj, (toNat_shift_or (by omega) (by omega)).2, hhi, hlo]
      exact Nat.div_add_mod _ _
    simp only [List.map_cons, List.map_nil] at hnumbers hsmall
    simp only [parsePasvReply, inParens_eq_some.mpr hgroup, Option.bind_eq_bind,
      Option.bind_some, hsplit, hnumbers, hsmall, hbyte, hport, Bool.false_eq_true, if_false]

theorem parsePasvReply_isSome (line : Text) :
    (parsePasvReply line).isSome = true ↔ PasvGroup line := by
  rw [Option.isSome_iff_exists]
  constructor
  · rintro ⟨⟨ip, port⟩, h⟩
    obtain ⟨fields, hgroup, hno, hvalues⟩ := parsePasvReply_eq_some.mp h
    exact ⟨fields, hgroup, hvalues.length_eq, fun field hfield =>
      ⟨hno field hfield, exists_forall₂_iff.mp ⟨_, hvalues⟩ field hfield⟩⟩
  · rintro ⟨fields, hgroup, hlen, hfields⟩
    obtain ⟨values, hvalues⟩ :=
      exists_forall₂_iff.mpr fun field hfield => (hfields field hfield).2
    match values, hvalues.length_eq.symm.trans hlen with
    | [a, b, c, d, p1, p2], _ =>
        refine ⟨(⟨.ofNat a, .ofNat b, .ofNat c, .ofNat d⟩, .ofNat (256 * p1 + p2)),
          parsePasvReply_eq_some.mpr ⟨fields, hgroup, fun field h => (hfields field h).1, ?_⟩⟩
        have hlt := (forall₂_and_right.mp hvalues).2
        simp only [List.forall_mem_cons] at hlt
        obtain ⟨ha, hb, hc, hd, h1, h2, -⟩ := hlt
        have hhi : (256 * p1 + p2) / 256 = p1 := by omega
        have hlo : (256 * p1 + p2) % 256 = p2 := by omega
        rw [toNat_ofNat_of_lt (show 256 * p1 + p2 < 65536 by omega), hhi, hlo]
        simpa only [UInt8.toNat_ofNat', Nat.mod_eq_of_lt ha, Nat.mod_eq_of_lt hb,
          Nat.mod_eq_of_lt hc, Nat.mod_eq_of_lt hd] using hvalues

end FtpGateway
