import Mathlib.Data.Int.Log
import Mathlib.Data.Rat.Cast.Order
import Mathlib.Data.Rat.Floor
import Mathlib.Tactic.NormNum
import FtpGateway.Str

/-!
# Python strings

The operations of Python's `str` and its `float` over lists of characters, under
Python's names and with its notions of white space, line boundary and decimal
digit, which are not those of `Str`. `float` gives the exact rational its text
denotes, finite if the double is; `nearestDouble` is the double it becomes.

The lemmas say what the operations do on texts put together from pieces: lines
(`splitlines_lines`), words (`split_word`, `split_two_words`) and texts that
neither start nor end in white space (`strip_eq_self`).
-/

namespace Py

open Str

/-! ## White space and lines -/

/-- `str.isspace` of one character. -/
def isSpace (c : Char) : Bool :=
  let n := c.toNat
  (9 ≤ n && n ≤ 13) || (0x1C ≤ n && n ≤ 0x20) || n = 0x85 || n = 0xA0 || n = 0x1680
    || (0x2000 ≤ n && n ≤ 0x200A) || n = 0x2028 || n = 0x2029 || n = 0x202F
    || n = 0x205F || n = 0x3000

/-- What `str.splitlines` splits at. -/
def isLineBoundary (c : Char) : Bool :=
  let n := c.toNat
  (10 ≤ n && n ≤ 13) || (0x1C ≤ n && n ≤ 0x1E) || n = 0x85 || n = 0x2028 || n = 0x2029

/-- `str.splitlines`. A boundary at the end starts no further line. -/
def splitlines : Text → List Text
  | [] => []
  | '\r' :: '\n' :: t => [] :: splitlines t
  | c :: t =>
      if isLineBoundary c then [] :: splitlines t
      else
        match splitlines t with
        | [] => [[c]]
        | l :: ls => (c :: l) :: ls

/-- `str.strip`. -/
def strip (t : Text) : Text := trimEndMatches isSpace (t.dropWhile isSpace)

/-- `str.split` without a separator. -/
def split (t : Text) : List Text := (t.splitOnP isSpace).filter fun word => !word.isEmpty

/-- `str.find` of a character: `none` is -1. -/
def find (t : Text) (c : Char) : Option Nat := t.findIdx? (· == c)

/-! ## Numbers -/

/-- The code points of the Unicode decimal digits zero; the other nine digits
follow each. -/
def decimalZeros : List Nat :=
  [0x30, 0x660, 0x6F0, 0x7C0, 0x966, 0x9E6, 0xA66, 0xAE6, 0xB66, 0xBE6, 0xC66, 0xCE6, 0xD66,
    0xDE6, 0xE50, 0xED0, 0xF20, 0x1040, 0x1090, 0x17E0, 0x1810, 0x1946, 0x19D0, 0x1A80, 0x1A90,
    0x1B50, 0x1BB0, 0x1C40, 0x1C50, 0xA620, 0xA8D0, 0xA900, 0xA9D0, 0xA9F0, 0xAA50, 0xABF0,
    0xFF10, 0x104A0, 0x10D30, 0x11066, 0x110F0, 0x11136, 0x111D0, 0x112F0, 0x11450, 0x114D0,
    0x11650, 0x116C0, 0x11730, 0x118E0, 0x11950, 0x11C50, 0x11D50, 0x11DA0, 0x16A60, 0x16AC0,
    0x16B50, 0x1D7CE, 0x1D7D8, 0x1D7E2, 0x1D7EC, 0x1D7F6, 0x1E140, 0x1E2F0, 0x1E950, 0x1FBF0]

/-- A decimal digit of any script, as an ASCII one. -/
def toAsciiDigit (c : Char) : Char :=
  match decimalZeros.find? fun z => z ≤ c.toNat && c.toNat < z + 10 with
  | some z => (c.toNat - z).digitChar
  | none => c

/-- An underscore stands between two digits. -/
def underscoresOk : Bool → Text → Bool
  | _, [] => true
  | afterDigit, c :: t =>
      if c = '_' then afterDigit && t.head?.any Char.isDigit && underscoresOk false t
      else underscoresOk c.isDigit t

inductive Number where
  | finite (q : Rat)
  | inf
  | nan
deriving DecidableEq

def digitsValue (digits : Text) : Nat :=
  digits.foldl (fun acc c => acc * 10 + (c.toNat - 48)) 0

/-- `digits * 10 ^ e`. -/
def scaled (m : Nat) (e : Int) : Rat :=
  match e with
  | .ofNat k => m * 10 ^ k
  | .negSucc k => m / 10 ^ (k + 1)

/-- From here on a double rounds to infinity. -/
def firstInfinite : Rat := 2 ^ 1024 - 2 ^ 970

/-- A sign in front of `t`, and the rest. -/
def signOf (t : Text) : Bool × Text :=
  match t with
  | '-' :: t => (true, t)
  | '+' :: t => (false, t)
  | t => (false, t)

def exponentOf (t : Text) : Option Int :=
  match t with
  | [] => some 0
  | c :: t =>
      if c = 'e' || c = 'E' then
        let (negative, digits) := signOf t
        if digits ≠ [] ∧ digits.all Char.isDigit then
          some (if negative then -digitsValue digits else digitsValue digits)
        else none
      else none

/-- A number without its sign. -/
def unsignedNumber (t : Text) : Option Number :=
  let lower := t.map Char.toLower
  if lower = "inf".toList || lower = "infinity".toList then some .inf
  else if lower = "nan".toList then some .nan
  else
    let whole := t.takeWhile Char.isDigit
    let (fraction, rest) := match t.dropWhile Char.isDigit with
      | '.' :: t => (t.takeWhile Char.isDigit, t.dropWhile Char.isDigit)
      | t => ([], t)
    if whole ++ fraction = [] then none
    else
      match exponentOf rest with
      | none => none
      | some e =>
          let q := scaled (digitsValue (whole ++ fraction)) (e - fraction.length)
          some (if q < firstInfinite then .finite q else .inf)

/-- `float` of a string: `none` is `ValueError`. -/
def float (t : Text) : Option Number :=
  let t := (strip t).map toAsciiDigit
  if underscoresOk false t then
    let (negative, digits) := signOf (t.filter (· ≠ '_'))
    match unsignedNumber digits with
    | some (.finite q) => some (.finite (if negative then -q else q))
    | other => other
  else none

/-- The integer nearest to `q`, an even one if there are two. -/
def roundHalfEven (q : Rat) : Int :=
  let below := ⌊q⌋
  if q - below < 1 / 2 then below
  else if 1 / 2 < q - below then below + 1
  else if below % 2 = 0 then below
  else below + 1

/-- The exponent of the last bit of a double next to `q`. -/
def lastBit (q : Rat) : Int := max (Int.log 2 |q| - 52) (-1074)

/-- The double nearest to a finite number, by the rule for ties of IEEE 754. -/
def nearestDouble (q : Rat) : Rat := roundHalfEven (q / 2 ^ lastBit q) * 2 ^ lastBit q

/-! ## Lines -/

theorem splitlines_line {l : Text} (h : ∀ c ∈ l, isLineBoundary c = false) (rest : Text) :
    splitlines (l ++ '\n' :: rest) = l :: splitlines rest := by
  induction l with
  | nil => rfl
  | cons c l ih =>
      rw [List.forall_mem_cons] at h
      have hne : c ≠ '\r' := by
        rintro rfl
        cases h.1
      have hstep (t : Text) : splitlines (c :: t) =
          match splitlines t with
          | [] => [[c]]
          | l :: ls => (c :: l) :: ls := by
        rw [splitlines.eq_3 _ _ (fun _ heq _ => hne heq), h.1]
        rfl
      rw [List.cons_append, hstep, ih h.2]

/-- Lines that end in `\n` are read back as they are. -/
theorem splitlines_lines {lines : List Text}
    (h : ∀ l ∈ lines, ∀ c ∈ l, isLineBoundary c = false) :
    splitlines (lines.flatMap (· ++ ['\n'])) = lines := by
  induction lines with
  | nil => rfl
  | cons l lines ih =>
      rw [List.forall_mem_cons] at h
      rw [List.flatMap_cons, List.append_assoc]
      show splitlines (l ++ '\n' :: lines.flatMap (· ++ ['\n'])) = _
      rw [splitlines_line h.1, ih h.2]

/-! ## Searching -/

theorem find_eq_none {c : Char} {t : Text} (h : c ∉ t) : find t c = none := by
  rw [find, List.findIdx?_eq_none_iff]
  intro d hd
  rw [beq_eq_false_iff_ne]
  rintro rfl
  exact h hd

/-- A character that `s` does not have is found behind it. -/
theorem find_append {c : Char} {s : Text} (h : c ∉ s) (t : Text) :
    find (s ++ t) c = (find t c).map (· + s.length) := by
  rw [find, List.findIdx?_append]
  show (find s c).or _ = _
  rw [find_eq_none h]
  rfl

/-! ## Words -/

theorem split_word {word : Text} (hne : word ≠ []) (h : ∀ c ∈ word, isSpace c = false) :
    split word = [word] := by
  rw [split, List.splitOnP_eq_singleton h]
  simp [hne]

theorem split_append_space {c : Char} (hc : isSpace c = true) (s t : Text) :
    split (s ++ c :: t) = split s ++ split t := by
  rw [split, List.splitOnP_append_cons s t hc, List.filter_append]
  rfl

theorem split_two_words {a b : Text} (ha : a ≠ []) (ha' : ∀ c ∈ a, isSpace c = false)
    (hb : b ≠ []) (hb' : ∀ c ∈ b, isSpace c = false) : split (a ++ ' ' :: b) = [a, b] := by
  rw [split_append_space rfl, split_word ha ha', split_word hb hb']
  rfl

theorem strip_eq_self {t : Text} (hhead : ∀ c ∈ t.head?, isSpace c = false)
    (hlast : ∀ c ∈ t.getLast?, isSpace c = false) : strip t = t := by
  have h := @trim_padded_of isSpace [] t [] (by simp) (by simp) hhead hlast
  simpa [strip] using h

/-- The first character stays if it is not white space. -/
theorem head?_strip {c : Char} (hc : isSpace c = false) (t : Text) :
    (strip (c :: t)).head? = some c := by
  rw [strip, List.dropWhile_cons_of_neg (by simp [hc])]
  obtain ⟨removed, heq, hremoved⟩ := trimEndMatches_append isSpace (c :: t)
  cases hkept : trimEndMatches isSpace (c :: t) with
  | nil =>
      rw [hkept, List.nil_append] at heq
      rw [hremoved c (by rw [← heq]; exact List.mem_cons_self ..)] at hc
      cases hc
  | cons d kept =>
      rw [hkept] at heq
      rw [(List.cons.inj heq).1]
      rfl

/-! ## Whole numbers -/

theorem isDigit_cases {c : Char} (h : c.isDigit = true) : ∃ d < 10, c = Nat.digitChar d := by
  have hlo : 48 ≤ c.toNat := (Char.isDigit_iff_toNat.mp h).1
  have hhi : c.toNat ≤ 57 := (Char.isDigit_iff_toNat.mp h).2
  refine ⟨c.toNat - 48, by omega, ?_⟩
  apply Char.toNat_inj.mp
  rw [Nat.toNat_digitChar_of_lt_ten (by omega)]
  omega

/-- A property of the ten digits, one by one. -/
theorem forall_isDigit {p : Char → Prop} (h : ∀ d < 10, p (Nat.digitChar d)) {c : Char}
    (hc : c.isDigit = true) : p c := by
  obtain ⟨d, hd, rfl⟩ := isDigit_cases hc
  exact h d hd

theorem toAsciiDigit_digit {c : Char} (hc : c.isDigit = true) : toAsciiDigit c = c :=
  forall_isDigit (p := fun c => toAsciiDigit c = c) (by decide) hc

theorem isSpace_digit {c : Char} (hc : c.isDigit = true) : isSpace c = false :=
  forall_isDigit (p := fun c => isSpace c = false) (by decide) hc

theorem ne_underscore {c : Char} (hc : c.isDigit = true) : c ≠ '_' := by
  rintro rfl
  cases hc

theorem underscoresOk_digits {t : Text} (h : t.all Char.isDigit = true) (b : Bool) :
    underscoresOk b t = true := by
  induction t generalizing b with
  | nil => rfl
  | cons c t ih =>
      rw [List.all_cons, Bool.and_eq_true] at h
      rw [underscoresOk, if_neg (ne_underscore h.1)]
      exact ih h.2 _

theorem signOf_digits {t : Text} (h : t.all Char.isDigit = true) : signOf t = (false, t) := by
  unfold signOf
  split
  · cases h
  · cases h
  · rfl

/-- A word does not start with a digit. -/
theorem map_toLower_ne {t word : Text} {x : Char} (hne : t ≠ []) (h : t.all Char.isDigit = true)
    (hx : x.isDigit = false) : t.map Char.toLower ≠ x :: word := by
  intro heq
  cases t with
  | nil => exact hne rfl
  | cons c t =>
      rw [List.all_cons, Bool.and_eq_true] at h
      have hlower : c.toLower = c :=
        forall_isDigit (p := fun c => c.toLower = c) (by decide) h.1
      rw [List.map_cons, hlower] at heq
      rw [← (List.cons.inj heq).1, h.1] at hx
      cases hx

theorem unsignedNumber_digits {t : Text} (hne : t ≠ []) (h : t.all Char.isDigit = true)
    (hfinite : (digitsValue t : Rat) < firstInfinite) :
    unsignedNumber t = some (.finite (digitsValue t)) := by
  have hwhole : t.takeWhile Char.isDigit = t :=
    List.takeWhile_eq_self_iff.mpr (List.all_eq_true.mp h)
  have hrest : t.dropWhile Char.isDigit = [] :=
    List.dropWhile_eq_nil_iff.mpr (List.all_eq_true.mp h)
  have hscaled : scaled (digitsValue t) 0 = digitsValue t := by
    show (digitsValue t : Rat) * 10 ^ 0 = digitsValue t
    rw [pow_zero, mul_one]
  have hinf : ¬(t.map Char.toLower = "inf".toList || t.map Char.toLower = "infinity".toList) := by
    simp only [Bool.or_eq_true, decide_eq_true_eq, not_or]
    exact ⟨map_toLower_ne hne h rfl, map_toLower_ne hne h rfl⟩
  have hnan : ¬t.map Char.toLower = "nan".toList := map_toLower_ne hne h rfl
  unfold unsignedNumber
  simp only [hinf, hnan, hwhole, hrest, List.append_nil, if_neg hne, exponentOf, List.length_nil]
  show some (if scaled (digitsValue t) 0 < firstInfinite then
    Number.finite (scaled (digitsValue t) 0) else Number.inf) = _
  rw [hscaled, if_pos hfinite]

/-- Whole numbers of 64 bits are far from infinite. -/
theorem lt_firstInfinite {n : Nat} (h : n < 2 ^ 64) : (n : Rat) < firstInfinite := by
  have hn : (n : Rat) < 2 ^ 64 := by exact_mod_cast h
  have hlarge : (2 ^ 64 : Rat) ≤ firstInfinite := by
    have hsmall : (2 ^ 64 : Rat) ≤ 2 ^ 970 := pow_le_pow_right₀ (by norm_num) (by norm_num)
    have hdouble : (2 ^ 970 + 2 ^ 970 : Rat) ≤ 2 ^ 1024 := by
      rw [← two_mul, ← pow_succ']
      exact pow_le_pow_right₀ (by norm_num) (by norm_num)
    rw [firstInfinite, le_sub_iff_add_le]
    exact (add_le_add_left hsmall _).trans hdouble
  exact lt_of_lt_of_le hn hlarge

/-- `float` of a whole number that a double can hold. -/
theorem float_digits {t : Text} (hne : t ≠ []) (h : t.all Char.isDigit = true)
    (hfinite : (digitsValue t : Rat) < firstInfinite) :
    float t = some (.finite (digitsValue t)) := by
  have hdigit := List.all_eq_true.mp h
  have hstrip : strip t = t :=
    strip_eq_self (fun c hc => isSpace_digit (hdigit c (List.mem_of_mem_head? hc)))
      fun c hc => isSpace_digit (hdigit c (List.mem_of_getLast? hc))
  have hascii : t.map toAsciiDigit = t :=
    (List.map_congr_left fun c hc => toAsciiDigit_digit (hdigit c hc)).trans (List.map_id t)
  have hfilter : t.filter (· ≠ '_') = t :=
    List.filter_eq_self.mpr fun c hc => by simpa using ne_underscore (hdigit c hc)
  unfold float
  simp only [hstrip, hascii, underscoresOk_digits h, hfilter, signOf_digits h,
    unsignedNumber_digits hne h hfinite]
  rfl

/-! ## Whole numbers -/

theorem roundHalfEven_intCast (z : Int) : roundHalfEven z = z := by
  have hexact : (z : Rat) - ⌊(z : Rat)⌋ < 1 / 2 := by
    rw [Int.floor_intCast, sub_self]
    norm_num
  rw [roundHalfEven, if_pos hexact, Int.floor_intCast]

/-- A double holds the whole numbers below `2 ^ 53`. -/
theorem nearestDouble_natCast {n : Nat} (h : n < 2 ^ 53) : nearestDouble n = n := by
  have hlog : Nat.log 2 n ≤ 52 := Nat.le_of_lt_succ (Nat.log_lt_of_lt_pow' (by decide) h)
  have hlast : lastBit n = -((52 - Nat.log 2 n : Nat) : Int) := by
    rw [lastBit, Nat.abs_cast, Int.log_natCast]
    omega
  have hwhole : (n : Rat) / 2 ^ lastBit n = ((n * 2 ^ (52 - Nat.log 2 n) : Int) : Rat) := by
    rw [hlast, zpow_neg, zpow_natCast, div_inv_eq_mul]
    push_cast
    rfl
  have hpos : (2 : Rat) ^ lastBit n ≠ 0 := zpow_ne_zero _ (by norm_num)
  rw [nearestDouble, hwhole, roundHalfEven_intCast, ← hwhole, div_mul_cancel₀ _ hpos]

/-- Ties go to the even neighbour. -/
example : nearestDouble (2 ^ 53 + 1) = 2 ^ 53 := by decide +kernel

end Py
