import Mathlib.Data.List.Basic
import Mathlib.Data.List.TakeWhile

/-!
# Bytes and text

The string operations of the modelled language over lists: a `Text` is the
list of a string's characters, `utf8` the bytes that store it. The operations
are the standard library's, under its names (`trim`, `splitOnce`,
`trimEndMatches`, ...), with its notion of white space.

Two facts about bytes are used over and over. Decoding and encoding are
inverse (`decodeUtf8_eq_some`), so a line handed on is the line received; and
a line-break byte can only come from a line-break character
(`mem_utf8_ascii`), so looking for breaks in the text or in the bytes is the
same thing. `linesOf` cuts a byte stream after each line feed, `segments` at
every carriage return and line feed.
-/

namespace Str

abbrev Bytes := List UInt8

abbrev Text := List Char

instance decidableMemBytes (b : Bytes) (l : List Bytes) : Decidable (b ∈ l) := inferInstance

/-! ## UTF-8 -/

/-- `str::as_bytes`. -/
def utf8 (t : Text) : Bytes := t.flatMap String.utf8EncodeChar

/-- `String::from_utf8`. -/
def decodeUtf8 (b : Bytes) : Option Text :=
  (ByteArray.utf8Decode? ⟨b.toArray⟩).map Array.toList

@[simp] theorem utf8_nil : utf8 [] = [] := rfl

theorem utf8_append (s t : Text) : utf8 (s ++ t) = utf8 s ++ utf8 t := by
  simp [utf8]

theorem utf8Encode_eq (t : Text) : t.utf8Encode = ⟨(utf8 t).toArray⟩ := by
  simp only [List.utf8Encode, utf8]
  ext1
  simp

theorem decodeUtf8_utf8 (t : Text) : decodeUtf8 (utf8 t) = some t := by
  have h := List.utf8Decode?_utf8Encode (l := t)
  rw [utf8Encode_eq] at h
  simp [decodeUtf8, h]

/-- Decoding succeeds on the encodings of texts and on nothing else. -/
theorem decodeUtf8_eq_some {b : Bytes} {t : Text} :
    decodeUtf8 b = some t ↔ b = utf8 t := by
  constructor
  · intro h
    simp only [decodeUtf8, Option.map_eq_some_iff] at h
    obtain ⟨a, ha, rfl⟩ := h
    have hsome : (ByteArray.utf8Decode? ⟨b.toArray⟩).isSome = true := by simp [ha]
    have henc := ByteArray.utf8Encode_get_utf8Decode? (h := hsome)
    simp only [ha, Option.get_some] at henc
    rw [utf8Encode_eq] at henc
    have := congrArg (fun x => x.data.toList) henc
    simpa using this.symm
  · rintro rfl
    exact decodeUtf8_utf8 t

/-- Behind whole characters decoding starts afresh. -/
theorem decodeUtf8_append (t : Text) (b : Bytes) :
    decodeUtf8 (utf8 t ++ b) = (decodeUtf8 b).map (t ++ ·) := by
  induction t with
  | nil => simp
  | cons c t ih =>
      have hbytes : (⟨(utf8 (c :: t) ++ b).toArray⟩ : ByteArray) =
          [c].utf8Encode ++ ⟨(utf8 t ++ b).toArray⟩ := by
        rw [utf8Encode_eq]
        ext1
        simp [utf8]
      rw [decodeUtf8] at ih ⊢
      rw [hbytes, ByteArray.utf8Decode?_utf8Encode_singleton_append, Option.map_map]
      have hcons : (Array.toList ∘ fun a : Array Char => #[c] ++ a) =
          (fun l => c :: l) ∘ Array.toList := by
        funext a
        simp
      rw [hcons, ← Option.map_map, ih, Option.map_map]
      rfl

theorem utf8_injective {s t : Text} (h : utf8 s = utf8 t) : s = t := by
  have := decodeUtf8_utf8 s
  rw [h, decodeUtf8_utf8] at this
  exact (Option.some.inj this).symm

/-- A byte below 128 in an encoding is a character of its own. -/
theorem mem_utf8EncodeChar_ascii {c : Char} {b : UInt8} (hb : b.toNat < 128)
    (hmem : b ∈ String.utf8EncodeChar c) : c.val.toNat = b.toNat := by
  unfold String.utf8EncodeChar at hmem
  dsimp only at hmem
  have hval : ∀ n k : Nat, k ≤ n → n < 256 → b = UInt8.ofNat n → k ≤ b.toNat := by
    rintro n k hk hn rfl
    simp only [UInt8.toNat_ofNat']
    omega
  split at hmem
  · obtain rfl := List.mem_singleton.mp hmem
    simp only [UInt8.toNat_ofNat']
    omega
  · exfalso
    have h128 : 128 ≤ b.toNat := by
      split at hmem
      · simp only [List.mem_cons, List.not_mem_nil, or_false] at hmem
        rcases hmem with h | h
        · exact hval _ 128 (by omega) (by omega) h
        · exact hval _ 128 (by omega) (by omega) h
      · split at hmem
        · simp only [List.mem_cons, List.not_mem_nil, or_false] at hmem
          rcases hmem with h | h | h
          · exact hval _ 128 (by omega) (by omega) h
          · exact hval _ 128 (by omega) (by omega) h
          · exact hval _ 128 (by omega) (by omega) h
        · simp only [List.mem_cons, List.not_mem_nil, or_false] at hmem
          rcases hmem with h | h | h | h
          · exact hval _ 128 (by omega) (by omega) h
          · exact hval _ 128 (by omega) (by omega) h
          · exact hval _ 128 (by omega) (by omega) h
          · exact hval _ 128 (by omega) (by omega) h
    omega

theorem utf8EncodeChar_ascii {c : Char} (hc : c.val.toNat < 128) :
    String.utf8EncodeChar c = [UInt8.ofNat c.val.toNat] := by
  unfold String.utf8EncodeChar
  dsimp only
  rw [if_pos (by omega)]

/-- An ASCII character is in a text exactly if its byte is in the encoding. -/
theorem mem_utf8_ascii {c : Char} (hc : c.val.toNat < 128) {t : Text} :
    UInt8.ofNat c.val.toNat ∈ utf8 t ↔ c ∈ t := by
  have hnat : (UInt8.ofNat c.val.toNat).toNat = c.val.toNat := by
    simp only [UInt8.toNat_ofNat']; omega
  simp only [utf8, List.mem_flatMap]
  constructor
  · rintro ⟨d, hd, hmem⟩
    have hval := mem_utf8EncodeChar_ascii (by omega) hmem
    rw [hnat] at hval
    have : d = c := Char.ext (UInt32.toNat_inj.mp hval)
    exact this ▸ hd
  · intro h
    exact ⟨c, h, by rw [utf8EncodeChar_ascii hc]; exact List.mem_singleton.mpr rfl⟩

/-! ## Lines and segments -/

/-- `\r`. -/
def cr : UInt8 := 13

/-- `\n`. -/
def lf : UInt8 := 10

theorem lf_mem_utf8 {t : Text} : lf ∈ utf8 t ↔ '\n' ∈ t :=
  mem_utf8_ascii (c := '\n') (by decide)

theorem cr_mem_utf8 {t : Text} : cr ∈ utf8 t ↔ '\r' ∈ t :=
  mem_utf8_ascii (c := '\r') (by decide)

/-- Cut a stream after every line feed; the last piece may have none. -/
def linesOf : Bytes → List Bytes
  | [] => []
  | b :: bs =>
      if b = lf then [b] :: linesOf bs
      else
        match linesOf bs with
        | [] => [[b]]
        | l :: ls => (b :: l) :: ls

theorem linesOf_line {body : Bytes} (h : lf ∉ body) (rest : Bytes) :
    linesOf (body ++ lf :: rest) = (body ++ [lf]) :: linesOf rest := by
  induction body with
  | nil => simp [linesOf]
  | cons b bs ih =>
      simp only [List.mem_cons, not_or] at h
      simp [linesOf, Ne.symm h.1, ih h.2]

theorem linesOf_tail {body : Bytes} (h : lf ∉ body) (hne : body ≠ []) :
    linesOf body = [body] := by
  induction body with
  | nil => exact absurd rfl hne
  | cons b bs ih =>
      simp only [List.mem_cons, not_or] at h
      cases bs with
      | nil => simp [linesOf, Ne.symm h.1]
      | cons b' bs' =>
          rw [linesOf, if_neg (Ne.symm h.1), ih h.2 (by simp)]

theorem flatten_linesOf (b : Bytes) : (linesOf b).flatten = b := by
  induction b with
  | nil => rfl
  | cons x b ih =>
      rw [linesOf]
      split
      · rw [List.flatten_cons, ih]
        rfl
      · split
        · rename_i hnil
          rw [hnil] at ih
          rw [← ih]
          rfl
        · rename_i l ls hls
          rw [hls] at ih
          rw [← ih]
          rfl

/-- A line as a reader hands it out: no line feed but at its end. -/
def Terminated (l : Bytes) : Prop := ∃ body, lf ∉ body ∧ l = body ++ [lf]

theorem linesOf_terminated {ls : List Bytes} (h : ∀ l ∈ ls, Terminated l)
    (rest : Bytes) : linesOf (ls.flatten ++ rest) = ls ++ linesOf rest := by
  induction ls with
  | nil => rfl
  | cons l ls ih =>
      obtain ⟨body, hbody, rfl⟩ := h l (by simp)
      have := ih fun l hl => h l (List.mem_cons_of_mem _ hl)
      rw [List.flatten_cons, List.append_assoc, List.append_assoc]
      simp only [List.cons_append, List.nil_append, linesOf_line hbody, this]

/-- A carriage return or a line feed. -/
def isBreak (b : UInt8) : Bool := b = cr || b = lf

/-- Cut at every carriage return and line feed, dropping them. -/
def segments (b : Bytes) : List Bytes := b.splitOnP isBreak

theorem segments_breaks {s : Bytes} (hs : ∀ b ∈ s, isBreak b = true) :
    ∀ seg ∈ segments s, seg = [] := by
  induction s with
  | nil => simp [segments]
  | cons b bs ih =>
      intro seg hseg
      rw [segments, List.splitOnP_cons_eq_if_modifyHead, if_pos (hs b (by simp))] at hseg
      rcases List.mem_cons.mp hseg with rfl | hseg
      · rfl
      · exact ih (fun b hb => hs b (List.mem_cons_of_mem _ hb)) seg hseg

theorem segments_body {body : Bytes} (hbody : ∀ b ∈ body, isBreak b = false) :
    segments body = [body] :=
  List.splitOnP_eq_singleton hbody

theorem segments_append_break {b : UInt8} (hb : isBreak b = true) (s t : Bytes) :
    segments (s ++ b :: t) = segments s ++ segments t :=
  List.splitOnP_append_cons s t hb

/-- A line and its terminator: nothing but the line is left. -/
theorem segments_line {body s : Bytes} (hbody : ∀ b ∈ body, isBreak b = false)
    (hs : ∀ b ∈ s, isBreak b = true) : ∀ seg ∈ segments (body ++ s), seg = body ∨ seg = [] := by
  intro seg hseg
  cases s with
  | nil =>
      rw [List.append_nil, segments_body hbody, List.mem_singleton] at hseg
      exact Or.inl hseg
  | cons b s =>
      rw [segments_append_break (hs b (by simp)), segments_body hbody] at hseg
      rcases List.mem_append.mp hseg with hseg | hseg
      · exact Or.inl (List.mem_singleton.mp hseg)
      · exact Or.inr (segments_breaks (fun b hb => hs b (List.mem_cons_of_mem _ hb)) seg hseg)

/-! ## Operations on text -/

/-- `char::is_whitespace`: the Unicode `White_Space` property. -/
def isWhitespace (c : Char) : Bool :=
  let n := c.toNat
  (9 ≤ n && n ≤ 13) || n = 0x20 || n = 0x85 || n = 0xA0 || n = 0x1680
    || (0x2000 ≤ n && n ≤ 0x200A) || n = 0x2028 || n = 0x2029 || n = 0x202F
    || n = 0x205F || n = 0x3000

/-- `str::trim_end_matches` with a set of characters. -/
def trimEndMatches (p : Char → Bool) (t : Text) : Text :=
  (t.reverse.dropWhile p).reverse

/-- `str::trim`. -/
def trim (t : Text) : Text := trimEndMatches isWhitespace (t.dropWhile isWhitespace)

/-- `str::split_once` at a character. -/
def splitOnce (c : Char) : Text → Option (Text × Text)
  | [] => none
  | d :: t =>
      if d = c then some ([], t)
      else (splitOnce c t).map fun (a, b) => (d :: a, b)

/-- `str::to_ascii_uppercase`. -/
def toAsciiUppercase (t : Text) : Text := t.map Char.toUpper

/-- What `trim_end_matches` removes is a run of matching characters. -/
theorem trimEndMatches_append (p : Char → Bool) (t : Text) :
    ∃ s, t = trimEndMatches p t ++ s ∧ ∀ c ∈ s, p c = true := by
  refine ⟨(t.reverse.takeWhile p).reverse, ?_, ?_⟩
  · rw [trimEndMatches, ← List.reverse_append, List.takeWhile_append_dropWhile,
      List.reverse_reverse]
  · intro c hc
    exact List.mem_takeWhile_imp (List.mem_reverse.mp hc)

/-- Trimming at both ends takes off what stands around a text with nothing to
trim at its own ends. -/
theorem trim_padded_of {p : Char → Bool} {before t after : Text} (hbefore : ∀ c ∈ before, p c = true)
    (hafter : ∀ c ∈ after, p c = true) (hhead : ∀ c ∈ t.head?, p c = false)
    (hlast : ∀ c ∈ t.getLast?, p c = false) :
    trimEndMatches p ((before ++ t ++ after).dropWhile p) = t := by
  rw [List.append_assoc, List.dropWhile_append_of_pos hbefore]
  cases t with
  | nil =>
      rw [List.nil_append, List.dropWhile_eq_nil_iff.mpr hafter]
      rfl
  | cons c t =>
      have hc : ¬p c = true := by simp [hhead c rfl]
      have hrev : ∀ d ∈ (c :: t).reverse.head?, ¬p d = true := by
        intro d hd
        rw [List.head?_reverse] at hd
        simp [hlast d hd]
      rw [List.cons_append, List.dropWhile_cons_of_neg hc, ← List.cons_append, trimEndMatches,
        List.reverse_append, List.dropWhile_append_of_pos (by simpa using hafter)]
      cases hr : (c :: t).reverse with
      | nil => cases List.reverse_eq_nil_iff.mp hr
      | cons d r =>
          rw [List.dropWhile_cons_of_neg (hrev d (by rw [hr]; rfl)), ← hr, List.reverse_reverse]

end Str
