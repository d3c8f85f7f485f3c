import FtpGateway.Session.Dialogue

/-!
# Backends that speak RFC 959

Replies as RFC 959 has them, decidable, so that a scripted backend can be
checked: a line with a code and a text, or a first line with a `-` after the
code, any lines, and a last line with the code again. `Backend.shape_of_single`
is the bridge to `Session/Dialogue.lean`: a backend whose every reply is a
single line, with a `STOR` accepted only where a port is held, is one a session
keeps up with.
-/

namespace FtpGateway

open Str Interact

/-! ## Replies -/

/-- `\r\n` at the end and no line break before it. -/
def isCrLfEnded (t : Text) : Bool :=
  t = t.dropLast.dropLast ++ ['\r', '\n'] && t.dropLast.dropLast.all fun c => !isLineBreak c

/-- A line that starts with a reply code and `sep`. -/
def isCodeLine (sep : Char) : Text → Bool
  | d₁ :: d₂ :: d₃ :: c :: rest =>
      d₁.isDigit && d₂.isDigit && d₃.isDigit && c == sep && isCrLfEnded rest
  | _ => false

/-- `ddd text`. -/
def isSingleLine (t : Text) : Bool := isCodeLine ' ' t

/-- A whole reply: a single line, or `ddd-`, any lines, and `ddd ` with the same
code. -/
def isReply : List Text → Bool
  | [] => false
  | [t] => isSingleLine t
  | t :: rest =>
      isCodeLine '-' t && rest.all isCrLfEnded
        && (rest.getLast?.any fun l => isSingleLine l && l.take 3 = t.take 3)
        && rest.dropLast.all fun l => !(isSingleLine l && l.take 3 = t.take 3)

def isSingleReply : List Text → Bool
  | [t] => isSingleLine t
  | _ => false

/-- The replies to a `STOR`: a preliminary one and a final one, or a refusal. -/
def isStorDialogue : List Text → Bool
  | [r] => isSingleLine r && (r.head? = some '4' || r.head? = some '5')
  | [r, f] => isSingleLine r && r.head? = some '1' && isSingleLine f && f.head? ≠ some '1'
  | _ => false

theorem isCrLfEnded_eq {t : Text} (h : isCrLfEnded t = true) :
    ∃ text, t = text ++ ['\r', '\n'] ∧ ∀ c ∈ text, isLineBreak c = false := by
  simp only [isCrLfEnded, Bool.and_eq_true, decide_eq_true_eq] at h
  refine ⟨_, h.1, fun c hc => ?_⟩
  simpa using List.all_eq_true.mp h.2 c hc

theorem isCodeLine_eq {sep : Char} {t : Text} (h : isCodeLine sep t = true) :
    ∃ d₁ d₂ d₃ text, t = d₁ :: d₂ :: d₃ :: sep :: text ++ ['\r', '\n']
      ∧ d₁.isDigit = true ∧ d₂.isDigit = true ∧ d₃.isDigit = true
      ∧ ∀ c ∈ text, isLineBreak c = false := by
  unfold isCodeLine at h
  split at h
  · rename_i d₁ d₂ d₃ c rest
    simp only [Bool.and_eq_true, beq_iff_eq] at h
    obtain ⟨⟨⟨⟨h₁, h₂⟩, h₃⟩, rfl⟩, hrest⟩ := h
    obtain ⟨text, rfl, hno⟩ := isCrLfEnded_eq hrest
    exact ⟨d₁, d₂, d₃, text, rfl, h₁, h₂, h₃, hno⟩
  · cases h

theorem wholeLine_of_isSingleLine {limit : Nat} {t : Text} (h : isSingleLine t = true)
    (hlen : (utf8 t).length ≤ limit) : WholeLine limit t := by
  obtain ⟨d₁, d₂, d₃, text, rfl, h₁, h₂, h₃, hno⟩ := isCodeLine_eq h
  have hdigit : ∀ d : Char, d.isDigit = true → '\n' ≠ d := by
    rintro d hd rfl
    exact absurd hd (by decide)
  refine ⟨d₁ :: d₂ :: d₃ :: ' ' :: text ++ ['\r'], ?_, by simp, hlen⟩
  intro hmem
  have hbreak : '\n' ∉ text := fun hmem => absurd (hno _ hmem) (by decide)
  simp [hdigit _ h₁, hdigit _ h₂, hdigit _ h₃, hbreak] at hmem

theorem utf8EncodeChar_digit {d : Char} (hd : d.isDigit = true) :
    ∃ x, String.utf8EncodeChar d = [x] ∧ isAsciiDigit x = true := by
  simp only [Char.isDigit, Bool.and_eq_true, decide_eq_true_eq, ge_iff_le,
    UInt32.le_iff_toNat_le] at hd
  have hlow : 48 ≤ d.val.toNat := hd.1
  have hhigh : d.val.toNat ≤ 57 := hd.2
  refine ⟨_, utf8EncodeChar_ascii (by omega), ?_⟩
  simp only [isAsciiDigit, Bool.and_eq_true, decide_eq_true_eq, UInt8.le_iff_toNat_le,
    UInt8.toNat_ofNat']
  have hmod : d.val.toNat % 2 ^ 8 = d.val.toNat := Nat.mod_eq_of_lt (by omega)
  rw [hmod]
  exact ⟨hlow, hhigh⟩

/-- What `read_reply_code` finds in a single line. -/
theorem replyCode?_of_isSingleLine {t : Text} (h : isSingleLine t = true) :
    replyCode? t = some (utf8 (t.take 3), ' '.toUInt8) := by
  obtain ⟨d₁, d₂, d₃, text, rfl, h₁, h₂, h₃, -⟩ := isCodeLine_eq h
  obtain ⟨x₁, e₁, hx₁⟩ := utf8EncodeChar_digit h₁
  obtain ⟨x₂, e₂, hx₂⟩ := utf8EncodeChar_digit h₂
  obtain ⟨x₃, e₃, hx₃⟩ := utf8EncodeChar_digit h₃
  have hsp : String.utf8EncodeChar ' ' = [' '.toUInt8] := by decide
  have hcode : utf8 [d₁, d₂, d₃] = [x₁, x₂, x₃] := by simp [utf8, e₁, e₂, e₃]
  have hline : utf8 (d₁ :: d₂ :: d₃ :: ' ' :: text ++ ['\r', '\n'])
      = x₁ :: x₂ :: x₃ :: ' '.toUInt8 :: utf8 (text ++ ['\r', '\n']) := by
    simp [utf8, e₁, e₂, e₃, hsp]
  unfold replyCode?
  rw [hline]
  simp [hx₁, hx₂, hx₃, hcode]

theorem endsReply_of_isSingleLine {t : Text} (h : isSingleLine t = true) :
    EndsReply (utf8 (t.take 3)) none t := by
  have hw : WholeLine (utf8 t).length t := wholeLine_of_isSingleLine h (Nat.le_refl _)
  have hsep : ' '.toUInt8 ≠ '-'.toUInt8 := by decide
  exact ⟨hw.ne_nil, hw.endsWithNewline, _, replyCode?_of_isSingleLine h, hsep⟩

/-! ## Backends -/

namespace Backend

variable (b : Backend)

/-- Each command gets single-line replies: one, or for a `STOR` one or two. -/
def singleReplies (h : History Io) : Event → Bool
  | ⟨.write (.backend _) bytes, _⟩ =>
      if isStorCommand bytes then isStorDialogue (b.next h) else isSingleReply (b.next h)
  | _ => true

/-- The replies to `AUTH TLS`, `PBSZ 0` and `PROT P` are ones that
`read_reply_code` can follow, which may have several lines. -/
def Negotiates (cfg : SessionConfig) (h : History Io) : Event → Prop
  | ⟨.write (.backend _) bytes, _⟩ =>
      bytes ∈ negotiationCommands → Coded cfg.maxBytes none (b.next h)
  | _ => True

def negotiatesBriefly (h : History Io) : Event → Bool
  | ⟨.write (.backend _) bytes, _⟩ => bytes ∉ negotiationCommands || isSingleReply (b.next h)
  | _ => true

/-- No reply has a line the session would cut. -/
def fits (cfg : SessionConfig) (h : History Io) : Event → Bool
  | ⟨.write (.backend _) _, _⟩ => (b.next h).all fun l => (utf8 l).length ≤ cfg.maxBytes
  | _ => true

/-- The backend goes through with every `STOR` for which the session has a
port. -/
def acceptsStor (h : History Io) : Event → Bool
  | ⟨.write (.backend _) bytes, _⟩ =>
      !isStorCommand bytes || (heldPort h).isNone || (b.next h).length == 2
  | _ => true

/-- The backend refuses every `STOR` for which the session has no port. -/
def refusesPortless (h : History Io) : Event → Bool
  | ⟨.write (.backend _) bytes, _⟩ =>
      !isStorCommand bytes || (heldPort h).isSome || (b.next h).length == 1
  | _ => true

end Backend

theorem oneLine_of_isSingleReply {limit : Nat} {ls : List Text} (h : isSingleReply ls = true)
    (hfits : ls.all (fun l => (utf8 l).length ≤ limit) = true) :
    ∃ t, ls = [t] ∧ isSingleLine t = true ∧ WholeLine limit t := by
  unfold isSingleReply at h
  split at h
  · rename_i t
    have hlen : (utf8 t).length ≤ limit := by simpa using hfits
    exact ⟨t, rfl, h, wholeLine_of_isSingleLine h hlen⟩
  · cases h

theorem storReplies_of_isStorDialogue {limit : Nat} {R : Prop} {ls : List Text}
    (h : isStorDialogue ls = true) (hfits : ls.all (fun l => (utf8 l).length ≤ limit) = true)
    (hR : ls.length ≠ 2 → R) : StorReplies limit R ls := by
  unfold isStorDialogue at h
  split at h
  · rename_i r
    have hlen : (utf8 r).length ≤ limit := by simpa using hfits
    simp only [Bool.and_eq_true, Bool.or_eq_true, decide_eq_true_eq] at h
    refine Or.inr ⟨r, rfl, wholeLine_of_isSingleLine h.1 hlen, ?_, hR (by simp)⟩
    rcases h.2 with hhead | hhead <;> simp [hhead]
  · rename_i r f
    have hlen : (utf8 r).length ≤ limit ∧ (utf8 f).length ≤ limit := by simpa using hfits
    simp only [Bool.and_eq_true, decide_eq_true_eq] at h
    exact Or.inl ⟨r, f, rfl, wholeLine_of_isSingleLine h.1.1.1 hlen.1,
      wholeLine_of_isSingleLine h.1.2 hlen.2, h.1.1.2⟩
  · cases h

theorem oneLine_of_isStorDialogue {limit : Nat} {ls : List Text} (h : isStorDialogue ls = true)
    (hfits : ls.all (fun l => (utf8 l).length ≤ limit) = true) (hone : ls.length = 1) :
    OneLine limit ls := by
  rcases storReplies_of_isStorDialogue (R := True) h hfits fun _ => trivial with
    ⟨r, f, rfl, -⟩ | ⟨r, rfl, hr, -⟩
  · simp at hone
  · exact ⟨r, rfl, hr⟩

theorem Backend.negotiates_of_brief {b : Backend} {cfg : SessionConfig} {h : History Io}
    {e : Event} (hbrief : b.negotiatesBriefly h e = true) (hfits : b.fits cfg h e = true) :
    b.Negotiates cfg h e := by
  unfold Backend.Negotiates
  split
  · intro hneg
    have hsingle : isSingleReply (b.next h) = true := by
      simpa [Backend.negotiatesBriefly, hneg] using hbrief
    obtain ⟨t, ht, hline, hwhole⟩ := oneLine_of_isSingleReply hsingle hfits
    rw [ht]
    exact .last hwhole (endsReply_of_isSingleLine hline)
  · trivial

theorem Backend.negotiatesBriefly_of_single {b : Backend} {h : History Io} {e : Event}
    (hsingle : b.singleReplies h e = true) : b.negotiatesBriefly h e = true := by
  unfold Backend.negotiatesBriefly
  split
  · rename_i tls bytes a
    by_cases hneg : bytes ∈ negotiationCommands
    · have hnot : isStorCommand bytes = false := by
        have hall : negotiationCommands.all (fun c => !isStorCommand c) = true := by decide
        simpa using List.all_eq_true.mp hall bytes hneg
      simpa [Backend.singleReplies, hnot, hneg] using hsingle
    · simp [hneg]
  · rfl

/-- Single-line replies outside of the negotiation keep a session in step, if a
`STOR` without a port is refused; `P` covers the refusal of one with a port. -/
theorem Backend.shape_of_single {b : Backend} {cfg : SessionConfig} {P : Prop} {h : History Io}
    {e : Event} (hneg : b.Negotiates cfg h e)
    (hsingle : (∀ c ∈ negotiationCommands, e.writeOut Conn.isBackend ≠ some c) →
      b.singleReplies h e = true)
    (hfits : b.fits cfg h e = true) (hportless : b.refusesPortless h e = true)
    (hrefused : cfg.backendTls = true ∨ P ∨ b.acceptsStor h e = true) : b.Shape cfg P h e := by
  unfold Backend.Shape
  split
  · rename_i tls bytes a
    simp only [Backend.fits] at hfits
    simp only [Backend.refusesPortless, Bool.or_eq_true, Bool.not_eq_true', beq_iff_eq]
      at hportless
    simp only [Backend.acceptsStor, Bool.or_eq_true, Bool.not_eq_true', beq_iff_eq] at hrefused
    split
    · rename_i hmem
      exact hneg hmem
    · rename_i hnot
      have hsingle : b.singleReplies h ⟨.write (.backend tls) bytes, a⟩ = true := by
        refine hsingle fun c hc heq => hnot ?_
        obtain rfl : bytes = c := by simpa using heq
        exact hc
      simp only [Backend.singleReplies] at hsingle
      split
      · rename_i hstor
        rw [if_pos hstor.1] at hsingle
        refine storReplies_of_isStorDialogue hsingle hfits fun htwo => ?_
        rcases hrefused with htls | hP | (hno | hno) | hno
        · exact Or.inl htls
        · exact Or.inr hP
        · cases hno.symm.trans hstor.1
        · exact absurd (Option.isNone_iff_eq_none.mp hno) hstor.2
        · exact absurd hno htwo
      · rename_i hother
        cases hstor : isStorCommand bytes with
        | false =>
            rw [hstor] at hsingle
            obtain ⟨t, ht, -, hwhole⟩ := oneLine_of_isSingleReply hsingle hfits
            exact ⟨t, ht, hwhole⟩
        | true =>
            rw [if_pos hstor] at hsingle
            have hheld : heldPort h = none := by
              by_contra hne
              exact hother ⟨hstor, hne⟩
            rcases hportless with (hno | hno) | hone
            · cases hno.symm.trans hstor
            · rw [hheld] at hno
              cases hno
            · exact oneLine_of_isStorDialogue hsingle hfits hone
  · trivial

end FtpGateway
