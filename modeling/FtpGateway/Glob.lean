import FtpGateway.Str

/-!
# Interface name patterns

`glob_match` of `backend/source.rs`: a loop over two indices that remembers the
last star it has passed and how much of the text that star has swallowed, and
on a mismatch lets it swallow one character more.

`Glob` is the language the patterns stand for: a text that can be cut into
pieces, one for each character of the pattern. `Pending` says what the loop
still has to try in a state; no step makes up a match, and a step loses one
only where a star of the pattern stands against a star of the text. There the
test for an equal character comes first, the star is taken for an ordinary
character, and it is not remembered.
-/

namespace FtpGateway

open Str

/-! ## The language -/

/-- What one character of a pattern matches. -/
def GlobPiece (c : Char) (piece : Text) : Prop :=
  c = '*' ∨ (c = '?' ∧ piece.length = 1) ∨ (c ≠ '*' ∧ c ≠ '?' ∧ piece = [c])

/-- `text` can be split into pieces that the characters of `pattern` match. -/
def Glob (pattern text : Text) : Prop :=
  ∃ pieces : List Text, List.Forall₂ GlobPiece pattern pieces ∧ pieces.flatten = text

namespace Glob

variable {ps ts : Text} {c x : Char}

@[simp]
theorem nil_iff : Glob [] ts ↔ ts = [] := by
  constructor
  · rintro ⟨pieces, hpieces, rfl⟩
    cases hpieces
    rfl
  · rintro rfl
    exact ⟨[], .nil, rfl⟩

theorem cons_iff : Glob (c :: ps) ts ↔ ∃ piece rest, GlobPiece c piece ∧ Glob ps rest ∧
    ts = piece ++ rest := by
  constructor
  · rintro ⟨pieces, hpieces, rfl⟩
    cases hpieces with
    | cons hpiece hrest => exact ⟨_, _, hpiece, ⟨_, hrest, rfl⟩, by simp⟩
  · rintro ⟨piece, rest, hpiece, ⟨pieces, hpieces, rfl⟩, rfl⟩
    exact ⟨piece :: pieces, .cons hpiece hpieces, by simp⟩

/-- A star swallows any run of characters. -/
theorem star_iff : Glob ('*' :: ps) ts ↔ ∃ rest, rest <:+ ts ∧ Glob ps rest := by
  rw [cons_iff]
  constructor
  · rintro ⟨piece, rest, -, hrest, rfl⟩
    exact ⟨rest, List.suffix_append piece rest, hrest⟩
  · rintro ⟨rest, ⟨piece, rfl⟩, hrest⟩
    exact ⟨piece, rest, .inl rfl, hrest, rfl⟩

theorem star_of_suffix {rest : Text} (hsuffix : rest <:+ ts) (h : Glob ('*' :: ps) rest) :
    Glob ('*' :: ps) ts := by
  rw [star_iff] at h ⊢
  obtain ⟨rest', hsuffix', hrest⟩ := h
  exact ⟨rest', hsuffix'.trans hsuffix, hrest⟩

/-- Any other character of a pattern takes one character of the text. -/
theorem char_iff (hc : c ≠ '*') :
    Glob (c :: ps) ts ↔ ∃ x rest, (c = '?' ∨ c = x) ∧ Glob ps rest ∧ ts = x :: rest := by
  rw [cons_iff]
  constructor
  · rintro ⟨piece, rest, hpiece, hrest, rfl⟩
    rcases hpiece with h | ⟨h, hone⟩ | ⟨-, -, rfl⟩
    · exact absurd h hc
    · obtain ⟨x, rfl⟩ := List.length_eq_one_iff.mp hone
      exact ⟨x, rest, .inl h, hrest, rfl⟩
    · exact ⟨c, rest, .inr rfl, hrest, rfl⟩
  · rintro ⟨x, rest, hx, hrest, rfl⟩
    refine ⟨[x], rest, ?_, hrest, rfl⟩
    by_cases h : c = '?'
    · exact .inr (.inl ⟨h, rfl⟩)
    · rcases hx with h' | rfl
      · exact absurd h' h
      · exact .inr (.inr ⟨hc, h, rfl⟩)

/-- Every character of a pattern, a star too, matches itself. -/
theorem cons_cons (hx : c = '?' ∨ c = x) (h : Glob ps ts) : Glob (c :: ps) (x :: ts) := by
  by_cases hc : c = '*'
  · rw [hc, star_iff]
    exact ⟨ts, List.suffix_cons x ts, h⟩
  · exact (char_iff hc).mpr ⟨x, ts, hx, h, rfl⟩

theorem append_self (u : Text) (h : Glob ps ts) : Glob (u ++ ps) (u ++ ts) := by
  induction u with
  | nil => exact h
  | cons c u ih => exact cons_cons (.inr rfl) ih

/-- A stretch without stars takes as many characters as it has. -/
theorem append_iff_drop {u : Text} (hu : '*' ∉ u) (h : Glob (u ++ ps) ts) :
    u.length ≤ ts.length ∧ Glob ps (ts.drop u.length) := by
  induction u generalizing ts with
  | nil => exact ⟨Nat.zero_le _, h⟩
  | cons c u ih =>
      rw [List.mem_cons, not_or] at hu
      obtain ⟨x, rest, -, hrest, rfl⟩ := (char_iff (Ne.symm hu.1)).mp h
      obtain ⟨hlen, hdrop⟩ := ih hu.2 hrest
      exact ⟨Nat.succ_le_succ hlen, hdrop⟩

theorem empty_iff : Glob ps [] ↔ ps.all (· == '*') = true := by
  induction ps with
  | nil => simp
  | cons c ps ih =>
      by_cases hc : c = '*'
      · simp [hc, star_iff, ih]
      · simp [hc, char_iff hc]

end Glob

/-! ## The loop -/

structure GlobState where
  p : Nat
  t : Nat
  star : Option (Nat × Nat)
deriving Repr, DecidableEq

inductive GlobNext where
  | goOn (s : GlobState)
  | done (answer : Bool)
deriving Repr, DecidableEq

def GlobState.start : GlobState := ⟨0, 0, none⟩

/-- One round of the loop, and what follows it. -/
def globStep (pattern text : Text) (s : GlobState) : GlobNext :=
  match text[s.t]? with
  | none => .done ((pattern.drop s.p).all (· == '*'))
  | some x =>
      if pattern[s.p]? = some '?' ∨ pattern[s.p]? = some x then
        .goOn ⟨s.p + 1, s.t + 1, s.star⟩
      else if pattern[s.p]? = some '*' then .goOn ⟨s.p + 1, s.t, some (s.p, s.t)⟩
      else
        match s.star with
        | some (starP, starT) => .goOn ⟨starP + 1, starT + 1, some (starP, starT + 1)⟩
        | none => .done false

def globLoop (pattern text : Text) : Nat → GlobState → Option Bool
  | 0, _ => none
  | fuel + 1, s =>
      match globStep pattern text s with
      | .goOn s' => globLoop pattern text fuel s'
      | .done answer => some answer

/-- The rounds that are always enough (`globLoop_ends`). -/
def globRounds (pattern text : Text) : Nat :=
  (pattern.length + 1) * ((text.length + 1) * (text.length + 1))

def globMatch (pattern text : Text) : Bool :=
  (globLoop pattern text (globRounds pattern text) .start).getD false

/-! ## What a round does -/

section Loop

variable {pattern text : Text} {s s' : GlobState} {answer : Bool}

/-- The rest of the pattern cannot go on over the character `x`. -/
def GlobStuck (rest : Text) (x : Char) : Prop :=
  ∀ c ps, rest = c :: ps → c ≠ '?' ∧ c ≠ x ∧ c ≠ '*'

inductive GlobTurn (pattern text : Text) (s : GlobState) : GlobNext → Prop where
  | literal (c x : Char) (ps ts : Text) (hp : pattern.drop s.p = c :: ps)
      (ht : text.drop s.t = x :: ts) (hx : c = '?' ∨ c = x) :
      GlobTurn pattern text s (.goOn ⟨s.p + 1, s.t + 1, s.star⟩)
  | star (x : Char) (ps ts : Text) (hp : pattern.drop s.p = '*' :: ps)
      (ht : text.drop s.t = x :: ts) :
      GlobTurn pattern text s (.goOn ⟨s.p + 1, s.t, some (s.p, s.t)⟩)
  | retry (x : Char) (ts : Text) (starP starT : Nat) (hstar : s.star = some (starP, starT))
      (ht : text.drop s.t = x :: ts) (hstuck : GlobStuck (pattern.drop s.p) x) :
      GlobTurn pattern text s (.goOn ⟨starP + 1, starT + 1, some (starP, starT + 1)⟩)
  | refuse (x : Char) (ts : Text) (hstar : s.star = none) (ht : text.drop s.t = x :: ts)
      (hstuck : GlobStuck (pattern.drop s.p) x) : GlobTurn pattern text s (.done false)
  | finish (ht : text.drop s.t = []) :
      GlobTurn pattern text s (.done ((pattern.drop s.p).all (· == '*')))

theorem drop_eq_of_getElem? {l : Text} {n : Nat} {c : Char} (h : l[n]? = some c) :
    l.drop n = c :: l.drop (n + 1) := by
  obtain ⟨hn, rfl⟩ := List.getElem?_eq_some_iff.mp h
  exact List.drop_eq_getElem_cons hn

theorem getElem?_of_drop {l rest : Text} {n : Nat} {c : Char} (h : l.drop n = c :: rest) :
    l[n]? = some c ∧ l.drop (n + 1) = rest := by
  constructor
  · rw [← List.head?_drop, h]; rfl
  · rw [← List.tail_drop, h]; rfl

theorem globStuck_of_getElem? {l : Text} {n : Nat} {x : Char} (hmark : l[n]? ≠ some '?')
    (hx : l[n]? ≠ some x) (hstar : l[n]? ≠ some '*') : GlobStuck (l.drop n) x := by
  intro c ps hrest
  rw [(getElem?_of_drop hrest).1] at hmark hx hstar
  simp_all

theorem globStep_turn (pattern text : Text) (s : GlobState) :
    GlobTurn pattern text s (globStep pattern text s) := by
  unfold globStep
  cases ht : text[s.t]? with
  | none =>
      rw [List.getElem?_eq_none_iff] at ht
      exact .finish (List.drop_eq_nil_of_le ht)
  | some x =>
      have htext := drop_eq_of_getElem? ht
      dsimp only
      split_ifs with hx hstar
      · rcases hx with hx | hx
        · exact .literal _ x _ _ (drop_eq_of_getElem? hx) htext (.inl rfl)
        · exact .literal _ x _ _ (drop_eq_of_getElem? hx) htext (.inr rfl)
      · exact .star x _ _ (drop_eq_of_getElem? hstar) htext
      · rw [not_or] at hx
        have hstuck := globStuck_of_getElem? hx.1 hx.2 hstar
        cases hlast : s.star with
        | none => exact .refuse x _ hlast htext hstuck
        | some last => exact .retry x _ last.1 last.2 hlast htext hstuck

theorem GlobStuck.not_glob {rest ts : Text} {x : Char} (h : GlobStuck rest x) :
    ¬ Glob rest (x :: ts) := by
  cases rest with
  | nil => simp
  | cons c ps =>
      obtain ⟨hmark, hx, hstar⟩ := h c ps rfl
      rw [Glob.char_iff hstar]
      rintro ⟨x', rest, hx', -, heq⟩
      rw [List.cons.injEq] at heq
      rw [← heq.1] at hx'
      rcases hx' with hx' | hx'
      · exact hmark hx'
      · exact hx hx'

/-! ## What is left to try -/

/-- A match of the rest, or one after the last star has swallowed more. -/
def GlobState.Pending (pattern text : Text) (s : GlobState) : Prop :=
  Glob (pattern.drop s.p) (text.drop s.t) ∨
    ∃ starP starT k, s.star = some (starP, starT) ∧ starT < k ∧
      Glob (pattern.drop (starP + 1)) (text.drop k)

/-- No round makes up a match. -/
theorem GlobTurn.pending_of_pending (h : GlobTurn pattern text s (.goOn s'))
    (hpending : s'.Pending pattern text) : s.Pending pattern text := by
  cases h with
  | literal c x ps ts hp ht hx =>
      rcases hpending with hmatch | hmore
      · left
        rw [(getElem?_of_drop hp).2, (getElem?_of_drop ht).2] at hmatch
        rw [hp, ht]
        exact Glob.cons_cons hx hmatch
      · exact .inr hmore
  | star x ps ts hp ht =>
      left
      rw [hp, Glob.star_iff]
      rcases hpending with hmatch | ⟨starP, starT, k, hstar, hk, hmatch⟩
      · rw [(getElem?_of_drop hp).2] at hmatch
        exact ⟨_, List.suffix_rfl, hmatch⟩
      · rw [Option.some.injEq, Prod.mk.injEq] at hstar
        rw [← hstar.1, (getElem?_of_drop hp).2] at hmatch
        refine ⟨_, ?_, hmatch⟩
        have hle : s.t ≤ k := by omega
        exact List.drop_suffix_drop_left text hle
  | retry x ts starP starT hstar ht hstuck =>
      right
      rcases hpending with hmatch | ⟨starP', starT', k, hstar', hk, hmatch⟩
      · exact ⟨starP, starT, starT + 1, hstar, Nat.lt_succ_self _, hmatch⟩
      · rw [Option.some.injEq, Prod.mk.injEq] at hstar'
        rw [← hstar'.1] at hmatch
        exact ⟨starP, starT, k, hstar, by omega, hmatch⟩

theorem GlobTurn.pending_of_done (h : GlobTurn pattern text s (.done true)) :
    s.Pending pattern text := by
  generalize hnext : GlobNext.done true = next at h
  cases h with
  | literal => cases hnext
  | star => cases hnext
  | retry => cases hnext
  | refuse => cases hnext
  | finish ht =>
      rw [GlobNext.done.injEq] at hnext
      left
      rw [ht, Glob.empty_iff, ← hnext]

theorem pending_of_globLoop {fuel : Nat} (h : globLoop pattern text fuel s = some true) :
    s.Pending pattern text := by
  induction fuel generalizing s with
  | zero => cases h
  | succ fuel ih =>
      have hturn := globStep_turn pattern text s
      unfold globLoop at h
      cases hnext : globStep pattern text s with
      | goOn s' =>
          rw [hnext] at h hturn
          exact hturn.pending_of_pending (ih h)
      | done answer =>
          rw [hnext] at h hturn
          rw [Option.some.injEq] at h
          rw [h] at hturn
          exact hturn.pending_of_done

/-! ## No match is lost, while no star meets a star -/

/-- The loop is about to take a star of the pattern for a star of the text. -/
def GlobState.StarMeetsStar (pattern text : Text) (s : GlobState) : Prop :=
  pattern[s.p]? = some '*' ∧ text[s.t]? = some '*'

/-- What has been matched since the last star had no star in it. Then starting
that stretch later cannot end it earlier: earlier stars may be forgotten. -/
def GlobState.Aligned (pattern : Text) (s : GlobState) : Prop :=
  ∀ starP starT, s.star = some (starP, starT) →
    ∃ u, '*' ∉ u ∧ pattern.drop (starP + 1) = u ++ pattern.drop s.p ∧ s.t = starT + u.length

theorem GlobTurn.aligned (h : GlobTurn pattern text s (.goOn s'))
    (hmeet : ¬ s.StarMeetsStar pattern text) (haligned : s.Aligned pattern) :
    s'.Aligned pattern := by
  intro starP starT hstar
  cases h with
  | literal c x ps ts hp ht hx =>
      obtain ⟨u, hu, hdrop, hlen⟩ := haligned starP starT hstar
      obtain ⟨hc, hps⟩ := getElem?_of_drop hp
      refine ⟨u ++ [c], ?_, ?_, ?_⟩
      · rw [List.mem_append, List.mem_singleton, not_or]
        refine ⟨hu, fun hcstar => hmeet ⟨hcstar ▸ hc, ?_⟩⟩
        rcases hx with hx | rfl
        · rw [← hcstar] at hx; cases hx
        · rw [(getElem?_of_drop ht).1, hcstar]
      · rw [hdrop, hp, hps, List.append_assoc]; rfl
      · rw [List.length_append, hlen]; rfl
  | star x ps ts hp ht =>
      rw [Option.some.injEq, Prod.mk.injEq] at hstar
      obtain ⟨rfl, rfl⟩ := hstar
      exact ⟨[], by simp, rfl, rfl⟩
  | retry x ts starP' starT' hstar' ht hstuck =>
      rw [Option.some.injEq, Prod.mk.injEq] at hstar
      obtain ⟨rfl, rfl⟩ := hstar
      exact ⟨[], by simp, rfl, rfl⟩

theorem GlobTurn.pending (h : GlobTurn pattern text s (.goOn s'))
    (hmeet : ¬ s.StarMeetsStar pattern text) (haligned : s.Aligned pattern)
    (hpending : s.Pending pattern text) : s'.Pending pattern text := by
  cases h with
  | literal c x ps ts hp ht hx =>
      rcases hpending with hmatch | hmore
      · left
        have hc : c ≠ '*' := by
          rintro rfl
          rcases hx with hx | rfl
          · cases hx
          · exact hmeet ⟨(getElem?_of_drop hp).1, (getElem?_of_drop ht).1⟩
        rw [hp, ht, Glob.char_iff hc] at hmatch
        obtain ⟨x', rest, -, hrest, heq⟩ := hmatch
        rw [List.cons.injEq] at heq
        rw [(getElem?_of_drop hp).2, (getElem?_of_drop ht).2, heq.2]
        exact hrest
      · exact .inr hmore
  | star x ps ts hp ht =>
      have hmatch : Glob ('*' :: ps) (text.drop s.t) := by
        rcases hpending with hmatch | ⟨starP, starT, k, hstar, hk, hmatch⟩
        · rwa [hp] at hmatch
        · obtain ⟨u, hu, hdrop, hlen⟩ := haligned starP starT hstar
          rw [hdrop, hp] at hmatch
          have hrest := (Glob.append_iff_drop hu hmatch).2
          rw [List.drop_drop] at hrest
          have hle : s.t ≤ k + u.length := by omega
          exact Glob.star_of_suffix (List.drop_suffix_drop_left text hle) hrest
      obtain ⟨rest, hsuffix, hrest⟩ := Glob.star_iff.mp hmatch
      rw [List.suffix_iff_eq_drop, List.drop_drop] at hsuffix
      rw [hsuffix, ← (getElem?_of_drop hp).2] at hrest
      generalize (text.drop s.t).length - rest.length = more at hrest
      rcases Nat.eq_zero_or_pos more with rfl | hpos
      · exact .inl hrest
      · exact .inr ⟨s.p, s.t, s.t + more, rfl, by omega, hrest⟩
  | retry x ts starP starT hstar ht hstuck =>
      rcases hpending with hmatch | ⟨starP', starT', k, hstar', hk, hmatch⟩
      · rw [ht] at hmatch
        exact absurd hmatch hstuck.not_glob
      · rw [hstar, Option.some.injEq, Prod.mk.injEq] at hstar'
        obtain ⟨rfl, rfl⟩ := hstar'
        rcases Nat.eq_or_lt_of_le hk with rfl | hlt
        · exact .inl hmatch
        · exact .inr ⟨starP, starT + 1, k, rfl, hlt, hmatch⟩

theorem GlobTurn.done_of_pending (h : GlobTurn pattern text s (.done answer))
    (haligned : s.Aligned pattern) (hpending : s.Pending pattern text) : answer = true := by
  cases h with
  | refuse x ts hstar ht hstuck =>
      rcases hpending with hmatch | ⟨starP, starT, k, hstar', -, -⟩
      · rw [ht] at hmatch
        exact absurd hmatch hstuck.not_glob
      · rw [hstar] at hstar'
        cases hstar'
  | finish ht =>
      rw [← Glob.empty_iff]
      rcases hpending with hmatch | ⟨starP, starT, k, hstar, hk, hmatch⟩
      · rwa [ht] at hmatch
      · obtain ⟨u, hu, hdrop, hlen⟩ := haligned starP starT hstar
        rw [hdrop] at hmatch
        obtain ⟨hle, hrest⟩ := Glob.append_iff_drop hu hmatch
        rw [List.drop_eq_nil_iff] at ht
        rw [List.length_drop] at hle
        have hnil : text.drop (k + u.length) = [] := List.drop_eq_nil_of_le (by omega)
        rwa [List.drop_drop, hnil] at hrest

inductive GlobReached (pattern text : Text) : GlobState → Prop where
  | start : GlobReached pattern text .start
  | next {s s' : GlobState} (hs : GlobReached pattern text s)
      (hstep : globStep pattern text s = .goOn s') : GlobReached pattern text s'

theorem globLoop_of_pending (hmeet : ∀ s, GlobReached pattern text s →
      ¬ s.StarMeetsStar pattern text) {fuel : Nat} (hs : GlobReached pattern text s)
    (haligned : s.Aligned pattern) (hpending : s.Pending pattern text)
    (h : globLoop pattern text fuel s = some answer) : answer = true := by
  induction fuel generalizing s with
  | zero => cases h
  | succ fuel ih =>
      have hturn := globStep_turn pattern text s
      unfold globLoop at h
      cases hnext : globStep pattern text s with
      | goOn s' =>
          rw [hnext] at h hturn
          exact ih (hs.next hnext) (hturn.aligned (hmeet s hs) haligned)
            (hturn.pending (hmeet s hs) haligned hpending) h
      | done answer' =>
          rw [hnext] at h hturn
          rw [← Option.some.inj h]
          exact hturn.done_of_pending haligned hpending

/-! ## The loop ends -/

/-- The last star and what it has swallowed lie behind the indices. -/
structure GlobState.Within (pattern text : Text) (s : GlobState) : Prop where
  p_le : s.p ≤ pattern.length
  t_le : s.t ≤ text.length
  star_lt : ∀ starP starT, s.star = some (starP, starT) → starP < s.p ∧ starT ≤ s.t

/-- A new star comes later in the pattern, a retry lets the last star swallow
more, any other round moves on in the text. -/
def GlobState.measure (pattern text : Text) (s : GlobState) : Nat :=
  (pattern.length - s.star.elim 0 fun star => star.1 + 1) *
      ((text.length + 1) * (text.length + 1)) +
    (text.length - s.star.elim 0 Prod.snd) * (text.length + 1) + (text.length - s.t)

theorem lt_length_of_drop {l rest : Text} {n : Nat} {c : Char} (h : l.drop n = c :: rest) :
    n < l.length := by
  by_contra hn
  rw [List.drop_eq_nil_of_le (Nat.le_of_not_lt hn)] at h
  cases h

theorem GlobTurn.within (h : GlobTurn pattern text s (.goOn s'))
    (hwithin : s.Within pattern text) : s'.Within pattern text := by
  cases h with
  | literal c x ps ts hp ht hx =>
      refine ⟨lt_length_of_drop hp, lt_length_of_drop ht, fun starP starT hstar => ?_⟩
      obtain ⟨hlt, hle⟩ := hwithin.star_lt starP starT hstar
      exact ⟨Nat.lt_succ_of_lt hlt, Nat.le_succ_of_le hle⟩
  | star x ps ts hp ht =>
      refine ⟨lt_length_of_drop hp, hwithin.t_le, fun starP starT hstar => ?_⟩
      rw [Option.some.injEq, Prod.mk.injEq] at hstar
      obtain ⟨rfl, rfl⟩ := hstar
      exact ⟨Nat.lt_succ_self _, Nat.le_refl _⟩
  | retry x ts starP starT hstar ht hstuck =>
      obtain ⟨hlt, hle⟩ := hwithin.star_lt starP starT hstar
      have ht := lt_length_of_drop ht
      refine ⟨Nat.le_trans hlt hwithin.p_le, Nat.lt_of_le_of_lt hle ht, ?_⟩
      intro starP' starT' hstar'
      rw [Option.some.injEq, Prod.mk.injEq] at hstar'
      obtain ⟨rfl, rfl⟩ := hstar'
      exact ⟨Nat.lt_succ_self _, Nat.le_refl _⟩

theorem GlobTurn.measure_lt (h : GlobTurn pattern text s (.goOn s'))
    (hwithin : s.Within pattern text) : s'.measure pattern text < s.measure pattern text := by
  unfold GlobState.measure
  cases h with
  | literal c x ps ts hp ht hx =>
      have ht := lt_length_of_drop ht
      dsimp only
      omega
  | star x ps ts hp ht =>
      have hp := lt_length_of_drop hp
      have hlater : (s.star.elim 0 fun star => star.1 + 1) ≤ s.p := by
        cases hstar : s.star with
        | none => exact Nat.zero_le _
        | some star => exact (hwithin.star_lt star.1 star.2 hstar).1
      have hfewer : pattern.length - (s.p + 1) + 1 ≤
          pattern.length - s.star.elim 0 fun star => star.1 + 1 := by omega
      have hblock := Nat.mul_le_mul_right ((text.length + 1) * (text.length + 1)) hfewer
      have hrow : (text.length - s.t) * (text.length + 1) ≤ text.length * (text.length + 1) :=
        Nat.mul_le_mul_right _ (Nat.sub_le _ _)
      rw [Nat.add_one_mul] at hblock
      have hsquare := Nat.add_one_mul text.length (text.length + 1)
      simp only [Option.elim_some]
      omega
  | retry x ts starP starT hstar ht hstuck =>
      have ht := lt_length_of_drop ht
      have hle := (hwithin.star_lt starP starT hstar).2
      have hfewer : text.length - starT = text.length - (starT + 1) + 1 := by omega
      have hrow := Nat.add_one_mul (text.length - (starT + 1)) (text.length + 1)
      rw [← hfewer] at hrow
      simp only [hstar, Option.elim_some]
      omega

theorem globLoop_ends {fuel : Nat} (hwithin : s.Within pattern text)
    (hfuel : s.measure pattern text < fuel) :
    ∃ answer, globLoop pattern text fuel s = some answer := by
  induction fuel generalizing s with
  | zero => exact absurd hfuel (Nat.not_lt_zero _)
  | succ fuel ih =>
      have hturn := globStep_turn pattern text s
      unfold globLoop
      cases hnext : globStep pattern text s with
      | goOn s' =>
          rw [hnext] at hturn
          have hless := hturn.measure_lt hwithin
          exact ih (hturn.within hwithin) (by omega)
      | done answer => exact ⟨answer, rfl⟩

theorem globLoop_mono {fuel more : Nat} (hle : fuel ≤ more)
    (h : globLoop pattern text fuel s = some answer) :
    globLoop pattern text more s = some answer := by
  induction fuel generalizing s more with
  | zero => cases h
  | succ fuel ih =>
      obtain ⟨more, rfl⟩ : ∃ n, more = n + 1 := ⟨more - 1, by omega⟩
      unfold globLoop at h ⊢
      cases hnext : globStep pattern text s with
      | goOn s' =>
          rw [hnext] at h
          exact ih (Nat.le_of_succ_le_succ hle) h
      | done answer' => rwa [hnext] at h

theorem start_measure_lt (pattern text : Text) :
    GlobState.start.measure pattern text < globRounds pattern text := by
  have hblock := Nat.add_one_mul pattern.length ((text.length + 1) * (text.length + 1))
  have hsquare := Nat.add_one_mul text.length (text.length + 1)
  simp only [GlobState.measure, GlobState.start, globRounds, Option.elim_none, Nat.sub_zero]
  omega

theorem globLoop_start (pattern text : Text) {fuel : Nat} (hfuel : globRounds pattern text ≤ fuel) :
    globLoop pattern text fuel .start = some (globMatch pattern text) := by
  have hwithin : GlobState.start.Within pattern text :=
    ⟨Nat.zero_le _, Nat.zero_le _, fun _ _ h => (by cases h)⟩
  obtain ⟨answer, hanswer⟩ := globLoop_ends hwithin (start_measure_lt pattern text)
  rw [globMatch, hanswer]
  exact globLoop_mono hfuel hanswer

end Loop

/-! ## Which patterns and texts come out right -/

theorem GlobState.start_pending {pattern text : Text} :
    GlobState.start.Pending pattern text ↔ Glob pattern text := by
  constructor
  · rintro (hmatch | ⟨starP, starT, k, hstar, -, -⟩)
    · exact hmatch
    · cases hstar
  · exact Or.inl

theorem glob_of_globMatch {pattern text : Text} (h : globMatch pattern text = true) :
    Glob pattern text := by
  have hloop := globLoop_start pattern text (Nat.le_refl _)
  rw [h] at hloop
  exact GlobState.start_pending.mp (pending_of_globLoop hloop)

theorem globMatch_iff_of_not_starMeetsStar {pattern text : Text}
    (hmeet : ∀ s, GlobReached pattern text s → ¬ s.StarMeetsStar pattern text) :
    globMatch pattern text = true ↔ Glob pattern text := by
  refine ⟨glob_of_globMatch, fun hglob => ?_⟩
  have hloop := globLoop_start pattern text (Nat.le_refl _)
  exact globLoop_of_pending hmeet .start (fun _ _ h => (by cases h))
    (GlobState.start_pending.mpr hglob) hloop

theorem globMatch_iff_of_not_mem {pattern text : Text} (h : '*' ∉ pattern ∨ '*' ∉ text) :
    globMatch pattern text = true ↔ Glob pattern text := by
  refine globMatch_iff_of_not_starMeetsStar fun s _ hmeet => ?_
  rcases h with h | h
  · exact h (List.mem_of_getElem? hmeet.1)
  · exact h (List.mem_of_getElem? hmeet.2)

/-- Over what the pattern and the text begin with in common, the loop goes one
character at a time and remembers nothing. -/
theorem globLoop_append (u ps ts : Text) (fuel : Nat) {n : Nat} (hn : n ≤ u.length) :
    globLoop (u ++ ps) (u ++ ts) (fuel + n) .start =
      globLoop (u ++ ps) (u ++ ts) fuel ⟨n, n, none⟩ := by
  induction n generalizing fuel with
  | zero => rfl
  | succ n ih =>
      have hsame : ∀ rest : Text, (u ++ rest)[n]? = some u[n] := by
        intro rest
        rw [List.getElem?_append_left hn, List.getElem?_eq_getElem hn]
      have hstep : globStep (u ++ ps) (u ++ ts) ⟨n, n, none⟩ = .goOn ⟨n + 1, n + 1, none⟩ := by
        simp only [globStep, hsame, or_true, if_true]
      have hfuel : fuel + (n + 1) = fuel + 1 + n := by omega
      rw [hfuel, ih (fuel + 1) (Nat.le_of_succ_le hn)]
      conv_lhs => rw [globLoop, hstep]

/-- So an answer of true has matched the rest of the pattern with the rest of
the text, whatever stars stand in `u`. -/
theorem glob_of_globMatch_append {u ps ts : Text} (h : globMatch (u ++ ps) (u ++ ts) = true) :
    Glob ps ts := by
  have hloop := globLoop_start (u ++ ps) (u ++ ts)
    (Nat.le_add_right (globRounds (u ++ ps) (u ++ ts)) u.length)
  rw [h, globLoop_append u ps ts _ (Nat.le_refl _)] at hloop
  rcases pending_of_globLoop hloop with hmatch | ⟨starP, starT, k, hstar, -, -⟩
  · rwa [List.drop_left, List.drop_left] at hmatch
  · cases hstar

/-- A text with a star in it has a pattern that should match and does not. -/
theorem exists_pattern_missed {text : Text} (h : '*' ∈ text) :
    ∃ pattern, Glob pattern text ∧ globMatch pattern text ≠ true := by
  obtain ⟨u, v, rfl⟩ := List.append_of_mem h
  cases v with
  | nil =>
      refine ⟨u ++ ['*', '?'], Glob.append_self u ?_, fun hmatch => ?_⟩
      · exact Glob.star_iff.mpr ⟨['*'], List.suffix_rfl, Glob.cons_cons (.inl rfl) (by simp)⟩
      · have hrest : Glob ['?'] [] :=
          glob_of_globMatch_append (u := u ++ ['*']) (by simpa using hmatch)
        rw [Glob.empty_iff] at hrest
        cases hrest
  | cons x v =>
      refine ⟨u ++ ['*'], Glob.append_self u ?_, fun hmatch => ?_⟩
      · exact Glob.star_iff.mpr ⟨[], List.nil_suffix, by simp⟩
      · have hrest : Glob [] (x :: v) :=
          glob_of_globMatch_append (u := u ++ ['*']) (by simpa using hmatch)
        rw [Glob.nil_iff] at hrest
        cases hrest

/-- A pattern with a star in it has a text that it should match and does not. -/
theorem exists_text_missed {pattern : Text} (h : '*' ∈ pattern) :
    ∃ text, Glob pattern text ∧ globMatch pattern text ≠ true := by
  obtain ⟨v, u, hsplit, hv⟩ := List.eq_append_cons_of_mem (List.mem_reverse.mpr h)
  obtain rfl : pattern = u.reverse ++ '*' :: v.reverse := by
    rw [← List.reverse_reverse pattern, hsplit]
    simp
  have hv' : '*' ∉ v.reverse := by rwa [List.mem_reverse]
  refine ⟨u.reverse ++ '*' :: 'a' :: v.reverse, Glob.append_self _ ?_, fun hmatch => ?_⟩
  · refine Glob.star_iff.mpr ⟨v.reverse, ⟨['*', 'a'], rfl⟩, ?_⟩
    simpa using Glob.append_self v.reverse (Glob.nil_iff.mpr rfl)
  · have hrest : Glob (v.reverse ++ []) ('a' :: v.reverse) :=
      glob_of_globMatch_append (u := u.reverse ++ ['*']) (by simpa using hmatch)
    obtain ⟨-, hend⟩ := Glob.append_iff_drop hv' hrest
    rw [Glob.nil_iff, List.drop_eq_nil_iff, List.length_cons] at hend
    omega

/-- The loop ends after `globRounds` rounds at the latest, and a match it
reports is one. It reports every match as long as no star of the pattern comes
to stand against a star of the text; without that, each text with a star has a
pattern that goes wrong, and each pattern with a star a text. -/
theorem globMatch_implements_glob (pattern text : Text) :
    (∀ fuel, globRounds pattern text ≤ fuel →
      globLoop pattern text fuel .start = some (globMatch pattern text)) ∧
    (globMatch pattern text = true → Glob pattern text) ∧
    ((∀ s, GlobReached pattern text s → ¬ s.StarMeetsStar pattern text) →
      (globMatch pattern text = true ↔ Glob pattern text)) ∧
    ((∀ pattern', globMatch pattern' text = true ↔ Glob pattern' text) ↔ '*' ∉ text) ∧
    ((∀ text', globMatch pattern text' = true ↔ Glob pattern text') ↔ '*' ∉ pattern) := by
  refine ⟨fun fuel => globLoop_start pattern text, glob_of_globMatch,
    globMatch_iff_of_not_starMeetsStar, ⟨fun hright hmem => ?_, fun hmem pattern' => ?_⟩,
    ⟨fun hright hmem => ?_, fun hmem text' => ?_⟩⟩
  · obtain ⟨pattern', hglob, hmiss⟩ := exists_pattern_missed hmem
    exact hmiss ((hright pattern').mpr hglob)
  · exact globMatch_iff_of_not_mem (.inr hmem)
  · obtain ⟨text', hglob, hmiss⟩ := exists_text_missed hmem
    exact hmiss ((hright text').mpr hglob)
  · exact globMatch_iff_of_not_mem (.inl hmem)

/-- `*` does not match the name `*a`. -/
theorem globMatch_star_misses :
    Glob ['*'] ['*', 'a'] ∧ globMatch ['*'] ['*', 'a'] = false :=
  ⟨Glob.star_iff.mpr ⟨[], List.nil_suffix, Glob.nil_iff.mpr rfl⟩, by decide +kernel⟩

end FtpGateway
