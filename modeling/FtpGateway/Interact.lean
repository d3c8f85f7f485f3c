import Mathlib.Data.List.Basic
import Mathlib.Data.List.Infix
import Mathlib.Logic.Function.Basic

/-!
# Interactive programs

A sequential program that talks to its surroundings by *requests*: each
request gets one answer, and everything the program does is the list of
exchanges it has made so far, its *history*. The surroundings are a strategy
from histories to answers, so a statement about every `Env` is a statement
about every peer, adversarial and adaptive ones included.

`Prog` is the program as a tree of requests. It can end three ways: normally
(`ret`), by leaving the enclosing function (`exit`), or by never getting any
further (`wait`, also what an unanswered request amounts to).

The proof rules are those of a weakest precondition that also looks at every
exchange made on the way: `wp env Φ Q E p h` says that, started with history
`h`, every exchange `p` makes satisfies `Φ` (against the history before it),
that `Q` holds if `p` returns and `E` if it exits. Runs that stop in the
middle need no case of their own: every exchange they made was checked. The
headline is `run_of_wp`.
-/

namespace Interact

/-! ## Requests, histories, programs -/

/-- The requests a program can make and the type of each one's answers. -/
structure Sig where
  Req : Type
  Ans : Req → Type

/-- One request together with the answer it got. -/
structure Exchange (S : Sig) where
  req : S.Req
  ans : S.Ans req

/-- Everything that has happened, oldest exchange first. -/
abbrev History (S : Sig) := List (Exchange S)

/-- The surroundings of a program. `none` leaves a request unanswered. -/
abbrev Env (S : Sig) := History S → (r : S.Req) → Option (S.Ans r)

inductive Prog (S : Sig) (ε α : Type) : Type where
  | ret (a : α)
  | exit (e : ε)
  | wait
  | ask (r : S.Req) (k : S.Ans r → Prog S ε α)

namespace Prog

variable {S : Sig} {ε α β σ : Type}

protected def bind : Prog S ε α → (α → Prog S ε β) → Prog S ε β
  | .ret a, f => f a
  | .exit e, _ => .exit e
  | .wait, _ => .wait
  | .ask r k, f => .ask r fun a => (k a).bind f

instance : Monad (Prog S ε) where
  pure := .ret
  bind := .bind

/-- Make one request and return its answer. -/
def request (r : S.Req) : Prog S ε (S.Ans r) := .ask r .ret

/-- `c` runs if `p` leaves by `exit`: what is dropped while unwinding. -/
def onExit : Prog S ε α → (ε → Prog S ε Unit) → Prog S ε α
  | .ret a, _ => .ret a
  | .exit e, c => (c e).bind fun _ => .exit e
  | .wait, _ => .wait
  | .ask r k, c => .ask r fun a => (k a).onExit c

/-- `c` runs however `p` ends: the end of a scope. -/
def finally_ (p : Prog S ε α) (c : Prog S ε Unit) : Prog S ε α :=
  (p.onExit fun _ => c).bind fun a => c.bind fun _ => .ret a

/-- Run `f` over and over, following the run for `n` rounds. The only ways
out of the loop are the body's own exits. -/
def iterate : Nat → (σ → Prog S ε σ) → σ → Prog S ε α
  | 0, _, _ => .wait
  | n + 1, f, s => (f s).bind fun s' => iterate n f s'

/-- Every request `p` can ever make satisfies `R`, whatever the answers. -/
def Asks (R : S.Req → Prop) : Prog S ε α → Prop
  | .ret _ => True
  | .exit _ => True
  | .wait => True
  | .ask r k => R r ∧ ∀ a, (k a).Asks R

/-- `p` never leaves by `exit`. -/
def NoExit : Prog S ε α → Prop
  | .ret _ => True
  | .exit _ => False
  | .wait => True
  | .ask _ k => ∀ a, (k a).NoExit

/-- `p` comes to a value, whatever the answers. -/
def Delivers : Prog S ε α → Prop
  | .ret _ => True
  | .exit _ => False
  | .wait => False
  | .ask _ k => ∀ a, (k a).Delivers

/-- Every value `p` can return satisfies `P`, whatever the answers. -/
def Returns (P : α → Prop) : Prog S ε α → Prop
  | .ret a => P a
  | .exit _ => True
  | .wait => True
  | .ask _ k => ∀ a, (k a).Returns P

@[simp] theorem pure_eq (a : α) : (pure a : Prog S ε α) = .ret a := rfl

@[simp] theorem bind_eq (p : Prog S ε α) (f : α → Prog S ε β) :
    p >>= f = p.bind f := rfl

end Prog

/-! ## Runs -/

inductive Outcome (ε α : Type) where
  | ret (a : α)
  | exit (e : ε)
  | waiting
deriving Repr, DecidableEq

variable {S : Sig} {ε α β σ : Type}

def run (env : Env S) : Prog S ε α → History S → Outcome ε α × History S
  | .ret a, h => (.ret a, h)
  | .exit e, h => (.exit e, h)
  | .wait, h => (.waiting, h)
  | .ask r k, h =>
      match env h r with
      | none => (.waiting, h)
      | some a => run env (k a) (h ++ [⟨r, a⟩])

theorem run_bind (env : Env S) (p : Prog S ε α) (f : α → Prog S ε β) (h : History S) :
    run env (p.bind f) h =
      match run env p h with
      | (.ret a, h') => run env (f a) h'
      | (.exit e, h') => (.exit e, h')
      | (.waiting, h') => (.waiting, h') := by
  induction p generalizing h with
  | ret a => rfl
  | exit e => rfl
  | wait => rfl
  | ask r k ih =>
      simp only [Prog.bind, run]
      cases env h r with
      | none => rfl
      | some a => exact ih a _

theorem run_bind_ret {env : Env S} {p : Prog S ε α} {f : α → Prog S ε β} {h h' : History S} {a : α}
    (hp : run env p h = (.ret a, h')) : run env (p.bind f) h = run env (f a) h' := by
  rw [run_bind, hp]

theorem run_onExit (env : Env S) (p : Prog S ε α) (c : ε → Prog S ε Unit) (h : History S) :
    run env (p.onExit c) h =
      match run env p h with
      | (.ret a, h') => (.ret a, h')
      | (.exit e, h') => run env ((c e).bind fun _ => .exit e) h'
      | (.waiting, h') => (.waiting, h') := by
  induction p generalizing h with
  | ret a => rfl
  | exit e => rfl
  | wait => rfl
  | ask r k ih =>
      simp only [Prog.onExit, run]
      cases env h r with
      | none => rfl
      | some a => exact ih a _

/-- Every exchange of `H` satisfies `Φ` against the history before it. -/
def Always (Φ : History S → Exchange S → Prop) (H : History S) : Prop :=
  ∀ h e t, H = h ++ e :: t → Φ h e

@[simp] theorem always_nil (Φ : History S → Exchange S → Prop) : Always Φ [] := by
  intro h e t heq
  simp at heq

theorem always_append_single {Φ : History S → Exchange S → Prop} {H : History S}
    {e : Exchange S} : Always Φ (H ++ [e]) ↔ Always Φ H ∧ Φ H e := by
  constructor
  · intro hall
    exact ⟨fun h e' t heq => hall h e' (t ++ [e]) (by simp [heq]), hall H e [] rfl⟩
  · rintro ⟨hall, he⟩ h e' t heq
    rcases t.eq_nil_or_concat with rfl | ⟨t', x, rfl⟩
    · obtain ⟨rfl, hx⟩ := List.append_inj' heq rfl
      obtain rfl : e = e' := by simpa using hx
      exact he
    · have heq' : H ++ [e] = (h ++ e' :: t') ++ [x] := by simpa using heq
      exact hall h e' t' (List.append_inj' heq' rfl).1

theorem Always.of_append {Φ : History S → Exchange S → Prop} {H t : History S}
    (hall : Always Φ (H ++ t)) : Always Φ H :=
  fun h e t' heq => hall h e (t' ++ t) (by simp [heq])

theorem Always.initial {Φ : History S → Exchange S → Prop} {H h : History S}
    (hall : Always Φ H) (hh : h <+: H) : Always Φ h := by
  obtain ⟨t, rfl⟩ := hh
  exact hall.of_append

theorem Always.mono {Φ Ψ : History S → Exchange S → Prop} {H : History S}
    (hall : Always Φ H) (himp : ∀ h e, Φ h e → Ψ h e) : Always Ψ H :=
  fun h e t heq => himp h e (hall h e t heq)

/-- `Always` for a decidable condition, by walking through the history. -/
def checkFrom (φ : History S → Exchange S → Bool) : History S → History S → Bool
  | _, [] => true
  | h, e :: t => φ h e && checkFrom φ (h ++ [e]) t

theorem always_of_check {φ : History S → Exchange S → Bool} {H : History S}
    (hcheck : checkFrom φ [] H = true) : Always (fun h e => φ h e = true) H := by
  have hfrom : ∀ t pre, checkFrom φ pre t = true →
      ∀ h e t', t = h ++ e :: t' → φ (pre ++ h) e = true := by
    intro t
    induction t with
    | nil =>
        intro pre _ h e t' heq
        simp at heq
    | cons x t ih =>
        intro pre hc h e t' heq
        rw [checkFrom, Bool.and_eq_true] at hc
        cases h with
        | nil =>
            obtain ⟨rfl, -⟩ := List.cons.inj heq
            simpa using hc.1
        | cons y h =>
            obtain ⟨rfl, htail⟩ := List.cons.inj heq
            simpa using ih (pre ++ [x]) hc.2 h e t' htail
  intro h e t heq
  simpa using hfrom H [] hcheck h e t heq

/-! ## Things that happened in order -/

/-- Exchanges as `ps` describes them have happened in this order, among others. A
description may refer to the history before the exchange. -/
inductive InOrder : List (History S → Exchange S → Prop) → History S → Prop where
  | nil (h : History S) : InOrder [] h
  | skip {ps : List (History S → Exchange S → Prop)} {h : History S} (e : Exchange S)
      (hps : InOrder ps h) : InOrder ps (h ++ [e])
  | snoc {ps : List (History S → Exchange S → Prop)} {p : History S → Exchange S → Prop}
      {h : History S} {e : Exchange S} (hps : InOrder ps h) (he : p h e) :
      InOrder (ps ++ [p]) (h ++ [e])

/-- What happened in order happened. -/
theorem InOrder.exists_of_mem {ps : List (History S → Exchange S → Prop)} {H : History S}
    {p : History S → Exchange S → Prop} (hps : InOrder ps H) (hp : p ∈ ps) :
    ∃ h e t, H = h ++ e :: t ∧ p h e := by
  induction hps with
  | nil h => cases hp
  | skip e hps ih =>
      obtain ⟨h, x, t, rfl, hx⟩ := ih hp
      exact ⟨h, x, t ++ [e], by simp, hx⟩
  | @snoc ps q h e hps he ih =>
      rcases List.mem_append.mp hp with hp | hp
      · obtain ⟨h, x, t, rfl, hx⟩ := ih hp
        exact ⟨h, x, t ++ [e], by simp, hx⟩
      · obtain rfl := List.mem_singleton.mp hp
        exact ⟨h, e, [], rfl, he⟩

/-! ## Weakest preconditions -/

def wp (env : Env S) (Φ : History S → Exchange S → Prop) (Q : α → History S → Prop)
    (E : ε → History S → Prop) : Prog S ε α → History S → Prop
  | .ret a, h => Q a h
  | .exit e, h => E e h
  | .wait, _ => True
  | .ask r k, h => ∀ a, env h r = some a →
      Φ h ⟨r, a⟩ ∧ wp env Φ Q E (k a) (h ++ [⟨r, a⟩])

section Rules

variable {env : Env S} {Φ Φ' : History S → Exchange S → Prop}
  {Q Q' : α → History S → Prop} {E E' : ε → History S → Prop}
  {p : Prog S ε α} {h : History S}

@[simp] theorem wp_ret (a : α) : wp env Φ Q E (.ret a) h ↔ Q a h := Iff.rfl

@[simp] theorem wp_exit (e : ε) : wp env Φ Q E (.exit e) h ↔ E e h := Iff.rfl

@[simp] theorem wp_wait : wp env Φ Q E .wait h := trivial

theorem wp_ask (r : S.Req) (k : S.Ans r → Prog S ε α) :
    wp env Φ Q E (.ask r k) h ↔ ∀ a, env h r = some a →
      Φ h ⟨r, a⟩ ∧ wp env Φ Q E (k a) (h ++ [⟨r, a⟩]) := Iff.rfl

theorem wp_bind (f : α → Prog S ε β) {Q : β → History S → Prop} :
    wp env Φ Q E (p.bind f) h ↔
      wp env Φ (fun a h' => wp env Φ Q E (f a) h') E p h := by
  induction p generalizing h with
  | ret a => exact Iff.rfl
  | exit e => exact Iff.rfl
  | wait => exact Iff.rfl
  | ask r k ih =>
      simp only [Prog.bind, wp_ask]
      exact forall_congr' fun a => imp_congr_right fun _ => and_congr_right fun _ => ih a

@[simp] theorem wp_request (r : S.Req) {Q : S.Ans r → History S → Prop} :
    wp env Φ Q E (Prog.request r) h ↔ ∀ a, env h r = some a →
      Φ h ⟨r, a⟩ ∧ Q a (h ++ [⟨r, a⟩]) := Iff.rfl

theorem wp_request_bind (r : S.Req) (f : S.Ans r → Prog S ε α) :
    wp env Φ Q E ((Prog.request r).bind f) h ↔ ∀ a, env h r = some a →
      Φ h ⟨r, a⟩ ∧ wp env Φ Q E (f a) (h ++ [⟨r, a⟩]) := Iff.rfl

theorem wp_onExit (c : ε → Prog S ε Unit) :
    wp env Φ Q E (p.onExit c) h ↔
      wp env Φ Q (fun e h' => wp env Φ (fun _ h'' => E e h'') E (c e) h') p h := by
  induction p generalizing h with
  | ret a => exact Iff.rfl
  | exit e => simp [Prog.onExit, wp_bind]
  | wait => exact Iff.rfl
  | ask r k ih =>
      simp only [Prog.onExit, wp_ask]
      exact forall_congr' fun a => imp_congr_right fun _ => and_congr_right fun _ => ih a

theorem wp_finally (c : Prog S ε Unit) :
    wp env Φ Q E (p.finally_ c) h ↔
      wp env Φ (fun a h' => wp env Φ (fun _ h'' => Q a h'') E c h')
        (fun e h' => wp env Φ (fun _ h'' => E e h'') E c h') p h := by
  simp [Prog.finally_, wp_bind, wp_onExit]

theorem wp_mono (hΦ : ∀ h e, Φ h e → Φ' h e) (hQ : ∀ a h, Q a h → Q' a h)
    (hE : ∀ e h, E e h → E' e h) (hp : wp env Φ Q E p h) : wp env Φ' Q' E' p h := by
  induction p generalizing h with
  | ret a => exact hQ _ _ hp
  | exit e => exact hE _ _ hp
  | wait => trivial
  | ask r k ih =>
      intro a ha
      obtain ⟨hphi, hk⟩ := hp a ha
      exact ⟨hΦ _ _ hphi, ih a hk⟩

/-- Consequence with the exchange condition left alone. -/
theorem wp_post (hp : wp env Φ Q E p h) (hQ : ∀ a h, Q a h → Q' a h)
    (hE : ∀ e h, E e h → E' e h) : wp env Φ Q' E' p h :=
  wp_mono (fun _ _ => id) hQ hE hp

/-- The loop rule: `J` is the invariant at the head of the loop. -/
theorem wp_iterate {J : σ → History S → Prop} {f : σ → Prog S ε σ}
    (hstep : ∀ s h, J s h → wp env Φ J E (f s) h) (n : Nat) {s : σ} (hs : J s h) :
    wp env Φ Q E (Prog.iterate n f s) h := by
  induction n generalizing s h with
  | zero => trivial
  | succ n ih =>
      rw [Prog.iterate, wp_bind]
      exact wp_post (hstep s h hs) (fun s' h' hs' => ih hs') (fun _ _ => id)

/-- The frame rule: if no request `p` can make disturbs `I`, then `p` keeps
`I`, whichever way it ends. -/
theorem wp_frame {R : S.Req → Prop} {I : History S → Prop} (hp : p.Asks R)
    (hstep : ∀ h r a, R r → env h r = some a → I h → Φ h ⟨r, a⟩ ∧ I (h ++ [⟨r, a⟩]))
    (hI : I h) : wp env Φ (fun _ => I) (fun _ => I) p h := by
  induction p generalizing h with
  | ret a => exact hI
  | exit e => exact hI
  | wait => trivial
  | ask r k ih =>
      intro a ha
      obtain ⟨hphi, hI'⟩ := hstep h r a hp.1 ha hI
      exact ⟨hphi, ih a (hp.2 a) hI'⟩

/-- One more exchange condition, which every request `p` can make satisfies. -/
theorem wp_also {R : S.Req → Prop} {Ψ : History S → Exchange S → Prop} (hask : p.Asks R)
    (hΨ : ∀ h r a, R r → Ψ h ⟨r, a⟩) (hp : wp env Φ Q E p h) :
    wp env (fun h e => Φ h e ∧ Ψ h e) Q E p h := by
  induction p generalizing h with
  | ret a => exact hp
  | exit e => exact hp
  | wait => trivial
  | ask r k ih =>
      intro a ha
      obtain ⟨hphi, hk⟩ := hp a ha
      exact ⟨⟨hphi, hΨ h r a hask.1⟩, ih a (hask.2 a) hk⟩

/-- **What a proved precondition says about a run.** Every exchange satisfies
`Φ`, and the postcondition of however the run ended holds. -/
theorem run_of_wp (hp : wp env Φ Q E p h) (hall : Always Φ h) :
    Always Φ (run env p h).2
      ∧ (∀ a, (run env p h).1 = .ret a → Q a (run env p h).2)
      ∧ ∀ e, (run env p h).1 = .exit e → E e (run env p h).2 := by
  induction p generalizing h with
  | ret a =>
      refine ⟨hall, fun a' ha => ?_, fun e he => by simp [run] at he⟩
      obtain rfl : a = a' := by simpa [run] using ha
      exact hp
  | exit e =>
      refine ⟨hall, fun a ha => by simp [run] at ha, fun e' he => ?_⟩
      obtain rfl : e = e' := by simpa [run] using he
      exact hp
  | wait =>
      exact ⟨hall, fun a ha => by simp [run] at ha, fun e he => by simp [run] at he⟩
  | ask r k ih =>
      cases ha : env h r with
      | none =>
          simp only [run, ha]
          exact ⟨hall, fun a h' => by simp at h', fun e h' => by simp at h'⟩
      | some a =>
          simp only [run, ha]
          obtain ⟨hphi, hk⟩ := hp a ha
          exact ih a hk (always_append_single.mpr ⟨hall, hphi⟩)

end Rules

/-! ## One exchange at a time

A program that is right whatever its surroundings stays so after any answer. -/

section Steps

variable {Φ : History S → Exchange S → Prop} {Q : α → History S → Prop}
  {E : ε → History S → Prop} {p : Prog S ε α} {h : History S}

theorem wp_congr {env env' : Env S} {n : Nat} (hsame : ∀ h, n ≤ h.length → env h = env' h)
    (hn : n ≤ h.length) (hp : wp env Φ Q E p h) : wp env' Φ Q E p h := by
  induction p generalizing h with
  | ret a => exact hp
  | exit e => exact hp
  | wait => trivial
  | ask r k ih =>
      intro a ha
      obtain ⟨hphi, hk⟩ := hp a (by rw [hsame h hn]; exact ha)
      exact ⟨hphi, ih a (by rw [List.length_append]; omega) hk⟩

theorem wp_answered {r : S.Req} {k : S.Ans r → Prog S ε α}
    (hp : ∀ env, wp env Φ Q E (.ask r k) h) (a : S.Ans r) :
    Φ h ⟨r, a⟩ ∧ ∀ env, wp env Φ Q E (k a) (h ++ [⟨r, a⟩]) := by
  classical
  have hnow : ∀ env : Env S, Φ h ⟨r, a⟩ ∧ wp env Φ Q E (k a) (h ++ [⟨r, a⟩]) := by
    intro env
    let env' : Env S := fun h' =>
      if h'.length = h.length then Function.update (env h') r (some a) else env h'
    have hthis : env' h r = some a := by
      dsimp only [env']
      rw [if_pos rfl, Function.update_self]
    obtain ⟨hphi, hk⟩ := hp env' a hthis
    refine ⟨hphi, wp_congr (n := h.length + 1) (fun h' hlt => ?_) (by simp) hk⟩
    exact if_neg (by omega)
  exact ⟨(hnow fun _ _ => none).1, fun env => (hnow env).2⟩

end Steps

/-! ## Which requests a program makes -/

section Asks

variable {R : S.Req → Prop} {p : Prog S ε α}

theorem asks_mono {R' : S.Req → Prop} (hR : ∀ r, R r → R' r) (hp : p.Asks R) : p.Asks R' := by
  induction p with
  | ret a => trivial
  | exit e => trivial
  | wait => trivial
  | ask r k ih => exact ⟨hR r hp.1, fun a => ih a (hp.2 a)⟩

/-- A run adds only requests the program can make. -/
theorem run_asks (hp : p.Asks R) (env : Env S) (h : History S) :
    ∃ d, (run env p h).2 = h ++ d ∧ ∀ e ∈ d, R e.req := by
  induction p generalizing h with
  | ret a => exact ⟨[], (List.append_nil h).symm, by simp⟩
  | exit e => exact ⟨[], (List.append_nil h).symm, by simp⟩
  | wait => exact ⟨[], (List.append_nil h).symm, by simp⟩
  | ask r k ih =>
      rw [run]
      cases env h r with
      | none => exact ⟨[], (List.append_nil h).symm, by simp⟩
      | some a =>
          obtain ⟨d, hd, hall⟩ := ih a (hp.2 a) (h ++ [⟨r, a⟩])
          exact ⟨⟨r, a⟩ :: d, by simp [hd], List.forall_mem_cons.mpr ⟨hp.1, hall⟩⟩

theorem asks_bind {f : α → Prog S ε β} (hp : p.Asks R) (hf : ∀ a, (f a).Asks R) :
    (p.bind f).Asks R := by
  induction p with
  | ret a => exact hf a
  | exit e => trivial
  | wait => trivial
  | ask r k ih => exact ⟨hp.1, fun a => ih a (hp.2 a)⟩

theorem asks_request {r : S.Req} (hr : R r) :
    (Prog.request r : Prog S ε (S.Ans r)).Asks R :=
  ⟨hr, fun _ => trivial⟩

theorem asks_onExit {c : ε → Prog S ε Unit} (hp : p.Asks R) (hc : ∀ e, (c e).Asks R) :
    (p.onExit c).Asks R := by
  induction p with
  | ret a => trivial
  | exit e => exact asks_bind (hc e) fun _ => trivial
  | wait => trivial
  | ask r k ih => exact ⟨hp.1, fun a => ih a (hp.2 a)⟩

theorem asks_finally {c : Prog S ε Unit} (hp : p.Asks R) (hc : c.Asks R) :
    (p.finally_ c).Asks R :=
  asks_bind (asks_onExit hp fun _ => hc) fun _ => asks_bind hc fun _ => trivial

end Asks

/-! ## Which values a program returns -/

theorem returns_bind {P : β → Prop} {p : Prog S ε α} {f : α → Prog S ε β}
    (hf : ∀ a, (f a).Returns P) : (p.bind f).Returns P := by
  induction p with
  | ret a => exact hf a
  | exit e => trivial
  | wait => trivial
  | ask r k ih => exact fun a => ih a

theorem wp_returns {env : Env S} {Φ : History S → Exchange S → Prop}
    {Q : α → History S → Prop} {E : ε → History S → Prop} {P : α → Prop} {p : Prog S ε α}
    {h : History S} (hret : p.Returns P) (hp : wp env Φ Q E p h) :
    wp env Φ (fun a h' => P a ∧ Q a h') E p h := by
  induction p generalizing h with
  | ret a => exact ⟨hret, hp⟩
  | exit e => exact hp
  | wait => trivial
  | ask r k ih =>
      intro a ha
      obtain ⟨hphi, hk⟩ := hp a ha
      exact ⟨hphi, ih a (hret a) hk⟩

/-! ## Programs that do not exit -/

theorem noExit_request (r : S.Req) : (Prog.request r : Prog S ε (S.Ans r)).NoExit :=
  fun _ => trivial

theorem noExit_bind {p : Prog S ε α} {f : α → Prog S ε β} (hp : p.NoExit)
    (hf : ∀ a, (f a).NoExit) : (p.bind f).NoExit := by
  induction p with
  | ret a => exact hf a
  | exit e => exact hp.elim
  | wait => trivial
  | ask r k ih => exact fun a => ih a (hp a)

theorem wp_noExit {env : Env S} {Φ : History S → Exchange S → Prop}
    {Q : α → History S → Prop} {E E' : ε → History S → Prop} {p : Prog S ε α}
    {h : History S} (hno : p.NoExit) (hp : wp env Φ Q E p h) : wp env Φ Q E' p h := by
  induction p generalizing h with
  | ret a => exact hp
  | exit e => exact hno.elim
  | wait => trivial
  | ask r k ih =>
      intro a ha
      obtain ⟨hphi, hk⟩ := hp a ha
      exact ⟨hphi, ih a (hno a) hk⟩

/-! ## Programs that come to a value -/

theorem delivers_request (r : S.Req) : (Prog.request r : Prog S ε (S.Ans r)).Delivers :=
  fun _ => trivial

theorem delivers_bind {p : Prog S ε α} {f : α → Prog S ε β} (hp : p.Delivers)
    (hf : ∀ a, (f a).Delivers) : (p.bind f).Delivers := by
  induction p with
  | ret a => exact hf a
  | exit e => exact hp.elim
  | wait => exact hp.elim
  | ask r k ih => exact fun a => ih a (hp a)

theorem Prog.Delivers.noExit {p : Prog S ε α} (hp : p.Delivers) : p.NoExit := by
  induction p with
  | ret a => trivial
  | exit e => exact hp.elim
  | wait => trivial
  | ask r k ih => exact fun a => ih a (hp a)

/-- Only a request that is not answered keeps it from its value. -/
theorem run_of_delivers {p : Prog S ε α} (hp : p.Delivers) (env : Env S) (h : History S) :
    (∃ a, (run env p h).1 = .ret a)
      ∨ (run env p h).1 = .waiting ∧ ∃ r, env (run env p h).2 r = none := by
  induction p generalizing h with
  | ret a => exact Or.inl ⟨a, rfl⟩
  | exit e => exact hp.elim
  | wait => exact hp.elim
  | ask r k ih =>
      rw [run]
      cases ha : env h r with
      | none => exact Or.inr ⟨rfl, r, ha⟩
      | some a => exact ih a (hp a) _

/-! ## Machines

A transition relation over some state type, driven by exchanges, as an
abstraction of a program: every history the program can make is a path of the
machine. -/

section Machines

variable {T : σ → Exchange S → σ → Prop} {s₀ : σ}

inductive Path (T : σ → Exchange S → σ → Prop) (s₀ : σ) : History S → σ → Prop where
  | nil : Path T s₀ [] s₀
  | snoc {h : History S} {s s' : σ} {e : Exchange S} (hp : Path T s₀ h s) (ht : T s e s') :
      Path T s₀ (h ++ [e]) s'

/-- The exchange condition of a program that stays on the machine. -/
def Follows (T : σ → Exchange S → σ → Prop) (s₀ : σ) (h : History S) (e : Exchange S) : Prop :=
  ∃ s, Path T s₀ (h ++ [e]) s

theorem path_of_always {H : History S} (hall : Always (Follows T s₀) H) :
    ∃ s, Path T s₀ H s := by
  rcases H.eq_nil_or_concat with rfl | ⟨h, e, rfl⟩
  · exact ⟨s₀, .nil⟩
  · rw [List.concat_eq_append] at hall ⊢
    exact hall h e [] rfl

/-- The invariant rule, for paths whose exchanges all satisfy `A`. -/
theorem Path.invariant {A : History S → Exchange S → Prop} {I : History S → σ → Prop}
    {h : History S} {s : σ} (hinit : I [] s₀)
    (hstep : ∀ h s e s', Path T s₀ h s → I h s → A h e → T s e s' → I (h ++ [e]) s')
    (hp : Path T s₀ h s) (hA : Always A h) : I h s := by
  induction hp with
  | nil => exact hinit
  | snoc hp ht ih =>
      obtain ⟨hA, he⟩ := always_append_single.mp hA
      exact hstep _ _ _ _ hp (ih hA) he ht

theorem Path.eq_of_nil {s : σ} (hp : Path T s₀ [] s) : s = s₀ := by
  generalize hH : [] = H at hp
  cases hp with
  | nil => rfl
  | snoc hp ht => simp at hH

theorem Path.unsnoc {h : History S} {e : Exchange S} {s : σ} (hp : Path T s₀ (h ++ [e]) s) :
    ∃ m, Path T s₀ h m ∧ T m e s := by
  generalize hH : h ++ [e] = H at hp
  cases hp with
  | nil => simp at hH
  | snoc hp ht =>
      obtain ⟨rfl, he⟩ := List.append_inj' hH rfl
      obtain rfl := (List.cons.inj he).1
      exact ⟨_, hp, ht⟩

theorem Path.append {h t : History S} {m s : σ} (hp : Path T s₀ h m) (hq : Path T m t s) :
    Path T s₀ (h ++ t) s := by
  induction hq with
  | nil => simpa using hp
  | snoc hq ht ih =>
      rw [← List.append_assoc]
      exact ih.snoc ht

theorem Path.split {h t : History S} {s : σ} (hp : Path T s₀ (h ++ t) s) :
    ∃ m, Path T s₀ h m ∧ Path T m t s := by
  induction t using List.reverseRecOn generalizing s with
  | nil => exact ⟨s, by simpa using hp, .nil⟩
  | append_singleton t e ih =>
      rw [← List.append_assoc] at hp
      obtain ⟨m, hp, ht⟩ := hp.unsnoc
      obtain ⟨m', hp₁, hp₂⟩ := ih hp
      exact ⟨m', hp₁, hp₂.snoc ht⟩

/-- A path, one exchange of it and the rest. -/
theorem Path.at {h t : History S} {e : Exchange S} {s : σ} (hp : Path T s₀ (h ++ e :: t) s) :
    ∃ m m', Path T s₀ h m ∧ T m e m' ∧ Path T m' t s := by
  rw [List.append_cons] at hp
  obtain ⟨m', hp₁, hp₂⟩ := hp.split
  obtain ⟨m, hp₁, ht⟩ := hp₁.unsnoc
  exact ⟨m, m', hp₁, ht, hp₂⟩

theorem wp_step {env : Env S} {Q : β → History S → Prop} {E : ε → History S → Prop}
    {h : History S} {s : σ} {r : S.Req} {f : S.Ans r → Prog S ε β} (hp : Path T s₀ h s)
    (hstep : ∀ a, env h r = some a → ∃ s', T s ⟨r, a⟩ s'
      ∧ (Path T s₀ (h ++ [⟨r, a⟩]) s' →
        wp env (Follows T s₀) Q E (f a) (h ++ [⟨r, a⟩]))) :
    wp env (Follows T s₀) Q E ((Prog.request r).bind f) h := by
  refine (wp_request_bind r f).mpr fun a ha => ?_
  obtain ⟨s', ht, hrest⟩ := hstep a ha
  exact ⟨⟨s', hp.snoc ht⟩, hrest (hp.snoc ht)⟩

/-- The frame rule for requests that leave the machine where it is. -/
theorem wp_stay {env : Env S} {R : S.Req → Prop} {p : Prog S ε α} {h : History S} {s : σ}
    (hask : p.Asks R) (hstay : ∀ r a, R r → T s ⟨r, a⟩ s) (hp : Path T s₀ h s) :
    wp env (Follows T s₀) (fun _ h' => Path T s₀ h' s) (fun _ h' => Path T s₀ h' s) p h :=
  wp_frame hask (fun _ r a hr _ hp => ⟨⟨s, hp.snoc (hstay r a hr)⟩, hp.snoc (hstay r a hr)⟩) hp

end Machines

end Interact
