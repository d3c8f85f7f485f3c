import Mathlib.Data.List.Basic

/-!
# Settings in layers

A record of independent settings, and a layer written over it: the settings are
looked up in order, what is found is written, and the first lookup that fails ends
it (`overlay`). The order decides which failure is reported (`overlay_eq_error`) and
nothing else: a layer that is read through gives, setting by setting, what it says
and otherwise what was there (`overlay_eq_ok`).
-/

namespace Layers

universe u v w

/-- A record that is read and written setting by setting. -/
structure Record (φ : Type u) (Val : φ → Type v) (σ : Type w) where
  get : (f : φ) → σ → Val f
  put : (f : φ) → Val f → σ → σ
  get_put : ∀ f v s, get f (put f v s) = v
  get_put_ne : ∀ {f g} v s, f ≠ g → get f (put g v s) = get f s
  ext : ∀ {s s'}, (∀ f, get f s = get f s') → s = s'

variable {φ : Type u} {Val : φ → Type v} {σ : Type w} {ε : Type*}

/-- What is found, or what was there. -/
def Record.write (R : Record φ Val σ) (f : φ) : Option (Val f) → σ → σ
  | some v, s => R.put f v s
  | none, s => s

def overlay (R : Record φ Val σ) (look : (f : φ) → Except ε (Option (Val f))) :
    List φ → σ → Except ε σ
  | [], s => .ok s
  | f :: fs, s =>
      match look f with
      | .ok found => overlay R look fs (R.write f found s)
      | .error e => .error e

section

variable {R : Record φ Val σ} {look : (f : φ) → Except ε (Option (Val f))}

theorem Record.get_write (f : φ) (found : Option (Val f)) (s : σ) :
    R.get f (R.write f found s) = found.getD (R.get f s) := by
  cases found with
  | none => rfl
  | some v => exact R.get_put f v s

theorem Record.get_write_ne {f g : φ} (found : Option (Val g)) (s : σ) (h : f ≠ g) :
    R.get f (R.write g found s) = R.get f s := by
  cases found with
  | none => rfl
  | some v => exact R.get_put_ne v s h

theorem overlay_cons_ok {f : φ} {fs : List φ} {s : σ} {found : Option (Val f)}
    (h : look f = .ok found) :
    overlay R look (f :: fs) s = overlay R look fs (R.write f found s) := by
  rw [overlay, h]

theorem overlay_cons_error {f : φ} {fs : List φ} {s : σ} {e : ε} (h : look f = .error e) :
    overlay R look (f :: fs) s = .error e := by
  rw [overlay, h]

/-- A layer that is read through, whatever the order. -/
theorem overlay_of_layer {layer : (f : φ) → Option (Val f)} {fs : List φ} {s : σ}
    (hlook : ∀ f ∈ fs, look f = .ok (layer f)) :
    ∃ s', overlay R look fs s = .ok s' ∧ (∀ f ∈ fs, R.get f s' = (layer f).getD (R.get f s)) ∧
      ∀ f ∉ fs, R.get f s' = R.get f s := by
  induction fs generalizing s with
  | nil => exact ⟨s, rfl, nofun, fun _ _ => rfl⟩
  | cons f fs ih =>
      obtain ⟨hf, hfs⟩ := List.forall_mem_cons.mp hlook
      obtain ⟨s', hs', hin, hout⟩ := ih (s := R.write f (layer f) s) hfs
      have hhere : ∀ g, R.get g (R.write f (layer f) s) = (layer g).getD (R.get g s) ∨ g ≠ f ∧
          R.get g (R.write f (layer f) s) = R.get g s := by
        intro g
        by_cases hg : g = f
        · subst hg
          exact Or.inl (R.get_write g _ s)
        · exact Or.inr ⟨hg, R.get_write_ne _ s hg⟩
      refine ⟨s', by rw [overlay_cons_ok hf, hs'], fun g hg => ?_, fun g hg => ?_⟩
      · by_cases hmem : g ∈ fs
        · rw [hin g hmem]
          rcases hhere g with hsome | ⟨-, hsame⟩
          · rw [hsome]
            cases layer g <;> rfl
          · rw [hsame]
        · rw [hout g hmem]
          rcases hhere g with hsome | ⟨hne, -⟩
          · exact hsome
          · exact absurd ((List.mem_cons.mp hg).resolve_right hmem) hne
      · rw [List.mem_cons, not_or] at hg
        rw [hout g hg.2, R.get_write_ne _ s hg.1]

/-- What a layer does that names every setting. -/
theorem overlay_eq_ok {fs : List φ} (hall : ∀ f, f ∈ fs) {s s' : σ} :
    overlay R look fs s = .ok s' ↔ ∃ layer : (f : φ) → Option (Val f),
      (∀ f, look f = .ok (layer f)) ∧ ∀ f, R.get f s' = (layer f).getD (R.get f s) := by
  constructor
  · intro h
    have hread : ∀ (gs : List φ) (t : σ), overlay R look gs t = .ok s' →
        ∀ f ∈ gs, ∃ found, look f = .ok found := by
      intro gs
      induction gs with
      | nil => exact fun _ _ => nofun
      | cons g gs ih =>
          intro t ht
          cases hg : look g with
          | error e =>
              rw [overlay_cons_error hg] at ht
              cases ht
          | ok found =>
              rw [overlay_cons_ok hg] at ht
              exact List.forall_mem_cons.mpr ⟨⟨found, hg⟩, ih _ ht⟩
    choose layer hlayer using fun f => hread fs s h f (hall f)
    obtain ⟨t, ht, hin, -⟩ := overlay_of_layer (R := R) (s := s) fun f (_ : f ∈ fs) => hlayer f
    obtain rfl := Except.ok.inj (h.symm.trans ht)
    exact ⟨layer, hlayer, fun f => hin f (hall f)⟩
  · rintro ⟨layer, hlayer, hget⟩
    obtain ⟨t, ht, hin, -⟩ := overlay_of_layer (R := R) (s := s) fun f (_ : f ∈ fs) => hlayer f
    rw [ht]
    refine congrArg _ (R.ext fun f => ?_)
    rw [hin f (hall f), hget f]

/-- The first lookup that fails is the one reported. -/
theorem overlay_eq_error {fs : List φ} {s : σ} {e : ε} :
    overlay R look fs s = .error e ↔ ∃ before f after, fs = before ++ f :: after ∧
      (∀ g ∈ before, ∃ found, look g = .ok found) ∧ look f = .error e := by
  induction fs generalizing s with
  | nil =>
      refine ⟨fun h => (by cases h), ?_⟩
      rintro ⟨before, f, after, heq, -⟩
      simp at heq
  | cons g fs ih =>
      cases hg : look g with
      | error e' =>
          rw [overlay_cons_error hg, Except.error.injEq]
          constructor
          · rintro rfl
            exact ⟨[], g, fs, rfl, nofun, hg⟩
          · rintro ⟨before, f, after, heq, hbefore, hf⟩
            cases before with
            | nil =>
                obtain ⟨rfl, -⟩ := List.cons.inj heq
                exact Except.error.inj (hg.symm.trans hf)
            | cons b before =>
                obtain ⟨rfl, -⟩ := List.cons.inj heq
                obtain ⟨found, hfound⟩ := hbefore g List.mem_cons_self
                cases hg.symm.trans hfound
      | ok found =>
          rw [overlay_cons_ok hg, ih]
          constructor
          · rintro ⟨before, f, after, rfl, hbefore, hf⟩
            exact ⟨g :: before, f, after, rfl,
              List.forall_mem_cons.mpr ⟨⟨found, hg⟩, hbefore⟩, hf⟩
          · rintro ⟨before, f, after, heq, hbefore, hf⟩
            cases before with
            | nil =>
                obtain ⟨rfl, -⟩ := List.cons.inj heq
                cases hg.symm.trans hf
            | cons b before =>
                obtain ⟨rfl, rfl⟩ := List.cons.inj heq
                exact ⟨before, f, after, rfl, (List.forall_mem_cons.mp hbefore).2, hf⟩

end

end Layers
