import FtpGateway.Cursor
import FtpGateway.RotatorRuns

/-!
# The health of sources over a run

`set_sources` forgets the health of the addresses it removes, but
`mark_unhealthy` does not look at the list: a session reports on the source it
was given, also when a refresh has removed that source since. The unhealthy map
stays within the source list exactly in the runs where every report that blames
a source comes while the source is listed (`health_within_sources_iff`), and
there an address that comes back is offered as healthy.
-/

namespace FtpGateway

open Str

/-- The source a step leaves out of the rotation. -/
def RotAct.blames? : RotAct → Option Ipv4Addr
  | .reportConnectFailure source k _ => if Rotator.sourceFault k then some source else none
  | .markUnhealthy source _ => some source
  | _ => none

namespace RotWorld

/-- Health is kept for listed sources only. -/
def HealthListed (w : RotWorld) : Prop :=
  ∀ ip, w.rot.unhealthy ip ≠ none → ip ∈ w.rot.sources

/-- The three things a step can do to the list and the health map. -/
inductive HealthTurn (w w' : RotWorld) (act : RotAct) : Prop where
  | keep (hblame : act.blames? = none) (hsources : w'.rot.sources = w.rot.sources)
      (hmap : w'.rot.unhealthy = w.rot.unhealthy)
  | relist (hblame : act.blames? = none)
      (hmap : ∀ ip, w'.rot.unhealthy ip =
        if ip ∈ w'.rot.sources then w.rot.unhealthy ip else none)
  | blame (ip : Ipv4Addr) (now : Nat) (hblame : act.blames? = some ip)
      (hsources : w'.rot.sources = w.rot.sources)
      (hmap : w'.rot.unhealthy = Function.update w.rot.unhealthy ip (some now))

variable {w w' : RotWorld} {act : RotAct}

theorem HealthTurn.of_rewrites {name : Text} {g : BackendState → BackendState}
    (hblame : act.blames? = none) (hrw : w.rot.Rewrites w'.rot name g) : HealthTurn w w' act :=
  .keep hblame hrw.sources hrw.unhealthy

theorem HealthTurn.of_setSources {sources : List Ipv4Addr} (hblame : act.blames? = none)
    (hrot : w'.rot = (w.rot.setSources sources).1) : HealthTurn w w' act := by
  rw [Rotator.setSources] at hrot
  split at hrot
  · exact .keep hblame (by rw [hrot]) (by rw [hrot])
  · exact .relist hblame fun ip => by rw [hrot]

theorem step_healthTurn (h : w.step act = some w') : HealthTurn w w' act := by
  cases step_turn h with
  | start name capacity source hrw => exact .of_rewrites rfl hrw
  | grant i name capacity source slot hi hslot hfree hrw => exact .of_rewrites rfl hrw
  | commit i name capacity source hi hrw => exact .of_rewrites rfl hrw
  | timeout i name capacity source hi hrw => exact .of_rewrites rfl hrw
  | cancel i name capacity source hi hrot => exact .keep rfl (by rw [hrot]) (by rw [hrot])
  | drop i name source hi hrw => exact .of_rewrites rfl hrw
  | health act hact =>
      cases act with
      | setSources sources =>
          obtain rfl := Option.some.inj h
          exact .of_setSources rfl rfl
      | refreshOnce listing =>
          obtain rfl := Option.some.inj h
          match listing with
          | none => exact .keep rfl rfl rfl
          | some [] => exact .keep rfl rfl rfl
          | some (ip :: rest) => exact .of_setSources rfl rfl
      | reportConnectFailure source k now =>
          obtain rfl := Option.some.inj h
          cases hk : Rotator.sourceFault k with
          | true =>
              refine .blame source (now + unhealthyFor) ?_ ?_ ?_
              · simp [RotAct.blames?, hk]
              · simp [Rotator.reportConnectFailure, hk, Rotator.markUnhealthyAt]
              · simp [Rotator.reportConnectFailure, hk, Rotator.markUnhealthyAt]
          | false =>
              refine .keep ?_ ?_ ?_
              · simp [RotAct.blames?, hk]
              · simp [Rotator.reportConnectFailure, hk]
              · simp [Rotator.reportConnectFailure, hk]
      | markUnhealthy source now =>
          obtain rfl := Option.some.inj h
          exact .blame source (now + unhealthyFor) rfl rfl rfl
      | start => cases hact
      | grant => cases hact
      | commit => cases hact
      | timeout => cases hact
      | cancel => cases hact
      | drop => cases hact

/-! ## One step -/

theorem HealthListed.step (hw : w.HealthListed)
    (hok : ∀ ip, act.blames? = some ip → ip ∈ w.rot.sources) (h : w.step act = some w') :
    w'.HealthListed := by
  intro ip hip
  cases step_healthTurn h with
  | keep _ hsources hmap =>
      rw [hmap] at hip
      rw [hsources]
      exact hw ip hip
  | relist _ hmap =>
      by_contra hmem
      rw [hmap, if_neg hmem] at hip
      exact hip rfl
  | blame source now hblame hsources hmap =>
      rw [hsources]
      by_cases hs : ip = source
      · exact hok ip (hs ▸ hblame)
      · rw [hmap, Function.update_of_ne hs] at hip
        exact hw ip hip

/-- A blamed source ends up in the map, so it has to be listed. -/
theorem HealthListed.blamed_mem (hw : w'.HealthListed) (h : w.step act = some w')
    {ip : Ipv4Addr} (hip : act.blames? = some ip) : ip ∈ w.rot.sources := by
  cases step_healthTurn h with
  | keep hblame => rw [hblame] at hip; cases hip
  | relist hblame => rw [hblame] at hip; cases hip
  | blame source now hblame hsources hmap =>
      obtain rfl := Option.some.inj (hip.symm.trans hblame)
      rw [← hsources]
      refine hw ip ?_
      rw [hmap, Function.update_self]
      exact Option.some_ne_none _

/-- A step that does not blame a healthy source leaves it healthy. -/
theorem unhealthy_none_step {ip : Ipv4Addr} (hip : w.rot.unhealthy ip = none)
    (hno : act.blames? ≠ some ip) (h : w.step act = some w') : w'.rot.unhealthy ip = none := by
  cases step_healthTurn h with
  | keep _ _ hmap => rw [hmap, hip]
  | relist _ hmap =>
      rw [hmap, hip]
      split <;> rfl
  | blame source now hblame _ hmap =>
      rw [hmap, Function.update_of_ne (by rintro rfl; exact hno hblame), hip]

/-! ## Runs -/

theorem run_append (w : RotWorld) (acts more : List RotAct) :
    w.run (acts ++ more) = (w.run acts).bind fun w' => w'.run more := by
  induction acts generalizing w with
  | nil => rfl
  | cons act rest ih =>
      rw [List.cons_append, run, run, Option.bind_assoc]
      congr 1
      funext w₁
      exact ih w₁

/-- `P` holds in every state of the run. -/
def Always (P : RotWorld → Prop) (w : RotWorld) (acts : List RotAct) : Prop :=
  ∀ pre post w', acts = pre ++ post → w.run pre = some w' → P w'

/-- Every step of the run meets `ok` in the state it is taken from. -/
def StepsMeet (ok : RotWorld → RotAct → Prop) (w : RotWorld) (acts : List RotAct) : Prop :=
  ∀ pre act post w₁ w₂, acts = pre ++ act :: post → w.run pre = some w₁ →
    w₁.step act = some w₂ → ok w₁ act

theorem StepsMeet.always {P : RotWorld → Prop} {ok : RotWorld → RotAct → Prop}
    {acts : List RotAct} (h : StepsMeet ok w acts) (hw : P w)
    (hstep : ∀ w w' act, P w → ok w act → w.step act = some w' → P w') : Always P w acts := by
  intro pre
  induction pre using List.reverseRecOn with
  | nil =>
      intro post w' _ hrun
      exact Option.some.inj hrun ▸ hw
  | append_singleton pre act ih =>
      intro post w' hacts hrun
      rw [run_append] at hrun
      obtain ⟨w₁, hpre, hlast⟩ := Option.bind_eq_some_iff.mp hrun
      obtain ⟨w₂, htaken, hnil⟩ := Option.bind_eq_some_iff.mp hlast
      obtain rfl := Option.some.inj hnil
      have hacts' : acts = pre ++ act :: post := by rw [hacts]; simp
      exact hstep w₁ w₂ act (ih (act :: post) w₁ hacts' hpre)
        (h pre act post w₁ w₂ hacts' hpre htaken) htaken

theorem Always.next {P : RotWorld → Prop} {acts pre post : List RotAct} {w₁ w₂ : RotWorld}
    (h : Always P w acts) (hacts : acts = pre ++ act :: post) (hpre : w.run pre = some w₁)
    (hstep : w₁.step act = some w₂) : P w₂ := by
  refine h (pre ++ [act]) post w₂ (by rw [hacts]; simp) ?_
  rw [run_append, hpre, Option.bind_some, run, hstep]
  rfl

/-- A blaming report can always be made. -/
theorem step_isSome_of_blames {ip : Ipv4Addr} (w : RotWorld) (h : act.blames? = some ip) :
    ∃ w', w.step act = some w' := by
  cases act with
  | reportConnectFailure source k now => exact ⟨_, rfl⟩
  | markUnhealthy source now => exact ⟨_, rfl⟩
  | start => cases h
  | grant => cases h
  | commit => cases h
  | timeout => cases h
  | cancel => cases h
  | drop => cases h
  | setSources => cases h
  | refreshOnce => cases h

/-- Every report of the run that blames a source finds it listed. -/
def BlamesListed (w : RotWorld) (acts : List RotAct) : Prop :=
  ∀ pre act post w', acts = pre ++ act :: post → w.run pre = some w' →
    ∀ ip, act.blames? = some ip → ip ∈ w'.rot.sources

/-- Health is kept for listed sources only in every state of the run. -/
def AlwaysHealthListed (w : RotWorld) (acts : List RotAct) : Prop :=
  ∀ pre post w', acts = pre ++ post → w.run pre = some w' → w'.HealthListed

theorem AlwaysHealthListed.blamesListed {acts : List RotAct}
    (h : w.AlwaysHealthListed acts) : w.BlamesListed acts := by
  intro pre act post w₁ hacts hpre ip hip
  obtain ⟨w₂, hstep⟩ := step_isSome_of_blames w₁ hip
  have hlisted : w₂.HealthListed := Always.next h hacts hpre hstep
  exact hlisted.blamed_mem hstep hip

theorem BlamesListed.alwaysHealthListed {acts : List RotAct} (hw : w.HealthListed)
    (h : w.BlamesListed acts) : w.AlwaysHealthListed acts := by
  have hmeet : StepsMeet (fun w act => ∀ ip, act.blames? = some ip → ip ∈ w.rot.sources) w acts :=
    fun pre act post w₁ _ hacts hpre _ => h pre act post w₁ hacts hpre
  exact hmeet.always hw fun _ _ _ hlisted hok hstep => hlisted.step hok hstep

theorem unhealthy_none_run {ip : Ipv4Addr} {acts : List RotAct}
    (hip : w.rot.unhealthy ip = none) (hno : ∀ act ∈ acts, act.blames? ≠ some ip)
    (h : w.run acts = some w') : w'.rot.unhealthy ip = none := by
  induction acts generalizing w with
  | nil => exact Option.some.inj h ▸ hip
  | cons act rest ih =>
      obtain ⟨w₁, hstep, hrest⟩ := Option.bind_eq_some_iff.mp h
      exact ih (unhealthy_none_step hip (hno act (List.mem_cons_self ..)) hstep)
        (fun a ha => hno a (List.mem_cons_of_mem _ ha)) hrest

end RotWorld

/-! ## Candidates -/

namespace Rotator

theorem mem_ordered {r : Rotator} {name : Text} {ip : Ipv4Addr} (h : ip ∈ r.sources) :
    ip ∈ r.ordered name := by
  obtain ⟨k, hk, rfl⟩ := List.getElem_of_mem h
  obtain ⟨i, hi, hmod⟩ := Cursor.exists_mod_eq
    (((r.backends.lookup name).map (·.advances)).getD 0 % r.sources.length) hk
  rw [ordered, List.mem_filterMap]
  exact ⟨i, List.mem_range.mpr hi, by rw [hmod, List.getElem?_eq_getElem hk]⟩

/-- A listed source with no entry in the map is offered, and only healthy ones
are offered with it. -/
theorem mem_candidatesAt {r : Rotator} {ip : Ipv4Addr} (hmem : ip ∈ r.sources)
    (hip : r.unhealthy ip = none) (name : Text) (now : Nat) :
    ip ∈ r.candidatesAt name now ∧
      ∀ other ∈ r.candidatesAt name now, r.isUnhealthy other now = false := by
  have hhealthy : r.isUnhealthy ip now = false := by rw [isUnhealthy, hip]; rfl
  have hin : ip ∈ (r.ordered name).filter fun ip => !r.isUnhealthy ip now :=
    List.mem_filter.mpr ⟨mem_ordered hmem, by rw [hhealthy]; rfl⟩
  have hlen : r.sources.length ≠ 0 := fun h0 => by
    rw [List.length_eq_zero_iff.mp h0] at hmem
    cases hmem
  have hne : ((r.ordered name).filter fun ip => !r.isUnhealthy ip now).isEmpty = false := by
    cases hcase : (r.ordered name).filter fun ip => !r.isUnhealthy ip now with
    | nil => rw [hcase] at hin; cases hin
    | cons => rfl
  rw [candidatesAt, if_neg hlen]
  simp only [hne, Bool.false_eq_true, if_false]
  refine ⟨hin, fun other hother => ?_⟩
  simpa using (List.mem_filter.mp hother).2

end Rotator

namespace RotWorld

/-- In every later state in which an address that was away is listed again and
has not been blamed since, it is offered as healthy. -/
def ReturnsHealthy (w : RotWorld) (acts : List RotAct) : Prop :=
  ∀ pre mid post w₁ w₂ ip, acts = pre ++ mid ++ post → w.run pre = some w₁ →
    ip ∉ w₁.rot.sources → w₁.run mid = some w₂ → ip ∈ w₂.rot.sources →
    (∀ act ∈ mid, act.blames? ≠ some ip) → ∀ name now,
      ip ∈ w₂.rot.candidatesAt name now ∧
        ∀ other ∈ w₂.rot.candidatesAt name now, w₂.rot.isUnhealthy other now = false

/-- **Exactly the runs whose reports blame listed sources keep the health map
within the list**, and in them an address that comes back is healthy. -/
theorem health_within_sources_iff (sources : List Ipv4Addr) (acts : List RotAct) :
    ((init sources).AlwaysHealthListed acts ↔ (init sources).BlamesListed acts) ∧
    ((init sources).BlamesListed acts → (init sources).ReturnsHealthy acts) := by
  have hinit : (init sources).HealthListed := fun ip hip => absurd rfl hip
  refine ⟨⟨fun h => h.blamesListed, fun h => h.alwaysHealthListed hinit⟩, fun h => ?_⟩
  intro pre mid post w₁ w₂ ip hacts hpre haway hmid hback hno name now
  have hlisted := h.alwaysHealthListed hinit pre (mid ++ post) w₁ (by rw [hacts]; simp) hpre
  have hnone : w₁.rot.unhealthy ip = none := by
    by_contra hmarked
    exact haway (hlisted ip hmarked)
  exact Rotator.mem_candidatesAt hback (unhealthy_none_run hnone hno hmid) name now

/-- A session that connected from `10.0.0.1` reports a failure after a refresh
has removed that source; when the source comes back it is left out. -/
def lateReport : List RotAct :=
  [.setSources [⟨10, 0, 0, 2⟩], .reportConnectFailure ⟨10, 0, 0, 1⟩ .timedOut 1000,
    .setSources [⟨10, 0, 0, 1⟩, ⟨10, 0, 0, 2⟩]]

theorem late_report_outlives_removal :
    (∃ w, (init [⟨10, 0, 0, 1⟩, ⟨10, 0, 0, 2⟩]).run (lateReport.take 2) = some w ∧
      w.rot.unhealthy ⟨10, 0, 0, 1⟩ = some 61000 ∧ (⟨10, 0, 0, 1⟩ : Ipv4Addr) ∉ w.rot.sources) ∧
    (∃ w, (init [⟨10, 0, 0, 1⟩, ⟨10, 0, 0, 2⟩]).run lateReport = some w ∧
      (⟨10, 0, 0, 1⟩ : Ipv4Addr) ∈ w.rot.sources ∧
      w.rot.candidatesAt ['b'] 2000 = [⟨10, 0, 0, 2⟩]) ∧
    ¬ (init [⟨10, 0, 0, 1⟩, ⟨10, 0, 0, 2⟩]).AlwaysHealthListed lateReport := by
  refine ⟨⟨_, rfl, rfl, by decide⟩, ⟨_, rfl, by decide, by decide⟩, fun h => ?_⟩
  have hbad := h (lateReport.take 2) (lateReport.drop 2) _ rfl rfl ⟨10, 0, 0, 1⟩ (by decide)
  exact absurd hbad (by decide)

end RotWorld

end FtpGateway
