import Spotify.Lib.Runs

/-!
# Spotify.Lib.Refinement — one system explained by another

The concrete system steps on labels `ι`, the abstract one on labels `κ`.  A step of the concrete system
stands for the labels `emit s l` of the abstract one, none of them when it is invisible there.  Where every
step is matched (`Simulates`), every run is: its `trace` is a run of the abstract system between related
states (`Simulates.exec`).  Nothing here depends on a particular system.
-/

namespace Runs

variable {σ τ ι κ : Type*} {step : σ → ι → Option σ} {step' : τ → κ → Option τ} {emit : σ → ι → List κ}
  {R : σ → τ → Prop}

/-- The abstract labels that the run `ls` from `s` stands for. -/
def trace (step : σ → ι → Option σ) (emit : σ → ι → List κ) : σ → List ι → List κ
  | _, [] => []
  | s, l :: ls => emit s l ++ (step s l).elim [] fun t => trace step emit t ls

/-- From related states, each concrete step is a run of the abstract system to related states. -/
def Simulates (step : σ → ι → Option σ) (step' : τ → κ → Option τ) (emit : σ → ι → List κ)
    (R : σ → τ → Prop) : Prop :=
  ∀ s u l t, R s u → step s l = some t → ∃ v, exec step' u (emit s l) = some v ∧ R t v

theorem trace_cons {s t : σ} {l : ι} (h : step s l = some t) (ls : List ι) :
    trace step emit s (l :: ls) = emit s l ++ trace step emit t ls := by
  rw [trace, h, Option.elim_some]

theorem length_trace_le {n : ℕ} (h : ∀ s l, (emit s l).length ≤ n) (s : σ) (ls : List ι) :
    (trace step emit s ls).length ≤ n * ls.length := by
  induction ls generalizing s with
  | nil => exact Nat.zero_le _
  | cons l ls ih =>
    have hl := h s l
    have hrest : ((step s l).elim [] fun t => trace step emit t ls).length ≤ n * ls.length := by
      cases step s l with
      | none => exact Nat.zero_le _
      | some t => exact ih t
    rw [trace, List.length_append, List.length_cons, Nat.mul_succ]
    omega

/-- **Runs are simulated.**  The trace of a run is a run between related states. -/
theorem Simulates.exec (h : Simulates step step' emit R) {s t : σ} {u : τ} {ls : List ι} (h0 : R s u)
    (hs : Runs.exec step s ls = some t) :
    ∃ v, Runs.exec step' u (trace step emit s ls) = some v ∧ R t v := by
  induction ls generalizing s u with
  | nil => cases hs; exact ⟨u, rfl, h0⟩
  | cons l ls ih =>
    obtain ⟨s₁, hl, hs⟩ := Option.bind_eq_some_iff.mp hs
    obtain ⟨u₁, hu, hR⟩ := h s u l s₁ h0 hl
    obtain ⟨v, hv, hR'⟩ := ih hR hs
    refine ⟨v, ?_, hR'⟩
    rw [trace_cons hl, exec_append_some hu, hv]

/-- A trace read label by label, where what the emitted labels say is known from the concrete label. -/
theorem filterMap_trace {γ : Type*} {g : κ → Option γ} {g' : ι → Option γ} {s t : σ} {ls : List ι}
    (hg : ∀ s l t, step s l = some t → (emit s l).filterMap g = (g' l).toList)
    (h : Runs.exec step s ls = some t) : (trace step emit s ls).filterMap g = ls.filterMap g' := by
  induction ls generalizing s with
  | nil => rfl
  | cons l ls ih =>
    obtain ⟨u, hu, h⟩ := Option.bind_eq_some_iff.mp h
    rw [trace_cons hu, List.filterMap_append, hg s l u hu, ih h]
    cases hl : g' l with
    | none => rw [List.filterMap_cons_none hl, Option.toList_none, List.nil_append]
    | some c => rw [List.filterMap_cons_some hl, Option.toList_some, List.singleton_append]

theorem trace_filterMap {γ : Type*} (f : κ → Option γ) (s : σ) (ls : List ι) :
    (trace step emit s ls).filterMap f = trace step (fun s l => (emit s l).filterMap f) s ls := by
  induction ls generalizing s with
  | nil => rfl
  | cons l ls ih =>
    rw [trace, trace, List.filterMap_append]
    cases step s l with
    | none => rfl
    | some t => rw [Option.elim_some, Option.elim_some, ih]

/-- A system that takes only some of the labels of another one, under names of its own. -/
theorem exec_relabel (step : σ → κ → Option σ) (f : ι → κ) (s : σ) (ls : List ι) :
    Runs.exec (fun s l => step s (f l)) s ls = Runs.exec step s (ls.map f) := by
  induction ls generalizing s with
  | nil => rfl
  | cons l ls ih =>
    rw [List.map_cons, exec_cons, exec_cons]
    exact Option.bind_congr fun t _ => ih t

end Runs
