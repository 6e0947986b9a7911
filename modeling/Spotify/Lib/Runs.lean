import Mathlib.Data.List.Basic

/-!
# Spotify.Lib.Runs — runs of a labelled partial step function

`exec step s ls` executes the labels `ls` from `s`, stopping at a label that is not enabled.
`Always P` and `EachStep R` speak about every state and every step that a run passes; the guard rule
`always_iff_eachStep` says when a property of all states is the same as a condition on all steps.
Nothing here depends on a particular system.
-/

namespace Runs

variable {σ τ γ ι ο : Type*} (step : σ → ι → Option σ)

/-- The state after the labels `ls`, `none` when one of them is not enabled where it is taken. -/
def exec : σ → List ι → Option σ
  | s, [] => some s
  | s, l :: ls => (step s l).bind fun t => exec t ls

/-- `t` is reached by some run from a state satisfying `init`. -/
def Reachable (init : σ → Prop) (t : σ) : Prop := ∃ s ls, init s ∧ exec step s ls = some t

/-- `P` holds in every state that the run `ls` from `s` passes, both ends included. -/
def Always (P : σ → Prop) (s : σ) (ls : List ι) : Prop :=
  ∀ p t, p <+: ls → exec step s p = some t → P t

/-- Every step that the run `ls` from `s` takes is in `R`. -/
def EachStep (R : σ → ι → σ → Prop) (s : σ) (ls : List ι) : Prop :=
  ∀ p l t u, p ++ [l] <+: ls → exec step s p = some t → step t l = some u → R t l u

variable {step}

/-! ### Execution -/

@[simp] theorem exec_nil (s : σ) : exec step s [] = some s := rfl

@[simp] theorem exec_cons (s : σ) (l : ι) (ls : List ι) :
    exec step s (l :: ls) = (step s l).bind fun t => exec step t ls := rfl

theorem exec_cons_some {s t : σ} {l : ι} (h : step s l = some t) (ls : List ι) :
    exec step s (l :: ls) = exec step t ls := by
  rw [exec_cons, h, Option.bind_some]

theorem exec_append (s : σ) (ls ls' : List ι) :
    exec step s (ls ++ ls') = (exec step s ls).bind fun t => exec step t ls' := by
  induction ls generalizing s with
  | nil => rfl
  | cons l ls ih =>
    rw [List.cons_append, exec_cons, exec_cons, Option.bind_assoc]
    exact Option.bind_congr fun t _ => ih t

theorem exec_append_some {s t : σ} {ls : List ι} (h : exec step s ls = some t) (ls' : List ι) :
    exec step s (ls ++ ls') = exec step t ls' := by
  rw [exec_append, h, Option.bind_some]

theorem exec_concat {s t u : σ} {ls : List ι} {l : ι} (h : exec step s ls = some t)
    (hl : step t l = some u) : exec step s (ls ++ [l]) = some u := by
  rw [exec_append_some h, exec_cons_some hl, exec_nil]

theorem exec_append_inv {s u : σ} {ls ls' : List ι} (h : exec step s (ls ++ ls') = some u) :
    ∃ t, exec step s ls = some t ∧ exec step t ls' = some u := by
  rw [exec_append] at h
  exact Option.bind_eq_some_iff.mp h

/-! ### Invariants -/

/-- An inductive invariant holds after every run. -/
theorem exec_inv {I : σ → Prop} (hI : ∀ s l t, I s → step s l = some t → I t) {s t : σ}
    {ls : List ι} (h0 : I s) (h : exec step s ls = some t) : I t := by
  induction ls generalizing s with
  | nil => cases h; exact h0
  | cons l ls ih =>
    obtain ⟨u, hu, h⟩ := Option.bind_eq_some_iff.mp h
    exact ih (hI s l u h0 hu) h

theorem Reachable.inv {init I : σ → Prop} (h0 : ∀ s, init s → I s)
    (hI : ∀ s l t, I s → step s l = some t → I t) {t : σ} (h : Reachable step init t) : I t := by
  obtain ⟨s, ls, hs, h⟩ := h
  exact exec_inv hI (h0 s hs) h

theorem Reachable.of_init {init : σ → Prop} {s : σ} (h : init s) : Reachable step init s :=
  ⟨s, [], h, rfl⟩

theorem Reachable.exec {init : σ → Prop} {s t : σ} (h : Reachable step init s) {ls : List ι}
    (hls : Runs.exec step s ls = some t) : Reachable step init t := by
  obtain ⟨s0, p, h0, hp⟩ := h
  exact ⟨s0, p ++ ls, h0, (exec_append_some hp ls).trans hls⟩

theorem Reachable.tail {init : σ → Prop} {s t : σ} (h : Reachable step init s) {l : ι}
    (hl : step s l = some t) : Reachable step init t :=
  h.exec (show Runs.exec step s [l] = some t by rw [exec_cons_some hl, exec_nil])

/-! ### All states, all steps -/

theorem always_nil {P : σ → Prop} {s : σ} : Always step P s [] ↔ P s := by
  constructor
  · intro h
    exact h [] s (List.prefix_refl _) rfl
  · intro h p t hp ht
    obtain rfl := List.prefix_nil.mp hp
    cases ht
    exact h

theorem always_cons {P : σ → Prop} {s : σ} {l : ι} {ls : List ι} :
    Always step P s (l :: ls) ↔ P s ∧ ∀ t, step s l = some t → Always step P t ls := by
  constructor
  · intro h
    refine ⟨h [] s List.nil_prefix rfl, fun t ht p u hp hu => ?_⟩
    exact h (l :: p) u (List.cons_prefix_cons.mpr ⟨rfl, hp⟩) ((exec_cons_some ht p).trans hu)
  · rintro ⟨h0, h⟩ p u hp hu
    cases p with
    | nil => cases hu; exact h0
    | cons l' p =>
      obtain ⟨rfl, hp'⟩ := List.cons_prefix_cons.mp hp
      obtain ⟨t, ht, hu⟩ := Option.bind_eq_some_iff.mp hu
      exact h t ht p u hp' hu

theorem Always.start {P : σ → Prop} {s : σ} {ls : List ι} (h : Always step P s ls) : P s :=
  h [] s List.nil_prefix rfl

theorem Always.last {P : σ → Prop} {s t : σ} {ls : List ι} (h : Always step P s ls)
    (ht : exec step s ls = some t) : P t :=
  h ls t (List.prefix_refl ls) ht

theorem Always.mono {P Q : σ → Prop} (hPQ : ∀ s, P s → Q s) {s : σ} {ls : List ι}
    (h : Always step P s ls) : Always step Q s ls :=
  fun p t hp ht => hPQ t (h p t hp ht)

/-- A run is found by running. -/
theorem exec_of_any {P : σ → Prop} [DecidablePred P] {s : σ} {ls : List ι}
    (h : (exec step s ls).any (fun t => P t) = true) : ∃ t, exec step s ls = some t ∧ P t := by
  obtain ⟨t, ht, hP⟩ := (Option.any_eq_true _ _).mp h
  exact ⟨t, ht, of_decide_eq_true hP⟩

/-- Refute `Always` by running to a bad state. -/
theorem not_always_of_exec {P : σ → Prop} [DecidablePred P] {s : σ} {ls : List ι}
    (h : (exec step s ls).any (fun t => !decide (P t)) = true) : ¬ Always step P s ls := by
  intro hP
  obtain ⟨t, ht, hbad⟩ := exec_of_any (P := fun t => ¬ P t) (by simpa using h)
  exact hbad (hP.last ht)

theorem eachStep_nil {R : σ → ι → σ → Prop} {s : σ} : EachStep step R s [] := by
  intro p l t u hp
  exact absurd (List.prefix_nil.mp hp) (by simp)

theorem eachStep_cons {R : σ → ι → σ → Prop} {s : σ} {l : ι} {ls : List ι} :
    EachStep step R s (l :: ls) ↔ ∀ t, step s l = some t → R s l t ∧ EachStep step R t ls := by
  constructor
  · intro h t ht
    refine ⟨h [] l s t (by simp) rfl ht, fun p l' u v hp hu hv => ?_⟩
    exact h (l :: p) l' u v (List.cons_prefix_cons.mpr ⟨rfl, hp⟩)
      ((exec_cons_some ht p).trans hu) hv
  · intro h p l' u v hp hu hv
    cases p with
    | nil =>
      obtain ⟨rfl, -⟩ := List.cons_prefix_cons.mp hp
      cases hu
      exact (h v hv).1
    | cons l'' p =>
      obtain ⟨rfl, hp'⟩ := List.cons_prefix_cons.mp hp
      obtain ⟨t, ht, hu⟩ := Option.bind_eq_some_iff.mp hu
      exact (h t ht).2 p l' u v hp' hu hv

theorem EachStep.mono {R R' : σ → ι → σ → Prop} (hR : ∀ s l t, R s l t → R' s l t) {s : σ}
    {ls : List ι} (h : EachStep step R s ls) : EachStep step R' s ls :=
  fun p l t u hp ht hu => hR t l u (h p l t u hp ht hu)

theorem EachStep.and {R R' : σ → ι → σ → Prop} {s : σ} {ls : List ι} (h : EachStep step R s ls)
    (h' : EachStep step R' s ls) : EachStep step (fun s l t => R s l t ∧ R' s l t) s ls :=
  fun p l t u hp ht hu => ⟨h p l t u hp ht hu, h' p l t u hp ht hu⟩

theorem EachStep.take {R : σ → ι → σ → Prop} {s : σ} {p ls : List ι} (hp : p <+: ls)
    (h : EachStep step R s ls) : EachStep step R s p :=
  fun q l t u hq ht hu => h q l t u (hq.trans hp) ht hu

/-- Refute `EachStep` by running up to a bad step. -/
theorem not_eachStep_of_exec {R : σ → ι → σ → Prop} [∀ s l t, Decidable (R s l t)] {s : σ}
    {p : List ι} {l : ι} (h : ((exec step s p).any fun t =>
      (step t l).any fun u => !decide (R t l u)) = true) : ¬ EachStep step R s (p ++ [l]) := by
  intro hR
  obtain ⟨t, ht, h⟩ := (Option.any_eq_true _ _).mp h
  obtain ⟨u, hu, hbad⟩ := (Option.any_eq_true _ _).mp h
  simp [hR p l t u (List.prefix_refl _) ht hu] at hbad

/-- `q` holds of every step that the run takes. -/
def checkSteps (step : σ → ι → Option σ) (q : σ → ι → Bool) : σ → List ι → Bool
  | _, [] => true
  | s, l :: ls => q s l && (step s l).all fun t => checkSteps step q t ls

/-- Establish `EachStep` by running. -/
theorem eachStep_of_check {R : σ → ι → σ → Prop} {q : σ → ι → Bool}
    (hq : ∀ s l t, q s l = true → R s l t) {s : σ} {ls : List ι} (h : checkSteps step q s ls = true) :
    EachStep step R s ls := by
  induction ls generalizing s with
  | nil => exact eachStep_nil
  | cons l ls ih =>
    obtain ⟨hl, h⟩ := (Bool.and_eq_true_iff ..).mp h
    refine eachStep_cons.mpr fun t ht => ⟨hq s l t hl, ih ?_⟩
    rw [ht] at h
    exact h

/-- A condition on the labels alone. -/
theorem eachStep_of_labels {D : ι → Prop} {s : σ} {ls : List ι} (h : ∀ l ∈ ls, D l) :
    EachStep step (fun _ l _ => D l) s ls :=
  fun _ l _ _ hp _ _ => h l (hp.subset (by simp))

theorem eachStep_labels_iff {D : ι → Prop} {s t : σ} {ls : List ι} (h : exec step s ls = some t) :
    EachStep step (fun _ l _ => D l) s ls ↔ ∀ l ∈ ls, D l := by
  refine ⟨fun hD => ?_, eachStep_of_labels⟩
  induction ls generalizing s with
  | nil => exact fun _ hl => absurd hl List.not_mem_nil
  | cons l ls ih =>
    obtain ⟨u, hu, h⟩ := Option.bind_eq_some_iff.mp h
    obtain ⟨hl, hD⟩ := eachStep_cons.mp hD u hu
    exact List.forall_mem_cons.mpr ⟨hl, ih h hD⟩

/-- **Guarded runs.**  An invariant that every step in `R` keeps holds all along a run whose steps
are in `R`. -/
theorem always_of_eachStep {I : σ → Prop} {R : σ → ι → σ → Prop}
    (keep : ∀ s l t, I s → R s l t → step s l = some t → I t) {s : σ} {ls : List ι} (h0 : I s)
    (h : EachStep step R s ls) : Always step I s ls := by
  induction ls generalizing s with
  | nil => exact always_nil.mpr h0
  | cons l ls ih =>
    refine always_cons.mpr ⟨h0, fun t ht => ?_⟩
    obtain ⟨hR, h⟩ := eachStep_cons.mp h t ht
    exact ih (keep s l t h0 hR ht) h

/-- **Exact guards.**  Along a run whose steps are in `D`: when steps in `R` keep the invariant `I`, `I`
implies `P`, and a step that leads to `P` is in `R`, then `P` holds in every state exactly when every
step is in `R`. -/
theorem always_iff_eachStep_on {I P : σ → Prop} {D R : σ → ι → σ → Prop} (hP : ∀ s, I s → P s)
    (keep : ∀ s l t, I s → D s l t → R s l t → step s l = some t → I t)
    (leave : ∀ s l t, I s → D s l t → step s l = some t → P t → R s l t) {s : σ} {ls : List ι}
    (h0 : I s) (hD : EachStep step D s ls) : Always step P s ls ↔ EachStep step R s ls := by
  constructor
  · intro h
    induction ls generalizing s with
    | nil => exact eachStep_nil
    | cons l ls ih =>
      refine eachStep_cons.mpr fun t ht => ?_
      have ht' := (always_cons.mp h).2 t ht
      obtain ⟨hDl, hD⟩ := eachStep_cons.mp hD t ht
      have hR := leave s l t h0 hDl ht ht'.start
      exact ⟨hR, ih (keep s l t h0 hDl hR ht) hD ht'⟩
  · intro h
    exact (always_of_eachStep (fun s l t hI hR => keep s l t hI hR.1 hR.2) h0 (hD.and h)).mono hP

theorem always_iff_eachStep {I P : σ → Prop} {R : σ → ι → σ → Prop} (hP : ∀ s, I s → P s)
    (keep : ∀ s l t, I s → R s l t → step s l = some t → I t)
    (leave : ∀ s l t, I s → step s l = some t → P t → R s l t) {s : σ} {ls : List ι} (h0 : I s) :
    Always step P s ls ↔ EachStep step R s ls :=
  always_iff_eachStep_on (D := fun _ _ _ => True) hP (fun s l t hI _ => keep s l t hI)
    (fun s l t hI _ => leave s l t hI) h0 fun _ _ _ _ _ _ _ => trivial

/-! ### Projections and outputs -/

/-- A map that commutes with the steps carries runs over. -/
theorem exec_map {step' : τ → ι → Option τ} {f : τ → σ}
    (hf : ∀ s l t, step' s l = some t → step (f s) l = some (f t)) {s t : τ} {ls : List ι}
    (h : exec step' s ls = some t) : exec step (f s) ls = some (f t) := by
  induction ls generalizing s with
  | nil => cases h; rfl
  | cons l ls ih =>
    obtain ⟨u, hu, h⟩ := Option.bind_eq_some_iff.mp h
    rw [exec_cons_some (hf s l u hu)]
    exact ih h

/-- Lockstep: a relation kept by equally labelled steps relates the ends of equally labelled runs. -/
theorem exec_lockstep {R : σ → σ → Prop} {D : ι → Prop}
    (hR : ∀ s s' l t t', D l → R s s' → step s l = some t → step s' l = some t' → R t t')
    {s s' t t' : σ} {ls : List ι} (hD : ∀ l ∈ ls, D l) (h0 : R s s')
    (h : exec step s ls = some t) (h' : exec step s' ls = some t') : R t t' := by
  induction ls generalizing s s' with
  | nil => cases h; cases h'; exact h0
  | cons l ls ih =>
    obtain ⟨u, hu, h⟩ := Option.bind_eq_some_iff.mp h
    obtain ⟨u', hu', h'⟩ := Option.bind_eq_some_iff.mp h'
    exact ih (fun l' hl' => hD l' (List.mem_cons_of_mem l hl'))
      (hR s s' l u u' (hD l List.mem_cons_self) h0 hu hu') h h'

/-- The steps of a system with notes taken beside its state; `note` sees the state before the step. -/
def annotated (step : σ → ι → Option σ) (note : σ → ι → γ → γ) : σ × γ → ι → Option (σ × γ) :=
  fun s l => (step s.1 l).map fun t => (t, note s.1 l s.2)

theorem annotated_eq_some {note : σ → ι → γ → γ} {s t : σ × γ} {l : ι} :
    annotated step note s l = some t ↔ step s.1 l = some t.1 ∧ t.2 = note s.1 l s.2 := by
  obtain ⟨t, g⟩ := t
  simp only [annotated, Option.map_eq_some_iff, Prod.mk.injEq]
  constructor
  · rintro ⟨u, h, rfl, rfl⟩
    exact ⟨h, rfl⟩
  · rintro ⟨h, rfl⟩
    exact ⟨t, h, rfl, rfl⟩

/-- Notes do not change what the system does. -/
theorem exec_annotated_iff {note : σ → ι → γ → γ} {s : σ × γ} {t : σ} {ls : List ι} :
    (∃ g, exec (annotated step note) s ls = some (t, g)) ↔ exec step s.1 ls = some t := by
  constructor
  · rintro ⟨g, h⟩
    exact exec_map (f := Prod.fst) (fun _ _ _ hl => (annotated_eq_some.mp hl).1) h
  · intro h
    induction ls generalizing s with
    | nil => cases h; exact ⟨s.2, rfl⟩
    | cons l ls ih =>
      obtain ⟨u, hu, h⟩ := Option.bind_eq_some_iff.mp h
      have hl : annotated step note s l = some (u, note s.1 l s.2) :=
        annotated_eq_some.mpr ⟨hu, rfl⟩
      rw [exec_cons_some hl]
      exact ih h

/-- The steps of a system with outputs, the outputs left out. -/
def silent (out : σ → ι → Option (σ × List ο)) : σ → ι → Option σ := fun s l => (out s l).map Prod.fst

/-- The steps of a system with outputs, the outputs collected beside the state. -/
def logged (out : σ → ι → Option (σ × List ο)) : σ × List ο → ι → Option (σ × List ο) :=
  fun s l => (out s.1 l).map fun r => (r.1, s.2 ++ r.2)

theorem silent_eq_some {out : σ → ι → Option (σ × List ο)} {s t : σ} {l : ι} :
    silent out s l = some t ↔ ∃ os, out s l = some (t, os) := by
  simp [silent]

theorem logged_eq_some {out : σ → ι → Option (σ × List ο)} {s t : σ × List ο} {l : ι} :
    logged out s l = some t ↔ ∃ os, out s.1 l = some (t.1, os) ∧ t.2 = s.2 ++ os := by
  obtain ⟨t, log⟩ := t
  simp only [logged, Option.map_eq_some_iff, Prod.mk.injEq, Prod.exists]
  constructor
  · rintro ⟨u, os, h, rfl, rfl⟩
    exact ⟨os, h, rfl⟩
  · rintro ⟨os, h, rfl⟩
    exact ⟨t, os, h, rfl, rfl⟩

theorem exec_logged_cons {out : σ → ι → Option (σ × List ο)} {s t : σ} {log log' : List ο} {l : ι}
    {ls : List ι} : exec (logged out) (s, log) (l :: ls) = some (t, log') ↔
      ∃ u os, out s l = some (u, os) ∧ exec (logged out) (u, log ++ os) ls = some (t, log') := by
  rw [exec_cons, Option.bind_eq_some_iff]
  constructor
  · rintro ⟨⟨u, log₁⟩, hl, h⟩
    obtain ⟨os, hl, rfl⟩ := logged_eq_some.mp hl
    exact ⟨u, os, hl, h⟩
  · rintro ⟨u, os, hl, h⟩
    exact ⟨(u, log ++ os), logged_eq_some.mpr ⟨os, hl, rfl⟩, h⟩

theorem exec_silent_of_logged {out : σ → ι → Option (σ × List ο)} {s t : σ × List ο} {ls : List ι}
    (h : exec (logged out) s ls = some t) : exec (silent out) s.1 ls = some t.1 :=
  exec_map (f := Prod.fst) (fun _ _ _ hl => by
    obtain ⟨os, h, -⟩ := logged_eq_some.mp hl
    exact silent_eq_some.mpr ⟨os, h⟩) h

/-- What `f` picks from the outputs of a run, when each step outputs what `g` reads from its label. -/
theorem exec_logged_filterMap {out : σ → ι → Option (σ × List ο)} {f : ο → Option γ} {g : ι → Option γ}
    (hout : ∀ s l t os, out s l = some (t, os) → os.filterMap f = (g l).toList) {s t : σ}
    {log log' : List ο} {ls : List ι} (h : exec (logged out) (s, log) ls = some (t, log')) :
    log'.filterMap f = log.filterMap f ++ ls.filterMap g := by
  induction ls generalizing s log with
  | nil =>
    cases h
    rw [List.filterMap_nil, List.append_nil]
  | cons l ls ih =>
    obtain ⟨u, os, hl, h⟩ := exec_logged_cons.mp h
    rw [ih h, List.filterMap_append, hout s l u os hl, List.append_assoc]
    cases hg : g l with
    | none => rw [List.filterMap_cons_none hg, Option.toList_none, List.nil_append]
    | some c => rw [List.filterMap_cons_some hg, Option.toList_some, List.singleton_append]

/-- A component that each step overwrites with what `g` reads from its label, or keeps. -/
theorem exec_getLast? {v : σ → Option γ} {g : ι → Option γ}
    (hv : ∀ s l t, step s l = some t → v t = (g l).or (v s)) {s t : σ} {ls : List ι}
    (h : exec step s ls = some t) : v t = (ls.filterMap g).getLast?.or (v s) := by
  induction ls generalizing s with
  | nil => cases h; rfl
  | cons l ls ih =>
    obtain ⟨u, hu, h⟩ := Option.bind_eq_some_iff.mp h
    rw [ih h, hv s l u hu]
    cases hg : g l with
    | none => rw [List.filterMap_cons_none hg, Option.none_or]
    | some c =>
      rw [List.filterMap_cons_some hg, List.getLast?_cons, Option.some_or]
      cases (ls.filterMap g).getLast? with
      | none => rfl
      | some last => rfl

end Runs
