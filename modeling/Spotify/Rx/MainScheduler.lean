import Mathlib.Data.List.Nodup
import Spotify.Lib.Runs

/-!
# Spotify.Rx.MainScheduler — `MainScheduler.instance`, from any number of threads

`scheduleInternal` raises a counter and then either runs the action at once (on the main thread, when the
counter was 0) or hands it to the main queue; another thread may get in between.  So a call is in two
steps, `schedule` up to the test and `enqueue`, and an action is in two, `begin` and `finish`.  Actions may
call the scheduler again while they run; `running` is the stack of those that have begun.  The outputs
of a step are the actions it begins.

The disposable that `scheduleInternal` returns is left out: `observe(on:)` throws it away.
-/

namespace Spotify

inductive Thread where
  | main
  | background (id : ℕ)
  deriving DecidableEq

/-- The scheduler with the main queue; an action is known by its state and the thread that scheduled it. -/
structure MainScheduler (α : Type) where
  numberEnqueued : Int
  /-- between the increment and `mainQueue.async` -/
  entering : List (Thread × α)
  mainQueue : List (Thread × α)
  running : List (Thread × α)
  deriving DecidableEq

inductive SchedulerLabel (α : Type) where
  | schedule (thread : Thread) (state : α)
  | enqueue (thread : Thread)
  /-- the main thread takes the first action of its queue -/
  | begin
  /-- the action that began last returns -/
  | finish
  deriving DecidableEq

namespace MainScheduler

variable {α : Type}

def launch : MainScheduler α := ⟨0, [], [], []⟩

/-- A thread that is inside a call makes no other one. -/
def isEntering (s : MainScheduler α) (thread : Thread) : Bool := s.entering.any fun x => x.1 = thread

/-- `scheduleInternal` up to the test. -/
def scheduleInternal (thread : Thread) (state : α) (s : MainScheduler α) :
    MainScheduler α × List (Thread × α) :=
  let previousNumberEnqueued := s.numberEnqueued
  let s := { s with numberEnqueued := s.numberEnqueued + 1 }
  if thread = .main ∧ previousNumberEnqueued = 0 then
    ({ s with running := (thread, state) :: s.running }, [(thread, state)])
  else ({ s with entering := s.entering ++ [(thread, state)] }, [])

/-- One step, with the actions it begins; the counter is an `Int32`, which traps when it overflows. -/
def step (s : MainScheduler α) : SchedulerLabel α → Option (MainScheduler α × List (Thread × α))
  | .schedule thread state =>
    if s.isEntering thread = false ∧ s.numberEnqueued + 1 < 2147483648 then
      some (s.scheduleInternal thread state)
    else none
  | .enqueue thread =>
    match s.entering.find? fun x => x.1 = thread with
    | none => none
    | some x => some ({ s with
        entering := s.entering.filter fun x => x.1 ≠ thread
        mainQueue := s.mainQueue ++ [x] }, [])
  | .begin =>
    match s.mainQueue with
    | [] => none
    | x :: queue =>
      if s.isEntering .main = false ∧ s.running = [] then
        some ({ s with mainQueue := queue, running := [x] }, [x])
      else none
  | .finish =>
    match s.running with
    | [] => none
    | _ :: running =>
      if s.isEntering .main = false then
        some ({ s with running := running, numberEnqueued := s.numberEnqueued - 1 }, [])
      else none

/-! ### What a step can do -/

/-- The effects of a step, one constructor for each kind. -/
inductive Effect (s : MainScheduler α) :
    SchedulerLabel α → MainScheduler α → List (Thread × α) → Prop
  | direct (state : α) (he : s.isEntering .main = false) (hn : s.numberEnqueued = 0) :
      Effect s (.schedule .main state)
        { s with numberEnqueued := s.numberEnqueued + 1, running := (.main, state) :: s.running }
        [(.main, state)]
  | entered (thread : Thread) (state : α) (he : s.isEntering thread = false)
      (hn : thread = .main → s.numberEnqueued ≠ 0) :
      Effect s (.schedule thread state)
        { s with
          numberEnqueued := s.numberEnqueued + 1
          entering := s.entering ++ [(thread, state)] } []
  | enqueued (x : Thread × α) (hx : x ∈ s.entering) :
      Effect s (.enqueue x.1)
        { s with
          entering := s.entering.filter fun y => y.1 ≠ x.1
          mainQueue := s.mainQueue ++ [x] } []
  | begun (x : Thread × α) (queue : List (Thread × α)) (hq : s.mainQueue = x :: queue)
      (hr : s.running = []) : Effect s .begin { s with mainQueue := queue, running := [x] } [x]
  | finished (x : Thread × α) (running : List (Thread × α)) (hr : s.running = x :: running) :
      Effect s .finish { s with running := running, numberEnqueued := s.numberEnqueued - 1 } []

variable {s s' : MainScheduler α}

/-- **What a step can do.** -/
theorem step_effect {l : SchedulerLabel α} {out : List (Thread × α)} (h : s.step l = some (s', out)) :
    Effect s l s' out := by
  cases l with
  | schedule thread state =>
    simp only [step, scheduleInternal] at h
    split_ifs at h with hen hmain
    · obtain ⟨rfl, hn⟩ := hmain
      cases h
      exact .direct state hen.1 hn
    · cases h
      exact .entered thread state hen.1 fun hm hn => hmain ⟨hm, hn⟩
  | enqueue thread =>
    simp only [step] at h
    cases hx : s.entering.find? fun x => x.1 = thread with
    | none => rw [hx] at h; cases h
    | some x =>
      rw [hx] at h
      have hthread : x.1 = thread := by simpa using List.find?_some hx
      subst hthread
      cases h
      exact .enqueued x (List.mem_of_find?_eq_some hx)
  | begin =>
    simp only [step] at h
    cases hq : s.mainQueue with
    | nil => rw [hq] at h; cases h
    | cons x queue =>
      rw [hq] at h
      simp only at h
      split_ifs at h with hen
      cases h
      exact .begun x queue hq hen.2
  | finish =>
    simp only [step] at h
    cases hr : s.running with
    | nil => rw [hr] at h; cases h
    | cons x running =>
      rw [hr] at h
      simp only at h
      split_ifs at h with hen
      cases h
      exact .finished x running hr

/-! ### Where an action waits -/

/-- What one thread scheduled, from a list of actions. -/
def ofThread (thread : Thread) (xs : List (Thread × α)) : List α :=
  xs.filterMap fun x => if x.1 = thread then some x.2 else none

/-- What a thread schedules in a run. -/
def sentBy (thread : Thread) (ls : List (SchedulerLabel α)) : List α :=
  ls.filterMap fun
    | .schedule thread' state => if thread' = thread then some state else none
    | _ => none

/-- The actions of a thread that have not begun, oldest first. -/
def waiting (s : MainScheduler α) (thread : Thread) : List α :=
  ofThread thread s.mainQueue ++ ofThread thread s.entering

/-- The counter counts the actions that have not returned, a thread is inside one call at most, and
actions do not nest. -/
structure Sound (s : MainScheduler α) : Prop where
  counter : s.numberEnqueued = s.entering.length + s.mainQueue.length + s.running.length
  nodup : (s.entering.map Prod.fst).Nodup
  alone : s.running.length ≤ 1

@[simp] theorem ofThread_nil (thread : Thread) : ofThread thread ([] : List (Thread × α)) = [] := rfl

theorem ofThread_append (thread : Thread) (xs ys : List (Thread × α)) :
    ofThread thread (xs ++ ys) = ofThread thread xs ++ ofThread thread ys := List.filterMap_append

theorem ofThread_cons (thread : Thread) (x : Thread × α) (xs : List (Thread × α)) :
    ofThread thread (x :: xs) = ofThread thread [x] ++ ofThread thread xs :=
  ofThread_append thread [x] xs

theorem sentBy_cons (thread : Thread) (l : SchedulerLabel α) (ls : List (SchedulerLabel α)) :
    sentBy thread (l :: ls) = sentBy thread [l] ++ sentBy thread ls := by
  rw [sentBy, sentBy, sentBy, ← List.filterMap_append, List.singleton_append]

/-- Among calls of different threads, taking one out. -/
theorem perm_others {xs : List (Thread × α)} (hnd : (xs.map Prod.fst).Nodup) {x : Thread × α}
    (hx : x ∈ xs) : xs.Perm (x :: xs.filter fun y => y.1 ≠ x.1) := by
  induction xs with
  | nil => cases hx
  | cons y ys ih =>
    obtain ⟨hy, hnd⟩ := List.nodup_cons.mp hnd
    rcases List.mem_cons.mp hx with rfl | hx
    · have hkeep : ys.filter (fun y => y.1 ≠ x.1) = ys := by
        refine List.filter_eq_self.mpr fun z hz => ?_
        have hne : z.1 ≠ x.1 := fun h => hy (h ▸ List.mem_map_of_mem hz)
        simpa using hne
      rw [List.filter_cons_of_neg (by simp), hkeep]
    · have hne : y.1 ≠ x.1 := fun h => hy (h ▸ List.mem_map_of_mem hx)
      rw [List.filter_cons_of_pos (by simpa using hne)]
      exact ((ih hnd hx).cons y).trans (List.Perm.swap x y _)

theorem ofThread_others (thread : Thread) (x : Thread × α) (xs : List (Thread × α)) :
    ofThread thread (xs.filter fun y => y.1 ≠ x.1) =
      if x.1 = thread then [] else ofThread thread xs := by
  unfold ofThread
  rw [List.filterMap_filter]
  split_ifs with h
  · refine List.filterMap_eq_nil_iff.mpr fun y _ => ?_
    by_cases hy : y.1 = x.1 <;> simp [hy, ← h]
  · refine List.filterMap_congr fun y _ => ?_
    by_cases hy : y.1 = x.1
    · simp [hy, h]
    · simp [hy]

/-- The call of a thread that is inside one. -/
theorem ofThread_of_mem {xs : List (Thread × α)} (hnd : (xs.map Prod.fst).Nodup) {x : Thread × α}
    (hx : x ∈ xs) : ofThread x.1 xs = [x.2] := by
  have hp : (ofThread x.1 xs).Perm (ofThread x.1 (x :: xs.filter fun y => y.1 ≠ x.1)) :=
    (perm_others hnd hx).filterMap _
  rw [ofThread_cons, ofThread_others, if_pos rfl, List.append_nil] at hp
  have hone : ofThread x.1 [x] = [x.2] := by simp [ofThread]
  rw [hone] at hp
  exact List.perm_singleton.mp hp

theorem sound_launch : Sound (launch : MainScheduler α) := ⟨rfl, List.nodup_nil, Nat.zero_le 1⟩

/-- While the counter is 0, nothing waits and nothing runs. -/
theorem Sound.idle (h : Sound s) (hn : s.numberEnqueued = 0) :
    s.entering = [] ∧ s.mainQueue = [] ∧ s.running = [] := by
  have hc := h.counter
  refine ⟨List.eq_nil_of_length_eq_zero ?_, List.eq_nil_of_length_eq_zero ?_,
    List.eq_nil_of_length_eq_zero ?_⟩ <;> omega

theorem Sound.step (h : Sound s) {l : SchedulerLabel α} {out : List (Thread × α)}
    (hl : s.step l = some (s', out)) : Sound s' := by
  have hc := h.counter
  cases step_effect hl with
  | direct state he hn =>
    obtain ⟨hen, hq, hr⟩ := h.idle hn
    refine ⟨?_, h.nodup, ?_⟩
    · simp only [List.length_cons]
      omega
    · simp [hr]
  | entered thread state he hn =>
    refine ⟨?_, ?_, h.alone⟩
    · simp only [List.length_append, List.length_cons, List.length_nil]
      omega
    · have hnot : thread ∉ s.entering.map Prod.fst := by
        intro hin
        obtain ⟨y, hy, hthread⟩ := List.mem_map.mp hin
        have hyes : s.isEntering thread = true := List.any_eq_true.mpr ⟨y, hy, by simpa using hthread⟩
        rw [he] at hyes
        cases hyes
      rw [List.map_append]
      refine List.nodup_append.mpr ⟨h.nodup, List.nodup_singleton thread, fun a ha b hb hab => ?_⟩
      rw [hab, List.mem_singleton.mp hb] at ha
      exact hnot ha
  | enqueued x hx =>
    have hlen := (perm_others h.nodup hx).length_eq
    refine ⟨?_, h.nodup.sublist (List.filter_sublist.map Prod.fst), h.alone⟩
    simp only [List.length_append, List.length_cons, List.length_nil] at hlen ⊢
    omega
  | begun x queue hq hr =>
    refine ⟨?_, h.nodup, Nat.le_refl 1⟩
    rw [hq, hr] at hc
    simp only [List.length_cons, List.length_nil] at hc ⊢
    omega
  | finished x running hr =>
    have halone := h.alone
    rw [hr] at hc halone
    simp only [List.length_cons] at hc halone
    refine ⟨?_, h.nodup, ?_⟩
    · simp only
      omega
    · simp only
      omega

/-- One step: what a thread has waiting is what it had and sent, less what begins. -/
theorem Sound.waiting_step (h : Sound s) {l : SchedulerLabel α} {out : List (Thread × α)}
    (hl : s.step l = some (s', out)) (thread : Thread) :
    ofThread thread out ++ s'.waiting thread = s.waiting thread ++ sentBy thread [l] := by
  unfold waiting
  cases step_effect hl with
  | direct state he hn =>
    obtain ⟨hen, hq, -⟩ := h.idle hn
    rw [hen, hq, ofThread_nil, List.append_nil, List.append_nil, List.nil_append]
    rfl
  | entered thread' state he hn =>
    rw [ofThread_append, ofThread_nil, List.nil_append, List.append_assoc]
    rfl
  | enqueued x hx =>
    have hno : sentBy thread [SchedulerLabel.enqueue x.1] = ([] : List α) := rfl
    rw [hno, ofThread_nil, List.nil_append, List.append_nil, ofThread_append, ofThread_others,
      List.append_assoc]
    split_ifs with hthread
    · subst hthread
      have hone : ofThread x.1 [x] = [x.2] := by simp [ofThread]
      rw [ofThread_of_mem h.nodup hx, hone, List.append_nil]
    · have hnone : ofThread thread [x] = [] := by simp [ofThread, hthread]
      rw [hnone, List.nil_append]
  | begun x queue hq hr =>
    have hno : sentBy thread [SchedulerLabel.begin] = ([] : List α) := rfl
    rw [hno, List.append_nil, hq, ofThread_cons thread x queue, List.append_assoc]
  | finished x running hr =>
    rw [ofThread_nil, List.nil_append]
    exact (List.append_nil _).symm

/-- One step: the actions that began and those in the queue keep their order. -/
theorem Sound.committed_step (h : Sound s) {l : SchedulerLabel α} {out : List (Thread × α)}
    (hl : s.step l = some (s', out)) : s.mainQueue <+: out ++ s'.mainQueue := by
  cases step_effect hl with
  | direct state he hn =>
    obtain ⟨-, hq, -⟩ := h.idle hn
    rw [hq]
    exact List.nil_prefix
  | entered | finished => exact List.prefix_refl _
  | enqueued x hx => exact List.prefix_append _ _
  | begun x queue hq hr =>
    rw [hq]
    exact List.prefix_refl _

/-! ### Runs -/

/-- The label is a new call. -/
def sends : SchedulerLabel α → Bool
  | .schedule _ _ => true
  | _ => false

/-- How many steps the actions that have not returned still take. -/
def remaining (s : MainScheduler α) : ℕ :=
  3 * s.entering.length + 2 * s.mainQueue.length + s.running.length

theorem Sound.remaining_step (h : Sound s) {l : SchedulerLabel α} {out : List (Thread × α)}
    (hno : sends l = false) (hl : s.step l = some (s', out)) : s'.remaining < s.remaining := by
  unfold remaining
  cases step_effect hl with
  | direct | entered => cases hno
  | enqueued x hx =>
    have hlen := (perm_others h.nodup hx).length_eq
    simp only [List.length_append, List.length_cons, List.length_nil] at hlen ⊢
    omega
  | begun x queue hq hr =>
    rw [hq, hr]
    simp only [List.length_cons, List.length_nil]
    omega
  | finished x running hr =>
    rw [hr]
    simp only [List.length_cons]
    omega

/-- While something waits or runs, the scheduler can go on by itself. -/
theorem exists_step (hne : s.remaining ≠ 0) : ∃ l, sends l = false ∧ s.step l ≠ none := by
  cases hen : s.entering with
  | cons x xs =>
    refine ⟨.enqueue x.1, rfl, ?_⟩
    simp [step, hen]
  | nil =>
    have hfree : s.isEntering .main = false := by rw [isEntering, hen]; rfl
    cases hr : s.running with
    | cons x xs =>
      refine ⟨.finish, rfl, ?_⟩
      simp [step, hr, hfree]
    | nil =>
      cases hq : s.mainQueue with
      | cons x xs =>
        refine ⟨.begin, rfl, ?_⟩
        simp [step, hq, hr, hfree]
      | nil =>
        have hzero : s.remaining = 0 := by rw [remaining, hen, hr, hq]; rfl
        exact absurd hzero hne

theorem Sound.exec {log log' : List (Thread × α)} {ls : List (SchedulerLabel α)} (h : Sound s)
    (hls : Runs.exec (Runs.logged MainScheduler.step) (s, log) ls = some (s', log')) : Sound s' := by
  induction ls generalizing s log with
  | nil => cases hls; exact h
  | cons l ls ih =>
    obtain ⟨u, out, hl, hls⟩ := Runs.exec_logged_cons.mp hls
    exact ih (h.step hl) hls

/-- A whole run: what a thread has waiting is what it had and sent, less what began. -/
theorem Sound.waiting_exec {log log' : List (Thread × α)} {ls : List (SchedulerLabel α)} (h : Sound s)
    (hls : Runs.exec (Runs.logged MainScheduler.step) (s, log) ls = some (s', log')) (thread : Thread) :
    ofThread thread log' ++ s'.waiting thread =
      ofThread thread log ++ s.waiting thread ++ sentBy thread ls := by
  induction ls generalizing s log with
  | nil =>
    cases hls
    exact (List.append_nil _).symm
  | cons l ls ih =>
    obtain ⟨u, out, hl, hls⟩ := Runs.exec_logged_cons.mp hls
    calc ofThread thread log' ++ s'.waiting thread
        = ofThread thread (log ++ out) ++ u.waiting thread ++ sentBy thread ls := ih (h.step hl) hls
      _ = ofThread thread log ++ (ofThread thread out ++ u.waiting thread) ++ sentBy thread ls := by
          rw [ofThread_append, List.append_assoc (ofThread thread log)]
      _ = ofThread thread log ++ (s.waiting thread ++ sentBy thread [l]) ++ sentBy thread ls := by
          rw [h.waiting_step hl thread]
      _ = ofThread thread log ++ s.waiting thread ++ sentBy thread (l :: ls) := by
          rw [sentBy_cons thread l ls]
          simp only [List.append_assoc]

theorem Sound.committed_exec {log log' : List (Thread × α)} {ls : List (SchedulerLabel α)} (h : Sound s)
    (hls : Runs.exec (Runs.logged MainScheduler.step) (s, log) ls = some (s', log')) :
    log ++ s.mainQueue <+: log' ++ s'.mainQueue := by
  induction ls generalizing s log with
  | nil => cases hls; exact List.prefix_refl _
  | cons l ls ih =>
    obtain ⟨u, out, hl, hls⟩ := Runs.exec_logged_cons.mp hls
    have hstep : log ++ s.mainQueue <+: log ++ (out ++ u.mainQueue) :=
      List.prefix_append_right_inj log |>.mpr (h.committed_step hl)
    rw [← List.append_assoc] at hstep
    exact hstep.trans (ih (h.step hl) hls)

theorem Sound.length_exec {log log' : List (Thread × α)} {ls : List (SchedulerLabel α)} (h : Sound s)
    (hno : ∀ l ∈ ls, sends l = false)
    (hls : Runs.exec (Runs.logged MainScheduler.step) (s, log) ls = some (s', log')) :
    ls.length + s'.remaining ≤ s.remaining := by
  induction ls generalizing s log with
  | nil => cases hls; simp
  | cons l ls ih =>
    obtain ⟨hl0, hno⟩ := List.forall_mem_cons.mp hno
    obtain ⟨u, out, hl, hls⟩ := Runs.exec_logged_cons.mp hls
    have hstep := h.remaining_step hl0 hl
    have hrest := ih (h.step hl) hno hls
    rw [List.length_cons]
    omega

theorem sentBy_of_no_sends {ls : List (SchedulerLabel α)} (hno : ∀ l ∈ ls, sends l = false)
    (thread : Thread) : sentBy thread ls = [] := by
  refine List.filterMap_eq_nil_iff.mpr fun l hl => ?_
  have hl0 := hno l hl
  cases l with
  | schedule => cases hl0
  | enqueue | begin | finish => rfl

/-- **The main scheduler keeps the order.**  In every run, with calls from any number of threads in any
interleaving: the actions of one thread begin in the order of its calls, each once, and those that have
not begun wait; no action begins inside another; an action that waits in the queue is never overtaken.
Without new calls only so many steps are left, and when none is left every call's action has begun. -/
theorem scheduled_in_order (ls : List (SchedulerLabel α)) (s : MainScheduler α) (log : List (Thread × α))
    (h : Runs.exec (Runs.logged step) (launch, []) ls = some (s, log)) :
    (∀ thread, sentBy thread ls = ofThread thread log ++ s.waiting thread) ∧
    s.running.length ≤ 1 ∧
    (∀ p t log₀, p <+: ls → Runs.exec (Runs.logged step) (launch, []) p = some (t, log₀) →
      log₀ ++ t.mainQueue <+: log ++ s.mainQueue) ∧
    ∀ ls' s' log', (∀ l ∈ ls', sends l = false) →
      Runs.exec (Runs.logged step) (s, log) ls' = some (s', log') →
      ls'.length ≤ s.remaining ∧
      ((∀ l, sends l = false → s'.step l = none) → ∀ thread, ofThread thread log' = sentBy thread ls) := by
  have hs : Sound s := sound_launch.exec h
  have hwaiting : ∀ thread, sentBy thread ls = ofThread thread log ++ s.waiting thread :=
    fun thread => (sound_launch.waiting_exec h thread).symm
  refine ⟨hwaiting, hs.alone, ?_, ?_⟩
  · rintro p t log₀ ⟨q, rfl⟩ hp
    obtain ⟨u, hu, hq⟩ := Runs.exec_append_inv h
    obtain rfl : u = (t, log₀) := Option.some.inj (hu.symm.trans hp)
    exact (sound_launch.exec hp).committed_exec hq
  · intro ls' s' log' hno hls'
    have hlen := hs.length_exec hno hls'
    refine ⟨by omega, fun hstop thread => ?_⟩
    have hidle : s'.remaining = 0 := by
      by_contra hne
      obtain ⟨l, hl0, hl⟩ := exists_step hne
      exact hl (hstop l hl0)
    have hempty : s'.waiting thread = [] := by
      unfold remaining at hidle
      have hen : s'.entering = [] := List.eq_nil_of_length_eq_zero (by omega)
      have hq : s'.mainQueue = [] := List.eq_nil_of_length_eq_zero (by omega)
      rw [waiting, hen, hq]
      rfl
    have hend := hs.waiting_exec hls' thread
    rw [hempty, sentBy_of_no_sends hno, List.append_nil, List.append_nil] at hend
    rw [hend, hwaiting thread]

/-- While a background thread is between its two steps, the main thread goes ahead of it; its next action
does not begin inside the one that runs. -/
def twoThreads : List (SchedulerLabel ℕ) :=
  [.schedule (.background 0) 1, .schedule .main 2, .enqueue .main, .enqueue (.background 0), .begin,
    .schedule .main 3, .enqueue .main, .finish, .begin, .finish, .begin]

theorem twoThreads_order : ∃ s,
    Runs.exec (Runs.logged step) (launch, []) twoThreads =
      some (s, [(.main, 2), (.background 0, 1), (.main, 3)]) ∧
    sentBy .main twoThreads = ofThread .main [(.main, 2), (.background 0, 1), (.main, 3)] ++
      s.waiting .main := by
  have hrun : (Runs.exec (Runs.logged step) (launch, []) twoThreads).any (fun r =>
      r.2 = [(.main, 2), (.background 0, 1), (.main, 3)]) = true := by decide
  obtain ⟨⟨s, log⟩, hrun, rfl⟩ := Runs.exec_of_any hrun
  exact ⟨s, hrun, (scheduled_in_order twoThreads s _ hrun).1 .main⟩

end MainScheduler

end Spotify
