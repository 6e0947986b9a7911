import Spotify.Lib.Inbox
import Spotify.Lib.Refinement
import Spotify.Rx.MainScheduler

/-!
# Spotify.Rx.ObserveOn — `observe(on: MainScheduler.instance)` as an inbox

`ObserveOnSerialDispatchQueueSink` schedules an action for each event, and the action hands the event on.  Where
such calls and the actions are not interrupted, the scheduler does what an inbox does: an event of the main
thread is handled at once while nothing is queued, any other one waits its turn (`inbox_scheduled`).
-/

namespace Spotify.MainScheduler

variable {σ ε : Type} (deliver : σ → ε → σ)

/-- The calls of the scheduler behind a step of an inbox, each run to its end. -/
def calls (b : Inbox σ ε) : Inbox.Label σ ε → List (SchedulerLabel ε)
  | .observe true e => [.schedule .main e, if b.queue.isEmpty then .finish else .enqueue .main]
  | .observe false e => [.schedule (.background 0) e, .enqueue (.background 0)]
  | .take => [.begin, .finish]
  | .modify _ => []

/-- Between the calls: the queues are the same, and so are the events handled. -/
structure Serves (b : Inbox σ ε × List ε) (r : MainScheduler ε × List (Thread × ε)) : Prop where
  numberEnqueued : r.1.numberEnqueued = b.1.queue.length
  entering : r.1.entering = []
  queue : r.1.mainQueue.map Prod.snd = b.1.queue
  running : r.1.running = []
  log : r.2.map Prod.snd = b.2

variable {deliver} {b b' : Inbox σ ε} {es es' : List ε}

theorem serves_launch (state : σ) : Serves (⟨state, []⟩, ([] : List ε)) (launch, []) := ⟨rfl, rfl, rfl, rfl, rfl⟩

theorem step_schedule_main {e : ε} : (⟨0, [], [], []⟩ : MainScheduler ε).step (.schedule .main e) =
    some (⟨1, [], [], [(.main, e)]⟩, [(.main, e)]) := rfl

theorem step_schedule {thread : Thread} {e : ε} {n : Int} {queue : List (Thread × ε)}
    (hn : n + 1 < 2147483648) (hmain : thread = .main → n ≠ 0) :
    (⟨n, [], queue, []⟩ : MainScheduler ε).step (.schedule thread e) =
      some (⟨n + 1, [(thread, e)], queue, []⟩, []) := by
  have hno : ¬ (thread = .main ∧ n = 0) := fun h => hmain h.1 h.2
  simpa [step, scheduleInternal, isEntering, hno] using hn

theorem step_enqueue {thread : Thread} {e : ε} {n : Int} {queue : List (Thread × ε)} :
    (⟨n, [(thread, e)], queue, []⟩ : MainScheduler ε).step (.enqueue thread) =
      some (⟨n, [], queue ++ [(thread, e)], []⟩, []) := by
  simp [step]

theorem step_begin {x : Thread × ε} {n : Int} {queue : List (Thread × ε)} :
    (⟨n, [], x :: queue, []⟩ : MainScheduler ε).step .begin = some (⟨n, [], queue, [x]⟩, [x]) := by
  simp [step, isEntering]

theorem step_finish {x : Thread × ε} {n : Int} {queue : List (Thread × ε)} :
    (⟨n, [], queue, [x]⟩ : MainScheduler ε).step .finish = some (⟨n - 1, [], queue, []⟩, []) := by
  simp [step, isEntering]

/-- One step of the inbox, with room for one more action in the counter. -/
theorem Serves.step {r : MainScheduler ε × List (Thread × ε)} (h : Serves (b, es) r)
    (hb : b.queue.length + 1 < 2147483648) {l : Inbox.Label σ ε} {out : List ε}
    (hl : b.step deliver l = some (b', out)) :
    ∃ r', Runs.exec (Runs.logged MainScheduler.step) r (calls b l) = some r' ∧ Serves (b', es ++ out) r' := by
  obtain ⟨⟨n, entering, queue, running⟩, log⟩ := r
  obtain ⟨hn, rfl, hq, rfl, hlog⟩ := h
  obtain ⟨state, bq⟩ := b
  obtain rfl : queue.map Prod.snd = bq := hq
  obtain rfl : n = queue.length := by simpa using hn
  have hb' : (queue.length : Int) + 1 < 2147483648 := by
    simp only [List.length_map] at hb
    omega
  -- an event that cannot be handled at once
  have waits : ∀ thread e, (thread = .main → (queue.length : Int) ≠ 0) →
      Runs.exec (Runs.logged MainScheduler.step) (⟨queue.length, [], queue, []⟩, log)
        [.schedule thread e, .enqueue thread] =
          some (⟨queue.length + 1, [], queue ++ [(thread, e)], []⟩, log) := by
    intro thread e hmain
    refine Runs.exec_logged_cons.mpr ⟨_, _, step_schedule hb' hmain, ?_⟩
    refine Runs.exec_logged_cons.mpr ⟨_, _, step_enqueue, ?_⟩
    simp
  cases l with
  | observe atOnce e =>
    have queued : Serves (⟨state, queue.map Prod.snd ++ [e]⟩, es ++ ([] : List ε))
        (⟨queue.length + 1, [], queue ++ [((if atOnce then .main else .background 0 : Thread), e)], []⟩, log) := by
      refine ⟨?_, rfl, ?_, rfl, hlog.trans (List.append_nil _).symm⟩
      · simp
      · simp
    cases atOnce with
    | false =>
      obtain ⟨rfl, rfl⟩ := Prod.mk.inj (Option.some.inj hl)
      exact ⟨_, waits (.background 0) e (fun h => by cases h), queued⟩
    | true =>
      cases queue with
      | nil =>
        obtain ⟨rfl, rfl⟩ := Prod.mk.inj (Option.some.inj hl)
        refine ⟨(⟨0, [], [], []⟩, log ++ [(.main, e)]), ?_, rfl, rfl, rfl, rfl, ?_⟩
        · refine Runs.exec_logged_cons.mpr ⟨_, _, step_schedule_main, ?_⟩
          refine Runs.exec_logged_cons.mpr ⟨_, _, step_finish, ?_⟩
          rw [List.append_nil]
          rfl
        · rw [List.map_append, hlog]
          rfl
      | cons x queue =>
        obtain ⟨rfl, rfl⟩ := Prod.mk.inj (Option.some.inj hl)
        refine ⟨_, waits .main e (fun _ => ?_), queued⟩
        rw [List.length_cons]
        omega
  | take =>
    cases queue with
    | nil => cases hl
    | cons x queue =>
      obtain ⟨rfl, rfl⟩ := Prod.mk.inj (Option.some.inj hl)
      refine ⟨(⟨queue.length, [], queue, []⟩, log ++ [x]), ?_, ?_⟩
      · refine Runs.exec_logged_cons.mpr ⟨_, _, step_begin, ?_⟩
        refine Runs.exec_logged_cons.mpr ⟨_, _, step_finish, ?_⟩
        simp
      · refine ⟨?_, rfl, rfl, rfl, ?_⟩
        · simp
        · rw [List.map_append, hlog]
          rfl
  | modify f =>
    cases hl
    exact ⟨_, rfl, hn, rfl, rfl, rfl, hlog.trans (List.append_nil _).symm⟩

/-- A run of the inbox, with room for its events in the counter. -/
theorem Serves.exec {r : MainScheduler ε × List (Thread × ε)} {ls : List (Inbox.Label σ ε)}
    (h : Serves (b, es) r) (hb : b.queue.length + ls.length < 2147483648)
    (hls : Runs.exec (Runs.logged (Inbox.step deliver)) (b, es) ls = some (b', es')) :
    ∃ r', Runs.exec (Runs.logged MainScheduler.step) r
        (Runs.trace (Runs.logged (Inbox.step deliver)) (fun b => calls b.1) (b, es) ls) = some r' ∧
      Serves (b', es') r' := by
  induction ls generalizing b es r with
  | nil => cases hls; exact ⟨r, rfl, h⟩
  | cons l ls ih =>
    obtain ⟨u, out, hl, hls⟩ := Runs.exec_logged_cons.mp hls
    rw [List.length_cons] at hb
    obtain ⟨r₁, hr₁, h₁⟩ := h.step (by omega) hl
    have hu : u.queue.length ≤ b.queue.length + 1 := Inbox.length_step hl
    obtain ⟨r', hr', h'⟩ := ih h₁ (by omega) hls
    have hlogged : Runs.logged (Inbox.step deliver) (b, es) l = some (u, es ++ out) :=
      Runs.logged_eq_some.mpr ⟨out, hl, rfl⟩
    refine ⟨r', ?_, h'⟩
    rw [Runs.trace_cons hlogged, Runs.exec_append_some hr₁, hr']

/-- **`observe(on:)` is an inbox.**  Every run of an inbox with fewer than 2^31 steps is a run of the main
scheduler in which no call and no action is interrupted: the queues end the same, and the actions that have
begun are the events handled, in the same order. -/
theorem inbox_scheduled (deliver : σ → ε → σ) (state : σ) (ls : List (Inbox.Label σ ε)) (b : Inbox σ ε)
    (es : List ε) (hb : ls.length < 2147483648)
    (h : Runs.exec (Runs.logged (Inbox.step deliver)) (⟨state, []⟩, []) ls = some (b, es)) :
    ∃ s log, Runs.exec (Runs.logged step) (launch, [])
        (Runs.trace (Runs.logged (Inbox.step deliver)) (fun b => calls b.1) (⟨state, []⟩, []) ls) =
          some (s, log) ∧
      s.mainQueue.map Prod.snd = b.queue ∧ log.map Prod.snd = es ∧ s.entering = [] ∧ s.running = [] := by
  obtain ⟨⟨s, log⟩, hr, hs⟩ := (serves_launch state).exec (by simpa using hb) h
  exact ⟨s, log, hr, hs.queue, hs.log, hs.entering, hs.running⟩

end Spotify.MainScheduler
