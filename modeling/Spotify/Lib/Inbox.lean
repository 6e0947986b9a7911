import Spotify.Lib.Runs

/-!
# Spotify.Lib.Inbox — a state that handles its events from a queue

An `Inbox` is a state with the events that wait for it.  `observe` handles an event at once when that is
allowed and nothing waits, and queues it otherwise; `take` handles the oldest one.  `settled` is the state
once the queue is empty.  Seen through `settled` every event is handled when it is observed, and handling
one later changes nothing (`settled_observe`, `settled_take`).  No event is lost and none overtakes another
(`exec_fifo`).  Nothing here depends on a particular system.
-/

structure Inbox (σ ε : Type*) where
  state : σ
  queue : List ε

namespace Inbox

variable {σ ε : Type*} (deliver : σ → ε → σ)

def observe (atOnce : Bool) (b : Inbox σ ε) (e : ε) : Inbox σ ε :=
  if atOnce ∧ b.queue = [] then ⟨deliver b.state e, b.queue⟩ else ⟨b.state, b.queue ++ [e]⟩

def take (b : Inbox σ ε) : Option (Inbox σ ε) :=
  match b.queue with
  | [] => none
  | e :: queue => some ⟨deliver b.state e, queue⟩

/-- What happens to an inbox; its state may change beside the queue. -/
inductive Label (σ ε : Type*) where
  | observe (atOnce : Bool) (e : ε)
  | take
  | modify (f : σ → σ)

/-- One step, with the events that it handles. -/
def step (b : Inbox σ ε) : Label σ ε → Option (Inbox σ ε × List ε)
  | .observe atOnce e => some (b.observe deliver atOnce e, if atOnce ∧ b.queue = [] then [e] else [])
  | .take => (b.take deliver).map fun b' => (b', b.queue.take 1)
  | .modify f => some (⟨f b.state, b.queue⟩, [])

def observed : Label σ ε → Option ε
  | .observe _ e => some e
  | .take | .modify _ => none

/-- The state after the events of the queue. -/
def settled (b : Inbox σ ε) : σ := b.queue.foldl deliver b.state

variable {deliver} {b b' : Inbox σ ε}

theorem settled_observe (atOnce : Bool) (e : ε) :
    (b.observe deliver atOnce e).settled deliver = deliver (b.settled deliver) e := by
  unfold observe settled
  split
  · rename_i h
    rw [h.2]
    rfl
  · exact List.foldl_concat deliver b.state e b.queue

theorem settled_of_empty (h : b.queue = []) : b = ⟨b.settled deliver, []⟩ := by
  obtain ⟨state, queue⟩ := b
  obtain rfl : queue = [] := h
  rfl

theorem settled_take (h : b.take deliver = some b') : b'.settled deliver = b.settled deliver := by
  unfold take at h
  split at h
  · cases h
  · rename_i e queue hq
    cases h
    rw [settled, settled, hq, List.foldl_cons]

/-- A step queues at most one event. -/
theorem length_step {l : Label σ ε} {out : List ε} (h : b.step deliver l = some (b', out)) :
    b'.queue.length ≤ b.queue.length + 1 := by
  cases l with
  | observe atOnce e =>
    obtain ⟨rfl, -⟩ := Prod.mk.inj (Option.some.inj h)
    unfold observe
    split
    · exact Nat.le_succ _
    · exact Nat.le_of_eq List.length_append
  | take =>
    obtain ⟨b₁, hb₁, h⟩ := Option.map_eq_some_iff.mp h
    obtain ⟨rfl, -⟩ := Prod.mk.inj h
    unfold take at hb₁
    split at hb₁
    · cases hb₁
    · rename_i e queue hq
      cases hb₁
      show queue.length ≤ b.queue.length + 1
      rw [hq, List.length_cons]
      omega
  | modify f =>
    cases h
    exact Nat.le_succ _

theorem step_fifo {l : Label σ ε} {out : List ε} (h : b.step deliver l = some (b', out)) :
    out ++ b'.queue = b.queue ++ (observed l).toList := by
  cases l with
  | observe atOnce e =>
    obtain ⟨rfl, rfl⟩ := Prod.mk.inj (Option.some.inj h)
    unfold observe
    by_cases hnow : atOnce = true ∧ b.queue = []
    · rw [if_pos hnow, if_pos hnow, hnow.2]
      rfl
    · rw [if_neg hnow, if_neg hnow]
      rfl
  | take =>
    obtain ⟨b₁, hb₁, h⟩ := Option.map_eq_some_iff.mp h
    obtain ⟨rfl, rfl⟩ := Prod.mk.inj h
    unfold take at hb₁
    split at hb₁
    · cases hb₁
    · rename_i e queue hq
      cases hb₁
      rw [hq]
      exact (List.append_nil _).symm
  | modify f =>
    cases h
    exact (List.append_nil _).symm

/-- Handled or waiting: the events that were observed, in the order in which they were. -/
theorem exec_fifo {ls : List (Label σ ε)} {log log' : List ε}
    (h : Runs.exec (Runs.logged (step deliver)) (b, log) ls = some (b', log')) :
    log' ++ b'.queue = log ++ b.queue ++ ls.filterMap observed := by
  induction ls generalizing b log with
  | nil =>
    cases h
    exact (List.append_nil _).symm
  | cons l ls ih =>
    obtain ⟨b₁, out, hl, h⟩ := Runs.exec_logged_cons.mp h
    have hout := step_fifo hl
    rw [ih h, List.append_assoc log, hout]
    cases ho : observed l with
    | none => rw [List.filterMap_cons_none ho, Option.toList_none, List.append_nil]
    | some e => rw [List.filterMap_cons_some ho, Option.toList_some]; simp

/-- In a system with an inbox, whose step `l` takes one event, the steps `l` lead to the settled state. -/
theorem exec_replicate {τ ι : Type*} {step : τ → ι → Option τ} {l : ι} {box : τ → Inbox σ ε}
    (hl : ∀ s b, (box s).take deliver = some b → ∃ t, step s l = some t ∧ box t = b) (s : τ) :
    ∃ t, Runs.exec step s (List.replicate (box s).queue.length l) = some t ∧
      box t = ⟨(box s).settled deliver, []⟩ := by
  generalize hq : (box s).queue = queue
  induction queue generalizing s with
  | nil =>
    exact ⟨s, rfl, settled_of_empty hq⟩
  | cons e queue ih =>
    have htake : (box s).take deliver = some ⟨deliver (box s).state e, queue⟩ := by rw [take, hq]
    obtain ⟨t, ht, hbox⟩ := hl s _ htake
    obtain ⟨u, hu, hsettled⟩ := ih t (congrArg Inbox.queue hbox)
    refine ⟨u, ?_, ?_⟩
    · rw [List.length_cons, List.replicate_succ, Runs.exec_cons_some ht, hu]
    · rw [hsettled, hbox, settled_take htake]

end Inbox
