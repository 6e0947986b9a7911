import Spotify.Foundation
import Spotify.Lib.Pool
import Spotify.Lib.Runs

/-!
# Spotify.Rx.Debounce — the `debounce` operator and its timers

`DebounceSink` with the timers that `scheduleRelative` made for it.  A timer's event handler first asks
whether its disposable was disposed and then calls `propagate`, which takes the lock again; another
element may arrive in between, so these are two steps (`fire`, `propagate`).  The identifier is a `UInt64`
that wraps around.  The outputs of a step are the elements that cross the operator, with the time.

A relay sends neither an error nor a completion, so these two events of the source are left out.
-/

namespace Spotify

/-- A timer of `scheduleRelative`: the state for its action, its deadline, whether its disposable was
disposed, and whether its event handler is past the check. -/
structure DebounceTimer where
  currentId : UInt64
  deadline : Date
  isDisposed : Bool
  running : Bool
  deriving DecidableEq

/-- The sink; `cancellable` names the timer that the serial disposable holds. -/
structure DebounceSink (α : Type) where
  id : UInt64
  value : Option α
  cancellable : Option ℕ
  timers : Pool DebounceTimer
  now : Date
  deriving DecidableEq

inductive DebounceLabel (α : Type) where
  | next (element : α)
  /-- the event handler of a timer whose deadline has passed runs up to its check -/
  | fire (timer : ℕ)
  /-- the action of a timer that passed the check -/
  | propagate (timer : ℕ)
  | tick (now : Date)
  deriving DecidableEq

/-- An element crosses the operator. -/
inductive Passage (α : Type) where
  | accepted (element : α) (time : Date)
  | emitted (element : α) (time : Date)
  deriving DecidableEq

namespace DebounceSink

variable {α : Type} (dueTime : TimeInterval)

def launch (now : Date) : DebounceSink α := ⟨0, none, none, Pool.empty, now⟩

/-- The setter of `SerialDisposable.disposable`. -/
def setDisposable (d : ℕ) (s : DebounceSink α) : DebounceSink α :=
  match s.cancellable with
  | none => { s with cancellable := some d }
  | some current =>
    { s with
      cancellable := some d
      timers := s.timers.update current fun timer => { timer with isDisposed := true } }

def scheduleRelative (state : UInt64) (s : DebounceSink α) : DebounceSink α :=
  { s with timers := s.timers.start ⟨state, s.now + dueTime, false, false⟩ }

/-- The case `.next` of `synchronized_on`. -/
def synchronizedOn (element : α) (s : DebounceSink α) : DebounceSink α :=
  let s := { s with id := s.id + 1, value := some element }
  (s.setDisposable s.timers.next).scheduleRelative dueTime s.id

def propagate (currentId : UInt64) (s : DebounceSink α) : DebounceSink α × List (Passage α) :=
  match s.value with
  | none => (s, [])
  | some value => if s.id = currentId then ({ s with value := none }, [.emitted value s.now]) else (s, [])

/-- One step, with what crosses the operator; a timer never fires before its deadline. -/
def step (s : DebounceSink α) : DebounceLabel α → Option (DebounceSink α × List (Passage α))
  | .next element => some (s.synchronizedOn dueTime element, [.accepted element s.now])
  | .fire timer =>
    match s.timers.find? timer with
    | none => none
    | some t =>
      if t.running = false ∧ t.deadline ≤ s.now then
        if t.isDisposed then some ({ s with timers := s.timers.finish timer }, [])
        else some ({ s with timers := s.timers.update timer fun t => { t with running := true } }, [])
      else none
  | .propagate timer =>
    match s.timers.find? timer with
    | none => none
    | some t =>
      if t.running then
        some (({ s with timers := s.timers.finish timer } : DebounceSink α).propagate t.currentId)
      else none
  | .tick now => if s.now ≤ now then some ({ s with now := now }, []) else none

/-! ### What a step can do -/

/-- The effects of a step, one constructor for each kind. -/
inductive Effect (s : DebounceSink α) :
    DebounceLabel α → DebounceSink α → List (Passage α) → Prop
  | accepted (element : α) :
      Effect s (.next element) (s.synchronizedOn dueTime element) [.accepted element s.now]
  | forgotten (k : ℕ) (t : DebounceTimer) (hk : s.timers.find? k = some t) (hd : t.isDisposed = true) :
      Effect s (.fire k) { s with timers := s.timers.finish k } []
  | started (k : ℕ) (t : DebounceTimer) (hk : s.timers.find? k = some t) (hd : t.isDisposed = false)
      (hdue : t.deadline ≤ s.now) :
      Effect s (.fire k)
        { s with timers := s.timers.update k fun t => { t with running := true } } []
  | emitted (k : ℕ) (t : DebounceTimer) (hk : s.timers.find? k = some t) (hr : t.running = true)
      (value : α) (hv : s.value = some value) (hid : s.id = t.currentId) :
      Effect s (.propagate k) { s with timers := s.timers.finish k, value := none }
        [.emitted value s.now]
  | stale (k : ℕ) (t : DebounceTimer) (hk : s.timers.find? k = some t) (hr : t.running = true)
      (hno : s.value = none ∨ s.id ≠ t.currentId) :
      Effect s (.propagate k) { s with timers := s.timers.finish k } []
  | ticked (now : Date) (h : s.now ≤ now) : Effect s (.tick now) { s with now := now } []

variable {dueTime} {s s' : DebounceSink α}

@[simp] theorem id_synchronizedOn (a : α) : (s.synchronizedOn dueTime a).id = s.id + 1 := by
  unfold synchronizedOn setDisposable
  cases s.cancellable <;> rfl

@[simp] theorem value_synchronizedOn (a : α) : (s.synchronizedOn dueTime a).value = some a := by
  unfold synchronizedOn setDisposable
  cases s.cancellable <;> rfl

@[simp] theorem now_synchronizedOn (a : α) : (s.synchronizedOn dueTime a).now = s.now := by
  unfold synchronizedOn setDisposable
  cases s.cancellable <;> rfl

@[simp] theorem cancellable_synchronizedOn (a : α) :
    (s.synchronizedOn dueTime a).cancellable = some s.timers.next := by
  unfold synchronizedOn setDisposable
  cases s.cancellable <;> rfl

@[simp] theorem next_synchronizedOn (a : α) :
    (s.synchronizedOn dueTime a).timers.next = s.timers.next + 1 := by
  unfold synchronizedOn setDisposable
  cases s.cancellable <;> rfl

/-- The new element has its own timer, and the timer held before is disposed. -/
theorem find?_synchronizedOn (a : α) (k : ℕ) : (s.synchronizedOn dueTime a).timers.find? k =
    if k = s.timers.next then some ⟨s.id + 1, s.now + dueTime, false, false⟩
    else if s.cancellable = some k then (s.timers.find? k).map fun t => { t with isDisposed := true }
    else s.timers.find? k := by
  unfold synchronizedOn setDisposable
  cases hc : s.cancellable with
  | none => simp [scheduleRelative, Pool.find?_start]
  | some current =>
    have hnext : (s.timers.update current fun t => { t with isDisposed := true }).next = s.timers.next :=
      rfl
    simp only [scheduleRelative, Pool.find?_start, Pool.find?_update, hnext, Option.some.injEq, eq_comm]

theorem propagate_cases (s : DebounceSink α) (currentId : UInt64) :
    (∃ value, s.value = some value ∧ s.id = currentId ∧
      s.propagate currentId = ({ s with value := none }, [.emitted value s.now])) ∨
    ((s.value = none ∨ s.id ≠ currentId) ∧ s.propagate currentId = (s, [])) := by
  unfold propagate
  cases hv : s.value with
  | none => exact .inr ⟨.inl rfl, rfl⟩
  | some value =>
    by_cases hid : s.id = currentId
    · exact .inl ⟨value, rfl, hid, if_pos hid⟩
    · exact .inr ⟨.inr hid, if_neg hid⟩

/-- **What a step can do.** -/
theorem step_effect {l : DebounceLabel α} {out : List (Passage α)}
    (h : s.step dueTime l = some (s', out)) : Effect dueTime s l s' out := by
  cases l with
  | next element =>
    cases h
    exact .accepted element
  | fire k =>
    simp only [step] at h
    cases hk : s.timers.find? k with
    | none => rw [hk] at h; cases h
    | some t =>
      rw [hk] at h
      simp only at h
      split_ifs at h with hdue hd
      · cases h
        exact .forgotten k t hk hd
      · cases h
        exact .started k t hk (by simpa using hd) hdue.2
  | propagate k =>
    simp only [step] at h
    cases hk : s.timers.find? k with
    | none => rw [hk] at h; cases h
    | some t =>
      rw [hk] at h
      simp only at h
      split_ifs at h with hr
      have h := Option.some.inj h
      rcases propagate_cases { s with timers := s.timers.finish k } t.currentId with
        ⟨value, hv, hid, heq⟩ | ⟨hno, heq⟩
      · rw [heq] at h
        cases h
        exact .emitted k t hk hr value hv hid
      · rw [heq] at h
        cases h
        exact .stale k t hk hr hno
  | tick now =>
    simp only [step] at h
    split_ifs at h with hle
    cases h
    exact .ticked now hle

/-! ### What crosses the operator -/

/-- In the log of what crossed the operator, an emission directly follows the arrival of the same element,
which lies the due time back at least. -/
def Debounced (dueTime : TimeInterval) (log : List (Passage α)) : Prop :=
  ∀ pre a time post, log = pre ++ .emitted a time :: post →
    ∃ pre' time', pre = pre' ++ [.accepted a time'] ∧ time' + dueTime ≤ time

theorem debounced_nil : Debounced dueTime ([] : List (Passage α)) := by
  intro pre a time post h
  have hlen := congrArg List.length h
  simp at hlen

theorem debounced_concat {log : List (Passage α)} {e : Passage α} (h : Debounced dueTime log)
    (he : ∀ a time, e = .emitted a time →
      ∃ pre' time', log = pre' ++ [.accepted a time'] ∧ time' + dueTime ≤ time) :
    Debounced dueTime (log ++ [e]) := by
  intro pre a time post heq
  rcases List.eq_nil_or_concat post with rfl | ⟨post', last, rfl⟩
  · obtain ⟨rfl, hlast⟩ := List.append_inj' heq rfl
    exact he a time (List.cons.inj hlast).1
  · have heq' : log ++ [e] = (pre ++ .emitted a time :: post') ++ [last] := by
      rw [heq, List.concat_eq_append, List.append_assoc, List.cons_append]
    exact h pre a time post' (List.append_inj' heq' rfl).1

/-- What holds of the sink beside the log, as long as the identifier has not wrapped around: identifiers
count the elements, only the last timer is not disposed, an event handler runs after its deadline, and the
element that is held is the one that came last and was not emitted; it has a timer. -/
structure Timed (dueTime : TimeInterval) (s : DebounceSink α × List (Passage α)) : Prop where
  id_eq : s.1.id = UInt64.ofNat s.1.timers.next
  currentId_eq : ∀ k t, s.1.timers.find? k = some t → t.currentId = UInt64.ofNat (k + 1)
  cancellable : ∀ k, k + 1 = s.1.timers.next → s.1.cancellable = some k
  superseded : ∀ k t, s.1.timers.find? k = some t → k + 1 ≠ s.1.timers.next → t.isDisposed = true
  due : ∀ k t, s.1.timers.find? k = some t → t.running = true → t.deadline ≤ s.1.now
  held : ∀ a, s.1.value = some a → ∃ pre time k t, s.2 = pre ++ [.accepted a time] ∧
    s.1.timers.find? k = some t ∧ k + 1 = s.1.timers.next ∧ t.isDisposed = false ∧
    t.deadline = time + dueTime
  pending : ∀ pre a time, s.2 = pre ++ [.accepted a time] → s.1.value = some a
  debounced : Debounced dueTime s.2

theorem timed_launch (now : Date) : Timed dueTime (launch now, ([] : List (Passage α))) where
  id_eq := rfl
  currentId_eq := fun k t hk => by cases hk
  cancellable := fun k hk => by cases hk
  superseded := fun k t hk => by cases hk
  due := fun k t hk => by cases hk
  held := fun a ha => by cases ha
  pending := fun pre a time h => by
    have hlen := congrArg List.length h
    simp at hlen
  debounced := debounced_nil

theorem Timed.accepted {log : List (Passage α)} (h : Timed dueTime (s, log)) (a : α) :
    Timed dueTime (s.synchronizedOn dueTime a, log ++ [.accepted a s.now]) where
  id_eq := by
    have hid := h.id_eq
    simp only [id_synchronizedOn, next_synchronizedOn, UInt64.ofNat_add] at hid ⊢
    rw [hid]
    rfl
  currentId_eq := by
    intro k t hk
    have hid : s.id = UInt64.ofNat s.timers.next := h.id_eq
    simp only [find?_synchronizedOn] at hk
    split_ifs at hk with hnext hc
    · cases hk
      rw [hnext, UInt64.ofNat_add, ← hid]
      rfl
    · obtain ⟨t', hk', rfl⟩ := Option.map_eq_some_iff.mp hk
      exact h.currentId_eq k t' hk'
    · exact h.currentId_eq k t hk
  cancellable := by
    intro k hk
    simp only [next_synchronizedOn, Nat.add_right_cancel_iff, cancellable_synchronizedOn] at hk ⊢
    rw [hk]
  superseded := by
    intro k t hk hne
    simp only [find?_synchronizedOn, next_synchronizedOn, ne_eq, Nat.add_right_cancel_iff] at hk hne
    rw [if_neg hne] at hk
    split_ifs at hk with hc
    · obtain ⟨t', -, rfl⟩ := Option.map_eq_some_iff.mp hk
      rfl
    · -- a timer that was not held before was disposed already
      exact h.superseded k t hk fun hlast => hc (h.cancellable k hlast)
  due := by
    intro k t hk hr
    simp only [find?_synchronizedOn, now_synchronizedOn] at hk ⊢
    split_ifs at hk with hnext hc
    · cases hk
      cases hr
    · obtain ⟨t', hk', rfl⟩ := Option.map_eq_some_iff.mp hk
      exact h.due k t' hk' hr
    · exact h.due k t hk hr
  held := by
    intro b hb
    obtain rfl : a = b := by simpa using hb
    refine ⟨log, s.now, s.timers.next, ⟨s.id + 1, s.now + dueTime, false, false⟩, rfl, ?_, ?_, rfl, rfl⟩
    · simp [find?_synchronizedOn]
    · simp
  pending := by
    intro pre b time heq
    have hlast := List.append_inj' heq rfl
    simp only [List.cons.injEq, Passage.accepted.injEq, and_true] at hlast
    rw [value_synchronizedOn, hlast.2.1]
  debounced := debounced_concat h.debounced fun b time hb => by cases hb

/-- A timer may go unless the element that is held relies on it. -/
theorem Timed.finish {log : List (Passage α)} (h : Timed dueTime (s, log)) (k : ℕ)
    (hk : ∀ t, s.timers.find? k = some t → t.isDisposed = false → k + 1 = s.timers.next →
      s.value = none) :
    Timed dueTime ({ s with timers := s.timers.finish k }, log) where
  id_eq := h.id_eq
  currentId_eq := fun k' t hk' => h.currentId_eq k' t (Pool.find?_finish_eq_some.mp hk').2
  cancellable := h.cancellable
  superseded := fun k' t hk' => h.superseded k' t (Pool.find?_finish_eq_some.mp hk').2
  due := fun k' t hk' => h.due k' t (Pool.find?_finish_eq_some.mp hk').2
  held := by
    intro a ha
    obtain ⟨pre, time, k', t, hlog, hk', hlast, hd, hdeadline⟩ := h.held a ha
    refine ⟨pre, time, k', t, hlog, ?_, hlast, hd, hdeadline⟩
    refine Pool.find?_finish_eq_some.mpr ⟨?_, hk'⟩
    rintro rfl
    have hno : s.value = none := hk t hk' hd hlast
    have ha : s.value = some a := ha
    rw [hno] at ha
    cases ha
  pending := h.pending
  debounced := h.debounced

theorem Timed.emptied {log : List (Passage α)} (h : Timed dueTime (s, log)) {a : α} {time : Date}
    (hlog : Debounced dueTime (log ++ [.emitted a time])) :
    Timed dueTime ({ s with value := none }, log ++ [.emitted a time]) where
  id_eq := h.id_eq
  currentId_eq := h.currentId_eq
  cancellable := h.cancellable
  superseded := h.superseded
  due := h.due
  held := fun a ha => by cases ha
  pending := fun pre b time' heq => by
    have hlast := List.append_inj' heq rfl
    simp at hlast
  debounced := hlog

theorem Timed.started {log : List (Passage α)} (h : Timed dueTime (s, log)) (k : ℕ) (t : DebounceTimer)
    (hk : s.timers.find? k = some t) (hdue : t.deadline ≤ s.now) :
    Timed dueTime ({ s with timers := s.timers.update k fun t => { t with running := true } }, log) := by
  have hfind : ∀ k' t', (s.timers.update k fun t => { t with running := true }).find? k' = some t' →
      ∃ t₀, s.timers.find? k' = some t₀ ∧ t'.currentId = t₀.currentId ∧ t'.deadline = t₀.deadline ∧
        t'.isDisposed = t₀.isDisposed ∧ (t'.running = true → t₀.running = true ∨ k' = k) := by
    intro k' t' hk'
    rw [Pool.find?_update] at hk'
    split_ifs at hk' with hkk
    · obtain ⟨t₀, ht₀, rfl⟩ := Option.map_eq_some_iff.mp hk'
      exact ⟨t₀, ht₀, rfl, rfl, rfl, fun _ => .inr hkk⟩
    · exact ⟨t', hk', rfl, rfl, rfl, .inl⟩
  refine ⟨h.id_eq, fun k' t' hk' => ?_, h.cancellable, fun k' t' hk' hne => ?_, fun k' t' hk' hr => ?_,
    fun a ha => ?_, h.pending, h.debounced⟩
  · obtain ⟨t₀, ht₀, hid, -⟩ := hfind k' t' hk'
    rw [hid]
    exact h.currentId_eq k' t₀ ht₀
  · obtain ⟨t₀, ht₀, -, -, hd, -⟩ := hfind k' t' hk'
    rw [hd]
    exact h.superseded k' t₀ ht₀ hne
  · obtain ⟨t₀, ht₀, -, hdeadline, -, hrun⟩ := hfind k' t' hk'
    rw [hdeadline]
    rcases hrun hr with hr₀ | rfl
    · exact h.due k' t₀ ht₀ hr₀
    · obtain rfl : t = t₀ := Option.some.inj (hk.symm.trans ht₀)
      exact hdue
  · obtain ⟨pre, time, k', t', hlog, hk', hlast, hd, hdeadline⟩ := h.held a ha
    by_cases hkk : k' = k
    · refine ⟨pre, time, k', { t' with running := true }, hlog, ?_, hlast, hd, hdeadline⟩
      rw [Pool.find?_update, if_pos hkk, hk', Option.map_some]
    · refine ⟨pre, time, k', t', hlog, ?_, hlast, hd, hdeadline⟩
      rw [Pool.find?_update, if_neg hkk, hk']

/-- Below the wrap-around, identifiers tell timers apart. -/
theorem Timed.last_of_id {log : List (Passage α)} (h : Timed dueTime (s, log))
    (hb : s.timers.next < 2 ^ 64) {k : ℕ} {t : DebounceTimer} (hk : s.timers.find? k = some t)
    (hid : s.id = t.currentId) : k + 1 = s.timers.next := by
  have hlt : k < s.timers.next := Pool.find?_lt hk
  have h1 : s.id = UInt64.ofNat s.timers.next := h.id_eq
  have h2 : t.currentId = UInt64.ofNat (k + 1) := h.currentId_eq k t hk
  have heq := congrArg UInt64.toNat (h2.symm.trans (hid.symm.trans h1))
  simp only [UInt64.toNat_ofNat'] at heq
  omega

theorem Timed.step {log : List (Passage α)} (h : Timed dueTime (s, log)) (hb : s.timers.next < 2 ^ 64)
    {l : DebounceLabel α} {out : List (Passage α)} (hl : s.step dueTime l = some (s', out)) :
    Timed dueTime (s', log ++ out) := by
  cases step_effect hl with
  | accepted a => exact h.accepted a
  | forgotten k t hk hd =>
    rw [List.append_nil]
    refine h.finish k fun t' hk' hd' => ?_
    obtain rfl : t = t' := Option.some.inj (hk.symm.trans hk')
    rw [hd] at hd'
    cases hd'
  | started k t hk hd hdue =>
    rw [List.append_nil]
    exact h.started k t hk hdue
  | emitted k t hk hr value hv hid =>
    have hlast : k + 1 = s.timers.next := h.last_of_id hb hk hid
    obtain ⟨pre, time, k', t', hlog, hk', hlast', -, hdeadline⟩ := h.held value hv
    obtain rfl : k = k' := Nat.succ_inj.mp (hlast.trans hlast'.symm)
    obtain rfl : t = t' := Option.some.inj (hk.symm.trans hk')
    have hdue : t.deadline ≤ s.now := h.due k t hk hr
    have hlog' : Debounced dueTime (log ++ [.emitted value s.now]) := by
      refine debounced_concat h.debounced fun b time' hb' => ?_
      obtain ⟨rfl, rfl⟩ : value = b ∧ s.now = time' := by simpa using hb'
      exact ⟨pre, time, hlog, hdeadline ▸ hdue⟩
    exact (h.emptied hlog').finish k fun _ _ _ _ => rfl
  | stale k t hk hr hno =>
    rw [List.append_nil]
    refine h.finish k fun t' hk' hd' hlast => ?_
    rcases hno with hv | hne
    · exact hv
    · have hid : s.id = UInt64.ofNat s.timers.next := h.id_eq
      have hcur : t.currentId = UInt64.ofNat (k + 1) := h.currentId_eq k t hk
      exact absurd (by rw [hid, hcur, hlast]) hne
  | ticked now hle =>
    rw [List.append_nil]
    exact { h with due := fun k t hk hr => (h.due k t hk hr).trans hle }

/-! ### Runs -/

/-- The element that a label brings. -/
def incoming : DebounceLabel α → Option α
  | .next element => some element
  | _ => none

theorem next_step {l : DebounceLabel α} {out : List (Passage α)} (hl : s.step dueTime l = some (s', out)) :
    s'.timers.next = s.timers.next + (incoming l).toList.length := by
  cases step_effect hl with
  | accepted a => exact next_synchronizedOn a
  | forgotten | started | emitted | stale | ticked => rfl

theorem next_exec {log log' : List (Passage α)} {ls : List (DebounceLabel α)}
    (h : Runs.exec (Runs.logged (step dueTime)) (s, log) ls = some (s', log')) :
    s'.timers.next = s.timers.next + (ls.filterMap incoming).length := by
  induction ls generalizing s log with
  | nil => cases h; rfl
  | cons l ls ih =>
    obtain ⟨u, out, hl, h⟩ := Runs.exec_logged_cons.mp h
    have hu := next_step hl
    rw [ih h, hu]
    cases hin : incoming l with
    | none => rw [List.filterMap_cons_none hin]; rfl
    | some a =>
      rw [List.filterMap_cons_some hin]
      simp only [Option.toList_some, List.length_cons, List.length_nil]
      omega

theorem Timed.exec {log log' : List (Passage α)} {ls : List (DebounceLabel α)}
    (h : Timed dueTime (s, log)) (hb : s'.timers.next < 2 ^ 64)
    (hls : Runs.exec (Runs.logged (DebounceSink.step dueTime)) (s, log) ls = some (s', log')) :
    Timed dueTime (s', log') := by
  induction ls generalizing s log with
  | nil => cases hls; exact h
  | cons l ls ih =>
    have hmono := next_exec hls
    obtain ⟨u, out, hl, hls⟩ := Runs.exec_logged_cons.mp hls
    exact ih (h.step (by omega) hl) hls

/-- Without a new element a step emits the element that is held, or nothing. -/
theorem quiet_step {l : DebounceLabel α} {out : List (Passage α)} (hin : incoming l = none)
    (hl : s.step dueTime l = some (s', out)) :
    (out = [] ∧ s'.value = s.value) ∨
      ∃ a, s.value = some a ∧ out = [.emitted a s.now] ∧ s'.value = none := by
  cases step_effect hl with
  | accepted a => cases hin
  | forgotten | started | stale | ticked => exact .inl ⟨rfl, rfl⟩
  | emitted k t hk hr a hv => exact .inr ⟨a, hv, rfl, rfl⟩

theorem quiet_exec {log log' : List (Passage α)} {ls : List (DebounceLabel α)}
    (hin : ∀ l ∈ ls, incoming l = none)
    (h : Runs.exec (Runs.logged (step dueTime)) (s, log) ls = some (s', log')) :
    (log' = log ∧ s'.value = s.value) ∨
      ∃ a time, s.value = some a ∧ log' = log ++ [.emitted a time] ∧ s'.value = none := by
  induction ls generalizing s log with
  | nil => cases h; exact .inl ⟨rfl, rfl⟩
  | cons l ls ih =>
    obtain ⟨hl0, hin⟩ := List.forall_mem_cons.mp hin
    obtain ⟨u, out, hl, h⟩ := Runs.exec_logged_cons.mp h
    rcases quiet_step hl0 hl with ⟨rfl, hv⟩ | ⟨a, hv, rfl, hu⟩
    · rw [← hv, ← List.append_nil log]
      exact ih hin h
    · rcases ih hin h with ⟨hlog, hv'⟩ | ⟨b, time, hb, -⟩
      · exact .inr ⟨a, s.now, hv, hlog, hv'.trans hu⟩
      · rw [hu] at hb
        cases hb

theorem step_tick (now : Date) (h : s.now ≤ now) :
    s.step dueTime (.tick now) = some ({ s with now := now }, []) := if_pos h

theorem step_fire {k : ℕ} {t : DebounceTimer} (hk : s.timers.find? k = some t) (hr : t.running = false)
    (hd : t.isDisposed = false) (hdue : t.deadline ≤ s.now) : s.step dueTime (.fire k) =
      some ({ s with timers := s.timers.update k fun t => { t with running := true } }, []) := by
  simp [step, hk, hr, hd, hdue]

theorem step_propagate {k : ℕ} {t : DebounceTimer} (hk : s.timers.find? k = some t)
    (hr : t.running = true) {a : α} (ha : s.value = some a) (hid : s.id = t.currentId) :
    s.step dueTime (.propagate k) =
      some ({ s with timers := s.timers.finish k, value := none }, [.emitted a s.now]) := by
  simp [step, hk, hr, propagate, ha, hid]

/-- The element that is held is emitted once its timer has fired. -/
theorem Timed.emits {log : List (Passage α)} (h : Timed dueTime (s, log)) {a : α}
    (ha : s.value = some a) : ∃ ls s' time, (∀ l ∈ ls, incoming l = none) ∧
      Runs.exec (Runs.logged (DebounceSink.step dueTime)) (s, log) ls =
        some (s', log ++ [.emitted a time]) := by
  obtain ⟨-, -, k, t, -, hk, hlast, hd, -⟩ := h.held a ha
  have hid : s.id = t.currentId := by
    have hs : s.id = UInt64.ofNat s.timers.next := h.id_eq
    have ht : t.currentId = UInt64.ofNat (k + 1) := h.currentId_eq k t hk
    rw [hs, ht, hlast]
  cases hr : t.running with
  | true =>
    refine ⟨[.propagate k], { s with timers := s.timers.finish k, value := none }, s.now,
      by simp [incoming], ?_⟩
    exact Runs.exec_logged_cons.mpr ⟨_, _, step_propagate hk hr ha hid, rfl⟩
  | false =>
    -- let the deadline pass, then run the event handler to its end
    let s₁ : DebounceSink α := { s with now := max s.now t.deadline }
    let s₂ := { s₁ with timers := s₁.timers.update k fun t => { t with running := true } }
    have h₁ : s.step dueTime (.tick s₁.now) = some (s₁, []) := step_tick _ (le_max_left _ _)
    have h₂ : s₁.step dueTime (.fire k) = some (s₂, []) := step_fire hk hr hd (le_max_right _ _)
    have hk₂ : s₂.timers.find? k = some { t with running := true } := by
      have hk₁ : s₁.timers.find? k = some t := hk
      rw [Pool.find?_update, if_pos rfl, hk₁, Option.map_some]
    have ha₂ : s₂.value = some a := ha
    refine ⟨[.tick s₁.now, .fire k, .propagate k],
      { s₂ with timers := s₂.timers.finish k, value := none }, s₂.now, by simp [incoming], ?_⟩
    refine Runs.exec_logged_cons.mpr ⟨_, _, h₁, Runs.exec_logged_cons.mpr ⟨_, _, h₂, ?_⟩⟩
    rw [List.append_nil, List.append_nil]
    exact Runs.exec_logged_cons.mpr ⟨_, _, step_propagate hk₂ rfl ha₂ hid, rfl⟩

/-- **The debounce.**  In every run of fewer than 2^64 elements, an emission directly follows the arrival of
the same element, at least the due time later.  When the element that came last was not followed by an
emission, it can still be emitted; and until another one arrives, nothing else is. -/
theorem debounce_exact (dueTime : TimeInterval) (now : Date) (ls : List (DebounceLabel α))
    (s : DebounceSink α) (log : List (Passage α)) (hb : (ls.filterMap incoming).length < 2 ^ 64)
    (h : Runs.exec (Runs.logged (step dueTime)) (launch now, []) ls = some (s, log)) :
    Debounced dueTime log ∧
    (∀ pre a time, log = pre ++ [.accepted a time] →
      ∃ ls' s' time', (∀ l ∈ ls', incoming l = none) ∧
        Runs.exec (Runs.logged (step dueTime)) (s, log) ls' = some (s', log ++ [.emitted a time'])) ∧
    ∀ ls' s' log', (∀ l ∈ ls', incoming l = none) →
      Runs.exec (Runs.logged (step dueTime)) (s, log) ls' = some (s', log') →
      log' = log ∨ ∃ pre a time time', log = pre ++ [.accepted a time] ∧
        log' = log ++ [.emitted a time'] := by
  have hnext : s.timers.next < 2 ^ 64 := by
    have hcount := next_exec h
    have hzero : (launch now : DebounceSink α).timers.next = 0 := rfl
    omega
  have ht : Timed dueTime (s, log) := (timed_launch now).exec hnext h
  refine ⟨ht.debounced, fun pre a time hlog => ht.emits (ht.pending pre a time hlog), ?_⟩
  intro ls' s' log' hin hls'
  rcases quiet_exec hin hls' with ⟨hlog, -⟩ | ⟨a, time', ha, hlog, -⟩
  · exact .inl hlog
  · obtain ⟨pre, time, -, -, hpre, -⟩ := ht.held a ha
    exact .inr ⟨pre, a, time, time', hpre, hlog⟩

/-- A second text comes before the first one is due; the first timer is disposed, the second emits. -/
def typedTwice : List (DebounceLabel String) :=
  [.next "a", .tick (1 / 8), .next "ab", .tick (3 / 8), .fire 0, .fire 1, .propagate 1]

theorem typedTwice_emits : ∃ s,
    Runs.exec (Runs.logged (step (1 / 4))) (launch 0, []) typedTwice =
      some (s, [.accepted "a" 0, .accepted "ab" (1 / 8), .emitted "ab" (3 / 8)]) ∧
    Debounced (1 / 4) [.accepted "a" 0, .accepted "ab" (1 / 8), .emitted "ab" (3 / 8)] := by
  have hrun : (Runs.exec (Runs.logged (step (1 / 4))) (launch 0, []) typedTwice).any (fun r =>
      r.2 = [.accepted "a" 0, .accepted "ab" (1 / 8), .emitted "ab" (3 / 8)]) = true := by
    decide +kernel
  obtain ⟨⟨s, log⟩, hrun, rfl⟩ := Runs.exec_of_any hrun
  exact ⟨s, hrun, (debounce_exact (1 / 4) 0 typedTwice s _ (by decide) hrun).1⟩

end DebounceSink

end Spotify
