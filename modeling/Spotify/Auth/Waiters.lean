import Spotify.Auth.SingleFlight

/-!
# Spotify.Auth.Waiters — who is left in the queue

`validateToke` appends to the array `refresh` while a refresh is in flight, and only a decoded answer
empties it.  `QueueDrained` therefore holds along a run exactly when no refresh fails while somebody waits
(`queueDrained_iff`); under that condition a waiter is resumed by the exchange it was queued behind.
-/

namespace Spotify.AuthenticationManager

variable {κ β : Type} {F : Foundation} {m m' : AuthenticationManager κ β}

/-- No waiter outlives the refresh it waited for. -/
def QueueDrained (m : AuthenticationManager κ β) : Prop := m.isRefreshing = false → m.refresh = []

instance [DecidableEq κ] : DecidablePred (QueueDrained (κ := κ) (β := β)) :=
  fun m => inferInstanceAs (Decidable (m.isRefreshing = false → m.refresh = []))

/-- If the label is a failed answer of a refresh exchange, the queue is empty. -/
def FailsAlone (m : AuthenticationManager κ β) (l : AuthLabel κ β) : Prop :=
  ∀ id o q c, l = .response id o → m.tasks.find? id = some (.refreshToken q c) →
    (∀ r, o ≠ .decoded r) → m.refresh = []

/-- `behind` names, for each completion queued here, the refresh exchange in flight. -/
def NamesExchange (behind : κ → ℕ) (m : AuthenticationManager κ β) (l : AuthLabel κ β) : Prop :=
  ∀ k id q c, l = .validateToke k → m.tasks.find? id = some (.refreshToken q c) → behind k = id

/-- A waiter that this step resumes is resumed by the answer of the exchange it was queued behind. -/
def ResumedByOwn (F : Foundation) (behind : κ → ℕ) (m : AuthenticationManager κ β)
    (l : AuthLabel κ β) : Prop :=
  ∀ m' out k t, step F m l = some (m', out) → k ∈ m.refresh → Call.token k t ∈ out →
    ∃ r, l = .response (behind k) (.decoded r)

theorem queueDrained_effect {l : AuthLabel κ β} {out : List (Call κ β)} (h : QueueDrained m)
    (hg : FailsAlone m l) (he : Effect m l m' out) : QueueDrained m' := by
  cases he with
  | loginStarted | refreshReturned | delivered | dropped | signedOut | ticked
  | loginSucceeded | loginFailed => exact h
  | refreshStarted => exact fun hr => by cases hr
  | queued k hr => exact fun hr' => absurd (hr.symm.trans hr') (by decide)
  | refreshSucceeded => exact fun _ => rfl
  | refreshFailed id o q c hid ho => exact fun _ => hg id o q c rfl hid ho

/-- A failed answer that finds waiters leaves them behind. -/
theorem failsAlone_of_queueDrained {l : AuthLabel κ β} {out : List (Call κ β)}
    (he : Effect m l m' out) (h' : QueueDrained m') : FailsAlone m l := by
  rintro id o q c rfl hid ho
  obtain ⟨ex, hex, h⟩ := he.response_eq
  rw [hid] at hex
  cases hex
  cases o with
  | decoded r => exact absurd rfl (ho r)
  | networkError | undecodable =>
    cases h
    exact h' rfl

/-- The waiters of a drained queue all stand behind the exchange in flight. -/
def QueuedBehind (behind : κ → ℕ) (m : AuthenticationManager κ β) : Prop :=
  ∀ k ∈ m.refresh, ∀ id q c, m.tasks.find? id = some (.refreshToken q c) → behind k = id

theorem queuedBehind_effect {behind : κ → ℕ} {l : AuthLabel κ β} {out : List (Call κ β)}
    (hd : QueueDrained m) (h : QueuedBehind behind m) (hg : NamesExchange behind m l)
    (he : Effect m l m' out) : QueuedBehind behind m' := by
  cases he with
  | loginStarted code c request =>
    intro k hk id q c' hid
    rw [Pool.find?_start] at hid
    split at hid
    · cases hid
    · exact h k hk id q c' hid
  | refreshStarted _ _ _ _ hr =>
    intro k hk
    rw [hd hr] at hk
    cases hk
  | queued k hr =>
    intro k' hk' id q c hid
    rcases List.mem_append.mp hk' with hk' | hk'
    · exact h k' hk' id q c hid
    · rw [List.mem_singleton.mp hk']
      exact hg k id q c rfl hid
  | refreshReturned | delivered | dropped | signedOut | ticked => exact h
  | loginSucceeded | loginFailed | refreshFailed =>
    intro k hk id q c hid
    exact h k hk id q c (Pool.find?_finish_eq_some.mp hid).2
  | refreshSucceeded => exact fun k hk => absurd hk List.not_mem_nil

theorem token_mem_run {k : κ} {t : String} {d : UserDefaults} {c : RefreshCompletion κ β} :
    Call.token k t ∉ (c.run d false : List (Call κ β)) := by
  cases c with
  | validateToke k' => simp [RefreshCompletion.run]
  | caller b => simp [RefreshCompletion.run]

theorem resumedByOwn_of_queuedBehind {behind : κ → ℕ} {l : AuthLabel κ β} (hd : QueueDrained m)
    (h : QueuedBehind behind m) : ResumedByOwn F behind m l := by
  intro m' out k t hl hk ht
  cases step_effect hl with
  | delivered k' _ hr =>
    rw [hd hr] at hk
    cases hk
  | refreshReturned c out hout => rcases hout with rfl | rfl <;> simp at ht
  | refreshSucceeded id r q c hid => exact ⟨r, by rw [h k hk id q c hid]⟩
  | refreshFailed => exact absurd ht token_mem_run
  | loginStarted | refreshStarted | queued | dropped | signedOut | loginSucceeded | loginFailed
  | ticked => simp at ht

/-- **When no waiter outlives its refresh.**  In a run from launch the queue is empty in every state
without a refresh in flight if and only if every failed answer of a refresh exchange finds the queue
empty.  In such a run, whatever identifiers `behind` gives the completions as long as it names the
exchange in flight for a completion being queued, a queued completion is only resumed by the decoded
answer of the exchange it was queued behind. -/
theorem queueDrained_iff (F : Foundation) (d : UserDefaults) (t : Date) (ls : List (AuthLabel κ β)) :
    (Runs.Always (next F) QueueDrained (launch d t) ls ↔
      Runs.EachStep (next F) (fun m l _ => FailsAlone m l) (launch d t) ls) ∧
    (Runs.EachStep (next F) (fun m l _ => FailsAlone m l) (launch d t) ls →
      ∀ behind : κ → ℕ,
        Runs.EachStep (next F) (fun m l _ => NamesExchange behind m l) (launch d t) ls →
        Runs.EachStep (next F) (fun m l _ => ResumedByOwn F behind m l) (launch d t) ls) := by
  have h0 : QueueDrained (launch d t : AuthenticationManager κ β) := fun _ => rfl
  constructor
  · refine Runs.always_iff_eachStep (I := QueueDrained) (fun _ h => h) ?_ ?_ h0
    · intro m l m' h hg hl
      obtain ⟨out, he⟩ := next_effect hl
      exact queueDrained_effect h hg he
    · intro m l m' _ hl h'
      obtain ⟨out, he⟩ := next_effect hl
      exact failsAlone_of_queueDrained he h'
  · intro hg behind hn p l m m' hp hm hl
    have hinv : Runs.Always (next F) (fun m => QueueDrained m ∧ QueuedBehind behind m)
        (launch d t) ls := by
      refine Runs.always_of_eachStep ?_ ⟨h0, fun k hk => absurd hk List.not_mem_nil⟩ (hg.and hn)
      rintro m l m' ⟨hd, hb⟩ ⟨hf, hne⟩ hl
      obtain ⟨out, he⟩ := next_effect hl
      exact ⟨queueDrained_effect hd hf he, queuedBehind_effect hd hb hne he⟩
    obtain ⟨hd, hb⟩ := hinv p m ((List.prefix_append p [l]).trans hp) hm
    exact resumedByOwn_of_queuedBehind hd hb

/-- Caller 2 waits behind the refresh of caller 1, which fails; caller 2 stays in the queue and the
success of the next refresh, started by caller 3, resumes it. -/
theorem waiter_outlives_refresh :
    ¬ Runs.Always (next Foundation.ascii) QueueDrained
      (launch dueStore 1000 : AuthenticationManager ℕ ℕ)
      [.validateToke 1, .validateToke 2, .response 0 .networkError] ∧
    (Runs.exec (Runs.logged (step Foundation.ascii))
      ((launch dueStore 1000, []) : AuthenticationManager ℕ ℕ × List (Call ℕ ℕ))
      [.validateToke 1, .validateToke 2, .response 0 .networkError, .validateToke 3,
        .response 1 (.decoded freshResponse)]).map Prod.snd =
      some [.token 2 "new", .token 3 "new"] :=
  ⟨Runs.not_always_of_exec (by decide +kernel), by decide +kernel⟩

end Spotify.AuthenticationManager
