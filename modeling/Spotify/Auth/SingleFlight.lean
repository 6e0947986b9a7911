import Spotify.Auth.Manager

/-!
# Spotify.Auth.SingleFlight — at most one refresh exchange, whose success reaches everyone

`SingleFlight`: the flag `isRefreshing` is up exactly while one refresh exchange is in flight.  From it,
`refresh_window`: while that exchange is in flight every `validateToke` call joins the queue and nobody is
handed a token, so its success finds exactly the callers that arrived since.
-/

namespace Spotify.AuthenticationManager

variable {κ β : Type} {F : Foundation} {m m' : AuthenticationManager κ β}

/-- The flag counts the refresh exchanges in flight. -/
def SingleFlight (m : AuthenticationManager κ β) : Prop :=
  m.tasks.count Exchange.isRefresh = if m.isRefreshing then 1 else 0

theorem singleFlight_launch (d : UserDefaults) (t : Date) :
    SingleFlight (launch d t : AuthenticationManager κ β) := rfl

theorem SingleFlight.effect {l : AuthLabel κ β} {out : List (Call κ β)} (h : SingleFlight m)
    (he : Effect m l m' out) : SingleFlight m' := by
  unfold SingleFlight at h ⊢
  cases he with
  | loginStarted code c request =>
    rw [Pool.count_start, h]
    rfl
  | refreshStarted _ c request _ hr _ _ =>
    rw [Pool.count_start, h, hr]
    rfl
  | refreshReturned | queued | delivered | dropped | signedOut | ticked => exact h
  | loginSucceeded id r request c hid =>
    rw [Pool.count_finish _ hid] at h
    exact h
  | loginFailed id o request c hid _ =>
    rw [Pool.count_finish _ hid] at h
    exact h
  | refreshSucceeded id r request c hid =>
    rw [Pool.count_finish _ hid, Exchange.isRefresh_refreshToken, if_pos rfl] at h
    have h0 : (m.tasks.finish id).count Exchange.isRefresh = 0 := by split at h <;> omega
    exact h0
  | refreshFailed id o request c hid _ =>
    rw [Pool.count_finish _ hid, Exchange.isRefresh_refreshToken, if_pos rfl] at h
    have h0 : (m.tasks.finish id).count Exchange.isRefresh = 0 := by split at h <;> omega
    exact h0

theorem SingleFlight.next {l : AuthLabel κ β} (h : SingleFlight m) (hl : next F m l = some m') :
    SingleFlight m' := by
  obtain ⟨out, he⟩ := next_effect hl
  exact h.effect he

theorem Reachable.singleFlight (h : Reachable F m) : SingleFlight m :=
  Runs.Reachable.inv (by rintro _ ⟨d, t, rfl⟩; exact singleFlight_launch d t)
    (fun _ _ _ hs hl => hs.next hl) h

namespace SingleFlight

theorem count_le_one (h : SingleFlight m) : m.tasks.count Exchange.isRefresh ≤ 1 := by
  rw [h]
  split <;> omega

theorem refreshing_iff (h : SingleFlight m) :
    m.isRefreshing = true ↔ m.tasks.count Exchange.isRefresh = 1 := by
  rw [h]
  cases m.isRefreshing <;> simp

theorem refreshing (h : SingleFlight m) {id : ℕ} {q : URLRequest} {c : RefreshCompletion κ β}
    (hid : m.tasks.find? id = some (.refreshToken q c)) : m.isRefreshing = true := by
  have hpos := Pool.count_pos hid (Exchange.isRefresh_refreshToken q c)
  exact h.refreshing_iff.mpr (by have := h.count_le_one; omega)

theorem eq_id (h : SingleFlight m) {id id' : ℕ} {q q' : URLRequest} {c c' : RefreshCompletion κ β}
    (hid : m.tasks.find? id = some (.refreshToken q c))
    (hid' : m.tasks.find? id' = some (.refreshToken q' c')) : id = id' :=
  Pool.find?_unique h.count_le_one hid hid' rfl rfl

end SingleFlight

/-! ### An exchange stays in flight until it is answered -/

theorem Effect.find?_of_ne {l : AuthLabel κ β} {out : List (Call κ β)} (he : Effect m l m' out)
    {id : ℕ} {ex : Exchange κ β} (h : m.tasks.find? id = some ex) (hl : ∀ o, l ≠ .response id o) :
    m'.tasks.find? id = some ex := by
  cases he with
  | loginStarted | refreshStarted => exact Pool.find?_start_of_some h
  | refreshReturned | queued | delivered | dropped | signedOut | ticked => exact h
  | loginSucceeded id' | loginFailed id' | refreshSucceeded id' | refreshFailed id' =>
    exact Pool.find?_finish_eq_some.mpr ⟨fun e => hl _ (by rw [e]), h⟩

theorem Effect.next_le {l : AuthLabel κ β} {out : List (Call κ β)} (he : Effect m l m' out) :
    m.tasks.next ≤ m'.tasks.next := by
  cases he with
  | loginStarted | refreshStarted => exact Nat.le_succ _
  | _ => exact Nat.le_refl _

/-- Identifiers are not used again. -/
theorem Effect.find?_none {l : AuthLabel κ β} {out : List (Call κ β)} (he : Effect m l m' out)
    {id : ℕ} (h : m.tasks.find? id = none) (hlt : id < m.tasks.next) : m'.tasks.find? id = none := by
  cases he with
  | loginStarted | refreshStarted =>
    rw [Pool.find?_start_of_ne (Nat.ne_of_lt hlt)]
    exact h
  | refreshReturned | queued | delivered | dropped | signedOut | ticked => exact h
  | loginSucceeded | loginFailed | refreshSucceeded | refreshFailed =>
    simp only [Pool.find?_finish, h, ite_self]

theorem Effect.find?_response {id : ℕ} {o : Outcome AuthenticationResponse} {out : List (Call κ β)}
    (he : Effect m (.response id o) m' out) : m'.tasks.find? id = none := by
  obtain ⟨ex, -, h⟩ := he.response_eq
  have htasks := handler_tasks (m := { m with tasks := m.tasks.finish id }) o ex
  rw [h] at htasks
  rw [htasks, Pool.find?_finish, if_pos rfl]

/-- An exchange that is gone stays gone. -/
theorem find?_none_exec {id : ℕ} {ls : List (AuthLabel κ β)} (h : m.tasks.find? id = none)
    (hlt : id < m.tasks.next) (hrun : Runs.exec (AuthenticationManager.next F) m ls = some m') :
    m'.tasks.find? id = none := by
  refine (Runs.exec_inv (I := fun m => m.tasks.find? id = none ∧ id < m.tasks.next) ?_ ⟨h, hlt⟩ hrun).1
  rintro m l m' ⟨h, hlt⟩ hl
  obtain ⟨out, he⟩ := next_effect hl
  exact ⟨he.find?_none h hlt, Nat.lt_of_lt_of_le hlt he.next_le⟩

/-- An exchange in flight is unchanged or gone later. -/
theorem find?_exec {id : ℕ} {ex : Exchange κ β} {ls : List (AuthLabel κ β)}
    (h : m.tasks.find? id = some ex)
    (hrun : Runs.exec (AuthenticationManager.next F) m ls = some m') :
    m'.tasks.find? id = some ex ∨ m'.tasks.find? id = none := by
  induction ls generalizing m with
  | nil => cases hrun; exact .inl h
  | cons l ls ih =>
    obtain ⟨m₁, hl, hrest⟩ := Option.bind_eq_some_iff.mp hrun
    obtain ⟨out, he⟩ := next_effect hl
    by_cases hans : ∃ o, l = .response id o
    · obtain ⟨o, rfl⟩ := hans
      have hlt := Nat.lt_of_lt_of_le (Pool.find?_lt h) he.next_le
      exact .inr (find?_none_exec he.find?_response hlt hrest)
    · exact ih (he.find?_of_ne h fun o ho => hans ⟨o, ho⟩) hrest

/-! ### While a refresh is in flight -/

/-- The completions of the `validateToke` calls among the labels. -/
def callers : List (AuthLabel κ β) → List κ :=
  List.filterMap fun
    | .validateToke completion => some completion
    | _ => none

@[simp] theorem callers_response (id : ℕ) (o : Outcome AuthenticationResponse) :
    callers [(.response id o : AuthLabel κ β)] = [] := rfl

theorem callers_append (ls ls' : List (AuthLabel κ β)) :
    callers (ls ++ ls') = callers ls ++ callers ls' := List.filterMap_append

/-- One step during a refresh: callers join the queue, nobody is handed a token. -/
theorem SingleFlight.effect_during (h : SingleFlight m) {l : AuthLabel κ β} {out : List (Call κ β)}
    (he : Effect m l m' out) {id : ℕ} {q : URLRequest} {c : RefreshCompletion κ β}
    (hid : m.tasks.find? id = some (.refreshToken q c)) (hl : ∀ o, l ≠ .response id o) :
    m'.refresh = m.refresh ++ callers [l] ∧ ∀ k t, Call.token k t ∉ out := by
  have hr := h.refreshing hid
  cases he with
  | loginStarted | signedOut | ticked => simp [callers]
  | refreshReturned c out hout => rcases hout with rfl | rfl <;> simp [callers]
  | queued => simp [callers]
  | refreshStarted _ _ _ _ hr' => rw [hr] at hr'; cases hr'
  | delivered _ _ hr' => rw [hr] at hr'; cases hr'
  | dropped _ hr' => rw [hr] at hr'; cases hr'
  | loginSucceeded | loginFailed => simp [callers]
  | refreshSucceeded id' _ _ _ hid' => exact absurd (by rw [h.eq_id hid hid']) (hl _)
  | refreshFailed id' _ _ _ hid' => exact absurd (by rw [h.eq_id hid hid']) (hl _)

/-- **The window of a refresh.**  A run that leaves the refresh exchange in flight only adds its callers
to the queue, in order, and hands out no token. -/
theorem refresh_window {m₂ : AuthenticationManager κ β} {log log₂ : List (Call κ β)} {id : ℕ}
    {q : URLRequest} {c : RefreshCompletion κ β} {ls : List (AuthLabel κ β)} (h : SingleFlight m)
    (hid : m.tasks.find? id = some (.refreshToken q c))
    (hrun : Runs.exec (Runs.logged (step F)) (m, log) ls = some (m₂, log₂))
    (hid₂ : m₂.tasks.find? id = some (.refreshToken q c)) :
    m₂.refresh = m.refresh ++ callers ls ∧ ∀ k t, Call.token k t ∈ log₂ → Call.token k t ∈ log := by
  induction ls generalizing m log with
  | nil =>
    cases hrun
    exact ⟨by simp [callers], fun _ _ ht => ht⟩
  | cons l ls ih =>
    obtain ⟨m₁, out, hl, hrest⟩ := Runs.exec_logged_cons.mp hrun
    have he := step_effect hl
    -- the exchange is still there at the end, so `l` does not answer it
    have hne : ∀ o, l ≠ .response id o := by
      rintro o rfl
      have hgone := he.find?_response
      have hlt := Nat.lt_of_lt_of_le (Pool.find?_lt hid) he.next_le
      rw [find?_none_exec hgone hlt (Runs.exec_silent_of_logged hrest)] at hid₂
      cases hid₂
    obtain ⟨hq, hno⟩ := h.effect_during he hid hne
    obtain ⟨hq₂, hlog⟩ := ih (h.effect he) (he.find?_of_ne hid hne) hrest
    refine ⟨?_, fun k t ht => ?_⟩
    · rw [hq₂, hq, List.append_assoc, ← callers_append]
      rfl
    · exact (List.mem_append.mp (hlog k t ht)).resolve_right (hno k t)

/-- A refresh exchange that was not there before the step was started by it, for its caller; nobody is called. -/
theorem Effect.refresh_started {l : AuthLabel κ β} {out : List (Call κ β)} (he : Effect m l m' out)
    {id : ℕ} {q : URLRequest} {c : RefreshCompletion κ β} (h : m.tasks.find? id = none)
    (h' : m'.tasks.find? id = some (.refreshToken q c)) : out = [] ∧
    ((∃ b, l = .refreshToken b ∧ c = .caller b) ∨ ∃ k, l = .validateToke k ∧ c = .validateToke k) := by
  cases he with
  | loginStarted =>
    rw [Pool.find?_start] at h'
    split at h'
    · cases h'
    · rw [h] at h'
      cases h'
  | refreshStarted _ _ _ hl =>
    rw [Pool.find?_start] at h'
    split at h'
    · cases h'
      exact ⟨rfl, hl⟩
    · rw [h] at h'
      cases h'
  | refreshReturned | queued | delivered | dropped | signedOut | ticked =>
    rw [h] at h'
    cases h'
  | loginSucceeded | loginFailed | refreshSucceeded | refreshFailed =>
    rw [(Pool.find?_finish_eq_some.mp h').2] at h
    cases h

/-- What the decoded answer of a refresh does. -/
theorem Effect.refresh_answered {id : ℕ} {r : AuthenticationResponse} {out : List (Call κ β)}
    (he : Effect m (.response id (.decoded r)) m' out) {q : URLRequest} {c : RefreshCompletion κ β}
    (hid : m.tasks.find? id = some (.refreshToken q c)) :
    m'.isRefreshing = false ∧ m'.refresh = [] ∧
      out = m.refresh.map (Call.token · r.accessToken) ++
        c.run (m.defaults.cacheToken r m.now) true := by
  obtain ⟨ex, hex, h⟩ := he.response_eq
  rw [hid] at hex
  cases hex
  cases h
  exact ⟨rfl, rfl, rfl⟩

/-- **Token refresh is single-flight and its success reaches everyone.**  In every reachable state the
flag is up exactly when one refresh exchange is in flight, and there are never two.  The step that starts
exchange `id` calls nobody, and from there to its decoded answer nobody is handed a token; the answer hands its
access token to the callers queued meanwhile, in the order of their calls (after the callers that an earlier
failed refresh left in the queue), then to the `validateToke` call that started the exchange, or tells another
caller of `refreshToken` the success, calls nobody else, and leaves the queue empty. -/
theorem refresh_single_flight (F : Foundation) :
    (∀ m : AuthenticationManager κ β, Reachable F m →
      (m.isRefreshing = true ↔ m.tasks.count Exchange.isRefresh = 1) ∧
        m.tasks.count Exchange.isRefresh ≤ 1) ∧
    (∀ (m m₁ m₂ m₃ : AuthenticationManager κ β) (l : AuthLabel κ β) (id : ℕ) (q : URLRequest)
        (c : RefreshCompletion κ β) (ls : List (AuthLabel κ β)) (r : AuthenticationResponse)
        (out₁ log out : List (Call κ β)),
      Reachable F m → m.tasks.find? id = none → step F m l = some (m₁, out₁) →
      m₁.tasks.find? id = some (.refreshToken q c) →
      Runs.exec (Runs.logged (step F)) (m₁, []) ls = some (m₂, log) →
      step F m₂ (.response id (.decoded r)) = some (m₃, out) →
      out₁ = [] ∧ (∀ k t, Call.token k t ∉ log) ∧ m₃.isRefreshing = false ∧ m₃.refresh = [] ∧
      ∃ last, out = (m₁.refresh ++ callers ls).map (Call.token · r.accessToken) ++ last ∧
        ((∃ k, l = .validateToke k ∧ last = [.token k r.accessToken]) ∨
          ∃ b, l = .refreshToken b ∧ last = [.success b true])) := by
  refine ⟨fun m hm => ⟨hm.singleFlight.refreshing_iff, hm.singleFlight.count_le_one⟩, ?_⟩
  intro m m₁ m₂ m₃ l id q c ls r out₁ log out hm hnone hl hid hrun hans
  have he := step_effect hl
  have hid₂ : m₂.tasks.find? id = some (.refreshToken q c) := by
    obtain ⟨ex, hex, -⟩ := Option.map_eq_some_iff.mp hans
    refine (find?_exec hid (Runs.exec_silent_of_logged hrun)).resolve_right fun hno => ?_
    rw [hno] at hex
    cases hex
  obtain ⟨hq, hlog⟩ := refresh_window (hm.singleFlight.effect he) hid hrun hid₂
  obtain ⟨hflag, hempty, hout⟩ := (step_effect hans).refresh_answered hid₂
  obtain ⟨hsilent, hcaller⟩ := he.refresh_started hnone hid
  refine ⟨hsilent, fun k t ht => absurd (hlog k t ht) List.not_mem_nil, hflag, hempty,
    c.run (m₂.defaults.cacheToken r m₂.now) true, ?_, ?_⟩
  · rw [hout, hq]
  · rcases hcaller with ⟨b, rfl, rfl⟩ | ⟨k, rfl, rfl⟩
    · exact .inr ⟨b, rfl, rfl⟩
    · exact .inl ⟨k, rfl, rfl⟩

/-- A store whose token is due for refresh at time 1000. -/
def dueStore : UserDefaults := ⟨some "old", some "refresh", some 0, none⟩

def freshResponse : AuthenticationResponse := ⟨"new", 3600, none, "user-read-private", "Bearer"⟩

theorem dueStore_due : dueStore.shouldRefreshToken 1000 = true := by decide +kernel

/-- Callers 2 and 3 join the refresh that caller 1 started; all three get the new token. -/
theorem refresh_serves_burst : ∃ m : AuthenticationManager ℕ ℕ,
    Runs.exec (Runs.logged (step Foundation.ascii)) (launch dueStore 1000, [])
      [.validateToke 1, .validateToke 2, .tick 1001, .validateToke 3,
        .response 0 (.decoded freshResponse)] =
      some (m, [.token 2 "new", .token 3 "new", .token 1 "new"]) ∧ m.refresh = [] := by
  obtain ⟨q, hl⟩ := step_validateToke_of_due (F := Foundation.ascii) (m := launch dueStore 1000) rfl
    dueStore_due (by decide) (1 : ℕ) (β := ℕ)
  obtain ⟨m₂, hm₂⟩ : ∃ m₂ : AuthenticationManager ℕ ℕ, m₂ =
    ⟨dueStore, true, [2, 3], Pool.empty.start (.refreshToken q (.validateToke 1)), 1001⟩ := ⟨_, rfl⟩
  obtain ⟨m₃, out, hans⟩ : ∃ m₃ out,
      step Foundation.ascii m₂ (.response 0 (.decoded freshResponse)) = some (m₃, out) := by
    rw [hm₂]
    exact ⟨_, _, rfl⟩
  have hrun : Runs.exec (Runs.logged (step Foundation.ascii))
      (⟨dueStore, true, [], Pool.empty.start (.refreshToken q (.validateToke 1)), 1000⟩, [])
      [.validateToke 2, .tick 1001, .validateToke 3] = some (m₂, []) := by
    rw [hm₂]
    rfl
  obtain ⟨-, -, -, hempty, last, hout, hlast⟩ :=
    (refresh_single_flight Foundation.ascii).2 _ _ _ _ _ 0 q _ _ _ _ _ _
      (Runs.Reachable.of_init ⟨dueStore, 1000, rfl⟩) rfl hl rfl hrun hans
  refine ⟨m₃, Runs.exec_logged_cons.mpr ⟨_, _, hl, ?_⟩, hempty⟩
  have := Runs.exec_concat (u := (m₃, out)) hrun (Runs.logged_eq_some.mpr ⟨out, hans, rfl⟩)
  rcases hlast with ⟨k, hk, rfl⟩ | ⟨b, hb, -⟩
  · cases hk
    rw [hout] at this
    exact this
  · cases hb

end Spotify.AuthenticationManager
