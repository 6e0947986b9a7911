import Spotify.Auth.SingleFlight
import Mathlib.Algebra.Order.Ring.Cast

/-!
# Spotify.Auth.Fresh — the tokens handed to `validateToke` callers

A token reaches a caller on three paths: from the store at the call, from the response to the callers in
the queue, and from the store again to the caller that started the refresh.  The getter takes a missing
expiration date for one that is never due, so all three rest on `Dated`: a stored token has its date
(`tokens_fresh`).
-/

namespace Spotify.AuthenticationManager

variable {κ β : Type} {F : Foundation} {m m' : AuthenticationManager κ β}

/-- `token` is the stored access token, and it expires in more than 300 seconds. -/
def Current (m : AuthenticationManager κ β) (token : String) : Prop :=
  m.defaults.accessToken = some token ∧
    ∃ date, m.defaults.expirationDate = some date ∧ m.now + 300 < date

/-- A decoded response is valid for more than 300 seconds. -/
def LongLived (l : AuthLabel κ β) : Prop := ∀ id r, l = .response id (.decoded r) → 300 < r.expiresIn

/-- A stored access token has its expiration date. -/
def Dated (m : AuthenticationManager κ β) : Prop :=
  m.defaults.accessToken ≠ none → m.defaults.expirationDate ≠ none

theorem Dated.effect {l : AuthLabel κ β} {out : List (Call κ β)} (h : Dated m) (he : Effect m l m' out) :
    Dated m' := by
  cases he with
  | loginStarted | refreshReturned | refreshStarted | queued | delivered | dropped | ticked => exact h
  | loginFailed | refreshFailed => exact h
  | signedOut c =>
    intro htok
    exact absurd rfl htok
  | loginSucceeded id r q c hid =>
    intro _
    simp [UserDefaults.cacheToken]
  | refreshSucceeded id r q c hid =>
    intro _
    simp [UserDefaults.cacheToken]

/-- What `shouldRefreshToken` says of a token that has its date. -/
theorem current_of_fresh (h : Dated m) (hdue : m.shouldRefreshToken = false) {token : String}
    (htok : m.defaults.accessToken = some token) : Current m token := by
  have hdate : m.defaults.expirationDate ≠ none := h (by rw [htok]; simp)
  obtain ⟨date, hdate⟩ := Option.ne_none_iff_exists'.mp hdate
  refine ⟨htok, date, hdate, ?_⟩
  unfold shouldRefreshToken UserDefaults.shouldRefreshToken at hdue
  rw [hdate] at hdue
  exact not_le.mp (of_decide_eq_false hdue)

/-- The store after a response that is valid for more than 300 seconds. -/
theorem current_of_cached {r : AuthenticationResponse} (hr : 300 < r.expiresIn)
    (hd : m'.defaults = m.defaults.cacheToken r m.now) (hnow : m'.now = m.now) :
    Current m' r.accessToken := by
  have hlong : (300 : ℚ) < r.expiresIn := by exact_mod_cast hr
  refine ⟨by rw [hd]; rfl, m.now + r.expiresIn, by rw [hd]; rfl, ?_⟩
  rw [hnow]
  exact add_lt_add_right hlong m.now

/-- The closure of `validateToke` hands out the token it finds in the store. -/
theorem stored_of_mem_run {d : UserDefaults} {b : Bool} {c : RefreshCompletion κ β} {k : κ}
    {token : String} (h : .token k token ∈ c.run d b) : d.accessToken = some token := by
  cases c with
  | caller completion => simp [RefreshCompletion.run] at h
  | validateToke completion =>
    cases hstored : d.accessToken with
    | none => simp [RefreshCompletion.run, hstored] at h
    | some stored =>
      cases b with
      | false => simp [RefreshCompletion.run] at h
      | true =>
        simp only [RefreshCompletion.run, hstored, List.mem_singleton, Call.token.injEq] at h
        rw [h.2]

/-- One step: whichever path a token takes, it is the stored one and not due. -/
theorem Effect.current {l : AuthLabel κ β} {out : List (Call κ β)} (he : Effect m l m' out)
    (h : Dated m) (hl : LongLived l) {k : κ} {token : String} (hout : .token k token ∈ out) :
    Current m' token := by
  cases he with
  | loginStarted | refreshStarted | queued | dropped | ticked => cases hout
  | signedOut | loginSucceeded | loginFailed => simp at hout
  | refreshReturned c out hno => rcases hno with rfl | rfl <;> simp at hout
  | delivered k' token' hr hdue htok =>
    obtain ⟨-, rfl⟩ : k = k' ∧ token = token' := by simpa using hout
    exact current_of_fresh h hdue htok
  | refreshSucceeded id r q c hid =>
    have hcur : ∀ u : AuthenticationManager κ β, u.defaults = m.defaults.cacheToken r m.now →
        u.now = m.now → Current u r.accessToken := fun u => current_of_cached (hl id r rfl)
    rcases List.mem_append.mp hout with hqueue | hstarter
    · obtain ⟨k', -, heq⟩ := List.mem_map.mp hqueue
      cases heq
      exact hcur _ rfl rfl
    · have hstored := stored_of_mem_run hstarter
      rw [UserDefaults.accessToken_cacheToken] at hstored
      cases hstored
      exact hcur _ rfl rfl
  | refreshFailed id o q c hid ho =>
    cases c with
    | validateToke completion => simp [RefreshCompletion.run] at hout
    | caller completion => simp [RefreshCompletion.run] at hout

/-- **Only fresh, current tokens are handed out.**  In every run from an empty token store whose decoded
responses are valid for more than 300 seconds, a token handed to a `validateToke` caller is the access
token stored at that moment, and its expiration date is present and more than 300 seconds ahead. -/
theorem tokens_fresh (F : Foundation) (user : Option UserProfile) (t : Date)
    (ls : List (AuthLabel κ β)) (l : AuthLabel κ β) (m m' : AuthenticationManager κ β)
    (out : List (Call κ β)) (hlong : ∀ l' ∈ ls ++ [l], LongLived l')
    (hrun : Runs.exec (next F) (launch ⟨none, none, none, user⟩ t) ls = some m)
    (hstep : step F m l = some (m', out)) :
    ∀ k token, .token k token ∈ out → Current m' token := by
  have hdated : Dated m := by
    refine Runs.exec_inv (fun s l s' hs hl => ?_) (fun h => absurd rfl h) hrun
    obtain ⟨out, he⟩ := next_effect hl
    exact hs.effect he
  intro k token hout
  exact (step_effect hstep).current hdated (hlong l (by simp)) hout

/-- After a login the token falls due; caller 1 starts a refresh and caller 2 waits for it. -/
def refreshRun : List (AuthLabel ℕ ℕ) :=
  [.generateToken "code" 9,
    .response 0 (.decoded ⟨"old", 3600, some "refresh", "user-read-private", "Bearer"⟩), .tick 3500,
    .validateToke 1, .validateToke 2]

/-- The answer hands both callers a token that is stored and fresh. -/
theorem refreshed_token_fresh : ∃ m m' out,
    Runs.exec (next Foundation.ascii) (launch UserDefaults.empty 0) refreshRun = some m ∧
    step Foundation.ascii m (.response 1 (.decoded freshResponse)) = some (m', out) ∧
    .token 1 "new" ∈ out ∧ .token 2 "new" ∈ out ∧ Current m' "new" := by
  have hrun : (Runs.exec (next Foundation.ascii) (launch UserDefaults.empty 0) refreshRun).any
      (fun m => (step Foundation.ascii m (.response 1 (.decoded freshResponse))).any fun r =>
        decide (.token 1 "new" ∈ r.2) && decide (.token 2 "new" ∈ r.2)) = true := by decide +kernel
  obtain ⟨m, hm, hrun⟩ := (Option.any_eq_true _ _).mp hrun
  obtain ⟨⟨m', out⟩, hstep, hout⟩ := (Option.any_eq_true _ _).mp hrun
  obtain ⟨hstarter, hqueued⟩ : .token 1 "new" ∈ out ∧ .token 2 "new" ∈ out := by simpa using hout
  have hlong : ∀ l ∈ refreshRun ++ [.response 1 (.decoded freshResponse)], LongLived l := by
    simp [refreshRun, LongLived, freshResponse]
  exact ⟨m, m', out, hm, hstep, hstarter, hqueued,
    tokens_fresh Foundation.ascii none 0 _ _ _ _ _ hlong hm hstep 2 "new" hqueued⟩

end Spotify.AuthenticationManager
