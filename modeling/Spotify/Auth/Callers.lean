import Spotify.Auth.SingleFlight

/-!
# Spotify.Auth.Callers — where a completion handed to `validateToke` lives

A completion is called at once, waits in the array `refresh`, or is captured by the refresh exchange that
its call started; the early returns and a failed answer drop it.  `Effect.callers_perm` is the
conservation law: what a step finds and receives is what it keeps, calls and drops.
-/

namespace Spotify.AuthenticationManager

variable {κ β : Type} {F : Foundation} {m m' : AuthenticationManager κ β}

/-- The completion of the `validateToke` call that started the exchange. -/
def initiator : Exchange κ β → Option κ
  | .refreshToken _ (.validateToke completion) => some completion
  | _ => none

/-- The completions that the manager still holds. -/
def holders (m : AuthenticationManager κ β) : List κ := m.refresh ++ m.tasks.collect initiator

/-- The completions called, each with its token. -/
def resumed (out : List (Call κ β)) : List κ :=
  out.filterMap fun
    | .token completion _ => some completion
    | .success _ _ => none

/-- The completion that a step drops: that of a call which finds no token to hand out and none to
refresh with, or that of the call whose refresh fails. -/
def lost (m : AuthenticationManager κ β) : AuthLabel κ β → List κ
  | .validateToke completion =>
    if m.isRefreshing = false ∧
        (if m.shouldRefreshToken then m.defaults.refreshToken else m.defaults.accessToken) = none
      then [completion] else []
  | .response task .networkError | .response task (.undecodable _) =>
    ((m.tasks.find? task).bind initiator).toList
  | _ => []

@[simp] theorem resumed_nil : resumed ([] : List (Call κ β)) = [] := rfl

theorem resumed_append (out out' : List (Call κ β)) :
    resumed (out ++ out') = resumed out ++ resumed out' := List.filterMap_append

theorem resumed_map_token (ks : List κ) (t : String) :
    resumed (ks.map (Call.token · t) : List (Call κ β)) = ks := by
  simp [resumed, List.filterMap_map]

theorem resumed_run_true {d : UserDefaults} {t : String} (h : d.accessToken = some t)
    (q : URLRequest) (c : RefreshCompletion κ β) :
    resumed (c.run d true : List (Call κ β)) = (initiator (.refreshToken q c)).toList := by
  cases c <;> simp [RefreshCompletion.run, h, resumed, initiator]

theorem resumed_run_false {d : UserDefaults} (c : RefreshCompletion κ β) :
    resumed (c.run d false : List (Call κ β)) = [] := by
  cases c <;> simp [RefreshCompletion.run, resumed]

/-- Finishing an exchange that no `validateToke` call started. -/
theorem holders_finish {id : ℕ} {ex : Exchange κ β} (hid : m.tasks.find? id = some ex) :
    (holders m).Perm (m.refresh ++ ((initiator ex).toList ++ (m.tasks.finish id).collect initiator)) :=
  (Pool.perm_collect_finish initiator hid).append_left m.refresh

theorem lost_of_failed {id : ℕ} {o : Outcome AuthenticationResponse} (ho : ∀ r, o ≠ .decoded r) :
    lost m (.response id o) = ((m.tasks.find? id).bind initiator).toList := by
  cases o with
  | decoded r => exact absurd rfl (ho r)
  | networkError | undecodable => rfl

/-- **Conservation of callers.**  The completions held before a step and the one it receives are, up to
order, those held afterwards, those called and those dropped. -/
theorem Effect.callers_perm {l : AuthLabel κ β} {out : List (Call κ β)} (he : Effect m l m' out) :
    (holders m ++ callers [l]).Perm (holders m' ++ (resumed out ++ lost m l)) := by
  cases he with
  | loginStarted code c request =>
    simp [holders, Pool.collect_start, initiator, callers, lost]
  | refreshReturned c out hout =>
    have : resumed out = [] := by rcases hout with rfl | rfl <;> rfl
    simp [this, callers, lost]
  | refreshStarted _ c request hl hr hdue htok =>
    rcases hl with ⟨b, rfl, rfl⟩ | ⟨k, rfl, rfl⟩
    · simp [holders, Pool.collect_start, initiator, callers, lost]
    · simp [holders, Pool.collect_start, initiator, callers, lost, hr, hdue, htok]
  | queued k hr =>
    simp only [holders, callers, lost, hr]
    simp only [List.filterMap_cons, List.filterMap_nil, resumed_nil, Bool.true_eq_false, false_and,
      if_false, List.append_nil, List.append_assoc]
    exact List.perm_append_comm.append_left m.refresh
  | delivered k token hr hdue htok => simp [callers, lost, hr, hdue, htok, resumed]
  | dropped k hr hno =>
    have hnone : (if m.shouldRefreshToken then m.defaults.refreshToken
        else m.defaults.accessToken) = none := by
      rcases hno with ⟨hdue, h⟩ | ⟨hdue, h⟩ <;> simp [hdue, h]
    simp [callers, lost, hr, hnone]
  | signedOut c => simp [holders, callers, lost, resumed]
  | ticked t => simp [holders, callers, lost]
  | loginSucceeded id r q c hid =>
    simpa [holders, lost, resumed, initiator] using holders_finish hid
  | loginFailed id o q c hid ho =>
    rw [lost_of_failed ho, hid]
    simpa [holders, resumed, initiator] using holders_finish hid
  | refreshSucceeded id r q c hid =>
    rw [resumed_append, resumed_map_token, resumed_run_true (UserDefaults.accessToken_cacheToken _ _) q,
      callers_response, List.append_nil]
    refine (holders_finish hid).trans ?_
    simp only [holders, lost, List.nil_append, List.append_nil]
    rw [← List.append_assoc]
    exact List.perm_append_comm
  | refreshFailed id o q c hid ho =>
    rw [lost_of_failed ho, hid, resumed_run_false, callers_response, List.append_nil]
    refine (holders_finish hid).trans ?_
    simp only [holders, Option.bind_some, List.nil_append, List.append_assoc]
    exact List.perm_append_comm.append_left m.refresh

end Spotify.AuthenticationManager
