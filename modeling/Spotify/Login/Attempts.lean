import Spotify.Lib.Refinement
import Spotify.Login.Linked
import Spotify.Login.Outcomes

/-!
# Spotify.Login.Attempts — the login attempts of a running app

`LoginViewModel` allows a completion only while an attempt waits for it.  In the app this is so without being
asked for: from one launch to the end of the process, the steps of the app make a run of the view model
(`logins_refine`).
-/

namespace Spotify.SigninApp

variable {F : Foundation} {s s' : SigninApp}

deriving instance DecidableEq for LoginLabel

/-- The steps of one process. -/
def process (F : Foundation) (s : SigninApp) : SigninLabel → Option SigninApp
  | .relaunch => none
  | l => s.step F l

/-! ### The steps of the view model -/

def isDecoded {α : Type} : Outcome α → Bool
  | .decoded _ => true
  | _ => false

/-- The answers that the completion of `login` tells apart. -/
def profileResult : Except APIError Payload → Option (Except APIError UserProfile)
  | .ok (.userProfile user) => some (.ok user)
  | .ok _ => none
  | .error error => some (.error error)

/-- What a step is for the view model. -/
def loginLabels (s : SigninApp) : SigninLabel → List LoginLabel
  | .code code => [.code code]
  | .tokenResponse task outcome =>
    match s.client.auth.tasks.find? task with
    | some (.generateToken _ (.fetchToken attempt)) => [.generateToken attempt (isDecoded outcome)]
    | _ => []
  | .response task outcome =>
    match s.client.tasks.find? task with
    | none => []
    | some t =>
      match s.loginOf t.call.id, profileResult (t.call.endpoint.handler outcome) with
      | some attempt, some result => [.getUserProfile attempt result]
      | _, _ => []
  | _ => []

/-! ### The completions -/

theorem completion_eq (call : APICall) (result : Except APIError Payload) :
    s.completion F call result = match s.loginOf call.id, profileResult result with
      | some attempt, some result => s.runLogin F attempt (s.login.loginCompletion attempt result)
      | _, _ => s := by
  unfold completion
  cases s.loginOf call.id with
  | none => rfl
  | some attempt =>
    cases result with
    | error error => rfl
    | ok payload => cases payload <;> rfl

/-- What the manager calls without a login is the client's business alone. -/
theorem runCalls_eq {out : List (Call APICall TokenCaller)}
    (hout : ∀ attempt success, .success (.fetchToken attempt) success ∉ out) :
    out.foldl (runCall F) s = { s with client := s.client.resume F out } := by
  induction out generalizing s with
  | nil => rfl
  | cons call out ih =>
    have hrest : ∀ attempt success, .success (.fetchToken attempt) success ∉ out :=
      fun attempt success h => hout attempt success (List.mem_cons_of_mem call h)
    have hone : s.runCall F call = { s with client := s.client.resumeOne F call } := by
      cases call with
      | token k token => rfl
      | success c success =>
        cases c with
        | fetchToken attempt => exact absurd List.mem_cons_self (hout attempt success)
        | other => rfl
    rw [List.foldl_cons, hone, ih hrest]
    rfl

/-- A step of the manager that ends no login is a step of the client. -/
theorem runAuth_client {la : AuthLabel APICall TokenCaller} (hla : ∀ k, la ≠ .validateToke k)
    (hquiet : ∀ m out, s.client.auth.step F la = some (m, out) →
      ∀ attempt success, .success (.fetchToken attempt) success ∉ out)
    (h : s.runAuth F la = some s') :
    ∃ client, s.client.step F (.auth la) = some client ∧ s' = { s with client := client } := by
  obtain ⟨⟨m, out⟩, hr, rfl⟩ := Option.map_eq_some_iff.mp h
  refine ⟨_, ?_, runCalls_eq (hquiet m out hr)⟩
  have hclient : s.client.step F (.auth la) = s.client.runAuth F la := by
    cases la with
    | validateToke k => exact absurd rfl (hla k)
    | generateToken | refreshToken | signout | response | tick => rfl
  rw [hclient, APIClient.runAuth, hr]
  rfl

/-! ### Runs -/

/-- The completion of `login` ends the attempt, and at most saves the profile. -/
theorem runLogin_completion (attempt : ℕ) (result : Except APIError UserProfile) :
    (s.login.loginCompletion attempt result).1.attempts = s.login.attempts.finish attempt ∧
    ∃ f, s.runLogin F attempt (s.login.loginCompletion attempt result) =
      ({ s with login := (s.login.loginCompletion attempt result).1 } : SigninApp).mapDefaults f := by
  cases result with
  | error error => exact ⟨rfl, id, rfl⟩
  | ok user => exact ⟨rfl, (UserDefaults.saveUser · user), rfl⟩

/-- The client can always be called. -/
theorem getUserProfile_eq : ∃ client, s.client.step F (.call .getUserProfile) = some client ∧
    ∀ attempt, s.getUserProfile F attempt = { s with
      client := client
      loginOf := Function.update s.loginOf s.client.nextCall (some attempt) } :=
  ⟨_, rfl, fun _ => rfl⟩

/-- The answer that a login is waiting for is a profile or an error. -/
theorem Linked.profileResult_eq (hs : Linked s) {task : ℕ} {t : DataTask} {o : Outcome Payload} {attempt : ℕ}
    (ht : s.client.tasks.find? task = some t) (ha : s.loginOf t.call.id = some attempt)
    (ho : t.call.endpoint.accepts o = true) :
    ∃ result, profileResult (t.call.endpoint.handler o) = some result := by
  have hlive : t.call ∈ s.client.live :=
    List.mem_append_right _ (APIClient.mem_collect_call.mpr ⟨task, t, ht, rfl⟩)
  have hendpoint : t.call.endpoint = .getUserProfile :=
    hs.profile t.call hlive (by rw [ha]; exact Option.some_ne_none attempt)
  rw [hendpoint] at ho ⊢
  cases o with
  | networkError => exact ⟨_, rfl⟩
  | undecodable text => cases text <;> exact ⟨_, rfl⟩
  | decoded payload =>
    cases payload with
    | userProfile user => exact ⟨_, rfl⟩
    | artists result => cases ho
    | album result => cases ho

/-- What the manager calls when it ends no login. -/
theorem Linked.quiet (hs : Linked s) {la : AuthLabel APICall TokenCaller}
    {m : AuthenticationManager APICall TokenCaller} {out : List (Call APICall TokenCaller)}
    (he : AuthenticationManager.Effect s.client.auth la m out)
    (hother : ∀ c, la = .refreshToken c → c = .other) (hsignout : ∀ c, la ≠ .signout c)
    (hr : ∀ task o, la = .response task o → ∀ request attempt,
      s.client.auth.tasks.find? task ≠ some (.generateToken request (.fetchToken attempt))) :
    ∀ attempt success, .success (.fetchToken attempt) success ∉ out := by
  have hrun : ∀ {task : ℕ} {request : URLRequest} {c : RefreshCompletion APICall TokenCaller} {d : UserDefaults}
      {b : Bool}, s.client.auth.tasks.find? task = some (.refreshToken request c) →
      ∀ attempt success, .success (.fetchToken attempt) success ∉ (c.run d b : List (Call APICall TokenCaller)) := by
    intro task request c d b htask attempt success hmem
    cases c with
    | caller c =>
      have hc := hs.callers task request c htask
      subst hc
      cases List.mem_singleton.mp hmem
    | validateToke k =>
      simp only [RefreshCompletion.run] at hmem
      split at hmem
      · cases List.mem_singleton.mp hmem
      · cases hmem
  intro attempt success hmem
  cases he with
  | loginStarted | refreshStarted | queued | dropped | ticked => cases hmem
  | refreshReturned c out hout =>
    have hc := hother c rfl
    subst hc
    rcases hout with rfl | rfl
    · cases hmem
    · cases List.mem_singleton.mp hmem
  | delivered k token => cases List.mem_singleton.mp hmem
  | signedOut c => exact hsignout c rfl
  | loginSucceeded id r request c hid =>
    cases List.mem_singleton.mp hmem
    exact hr id _ rfl request attempt hid
  | loginFailed id o request c hid =>
    cases List.mem_singleton.mp hmem
    exact hr id _ rfl request attempt hid
  | refreshSucceeded id r request c hid =>
    rcases List.mem_append.mp hmem with htoken | hrest
    · obtain ⟨k, -, hk⟩ := List.mem_map.mp htoken
      cases hk
    · exact hrun hid attempt success hrest
  | refreshFailed id o request c hid => exact hrun hid attempt success hmem

/-- The manager does something that starts and ends no login. -/
theorem Linked.runAuth (hs : Linked s) {la : AuthLabel APICall TokenCaller} (hk : ∀ k, la ≠ .validateToke k)
    (hl : ∀ code c, la ≠ .generateToken code c) (hsignout : ∀ c, la ≠ .signout c)
    (hother : ∀ c, la = .refreshToken c → c = .other)
    (hr : ∀ task o, la = .response task o → ∀ request attempt,
      s.client.auth.tasks.find? task ≠ some (.generateToken request (.fetchToken attempt)))
    (h : s.runAuth F la = some s') : Linked s' ∧ s'.login = s.login := by
  obtain ⟨client, hc, rfl⟩ := runAuth_client hk
    (fun m out hm => hs.quiet (AuthenticationManager.step_effect hm) hother hsignout hr) h
  have hla : s.client.authLabel (.auth la) = some la := by
    cases la with
    | validateToke k => exact absurd rfl (hk k)
    | generateToken | refreshToken | signout | response | tick => rfl
  exact ⟨hs.managed hla hc hl hother hr, rfl⟩

/-- A code is accepted. -/
theorem Linked.code (hs : Linked s) {code : String} (h : s.step F (.code code) = some s') :
    Linked s' ∧ s'.login = (s.login.fetchToken code).1 := by
  have hauth : ({ s with login := (s.login.fetchToken code).1 } : SigninApp).runAuth F
      (.generateToken code (.fetchToken s.login.attempts.next)) = some s' := h
  obtain ⟨request, heq⟩ := AuthenticationManager.generateToken_eq (F := F) (m := s.client.auth) code
    (TokenCaller.fetchToken s.login.attempts.next)
  have hquiet : ∀ m out, s.client.auth.step F (.generateToken code (.fetchToken s.login.attempts.next)) =
      some (m, out) → ∀ attempt success, .success (.fetchToken attempt) success ∉ out := by
    intro m out hm
    have hout := (Option.some.inj hm).symm.trans heq
    rw [(Prod.mk.inj hout).2]
    exact fun _ _ => List.not_mem_nil
  obtain ⟨client, hc, hs'⟩ := runAuth_client (fun _ h => by cases h)
    (show ∀ m out, ({ s with login := (s.login.fetchToken code).1 } : SigninApp).client.auth.step F
      (.generateToken code (.fetchToken s.login.attempts.next)) = some (m, out) → _ from hquiet) hauth
  rw [hs']
  exact ⟨hs.started hc, rfl⟩

/-- The exchange of an attempt is answered, and its completion runs. -/
theorem Linked.fetched (hs : Linked s) {task attempt : ℕ} {request : URLRequest} {o : Outcome AuthenticationResponse}
    (hx : s.client.auth.tasks.find? task = some (.generateToken request (.fetchToken attempt)))
    (h : s.runAuth F (.response task o) = some s') :
    Linked s' ∧ s'.login = (s.login.fetchTokenCompletion attempt (isDecoded o)).1 := by
  obtain ⟨⟨m, out⟩, hm, rfl⟩ := Option.map_eq_some_iff.mp h
  have hout : out = [.success (.fetchToken attempt) (isDecoded o)] := by
    have hhandler : some ((({ s.client.auth with
        tasks := s.client.auth.tasks.finish task } : AuthenticationManager APICall TokenCaller).handler o
          (.generateToken request (.fetchToken attempt)))) = some (m, out) := by
      rw [← hm, AuthenticationManager.step, hx]
      rfl
    cases o <;> cases hhandler <;> rfl
  subst hout
  have hc : s.client.step F (.auth (.response task o)) = some { s.client with auth := m } := by
    show s.client.runAuth F (.response task o) = _
    rw [APIClient.runAuth, hm]
    rfl
  cases hdecoded : isDecoded o with
  | false => exact ⟨hs.tokenFailed ⟨request, hx⟩ hc, rfl⟩
  | true =>
    obtain ⟨client, hc', hget⟩ := getUserProfile_eq (F := F) (s := { s with
      client := { s.client with auth := m }
      login := { s.login with attempts := s.login.attempts.update attempt LoginAttempt.toLogin } })
    have hlinked := hs.tokenFetched ⟨request, hx⟩ hc hc'
    have hend : List.foldl (runCall F) { s with client := { s.client with auth := m } }
        [.success (.fetchToken attempt) true] = ({ s with
          client := { s.client with auth := m }
          login := { s.login with attempts := s.login.attempts.update attempt LoginAttempt.toLogin } } :
            SigninApp).getUserProfile F attempt := rfl
    rw [hend, hget]
    exact ⟨hlinked, rfl⟩

/-- A call of the client is answered, and the completion that made it runs. -/
theorem Linked.response (hs : Linked s) {task : ℕ} {o : Outcome Payload} (h : s.step F (.response task o) = some s') :
    Linked s' ∧ ∃ t, s.client.tasks.find? task = some t ∧
      ((s.loginOf t.call.id = none ∧ s'.login = s.login) ∨
        ∃ attempt result, s.loginOf t.call.id = some attempt ∧
          profileResult (t.call.endpoint.handler o) = some result ∧
          s'.login = (s.login.loginCompletion attempt result).1) := by
  obtain ⟨t, ht, h⟩ := Option.bind_eq_some_iff.mp h
  obtain ⟨client, hc, rfl⟩ := Option.map_eq_some_iff.mp h
  rw [completion_eq]
  cases ha : s.loginOf t.call.id with
  | none =>
    refine ⟨hs.answered ht hc rfl ?_, t, ht, .inl ⟨ha, rfl⟩⟩
    intro attempt
    rw [ha, if_neg (by simp)]
  | some attempt =>
    obtain ⟨t', ht', ho, -⟩ := APIClient.step_response hc
    obtain rfl : t = t' := Option.some.inj (ht.symm.trans ht')
    obtain ⟨result, hresult⟩ := hs.profileResult_eq ht ha ho
    simp only [hresult]
    obtain ⟨hattempts, f, hrun⟩ := runLogin_completion (F := F) (s := { s with client := client }) attempt result
    rw [hrun]
    have hattempts' : (s.login.loginCompletion attempt result).1.attempts = s.login.attempts.finish attempt :=
      hattempts
    have hlinked : Linked { s with client := client, login := (s.login.loginCompletion attempt result).1 } := by
      refine hs.answered ht hc ?_ fun attempt' => ?_
      · rw [hattempts']
        rfl
      · rw [hattempts', Pool.find?_finish, ha]
        simp [eq_comm]
    exact ⟨hlinked.mapDefaults f, t, ht, .inr ⟨attempt, result, ha, hresult, rfl⟩⟩

/-- **The app refines the view model.**  Each step of a process is matched by the steps of the view model that
it stands for. -/
theorem simulates (F : Foundation) : Runs.Simulates (process F) (Runs.logged LoginViewModel.step) loginLabels
    (fun s r => Linked s ∧ r.1 = s.login) := by
  rintro s ⟨vm, log⟩ l s' ⟨hs, hvm⟩ h
  obtain rfl : vm = s.login := hvm
  -- a step that is none of the view model's
  have silent : loginLabels s l = [] → Linked s' → s'.login = s.login →
      ∃ v, Runs.exec (Runs.logged LoginViewModel.step) (s.login, log) (loginLabels s l) = some v ∧
        Linked s' ∧ v.1 = s'.login := by
    intro hl hlinked hlogin
    rw [hl]
    exact ⟨_, rfl, hlinked, hlogin.symm⟩
  -- a step of the view model
  have single : ∀ (label : LoginLabel) {r : LoginViewModel × List LoginCall}, loginLabels s l = [label] →
      s.login.step label = some r → Linked s' → s'.login = r.1 →
      ∃ v, Runs.exec (Runs.logged LoginViewModel.step) (s.login, log) (loginLabels s l) = some v ∧
        Linked s' ∧ v.1 = s'.login := by
    intro label r hl hr hlinked hlogin
    rw [hl]
    refine ⟨(r.1, log ++ r.2), ?_, hlinked, hlogin.symm⟩
    exact Runs.exec_logged_cons.mpr ⟨r.1, r.2, hr, rfl⟩
  cases l with
  | code code =>
    obtain ⟨hlinked, hlogin⟩ := hs.code h
    exact single (.code code) rfl rfl hlinked hlogin
  | call endpoint =>
    obtain ⟨client, hc, rfl⟩ := Option.map_eq_some_iff.mp h
    have hlinked := hs.managed rfl hc (fun _ _ h => by cases h) (fun _ h => by cases h) fun _ _ h => by cases h
    exact silent rfl hlinked rfl
  | refreshToken =>
    have hauth : s.runAuth F (.refreshToken .other) = some s' := h
    obtain ⟨hlinked, hlogin⟩ := hs.runAuth (fun _ h => by cases h) (fun _ _ h => by cases h)
      (fun _ h => by cases h) (fun _ h => by cases h; rfl) (fun _ _ h => by cases h) hauth
    exact silent rfl hlinked hlogin
  | signout =>
    cases h
    exact silent rfl (hs.mapDefaults fun d => d.signout.clearUser) rfl
  | tokenResponse task o =>
    have hauth : s.runAuth F (.response task o) = some s' := h
    by_cases hx : ∃ request attempt,
        s.client.auth.tasks.find? task = some (.generateToken request (.fetchToken attempt))
    · obtain ⟨request, attempt, hx⟩ := hx
      obtain ⟨hlinked, hlogin⟩ := hs.fetched hx hauth
      obtain ⟨code, hcode⟩ := (hs.exchanging attempt).mp ⟨task, request, hx⟩
      refine single (.generateToken attempt (isDecoded o)) ?_ ?_ hlinked hlogin
      · simp only [loginLabels, hx]
      · simp only [LoginViewModel.step, hcode]
    · have hno : ∀ request attempt,
          s.client.auth.tasks.find? task ≠ some (.generateToken request (.fetchToken attempt)) :=
        fun request attempt h => hx ⟨request, attempt, h⟩
      obtain ⟨hlinked, hlogin⟩ := hs.runAuth (fun _ h => by cases h) (fun _ _ h => by cases h)
        (fun _ h => by cases h) (fun _ h => by cases h) (fun _ _ h => by cases h; exact hno) hauth
      refine silent ?_ hlinked hlogin
      unfold loginLabels
      dsimp only
      split
      · rename_i request attempt hfind
        exact absurd hfind (hno request attempt)
      · rfl
  | response task o =>
    obtain ⟨hlinked, t, ht, ⟨ha, hlogin⟩ | ⟨attempt, result, ha, hresult, hlogin⟩⟩ := hs.response h
    · refine silent ?_ hlinked hlogin
      simp only [loginLabels, ht, ha]
    · obtain ⟨code, hcode⟩ := (hs.fetching attempt).mp ⟨t.call.id, ha, hs.ledger.not_answered ht⟩
      refine single (.getUserProfile attempt result) ?_ ?_ hlinked hlogin
      · simp only [loginLabels, ht, ha, hresult]
      · simp only [LoginViewModel.step, hcode]
  | tick now =>
    have hauth : s.runAuth F (.tick now) = some s' := h
    obtain ⟨hlinked, hlogin⟩ := hs.runAuth (fun _ h => by cases h) (fun _ _ h => by cases h)
      (fun _ h => by cases h) (fun _ h => by cases h) (fun _ _ h => by cases h) hauth
    exact silent rfl hlinked hlogin
  | relaunch => cases h

/-- The code of a redirect. -/
def redirected : SigninLabel → Option String
  | .code code => some code
  | _ => none

/-- Only a redirect starts an attempt. -/
theorem accepted_loginLabels (s : SigninApp) (l : SigninLabel) :
    (loginLabels s l).filterMap LoginViewModel.accepted = (redirected l).toList := by
  cases l with
  | code | call | refreshToken | signout | tick | relaunch => rfl
  | tokenResponse task o =>
    unfold loginLabels
    dsimp only
    split <;> rfl
  | response task o =>
    unfold loginLabels
    dsimp only
    split
    · rfl
    · split <;> rfl

theorem Linked.exec (ls : List SigninLabel) {d : UserDefaults} {t : Date}
    (h : Runs.exec (process F) (launch d t) ls = some s) :
    ∃ log, Runs.exec (Runs.logged LoginViewModel.step) (LoginViewModel.init, [])
      (Runs.trace (process F) loginLabels (launch d t) ls) = some (s.login, log) ∧ Linked s := by
  obtain ⟨⟨vm, log⟩, hrun, hs, hvm⟩ :=
    (simulates F).exec (u := (LoginViewModel.init, [])) ⟨linked_launch d t, rfl⟩ h
  obtain rfl : vm = s.login := hvm
  exact ⟨log, hrun, hs⟩

/-- **The login attempts of a process.**  Over the manager and the client, in whatever order exchanges and calls
end, the completions of every process make a run of the view model: each is called for an attempt that waits
for it.  The codes accepted are those of the redirects, an attempt waits for its token exactly when one
exchange in flight is its own, and for its profile exactly when one unanswered call is. -/
theorem logins_refine (F : Foundation) (d : UserDefaults) (t : Date) (ls : List SigninLabel) (s : SigninApp)
    (h : Runs.exec (process F) (launch d t) ls = some s) :
    (∃ log, Runs.exec (Runs.logged LoginViewModel.step) (LoginViewModel.init, [])
      (Runs.trace (process F) loginLabels (launch d t) ls) = some (s.login, log)) ∧
    (Runs.trace (process F) loginLabels (launch d t) ls).filterMap LoginViewModel.accepted =
      ls.filterMap redirected ∧
    ∀ attempt,
      ((∃ code, s.login.attempts.find? attempt = some ⟨code, .fetchToken⟩) ↔ ∃! task, s.Exchanging task attempt) ∧
      ((∃ code, s.login.attempts.find? attempt = some ⟨code, .login⟩) ↔ ∃! call, s.Fetching call attempt) := by
  obtain ⟨log, hrun, hs⟩ := Linked.exec ls h
  refine ⟨⟨log, hrun⟩, Runs.filterMap_trace (fun s l _ _ => accepted_loginLabels s l) h, fun attempt => ⟨?_, ?_⟩⟩
  · rw [← hs.exchanging attempt]
    constructor
    · rintro ⟨task, htask⟩
      exact ⟨task, htask, fun task' htask' => hs.exchange_unique task' task attempt htask' htask⟩
    · exact fun h => h.exists
  · rw [← hs.fetching attempt]
    constructor
    · rintro ⟨call, hcall⟩
      exact ⟨call, hcall, fun call' hcall' => hs.call_unique call' call attempt hcall'.1 hcall.1⟩
    · exact fun h => h.exists

/-- Two redirects, and the second token is there first. -/
def twoRedirects : List SigninLabel :=
  [.code "a", .code "b", .tokenResponse 1 (.decoded ⟨"B", 3600, some "RB", "", ""⟩), .tokenResponse 0 .networkError]

/-- The second attempt has called the client, and the first one is over. -/
theorem twoRedirects_refine : ∃ s log, Runs.exec (process .ascii) (launch .empty 0) twoRedirects = some s ∧
    Runs.exec (Runs.logged LoginViewModel.step) (LoginViewModel.init, [])
      [.code "a", .code "b", .generateToken 1 true, .generateToken 0 false] = some (s.login, log) ∧
    (∃! call, s.Fetching call 1) ∧ ¬ ∃! task, s.Exchanging task 0 := by
  obtain ⟨s, hs, h1, h0⟩ : ∃ s, Runs.exec (process .ascii) (launch .empty 0) twoRedirects = some s ∧
      s.login.attempts.find? 1 = some ⟨"b", .login⟩ ∧ s.login.attempts.find? 0 = none :=
    Runs.exec_of_any (by decide +kernel)
  obtain ⟨⟨log, hrun⟩, -, hwaits⟩ := logins_refine .ascii .empty 0 twoRedirects s hs
  have htrace : Runs.trace (process .ascii) loginLabels (launch .empty 0) twoRedirects =
      [.code "a", .code "b", .generateToken 1 true, .generateToken 0 false] := by decide +kernel
  rw [htrace] at hrun
  refine ⟨s, log, hs, hrun, (hwaits 1).2.mp ⟨"b", h1⟩, fun hno => ?_⟩
  obtain ⟨code, hcode⟩ := (hwaits 0).1.mpr hno
  rw [h0] at hcode
  cases hcode

end Spotify.SigninApp
