import Spotify.Login.Navigation

/-!
# Spotify.Login.Accounts — whose tokens and whose profile a launch finds

The scene's `LoginViewModel` with the client and the manager it runs on, over the store that outlives the
process.  An attempt stores the tokens in one step and the profile in a later one, so a launch in between
opens the search screen of the account signed in before.  `owner` gives the account of an access token;
`launch_shows_owner_iff` says which answers may arrive when.
-/

namespace Spotify

/-- The closures that take a `Bool`. -/
inductive TokenCaller where
  /-- of `LoginViewModel.fetchToken` -/
  | fetchToken (attempt : ℕ)
  | other
  deriving DecidableEq

structure SigninApp where
  client : APIClient TokenCaller
  login : LoginViewModel
  /-- the attempt whose `login` made a call of the client -/
  loginOf : ℕ → Option ℕ

inductive SigninLabel where
  /-- a sign-in redirect carrying a code -/
  | code (code : String)
  /-- a call of the client that no login makes -/
  | call (endpoint : Endpoint)
  | refreshToken
  /-- `SearchViewModel.signout` -/
  | signout
  | tokenResponse (task : ℕ) (outcome : Outcome AuthenticationResponse)
  | response (task : ℕ) (outcome : Outcome Payload)
  | tick (now : Date)
  /-- the process is terminated and another one started -/
  | relaunch

namespace SigninApp

variable (F : Foundation)

def launch (d : UserDefaults) (t : Date) : SigninApp :=
  ⟨.launch d t, LoginViewModel.init, fun _ => none⟩

def defaults (s : SigninApp) : UserDefaults := s.client.auth.defaults

def mapDefaults (f : UserDefaults → UserDefaults) (s : SigninApp) : SigninApp :=
  { s with client := { s.client with auth := { s.client.auth with defaults := f s.client.auth.defaults } } }

/-- The call that `login` makes. -/
def getUserProfile (attempt : ℕ) (s : SigninApp) : SigninApp :=
  match s.client.getUserProfile F with
  | none => s
  | some client =>
    { s with
      client := client
      loginOf := Function.update s.loginOf s.client.nextCall (some attempt) }

/-- A call made by the completions of `fetchToken` and `login`; the events go to the screens. -/
def runLoginCall (attempt : ℕ) (s : SigninApp) : LoginCall → SigninApp
  | .getUserProfile => s.getUserProfile F attempt
  | .saveUser user => s.mapDefaults (UserDefaults.saveUser · user)
  | _ => s

def runLogin (attempt : ℕ) (r : LoginViewModel × List LoginCall) (s : SigninApp) : SigninApp :=
  r.2.foldl (runLoginCall F attempt) { s with login := r.1 }

/-- A completion that the manager calls. -/
def runCall (s : SigninApp) : Call APICall TokenCaller → SigninApp
  | .token call token => { s with client := s.client.resumeOne F (.token call token) }
  | .success (.fetchToken attempt) success =>
    s.runLogin F attempt (s.login.fetchTokenCompletion attempt success)
  | .success .other _ => s

def runAuth (l : AuthLabel APICall TokenCaller) (s : SigninApp) : Option SigninApp :=
  (s.client.auth.step F l).map fun r =>
    r.2.foldl (runCall F) { s with client := { s.client with auth := r.1 } }

/-- `SearchViewModel.signout`; its closure clears the saved user. -/
def signout (s : SigninApp) : SigninApp :=
  let r := s.client.auth.signout .other
  r.2.foldl (fun s call =>
    match call with
    | .success _ true => s.mapDefaults UserDefaults.clearUser
    | _ => s) { s with client := { s.client with auth := r.1 } }

/-- The completion of a call of the client; the other screens do not write the store. -/
def completion (call : APICall) (result : Except APIError Payload) (s : SigninApp) : SigninApp :=
  match s.loginOf call.id, result with
  | some attempt, .ok (.userProfile user) =>
    s.runLogin F attempt (s.login.loginCompletion attempt (.ok user))
  | some attempt, .error error => s.runLogin F attempt (s.login.loginCompletion attempt (.error error))
  | _, _ => s

def step (s : SigninApp) : SigninLabel → Option SigninApp
  | .code code =>
    ({ s with login := (s.login.fetchToken code).1 } : SigninApp).runAuth F
      (.generateToken code (.fetchToken s.login.attempts.next))
  | .call endpoint => (s.client.step F (.call endpoint)).map fun client => { s with client := client }
  | .refreshToken => s.runAuth F (.refreshToken .other)
  | .signout => some s.signout
  | .tokenResponse task outcome => s.runAuth F (.response task outcome)
  | .response task outcome =>
    (s.client.tasks.find? task).bind fun t =>
      (s.client.step F (.response task outcome)).map fun client =>
        ({ s with client := client } : SigninApp).completion F t.call (t.call.endpoint.handler outcome)
  | .tick now => s.runAuth F (.tick now)
  | .relaunch => some (launch s.defaults s.client.auth.now)

/-! ### The account on display and the account of the tokens -/

variable (owner : String → String)

/-- A launch that opens the search screen opens that of the account whose access token is stored. -/
def ShowsOwner (d : UserDefaults) : Prop :=
  ∀ user, (Navigation.launch d).stack = [.search user] →
    ∃ token, d.accessToken = some token ∧ user.id = owner token

/-- The server's part: a profile is that of the account whose token the request carried. -/
def Honest (s : SigninApp) (l : SigninLabel) : Prop :=
  ∀ task user t token, l = .response task (.decoded (.userProfile user)) →
    s.client.tasks.find? task = some t → F.apiRequest t.call token = some t.request →
      user.id = owner token

/-- The data task `task` answers a call that `login` made. -/
def AnswersLogin (s : SigninApp) (task : ℕ) : Prop :=
  ∃ t attempt, s.client.tasks.find? task = some t ∧ s.loginOf t.call.id = some attempt

/-- Tokens arrive while the saved user is their account's or there is none, and the profile of an attempt
while the stored access token is its account's or there is none. -/
def Owned (s : SigninApp) : SigninLabel → Prop
  | .tokenResponse _ (.decoded result) =>
    ∀ user, s.defaults.getUser = some user → user.id = owner result.accessToken
  | .response task (.decoded (.userProfile user)) => s.AnswersLogin task →
    ∀ token, s.defaults.accessToken = some token → user.id = owner token
  | _ => True

variable {F owner} {s s' : SigninApp} {d : UserDefaults}

theorem showsOwner_iff : ShowsOwner owner d ↔
    ∀ user token, d.user = some user → d.accessToken = some token → user.id = owner token := by
  obtain ⟨accessToken, refreshToken, expirationDate, saved⟩ := d
  constructor
  · intro h user token hu ht
    cases hu
    cases ht
    obtain ⟨token, ht, hid⟩ := h user.signedin rfl
    cases ht
    exact hid
  · intro h user hs
    cases accessToken with
    | none => cases hs
    | some token =>
      cases saved with
      | none => cases hs
      | some u =>
        cases hs
        exact ⟨token, rfl, h u token rfl rfl⟩

/-! ### What the steps write -/

/-- The store after a step. -/
def written (s : SigninApp) : SigninLabel → UserDefaults
  | .signout => .empty
  | .tokenResponse _ (.decoded result) => s.defaults.cacheToken result s.client.auth.now
  | .response task (.decoded (.userProfile user)) =>
    match (s.client.tasks.find? task).bind fun t => s.loginOf t.call.id with
    | none => s.defaults
    | some _ => s.defaults.saveUser user
  | _ => s.defaults

theorem defaults_validateToke {k : APICall} {m m' : AuthenticationManager APICall TokenCaller}
    {out : List (Call APICall TokenCaller)} (h : m.step F (.validateToke k) = some (m', out)) :
    m'.defaults = m.defaults := by
  cases AuthenticationManager.step_effect h with
  | refreshStarted | queued | delivered | dropped => rfl

theorem defaults_call {client : APIClient TokenCaller} {e : Endpoint}
    (h : s.client.step F (.call e) = some client) : client.auth.defaults = s.defaults := by
  obtain ⟨la, m, out, hla, hm, rfl⟩ | ⟨task, t, o, hl, -⟩ := APIClient.step_inv h
  · cases hla
    rw [(APIClient.resume_spec _ out).1]
    exact defaults_validateToke hm
  · cases hl

theorem defaults_getUserProfile (attempt : ℕ) : (s.getUserProfile F attempt).defaults = s.defaults := by
  unfold getUserProfile
  cases h : s.client.getUserProfile F with
  | none => rfl
  | some client => exact defaults_call (e := .getUserProfile) h

theorem defaults_tokenCompletion (attempt : ℕ) (success : Bool) :
    (s.runLogin F attempt (s.login.fetchTokenCompletion attempt success)).defaults = s.defaults := by
  cases success with
  | true => exact defaults_getUserProfile attempt
  | false => rfl

/-- The completions that the manager calls leave the store alone. -/
theorem defaults_runCalls (out : List (Call APICall TokenCaller)) :
    (out.foldl (runCall F) s).defaults = s.defaults := by
  induction out generalizing s with
  | nil => rfl
  | cons call out ih =>
    refine ih.trans ?_
    cases call with
    | token k token =>
      have := (APIClient.resume_spec (F := F) s.client [.token k token]).1
      exact congrArg AuthenticationManager.defaults this
    | success c b =>
      cases c with
      | fetchToken attempt => exact defaults_tokenCompletion attempt b
      | other => rfl

theorem runAuth_inv {l : AuthLabel APICall TokenCaller} (h : s.runAuth F l = some s') :
    ∃ m out, AuthenticationManager.Effect s.client.auth l m out ∧ s'.defaults = m.defaults := by
  obtain ⟨r, hr, rfl⟩ := Option.map_eq_some_iff.mp h
  exact ⟨r.1, r.2, AuthenticationManager.step_effect hr, defaults_runCalls r.2⟩

theorem defaults_completion (call : APICall) (result : Except APIError Payload) :
    (s.completion F call result).defaults = match s.loginOf call.id, result with
      | some _, .ok (.userProfile user) => s.defaults.saveUser user
      | _, _ => s.defaults := by
  unfold completion
  cases s.loginOf call.id with
  | none => cases result <;> rfl
  | some attempt =>
    cases result with
    | error error => rfl
    | ok payload => cases payload <;> rfl

theorem client_response {task : ℕ} {o : Outcome Payload} {t : DataTask} {client : APIClient TokenCaller}
    (ht : s.client.tasks.find? task = some t) (h : s.client.step F (.response task o) = some client) :
    client.auth = s.client.auth := by
  simp only [APIClient.step, ht] at h
  split at h
  · cases h
    rfl
  · cases h

/-- **What a step writes.** -/
theorem step_written {l : SigninLabel} (h : s.step F l = some s') : s'.defaults = written s l := by
  cases l with
  | code code =>
    obtain ⟨m, out, he, hd⟩ := runAuth_inv h
    rw [hd]
    cases he with
    | loginStarted => rfl
    | refreshStarted _ _ _ hl => rcases hl with ⟨b, hl, -⟩ | ⟨k, hl, -⟩ <;> cases hl
  | call e =>
    obtain ⟨client, hc, rfl⟩ := Option.map_eq_some_iff.mp h
    exact defaults_call hc
  | refreshToken =>
    obtain ⟨m, out, he, hd⟩ := runAuth_inv h
    rw [hd]
    cases he with
    | refreshReturned | refreshStarted => rfl
  | signout =>
    cases h
    rfl
  | tokenResponse task o =>
    obtain ⟨m, out, he, hd⟩ := runAuth_inv h
    rw [hd]
    cases o with
    | decoded result => exact he.defaults_of_decoded
    | networkError => exact he.defaults_of_failed (by simp)
    | undecodable text => exact he.defaults_of_failed (by simp)
  | response task o =>
    obtain ⟨t, ht, h⟩ := Option.bind_eq_some_iff.mp h
    obtain ⟨client, hc, rfl⟩ := Option.map_eq_some_iff.mp h
    have hd : ({ s with client := client } : SigninApp).defaults = s.defaults :=
      congrArg AuthenticationManager.defaults (client_response ht hc)
    rw [defaults_completion, hd]
    unfold written
    cases o with
    | networkError =>
      obtain ⟨error, he⟩ := t.call.endpoint.handler_failed (o := .networkError) (by simp)
      rw [he]
      cases s.loginOf t.call.id <;> rfl
    | undecodable text =>
      obtain ⟨error, he⟩ := t.call.endpoint.handler_failed (o := .undecodable text) (by simp)
      rw [he]
      cases s.loginOf t.call.id <;> rfl
    | decoded payload =>
      rw [t.call.endpoint.handler_decoded]
      cases payload <;> simp only [ht, Option.bind_some] <;> cases s.loginOf t.call.id <;> rfl
  | tick now =>
    obtain ⟨m, out, he, hd⟩ := runAuth_inv h
    rw [hd]
    cases he with
    | ticked => rfl
    | refreshStarted _ _ _ hl => rcases hl with ⟨b, hl, -⟩ | ⟨k, hl, -⟩ <;> cases hl
  | relaunch =>
    cases h
    rfl

/-! ### Runs -/

/-- One step keeps the accounts together exactly when what it stores may arrive. -/
theorem showsOwner_written (hs : ShowsOwner owner s.defaults) (l : SigninLabel) :
    ShowsOwner owner (s.written l) ↔ s.Owned owner l := by
  have hkeep : ∀ {l : SigninLabel}, s.written l = s.defaults → s.Owned owner l →
      (ShowsOwner owner (s.written l) ↔ s.Owned owner l) := fun hw hO => by
    rw [hw]
    exact iff_of_true hs hO
  cases l with
  | code | call | refreshToken | tick | relaunch => exact hkeep rfl trivial
  | signout => exact iff_of_true (showsOwner_iff.mpr fun user token hu => by cases hu) trivial
  | tokenResponse task o =>
    cases o with
    | networkError | undecodable => exact hkeep rfl trivial
    | decoded result =>
      rw [showsOwner_iff]
      constructor
      · exact fun h user hu => h user result.accessToken hu rfl
      · rintro h user token hu ht
        cases ht
        exact h user hu
  | response task o =>
    cases o with
    | networkError | undecodable => exact hkeep rfl trivial
    | decoded payload =>
      cases payload with
      | artists | album => exact hkeep rfl trivial
      | userProfile user =>
        cases hl : (s.client.tasks.find? task).bind fun t => s.loginOf t.call.id with
        | none =>
          refine hkeep (by simp only [written, hl]) ?_
          rintro ⟨t, attempt, ht, hattempt⟩
          rw [ht, Option.bind_some, hattempt] at hl
          cases hl
        | some attempt =>
          obtain ⟨t, ht, hattempt⟩ := Option.bind_eq_some_iff.mp hl
          rw [showsOwner_iff]
          simp only [written, hl]
          constructor
          · exact fun h _ token htok => h user token rfl htok
          · rintro h u token hu htok
            cases hu
            exact h ⟨t, attempt, ht, hattempt⟩ token htok

/-- **The accounts of a launch.**  From the first launch, whatever the orders, failures and terminations:
every launch that opens the search screen opens that of the account whose access token is stored, exactly
when every decoded answer arrives beside an account of its own. -/
theorem launch_shows_owner_iff (F : Foundation) (owner : String → String) (t : Date)
    (ls : List SigninLabel) :
    Runs.Always (step F) (fun s => ShowsOwner owner s.defaults) (launch .empty t) ls ↔
      Runs.EachStep (step F) (fun s l _ => s.Owned owner l) (launch .empty t) ls := by
  refine Runs.always_iff_eachStep (fun _ h => h) ?_ ?_ ?_
  · intro s l s' hs hR h
    rw [step_written h]
    exact (showsOwner_written hs l).mpr hR
  · intro s l s' hs h hs'
    rw [step_written h] at hs'
    exact (showsOwner_written hs l).mp hs'
  · exact showsOwner_iff.mpr fun user token hu => by cases hu

/-- The token that a request carries is determined. -/
theorem apiRequest_inj {k : APICall} {a b : String} {request : URLRequest}
    (ha : F.apiRequest k a = some request) (hb : F.apiRequest k b = some request) : a = b := by
  unfold Foundation.apiRequest at ha hb
  cases hurl : F.url k.endpoint.urlString with
  | none => simp [hurl] at ha
  | some url =>
    simp only [hurl, Option.some.injEq] at ha hb
    have h := congrArg URLRequest.allHTTPHeaderFields (ha.trans hb.symm)
    simpa using h

/-- Tokens that are the names of their accounts: the profile is that of the token carried. -/
def honestHere (F : Foundation) (s : SigninApp) : SigninLabel → Bool
  | .response task (.decoded (.userProfile user)) =>
    (s.client.tasks.find? task).all fun t => F.apiRequest t.call user.id = some t.request
  | _ => true

theorem honest_of_here {l : SigninLabel} (h : honestHere F s l = true) : s.Honest F id l := by
  rintro task user t token rfl ht htok
  simp only [honestHere, ht, Option.all_some, decide_eq_true_eq] at h
  exact apiRequest_inj h htok

/-- A second sign-in whose tokens are stored when the process ends: the next launch opens the search screen
of the first account, with the tokens of the second. -/
theorem launch_between_tokens_and_profile :
    ¬ ∀ (F : Foundation) (owner : String → String) (t : Date) (ls : List SigninLabel),
      Runs.EachStep (step F) (fun s l _ => s.Honest F owner l) (launch .empty t) ls →
        Runs.Always (step F) (fun s => ShowsOwner owner s.defaults) (launch .empty t) ls := by
  intro h
  let run : List SigninLabel :=
    [.code "a", .tokenResponse 0 (.decoded ⟨"A", 3600, some "RA", "", ""⟩),
      .response 0 (.decoded (.userProfile ⟨none, "Alice", none, "A", []⟩)),
      .code "b", .tokenResponse 1 (.decoded ⟨"B", 3600, some "RB", "", ""⟩), .relaunch]
  have hrun := h .ascii id 0 run
    (Runs.eachStep_of_check (q := honestHere .ascii) (fun _ _ _ => honest_of_here) (by decide +kernel))
  obtain ⟨s, hs, htok, huser⟩ : ∃ s, Runs.exec (step .ascii) (launch .empty 0) run = some s ∧
      s.defaults.accessToken = some "B" ∧ s.defaults.user = some ⟨none, "Alice", none, "A", []⟩ :=
    Runs.exec_of_any (by decide +kernel)
  have hid := showsOwner_iff.mp (hrun.last hs) _ _ huser htok
  revert hid
  decide

end SigninApp

end Spotify
