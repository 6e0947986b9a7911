import Spotify.Foundation
import Spotify.Models
import Spotify.Lib.Pool
import Spotify.Lib.Runs

/-!
# Spotify.Auth.Manager — `AuthenticationManager`

The token store, the functions of `AuthenticationManager` and the steps of the running object: a call of
one of its functions, the answer of an exchange in flight, a new clock reading.  Callbacks run to their
end within a step.  `κ` stands for the completions handed to `validateToke`, `β` for those that take a
`Bool`; both are opaque here, a step lists the calls it makes in order.

`step_effect` says once what each step can do; later modules never unfold the functions.
-/

namespace Spotify

/-! ### The store -/

/-- The keys of `UserDefaults.standard` that the app writes; `none` where a getter returns `nil`. -/
structure UserDefaults where
  accessToken : Option String
  refreshToken : Option String
  expirationDate : Option Date
  user : Option UserProfile
  deriving DecidableEq

namespace UserDefaults

def empty : UserDefaults := ⟨none, none, none, none⟩

def isSignedIn (d : UserDefaults) : Bool := d.accessToken.isSome

def shouldRefreshToken (d : UserDefaults) (currentDate : Date) : Bool :=
  match d.expirationDate with
  | none => false
  | some tokenExpirationDate => decide (currentDate + 300 ≥ tokenExpirationDate)

/-- `refresh_token` is written only when the response carries one. -/
def cacheToken (d : UserDefaults) (result : AuthenticationResponse) (date : Date) : UserDefaults :=
  { d with
    accessToken := some result.accessToken
    refreshToken := match result.refreshToken with
      | some refreshToken => some refreshToken
      | none => d.refreshToken
    expirationDate := some (date + result.expiresIn) }

def signout (d : UserDefaults) : UserDefaults :=
  { d with accessToken := none, refreshToken := none, expirationDate := none }

def saveUser (d : UserDefaults) (user : UserProfile) : UserDefaults := { d with user := some user }

def clearUser (d : UserDefaults) : UserDefaults := { d with user := none }

def getUser (d : UserDefaults) : Option UserProfile := d.user

/-- No token key is present. -/
def SignedOut (d : UserDefaults) : Prop :=
  d.accessToken = none ∧ d.refreshToken = none ∧ d.expirationDate = none

instance (d : UserDefaults) : Decidable d.SignedOut := inferInstanceAs (Decidable (_ ∧ _ ∧ _))

variable {d : UserDefaults}

@[simp] theorem accessToken_cacheToken (r : AuthenticationResponse) (t : Date) :
    (d.cacheToken r t).accessToken = some r.accessToken := rfl

theorem signedOut_signout : d.signout.SignedOut := ⟨rfl, rfl, rfl⟩

theorem not_signedOut_cacheToken (r : AuthenticationResponse) (t : Date) :
    ¬ (d.cacheToken r t).SignedOut := by
  rintro ⟨h, -, -⟩
  cases h

end UserDefaults

/-! ### The object -/

section Types

variable (κ β : Type)

/-- The closures handed to `refreshToken(completion:)`: the one that `validateToke` makes around its
own completion, or that of another caller. -/
inductive RefreshCompletion where
  | validateToke (completion : κ)
  | caller (completion : β)
  deriving DecidableEq

/-- A data task of the manager, with what its handler captures. -/
inductive Exchange where
  | generateToken (request : URLRequest) (completion : β)
  | refreshToken (request : URLRequest) (completion : RefreshCompletion κ β)
  deriving DecidableEq

/-- A completion being called. -/
inductive Call where
  | token (completion : κ) (token : String)
  | success (completion : β) (success : Bool)
  deriving DecidableEq

/-- The manager with its surroundings: the store, the data tasks in flight and the clock. -/
structure AuthenticationManager where
  defaults : UserDefaults
  isRefreshing : Bool
  refresh : List κ
  tasks : Pool (Exchange κ β)
  now : Date
  deriving DecidableEq

/-- What can happen to the manager. -/
inductive AuthLabel where
  | generateToken (code : String) (completion : β)
  | refreshToken (completion : β)
  | validateToke (completion : κ)
  | signout (completion : β)
  | response (task : ℕ) (outcome : Outcome AuthenticationResponse)
  | tick (now : Date)
  deriving DecidableEq

end Types

variable {κ β : Type}

def Exchange.isRefresh : Exchange κ β → Bool
  | .generateToken _ _ => false
  | .refreshToken _ _ => true

@[simp] theorem Exchange.isRefresh_refreshToken (q : URLRequest) (c : RefreshCompletion κ β) :
    (Exchange.refreshToken q c).isRefresh = true := rfl

/-- Run the closure handed to `refreshToken`; that of `validateToke` reads the token from the store. -/
def RefreshCompletion.run (d : UserDefaults) (success : Bool) : RefreshCompletion κ β → List (Call κ β)
  | .caller completion => [.success completion success]
  | .validateToke completion =>
    match d.accessToken, success with
    | some token, true => [.token completion token]
    | _, _ => []

/-- The POST to the token endpoint, `none` where the credentials do not encode. -/
def Foundation.tokenRequest (F : Foundation) (urlString : URL) (queryItems : List URLQueryItem) :
    Option URLRequest :=
  let headerToken := Constants.clientId ++ ":" ++ Constants.clientSecretId
  match (F.utf8 headerToken).map F.base64EncodedString with
  | none => none
  | some base64 => some {
      url := urlString
      httpMethod := "POST"
      httpBody := (F.query queryItems).bind F.utf8
      allHTTPHeaderFields := [("Content-Type", "application/x-www-form-urlencoded"),
        ("Authorization", "Basic " ++ base64)]
      timeoutInterval := none }

namespace AuthenticationManager

variable (F : Foundation)

def shouldRefreshToken (m : AuthenticationManager κ β) : Bool := m.defaults.shouldRefreshToken m.now

def generateToken (code : String) (completion : β) (m : AuthenticationManager κ β) :
    AuthenticationManager κ β × List (Call κ β) :=
  match F.url Constants.tokenURL with
  | none => (m, [])
  | some urlString =>
    match F.tokenRequest urlString [⟨"grant_type", "authorization_code"⟩, ⟨"code", code⟩,
        ⟨"redirect_uri", "spotifycodetest://returnafterlogin"⟩] with
    | none => (m, [.success completion false])
    | some request => ({ m with tasks := m.tasks.start (.generateToken request completion) }, [])

def refreshToken (completion : RefreshCompletion κ β) (m : AuthenticationManager κ β) :
    AuthenticationManager κ β × List (Call κ β) :=
  if m.isRefreshing then (m, [])
  else if !m.shouldRefreshToken then (m, completion.run m.defaults true)
  else match m.defaults.refreshToken with
  | none => (m, [])
  | some refreshToken =>
    match F.url Constants.tokenURL with
    | none => (m, [])
    | some urlString =>
      let m := { m with isRefreshing := true }
      match F.tokenRequest urlString [⟨"grant_type", "refresh_token"⟩,
          ⟨"refresh_token", refreshToken⟩] with
      | none => (m, completion.run m.defaults false)
      | some request => ({ m with tasks := m.tasks.start (.refreshToken request completion) }, [])

def validateToke (completion : κ) (m : AuthenticationManager κ β) :
    AuthenticationManager κ β × List (Call κ β) :=
  if m.isRefreshing then ({ m with refresh := m.refresh ++ [completion] }, [])
  else if m.shouldRefreshToken then m.refreshToken F (.validateToke completion)
  else match m.defaults.accessToken with
  | some token => (m, [.token completion token])
  | none => (m, [])

def signout (completion : β) (m : AuthenticationManager κ β) :
    AuthenticationManager κ β × List (Call κ β) :=
  ({ m with defaults := m.defaults.signout }, [.success completion true])

/-- The handler of `generateToken`'s data task. -/
def generateTokenHandler (completion : β) (m : AuthenticationManager κ β) :
    Outcome AuthenticationResponse → AuthenticationManager κ β × List (Call κ β)
  | .decoded result =>
    ({ m with defaults := m.defaults.cacheToken result m.now }, [.success completion true])
  | _ => (m, [.success completion false])

/-- The handler of `refreshToken`'s data task: the flag falls on every branch, the queue is drained
only after a decoded response. -/
def refreshTokenHandler (completion : RefreshCompletion κ β) (m : AuthenticationManager κ β) :
    Outcome AuthenticationResponse → AuthenticationManager κ β × List (Call κ β)
  | .decoded result =>
    let m := { m with isRefreshing := false, defaults := m.defaults.cacheToken result m.now }
    ({ m with refresh := [] },
      m.refresh.map (Call.token · result.accessToken) ++ completion.run m.defaults true)
  | _ =>
    let m := { m with isRefreshing := false }
    (m, completion.run m.defaults false)

/-- The handler of a data task. -/
def handler (outcome : Outcome AuthenticationResponse) (m : AuthenticationManager κ β) :
    Exchange κ β → AuthenticationManager κ β × List (Call κ β)
  | .generateToken _ completion => m.generateTokenHandler completion outcome
  | .refreshToken _ completion => m.refreshTokenHandler completion outcome

/-- One step, with the completions it calls; only an exchange in flight can be answered. -/
def step (m : AuthenticationManager κ β) :
    AuthLabel κ β → Option (AuthenticationManager κ β × List (Call κ β))
  | .generateToken code completion => some (m.generateToken F code completion)
  | .refreshToken completion => some (m.refreshToken F (.caller completion))
  | .validateToke completion => some (m.validateToke F completion)
  | .signout completion => some (m.signout completion)
  | .response task outcome =>
    (m.tasks.find? task).map fun exchange =>
      ({ m with tasks := m.tasks.finish task } : AuthenticationManager κ β).handler outcome exchange
  | .tick now => some ({ m with now := now }, [])

/-- The steps without the calls. -/
def next : AuthenticationManager κ β → AuthLabel κ β → Option (AuthenticationManager κ β) :=
  Runs.silent (step F)

/-- The manager of a fresh process, over whatever an earlier one left in the store. -/
def launch (defaults : UserDefaults) (now : Date) : AuthenticationManager κ β :=
  ⟨defaults, false, [], Pool.empty, now⟩

/-- The states of some process. -/
def Reachable (m : AuthenticationManager κ β) : Prop :=
  Runs.Reachable (next F) (fun m0 => ∃ d t, m0 = launch d t) m

/-! ### What a step can do -/

/-- The effects of a step on state and calls, one constructor for each kind. -/
inductive Effect (m : AuthenticationManager κ β) :
    AuthLabel κ β → AuthenticationManager κ β → List (Call κ β) → Prop
  | loginStarted (code : String) (c : β) (request : URLRequest) :
      Effect m (.generateToken code c) { m with tasks := m.tasks.start (.generateToken request c) } []
  | refreshReturned (c : β) (out : List (Call κ β)) (hout : out = [] ∨ out = [.success c true]) :
      Effect m (.refreshToken c) m out
  | refreshStarted (l : AuthLabel κ β) (c : RefreshCompletion κ β) (request : URLRequest)
      (hl : (∃ b, l = .refreshToken b ∧ c = .caller b) ∨ ∃ k, l = .validateToke k ∧ c = .validateToke k)
      (hr : m.isRefreshing = false) (hdue : m.shouldRefreshToken = true)
      (htok : m.defaults.refreshToken ≠ none) :
      Effect m l { m with isRefreshing := true, tasks := m.tasks.start (.refreshToken request c) } []
  | queued (k : κ) (hr : m.isRefreshing = true) :
      Effect m (.validateToke k) { m with refresh := m.refresh ++ [k] } []
  | delivered (k : κ) (token : String) (hr : m.isRefreshing = false)
      (hdue : m.shouldRefreshToken = false) (htok : m.defaults.accessToken = some token) :
      Effect m (.validateToke k) m [.token k token]
  | dropped (k : κ) (hr : m.isRefreshing = false)
      (hno : (m.shouldRefreshToken = true ∧ m.defaults.refreshToken = none) ∨
        (m.shouldRefreshToken = false ∧ m.defaults.accessToken = none)) :
      Effect m (.validateToke k) m []
  | signedOut (c : β) :
      Effect m (.signout c) { m with defaults := m.defaults.signout } [.success c true]
  | loginSucceeded (id : ℕ) (r : AuthenticationResponse) (request : URLRequest) (c : β)
      (hid : m.tasks.find? id = some (.generateToken request c)) :
      Effect m (.response id (.decoded r))
        { m with tasks := m.tasks.finish id, defaults := m.defaults.cacheToken r m.now }
        [.success c true]
  | loginFailed (id : ℕ) (o : Outcome AuthenticationResponse) (request : URLRequest) (c : β)
      (hid : m.tasks.find? id = some (.generateToken request c)) (ho : ∀ r, o ≠ .decoded r) :
      Effect m (.response id o) { m with tasks := m.tasks.finish id } [.success c false]
  | refreshSucceeded (id : ℕ) (r : AuthenticationResponse) (request : URLRequest)
      (c : RefreshCompletion κ β) (hid : m.tasks.find? id = some (.refreshToken request c)) :
      Effect m (.response id (.decoded r))
        { m with tasks := m.tasks.finish id, isRefreshing := false, refresh := []
                 defaults := m.defaults.cacheToken r m.now }
        (m.refresh.map (Call.token · r.accessToken) ++ c.run (m.defaults.cacheToken r m.now) true)
  | refreshFailed (id : ℕ) (o : Outcome AuthenticationResponse) (request : URLRequest)
      (c : RefreshCompletion κ β) (hid : m.tasks.find? id = some (.refreshToken request c))
      (ho : ∀ r, o ≠ .decoded r) :
      Effect m (.response id o) { m with tasks := m.tasks.finish id, isRefreshing := false }
        (c.run m.defaults false)
  | ticked (t : Date) : Effect m (.tick t) { m with now := t } []

end AuthenticationManager

theorem Foundation.url_tokenURL_eq (F : Foundation) : ∃ u, F.url Constants.tokenURL = some u :=
  Option.isSome_iff_exists.mp F.url_tokenURL

/-- The token request can always be built. -/
theorem Foundation.tokenRequest_eq (F : Foundation) (u : URL) (items : List URLQueryItem) :
    ∃ request, F.tokenRequest u items = some request := by
  obtain ⟨data, h⟩ := Option.isSome_iff_exists.mp F.utf8_credentials
  simp only [Foundation.tokenRequest, h, Option.map_some]
  exact ⟨_, rfl⟩

namespace AuthenticationManager

variable {F : Foundation} {m m' : AuthenticationManager κ β}

theorem generateToken_eq (code : String) (c : β) : ∃ request,
    m.generateToken F code c =
      ({ m with tasks := m.tasks.start (.generateToken request c) }, []) := by
  obtain ⟨u, hu⟩ := F.url_tokenURL_eq
  obtain ⟨request, hq⟩ := F.tokenRequest_eq u [⟨"grant_type", "authorization_code"⟩, ⟨"code", code⟩,
    ⟨"redirect_uri", "spotifycodetest://returnafterlogin"⟩]
  refine ⟨request, ?_⟩
  simp only [generateToken, hu, hq]

theorem refreshToken_of_refreshing (hr : m.isRefreshing = true) (c : RefreshCompletion κ β) :
    m.refreshToken F c = (m, []) := by
  rw [refreshToken, if_pos hr]

theorem refreshToken_of_fresh (hr : m.isRefreshing = false) (hdue : m.shouldRefreshToken = false)
    (c : RefreshCompletion κ β) : m.refreshToken F c = (m, c.run m.defaults true) := by
  rw [refreshToken, if_neg (by simp [hr]), if_pos (by simp [hdue])]

theorem refreshToken_of_none (hr : m.isRefreshing = false) (hdue : m.shouldRefreshToken = true)
    (htok : m.defaults.refreshToken = none) (c : RefreshCompletion κ β) :
    m.refreshToken F c = (m, []) := by
  rw [refreshToken, if_neg (by simp [hr]), if_neg (by simp [hdue]), htok]

/-- The exchange that a refresh starts sends the stored refresh token. -/
theorem refreshToken_started (hr : m.isRefreshing = false) (hdue : m.shouldRefreshToken = true)
    {token : String} (htok : m.defaults.refreshToken = some token) (c : RefreshCompletion κ β) :
    ∃ u request, F.url Constants.tokenURL = some u ∧
      F.tokenRequest u [⟨"grant_type", "refresh_token"⟩, ⟨"refresh_token", token⟩] = some request ∧
      m.refreshToken F c =
        ({ m with isRefreshing := true, tasks := m.tasks.start (.refreshToken request c) }, []) := by
  obtain ⟨u, hu⟩ := F.url_tokenURL_eq
  obtain ⟨request, hq⟩ := F.tokenRequest_eq u [⟨"grant_type", "refresh_token"⟩,
    ⟨"refresh_token", token⟩]
  refine ⟨u, request, hu, hq, ?_⟩
  rw [refreshToken, if_neg (by simp [hr]), if_neg (by simp [hdue])]
  simp only [htok, hu, hq]

theorem refreshToken_of_some (hr : m.isRefreshing = false) (hdue : m.shouldRefreshToken = true)
    (htok : m.defaults.refreshToken ≠ none) (c : RefreshCompletion κ β) : ∃ request,
    m.refreshToken F c =
      ({ m with isRefreshing := true, tasks := m.tasks.start (.refreshToken request c) }, []) := by
  obtain ⟨token, htok⟩ := Option.ne_none_iff_exists'.mp htok
  obtain ⟨u, request, -, -, h⟩ := refreshToken_started (F := F) hr hdue htok c
  exact ⟨request, h⟩

theorem validateToke_of_refreshing (hr : m.isRefreshing = true) (k : κ) :
    m.validateToke F k = ({ m with refresh := m.refresh ++ [k] }, []) := by
  rw [validateToke, if_pos hr]

theorem validateToke_of_due (hr : m.isRefreshing = false) (hdue : m.shouldRefreshToken = true) (k : κ) :
    m.validateToke F k = m.refreshToken F (.validateToke k) := by
  rw [validateToke, if_neg (by simp [hr]), if_pos hdue]

/-- A `validateToke` call that starts a refresh. -/
theorem step_validateToke_of_due (hr : m.isRefreshing = false) (hdue : m.shouldRefreshToken = true)
    (htok : m.defaults.refreshToken ≠ none) (k : κ) : ∃ request, m.step F (.validateToke k) =
      some ({ m with
        isRefreshing := true
        tasks := m.tasks.start (.refreshToken request (.validateToke k)) }, []) := by
  obtain ⟨request, h⟩ := refreshToken_of_some (F := F) hr hdue htok (.validateToke k)
  exact ⟨request, by rw [step, validateToke_of_due hr hdue, h]⟩

theorem validateToke_of_fresh (hr : m.isRefreshing = false) (hdue : m.shouldRefreshToken = false)
    (k : κ) :
    m.validateToke F k = (m, (m.defaults.accessToken.map (Call.token k)).toList) := by
  rw [validateToke, if_neg (by simp [hr]), if_neg (by simp [hdue])]
  cases m.defaults.accessToken <;> rfl

theorem Effect.of_eq {l : AuthLabel κ β} {r : AuthenticationManager κ β × List (Call κ β)}
    {out : List (Call κ β)} (he : Effect m l r.1 r.2) (h : r = (m', out)) : Effect m l m' out := by
  subst h
  exact he

theorem effect_generateToken (code : String) (c : β) :
    Effect m (.generateToken code c) (m.generateToken F code c).1 (m.generateToken F code c).2 := by
  obtain ⟨request, h⟩ := generateToken_eq (F := F) (m := m) code c
  rw [h]
  exact .loginStarted code c request

theorem effect_refreshToken (c : β) :
    Effect m (.refreshToken c) (m.refreshToken F (.caller c)).1 (m.refreshToken F (.caller c)).2 := by
  cases hr : m.isRefreshing with
  | true =>
    rw [refreshToken_of_refreshing hr]
    exact .refreshReturned c [] (.inl rfl)
  | false =>
    cases hdue : m.shouldRefreshToken with
    | false =>
      rw [refreshToken_of_fresh hr hdue]
      exact .refreshReturned c _ (.inr rfl)
    | true =>
      by_cases htok : m.defaults.refreshToken = none
      · rw [refreshToken_of_none hr hdue htok]
        exact .refreshReturned c [] (.inl rfl)
      · obtain ⟨request, h⟩ := refreshToken_of_some (F := F) hr hdue htok (.caller c)
        rw [h]
        exact .refreshStarted _ _ request (.inl ⟨c, rfl, rfl⟩) hr hdue htok

theorem effect_validateToke (k : κ) :
    Effect m (.validateToke k) (m.validateToke F k).1 (m.validateToke F k).2 := by
  cases hr : m.isRefreshing with
  | true =>
    rw [validateToke_of_refreshing hr]
    exact .queued k hr
  | false =>
    cases hdue : m.shouldRefreshToken with
    | false =>
      rw [validateToke_of_fresh hr hdue]
      cases htok : m.defaults.accessToken with
      | none => exact .dropped k hr (.inr ⟨hdue, htok⟩)
      | some token => exact .delivered k token hr hdue htok
    | true =>
      rw [validateToke_of_due hr hdue]
      by_cases htok : m.defaults.refreshToken = none
      · rw [refreshToken_of_none hr hdue htok]
        exact .dropped k hr (.inl ⟨hdue, htok⟩)
      · obtain ⟨request, h⟩ := refreshToken_of_some (F := F) hr hdue htok (.validateToke k)
        rw [h]
        exact .refreshStarted _ _ request (.inr ⟨k, rfl, rfl⟩) hr hdue htok

theorem effect_response {id : ℕ} {ex : Exchange κ β} (hid : m.tasks.find? id = some ex)
    (o : Outcome AuthenticationResponse) :
    Effect m (.response id o)
      (({ m with tasks := m.tasks.finish id } : AuthenticationManager κ β).handler o ex).1
      (({ m with tasks := m.tasks.finish id } : AuthenticationManager κ β).handler o ex).2 := by
  cases ex with
  | generateToken request c =>
    cases o with
    | decoded r => exact .loginSucceeded id r request c hid
    | networkError => exact .loginFailed id _ request c hid (by simp)
    | undecodable text => exact .loginFailed id _ request c hid (by simp)
  | refreshToken request c =>
    cases o with
    | decoded r => exact .refreshSucceeded id r request c hid
    | networkError => exact .refreshFailed id _ request c hid (by simp)
    | undecodable text => exact .refreshFailed id _ request c hid (by simp)

/-- **What a step can do.** -/
theorem step_effect {l : AuthLabel κ β} {out : List (Call κ β)} (h : m.step F l = some (m', out)) :
    Effect m l m' out := by
  cases l with
  | generateToken code c => exact (effect_generateToken code c).of_eq (Option.some.inj h)
  | refreshToken c => exact (effect_refreshToken c).of_eq (Option.some.inj h)
  | validateToke k => exact (effect_validateToke k).of_eq (Option.some.inj h)
  | signout c => exact (Effect.signedOut c).of_eq (Option.some.inj h)
  | response id o =>
    obtain ⟨ex, hid, h⟩ := Option.map_eq_some_iff.mp h
    exact (effect_response hid o).of_eq h
  | tick t => exact (Effect.ticked t).of_eq (Option.some.inj h)

theorem next_effect {l : AuthLabel κ β} (h : next F m l = some m') : ∃ out, Effect m l m' out := by
  obtain ⟨out, h⟩ := Runs.silent_eq_some.mp h
  exact ⟨out, step_effect h⟩

/-! ### Answers -/

/-- What an answer does: the handler of the exchange in flight runs. -/
theorem Effect.response_eq {id : ℕ} {o : Outcome AuthenticationResponse} {out : List (Call κ β)}
    (he : Effect m (.response id o) m' out) : ∃ ex, m.tasks.find? id = some ex ∧
      ({ m with tasks := m.tasks.finish id } : AuthenticationManager κ β).handler o ex = (m', out) := by
  have failed : ∀ {ex : Exchange κ β}, (∀ r, o ≠ .decoded r) → ∀ {m₁ : AuthenticationManager κ β},
      m₁.handler o ex = m₁.handler .networkError ex := by
    intro ex ho m₁
    cases o with
    | decoded r => exact absurd rfl (ho r)
    | networkError | undecodable => cases ex <;> rfl
  cases he with
  | refreshStarted _ _ _ hl => rcases hl with ⟨b, hl, -⟩ | ⟨k, hl, -⟩ <;> cases hl
  | loginSucceeded _ r q c hid => exact ⟨_, hid, rfl⟩
  | loginFailed _ _ q c hid ho => exact ⟨_, hid, failed ho⟩
  | refreshSucceeded _ r q c hid => exact ⟨_, hid, rfl⟩
  | refreshFailed _ _ q c hid ho => exact ⟨_, hid, failed ho⟩

/-- The handlers write the store on a decoded answer, and only then. -/
theorem handler_defaults (o : Outcome AuthenticationResponse) (ex : Exchange κ β) :
    (m.handler o ex).1.defaults = match o with
      | .decoded r => m.defaults.cacheToken r m.now
      | _ => m.defaults := by
  cases ex <;> cases o <;> rfl

theorem handler_tasks (o : Outcome AuthenticationResponse) (ex : Exchange κ β) :
    (m.handler o ex).1.tasks = m.tasks := by
  cases ex <;> cases o <;> rfl

theorem Effect.defaults_of_decoded {id : ℕ} {r : AuthenticationResponse} {out : List (Call κ β)}
    (he : Effect m (.response id (.decoded r)) m' out) :
    m'.defaults = m.defaults.cacheToken r m.now := by
  obtain ⟨ex, -, h⟩ := he.response_eq
  have hd := handler_defaults (m := { m with tasks := m.tasks.finish id }) (.decoded r) ex
  rwa [h] at hd

theorem Effect.defaults_of_failed {id : ℕ} {o : Outcome AuthenticationResponse}
    {out : List (Call κ β)} (he : Effect m (.response id o) m' out) (ho : ∀ r, o ≠ .decoded r) :
    m'.defaults = m.defaults := by
  obtain ⟨ex, -, h⟩ := he.response_eq
  have hd := handler_defaults (m := { m with tasks := m.tasks.finish id }) o ex
  rw [h] at hd
  cases o with
  | decoded r => exact absurd rfl (ho r)
  | networkError | undecodable => exact hd

end AuthenticationManager

end Spotify
