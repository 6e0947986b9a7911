import Spotify.Api.Client

/-!
# Spotify.Login.ViewModel — `LoginViewModel`

A login attempt starts with a code, waits for the completion of `generateToken`, and after a success for
that of `getUserProfile`.  Attempts may overlap; `attempts` holds those whose last completion has not been
called.  A step lists the calls that the view model makes and the events that it sends.
-/

namespace Spotify

/-- What `setupUser` and the scene extract from a profile. -/
def UserProfile.signedin (user : UserProfile) : SignedinUserProfile :=
  ⟨user.images.head?.bind ImageResponse.url, user.displayName, user.id⟩

/-- The function whose completion an attempt waits for. -/
inductive LoginStage where
  | fetchToken
  | login
  deriving DecidableEq

structure LoginAttempt where
  code : String
  stage : LoginStage
  deriving DecidableEq

structure LoginViewModel where
  user : Option UserProfile
  attempts : Pool LoginAttempt
  deriving DecidableEq

inductive LoginCall where
  | generateToken (code : String)
  | getUserProfile
  | saveUser (user : UserProfile)
  | signedInUserProfile (user : Option SignedinUserProfile)
  | onError (error : APIError)
  deriving DecidableEq

inductive LoginLabel where
  /-- a code is accepted by the relay -/
  | code (code : String)
  /-- the completions of `generateToken` and of `getUserProfile` -/
  | generateToken (attempt : ℕ) (success : Bool)
  | getUserProfile (attempt : ℕ) (result : Except APIError UserProfile)

def LoginAttempt.toLogin (a : LoginAttempt) : LoginAttempt := { a with stage := .login }

namespace LoginViewModel

def init : LoginViewModel := ⟨none, Pool.empty⟩

/-- The setter of `user` with its observer. -/
def setUser (user : Option UserProfile) (vm : LoginViewModel) : LoginViewModel × List LoginCall :=
  ({ vm with user := user }, match user with
    | none => []
    | some user => [.saveUser user])

def fetchToken (code : String) (vm : LoginViewModel) : LoginViewModel × List LoginCall :=
  ({ vm with attempts := vm.attempts.start ⟨code, .fetchToken⟩ }, [.generateToken code])

def login (attempt : ℕ) (vm : LoginViewModel) : LoginViewModel × List LoginCall :=
  ({ vm with attempts := vm.attempts.update attempt LoginAttempt.toLogin }, [.getUserProfile])

def setupUser (vm : LoginViewModel) : List LoginCall :=
  match vm.user with
  | some user => [.signedInUserProfile (some user.signedin)]
  | none => [.onError (.custom "failed to fetch data!")]

/-- The completion of `fetchToken`. -/
def fetchTokenCompletion (attempt : ℕ) (success : Bool) (vm : LoginViewModel) :
    LoginViewModel × List LoginCall :=
  if success then vm.login attempt
  else ({ vm with attempts := vm.attempts.finish attempt }, [.onError (.custom "Failed to fetch token!")])

/-- The completion of `login`. -/
def loginCompletion (attempt : ℕ) (result : Except APIError UserProfile) (vm : LoginViewModel) :
    LoginViewModel × List LoginCall :=
  let vm := { vm with attempts := vm.attempts.finish attempt }
  match result with
  | .ok user =>
    let r := vm.setUser (some user)
    (r.1, r.2 ++ r.1.setupUser)
  | .error error => (vm, [.onError error])

/-- One step; only the completion that an attempt waits for can be called. -/
def step (vm : LoginViewModel) : LoginLabel → Option (LoginViewModel × List LoginCall)
  | .code code => some (vm.fetchToken code)
  | .generateToken attempt success =>
    match vm.attempts.find? attempt with
    | some ⟨_, .fetchToken⟩ => some (vm.fetchTokenCompletion attempt success)
    | _ => none
  | .getUserProfile attempt result =>
    match vm.attempts.find? attempt with
    | some ⟨_, .login⟩ => some (vm.loginCompletion attempt result)
    | _ => none

/-- The effects of a step. -/
inductive Effect (vm : LoginViewModel) : LoginLabel → LoginViewModel → List LoginCall → Prop
  | started (code : String) :
      Effect vm (.code code) { vm with attempts := vm.attempts.start ⟨code, .fetchToken⟩ }
        [.generateToken code]
  | tokenFetched (attempt : ℕ) (code : String)
      (ha : vm.attempts.find? attempt = some ⟨code, .fetchToken⟩) :
      Effect vm (.generateToken attempt true)
        { vm with attempts := vm.attempts.update attempt LoginAttempt.toLogin } [.getUserProfile]
  | tokenFailed (attempt : ℕ) (code : String)
      (ha : vm.attempts.find? attempt = some ⟨code, .fetchToken⟩) :
      Effect vm (.generateToken attempt false) { vm with attempts := vm.attempts.finish attempt }
        [.onError (.custom "Failed to fetch token!")]
  | succeeded (attempt : ℕ) (code : String) (user : UserProfile)
      (ha : vm.attempts.find? attempt = some ⟨code, .login⟩) :
      Effect vm (.getUserProfile attempt (.ok user))
        { vm with attempts := vm.attempts.finish attempt, user := some user }
        [.saveUser user, .signedInUserProfile (some user.signedin)]
  | failed (attempt : ℕ) (code : String) (error : APIError)
      (ha : vm.attempts.find? attempt = some ⟨code, .login⟩) :
      Effect vm (.getUserProfile attempt (.error error)) { vm with attempts := vm.attempts.finish attempt }
        [.onError error]

variable {vm vm' : LoginViewModel}

/-- **What a step can do.** -/
theorem step_effect {l : LoginLabel} {calls : List LoginCall} (h : vm.step l = some (vm', calls)) :
    Effect vm l vm' calls := by
  cases l with
  | code code => cases h; exact .started code
  | generateToken attempt success =>
    simp only [step] at h
    split at h
    · rename_i code ha
      cases success with
      | true => cases h; exact .tokenFetched attempt code ha
      | false => cases h; exact .tokenFailed attempt code ha
    · cases h
  | getUserProfile attempt result =>
    simp only [step] at h
    split at h
    · rename_i code ha
      cases result with
      | ok user => cases h; exact .succeeded attempt code user ha
      | error error => cases h; exact .failed attempt code error ha
    · cases h

end LoginViewModel

end Spotify
