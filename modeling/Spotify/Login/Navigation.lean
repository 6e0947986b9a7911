import Spotify.Login.ViewModel

/-!
# Spotify.Login.Navigation — the screens, the scene and the redirects

The navigation stack with the view model of each login screen, the lazily created `loginViewModel` of the
scene, and the events that the login screens observe on the main scheduler.  The completions of a login
attempt are called on another thread, so its event waits in `mainQueue`, once for each login screen that is
subscribed to the view model.  `artistAlbum` stands for the screen of an artist's albums.
-/

namespace Spotify

inductive Screen where
  | login (viewModel : ℕ)
  | search (user : SignedinUserProfile)
  | artistAlbum
  deriving DecidableEq

/-- An event of `signedInUserProfile` on its way to one login screen. -/
structure SignedInEvent where
  subscriber : ℕ
  attempt : ℕ
  user : Option SignedinUserProfile
  deriving DecidableEq

/-- View models are known by the order of their creation.  The stack has its top first. -/
structure Navigation where
  stack : List Screen
  loginViewModel : Option (ℕ × LoginViewModel)
  nextViewModel : ℕ
  mainQueue : List SignedInEvent

inductive NavLabel where
  /-- a sign-in redirect carrying a code -/
  | redirect (code : String)
  | generateToken (attempt : ℕ) (success : Bool)
  | getUserProfile (attempt : ℕ) (result : Except APIError UserProfile)
  /-- the main thread takes the first event of its queue -/
  | main
  /-- "Yes" in `signoutAlert` -/
  | logoutConfirmed
  | artistSelected
  | back
  deriving DecidableEq

/-- What is noted of a run. -/
inductive NavNote where
  | redirected (attempt : ℕ) (onLogin : Bool)
  | succeeded (attempt : ℕ) (user : SignedinUserProfile)
  | pushed (attempt : ℕ) (user : SignedinUserProfile)
  deriving DecidableEq

namespace Navigation

/-- `scene(_:willConnectTo:options:)` -/
def launch (d : UserDefaults) : Navigation :=
  match d.isSignedIn, d.getUser with
  | true, some user => ⟨[.search user.signedin], none, 0, []⟩
  | _, _ => ⟨[.login 0], some (0, LoginViewModel.init), 1, []⟩

/-- A login screen is on top. -/
def onLogin (s : Navigation) : Bool :=
  match s.stack with
  | .login _ :: _ => true
  | _ => false

/-- The events that a call of the view model `id` sends to the login screens subscribed to it. -/
def observe (s : Navigation) (id attempt : ℕ) : LoginCall → List SignedInEvent
  | .signedInUserProfile user =>
    (s.stack.filter (· = .login id)).map fun _ => ⟨id, attempt, user⟩
  | _ => []

/-- A step of the scene's view model, for one attempt. -/
def runLogin (attempt : ℕ) (l : LoginLabel) (s : Navigation) : Option Navigation :=
  match s.loginViewModel with
  | none => none
  | some (id, vm) => (vm.step l).map fun r =>
    { s with loginViewModel := some (id, r.1), mainQueue := s.mainQueue ++ r.2.flatMap (s.observe id attempt) }

/-- The relay `code` of the scene's view model accepts a code. -/
def acceptCode (code : String) (id : ℕ) (vm : LoginViewModel) (s : Navigation) :
    Navigation × List NavNote :=
  ({ s with loginViewModel := some (id, (vm.fetchToken code).1) },
    [.redirected vm.attempts.next s.onLogin])

/-- `scene(_:openURLContexts:)`; the first access to `loginViewModel` creates it. -/
def openURLContexts (code : String) (s : Navigation) : Navigation × List NavNote :=
  match s.loginViewModel with
  | some (id, vm) => s.acceptCode code id vm
  | none =>
    ({ s with nextViewModel := s.nextViewModel + 1 } : Navigation).acceptCode code s.nextViewModel
      LoginViewModel.init

/-- `signinSucceed(user:)` of the login screen on the stack that the event is for. -/
def signinSucceed (e : SignedInEvent) (s : Navigation) : Navigation × List NavNote :=
  if .login e.subscriber ∈ s.stack then
    match e.user with
    | none => (s, [])
    | some user => ({ s with stack := .search user :: s.stack }, [.pushed e.attempt user])
  else (s, [])

/-- One step, with its notes.  Only the search screen confirms a logout or opens an artist; the root cannot
be left. -/
def step (s : Navigation) : NavLabel → Option (Navigation × List NavNote)
  | .redirect code => some (s.openURLContexts code)
  | .generateToken attempt success =>
    (s.runLogin attempt (.generateToken attempt success)).map fun s => (s, [])
  | .getUserProfile attempt result =>
    (s.runLogin attempt (.getUserProfile attempt result)).map fun s =>
      (s, match result with
        | .ok user => [.succeeded attempt user.signedin]
        | .error _ => [])
  | .main =>
    match s.mainQueue with
    | [] => none
    | e :: queue => some (({ s with mainQueue := queue } : Navigation).signinSucceed e)
  | .logoutConfirmed =>
    match s.stack with
    | .search _ :: _ =>
      some ({ s with
        stack := .login s.nextViewModel :: s.stack
        nextViewModel := s.nextViewModel + 1 }, [])
    | _ => none
  | .artistSelected =>
    match s.stack with
    | .search _ :: _ => some ({ s with stack := .artistAlbum :: s.stack }, [])
    | _ => none
  | .back =>
    match s.stack with
    | _ :: below :: rest => some ({ s with stack := below :: rest }, [])
    | _ => none

/-! ### What a step can do -/

/-- The effects of a step. -/
inductive Effect (s : Navigation) : NavLabel → Navigation → List NavNote → Prop
  | redirected (code : String) (id : ℕ) (vm : LoginViewModel) (hvm : s.loginViewModel = some (id, vm)) :
      Effect s (.redirect code)
        { s with loginViewModel := some (id, { vm with attempts := vm.attempts.start ⟨code, .fetchToken⟩ }) }
        [.redirected vm.attempts.next s.onLogin]
  | redirectedFirst (code : String) (vm : LoginViewModel) (hvm : s.loginViewModel = none) :
      Effect s (.redirect code)
        { s with loginViewModel := some (s.nextViewModel, vm), nextViewModel := s.nextViewModel + 1 }
        [.redirected 0 s.onLogin]
  | answered (l : NavLabel) (id : ℕ) (vm vm' : LoginViewModel) (hvm : s.loginViewModel = some (id, vm))
      (hgone : ∀ attempt, vm.attempts.Gone attempt → vm'.attempts.Gone attempt)
      (hl : (∃ a b, l = .generateToken a b) ∨ ∃ a e, l = .getUserProfile a (.error e)) :
      Effect s l { s with loginViewModel := some (id, vm') } []
  | fetched (attempt : ℕ) (user : UserProfile) (id : ℕ) (vm : LoginViewModel) (a : LoginAttempt)
      (hvm : s.loginViewModel = some (id, vm)) (ha : vm.attempts.find? attempt = some a) :
      Effect s (.getUserProfile attempt (.ok user))
        { s with loginViewModel := some (id, { attempts := vm.attempts.finish attempt, user := some user })
                 mainQueue := s.mainQueue ++ (s.stack.filter (· = .login id)).map fun _ =>
                   ⟨id, attempt, some user.signedin⟩ }
        [.succeeded attempt user.signedin]
  | pushed (e : SignedInEvent) (queue : List SignedInEvent) (user : SignedinUserProfile)
      (hq : s.mainQueue = e :: queue) (hs : .login e.subscriber ∈ s.stack) (hu : e.user = some user) :
      Effect s .main { s with mainQueue := queue, stack := .search user :: s.stack }
        [.pushed e.attempt user]
  | ignored (e : SignedInEvent) (queue : List SignedInEvent) (hq : s.mainQueue = e :: queue)
      (hno : .login e.subscriber ∉ s.stack ∨ e.user = none) :
      Effect s .main { s with mainQueue := queue } []
  | confirmed (user : SignedinUserProfile) (below : List Screen) (hs : s.stack = .search user :: below) :
      Effect s .logoutConfirmed
        { s with stack := .login s.nextViewModel :: s.stack, nextViewModel := s.nextViewModel + 1 } []
  | selected (user : SignedinUserProfile) (below : List Screen) (hs : s.stack = .search user :: below) :
      Effect s .artistSelected { s with stack := .artistAlbum :: s.stack } []
  | left (top below : Screen) (rest : List Screen) (hs : s.stack = top :: below :: rest) :
      Effect s .back { s with stack := below :: rest } []

variable {s s' : Navigation}

theorem effect_redirect (code : String) :
    Effect s (.redirect code) (s.openURLContexts code).1 (s.openURLContexts code).2 := by
  cases hvm : s.loginViewModel with
  | none =>
    simp only [openURLContexts, hvm]
    exact .redirectedFirst code _ hvm
  | some x =>
    simp only [openURLContexts, hvm]
    exact .redirected code x.1 x.2 hvm

theorem runLogin_inv {attempt : ℕ} {l : LoginLabel} (h : s.runLogin attempt l = some s') :
    ∃ id vm vm' calls, s.loginViewModel = some (id, vm) ∧ LoginViewModel.Effect vm l vm' calls ∧
      s' = { s with
        loginViewModel := some (id, vm')
        mainQueue := s.mainQueue ++ calls.flatMap (s.observe id attempt) } := by
  unfold runLogin at h
  cases hvm : s.loginViewModel with
  | none => rw [hvm] at h; cases h
  | some x =>
    obtain ⟨id, vm⟩ := x
    rw [hvm] at h
    obtain ⟨r, hr, rfl⟩ := Option.map_eq_some_iff.mp h
    exact ⟨id, vm, r.1, r.2, rfl, LoginViewModel.step_effect hr, rfl⟩

theorem effect_main {e : SignedInEvent} {queue : List SignedInEvent} (hq : s.mainQueue = e :: queue) :
    Effect s .main (({ s with mainQueue := queue } : Navigation).signinSucceed e).1
      (({ s with mainQueue := queue } : Navigation).signinSucceed e).2 := by
  unfold signinSucceed
  by_cases hs : Screen.login e.subscriber ∈ s.stack
  · cases hu : e.user with
    | none =>
      simp only [hs, if_true]
      exact .ignored e queue hq (.inr hu)
    | some user =>
      simp only [hs, if_true]
      exact .pushed e queue user hq hs hu
  · simp only [hs, if_false]
    exact .ignored e queue hq (.inl hs)

/-- **What a step can do.** -/
theorem step_effect {l : NavLabel} {notes : List NavNote} (h : s.step l = some (s', notes)) :
    Effect s l s' notes := by
  cases l with
  | redirect code =>
    have he := effect_redirect (s := s) code
    rw [Option.some.inj h] at he
    exact he
  | generateToken attempt success =>
    obtain ⟨s₁, hs₁, h⟩ := Option.map_eq_some_iff.mp h
    cases h
    obtain ⟨id, vm, vm', calls, hvm, he, rfl⟩ := runLogin_inv hs₁
    cases he with
    | tokenFetched _ code ha =>
      simp only [List.flatMap_cons, List.flatMap_nil, observe, List.append_nil]
      exact .answered _ id vm _ hvm (fun _ hg => hg.update _ _) (.inl ⟨_, _, rfl⟩)
    | tokenFailed _ code ha =>
      simp only [List.flatMap_cons, List.flatMap_nil, observe, List.append_nil]
      exact .answered _ id vm _ hvm (fun _ hg => hg.finish _) (.inl ⟨_, _, rfl⟩)
  | getUserProfile attempt result =>
    obtain ⟨s₁, hs₁, h⟩ := Option.map_eq_some_iff.mp h
    cases h
    obtain ⟨id, vm, vm', calls, hvm, he, rfl⟩ := runLogin_inv hs₁
    cases he with
    | succeeded _ code user ha =>
      simp only [List.flatMap_cons, List.flatMap_nil, observe, List.append_nil, List.nil_append]
      exact .fetched attempt user id vm _ hvm ha
    | failed _ code error ha =>
      simp only [List.flatMap_cons, List.flatMap_nil, observe, List.append_nil]
      exact .answered _ id vm _ hvm (fun _ hg => hg.finish _) (.inr ⟨_, _, rfl⟩)
  | main =>
    simp only [step] at h
    split at h
    · cases h
    · rename_i e queue hq
      have he := effect_main hq
      rw [Option.some.inj h] at he
      exact he
  | logoutConfirmed =>
    simp only [step] at h
    split at h
    · cases h
      exact .confirmed _ _ ‹_›
    · cases h
  | artistSelected =>
    simp only [step] at h
    split at h
    · cases h
      exact .selected _ _ ‹_›
    · cases h
  | back =>
    simp only [step] at h
    split at h
    · cases h
      exact .left _ _ _ ‹_›
    · cases h

end Navigation

end Spotify
