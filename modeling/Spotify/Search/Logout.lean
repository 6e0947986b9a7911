import Spotify.Api.Client

/-!
# Spotify.Search.Logout — the two alerts before a logout

The signed-in app: the client with its manager, what is presented over the search screen, and the taps on
it.  "Log out" in the sheet of `showProfile` already runs `SearchViewModel.signout`; its closure clears the
saved user and brings up `signoutAlert`, whose "Yes" only pushes a login screen.  A search is the call
`getartistProfile` of the client.
-/

namespace Spotify

/-- What the search screen presents. -/
inductive PresentedAlert where
  /-- the sheet of `showProfile` -/
  | profile
  /-- "Are you sure you want to logout?" -/
  | signout
  deriving DecidableEq

structure SignedInApp (β : Type) where
  client : APIClient β
  presented : Option PresentedAlert
  /-- "Yes" was answered -/
  loginPushed : Bool

inductive SignedInLabel (β : Type) where
  | client (l : APILabel β)
  | showProfile
  | logOut (completion : β)
  | cancel
  | yes
  | no

namespace SignedInApp

variable {β : Type} (F : Foundation)

def mapDefaults (f : UserDefaults → UserDefaults) (s : SignedInApp β) : SignedInApp β :=
  { s with client := { s.client with auth := { s.client.auth with defaults := f s.client.auth.defaults } } }

/-- The closure of `SearchViewModel.signout`; the event of `isSignedOut`, sent on the main thread, brings
up the alert. -/
def signoutCompletion (success : Bool) (s : SignedInApp β) : SignedInApp β :=
  if success then { s.mapDefaults UserDefaults.clearUser with presented := some .signout } else s

/-- `SearchViewModel.signout` -/
def signout (completion : β) (s : SignedInApp β) : SignedInApp β :=
  let r := s.client.auth.signout completion
  r.2.foldl (fun s call =>
    match call with
    | .success _ success => s.signoutCompletion success
    | .token _ _ => s) { s with client := { s.client with auth := r.1 } }

/-- One step; the manager's `signout` has no other caller than the view model. -/
def step (s : SignedInApp β) : SignedInLabel β → Option (SignedInApp β)
  | .client (.auth (.signout _)) => none
  | .client l => (s.client.step F l).map fun client => { s with client := client }
  | .showProfile =>
    if s.presented = none ∧ s.loginPushed = false then some { s with presented := some .profile } else none
  | .logOut completion =>
    if s.presented = some .profile then
      some (({ s with presented := none } : SignedInApp β).signout completion)
    else none
  | .cancel => if s.presented = some .profile then some { s with presented := none } else none
  | .yes =>
    if s.presented = some .signout then some { s with presented := none, loginPushed := true } else none
  | .no => if s.presented = some .signout then some { s with presented := none } else none

def launch (d : UserDefaults) (t : Date) : SignedInApp β := ⟨APIClient.launch d t, none, false⟩

/-- What is persisted of the session. -/
def session (s : SignedInApp β) : UserDefaults := s.client.auth.defaults

end SignedInApp

/-- A call of `validateToke` now gets a token, or waits for one. -/
def AuthenticationManager.CanValidate {κ β : Type} (m : AuthenticationManager κ β) : Prop :=
  m.isRefreshing = false →
    if m.shouldRefreshToken then m.defaults.refreshToken ≠ none else m.defaults.accessToken ≠ none

namespace SignedInApp

variable {β : Type} {F : Foundation} {s s' t t' : SignedInApp β}

/-- The same session is persisted, and `validateToke` finds the same. -/
def SameSession (s s' : SignedInApp β) : Prop :=
  s.session = s'.session ∧ (s.client.auth.CanValidate ↔ s'.client.auth.CanValidate)

/-- After the run `pre`, "Log out" answered with "No" makes no difference to the session in any later
state. -/
def DeclineHarmless (F : Foundation) (s₀ : SignedInApp β) (pre : List (SignedInLabel β)) (c : β) : Prop :=
  ∀ mid post t t',
    Runs.exec (step F) s₀ (pre ++ [.showProfile, .logOut c] ++ mid ++ [.no] ++ post) = some t →
    Runs.exec (step F) s₀ (pre ++ mid ++ post) = some t' → SameSession t t'

theorem signout_eq (c : β) (s : SignedInApp β) :
    s.signout c = { s.mapDefaults fun _ => UserDefaults.empty with presented := some .signout } := rfl

/-- The two runs after the tap: one has the alert up, the other nothing. -/
structure AlertUp (s s' : SignedInApp β) : Prop where
  client : s.client = s'.client
  loginPushed : s.loginPushed = s'.loginPushed
  presented : s.presented = some .signout
  notPresented : s'.presented = none

theorem step_client {l : APILabel β} (h : s.step F (.client l) = some t) :
    ∃ client, s.client.step F l = some client ∧ t = { s with client := client } := by
  unfold step at h
  split at h
  · cases h
  · rename_i hlabel
    cases hlabel
    obtain ⟨client, hl, rfl⟩ := Option.map_eq_some_iff.mp h
    exact ⟨client, hl, rfl⟩
  all_goals rename_i hlabel; cases hlabel

/-- While the alert is up, a step that both runs can take is one of the client. -/
theorem AlertUp.step {l : SignedInLabel β} (h : AlertUp s s') (hl : s.step F l = some t)
    (hl' : s'.step F l = some t') : AlertUp t t' := by
  obtain ⟨hc, hp, ha, hn⟩ := h
  cases l with
  | showProfile | logOut | cancel => simp [SignedInApp.step, ha] at hl
  | yes | no => simp [SignedInApp.step, hn] at hl'
  | client l =>
    obtain ⟨client, h1, rfl⟩ := step_client hl
    obtain ⟨client', h2, rfl⟩ := step_client hl'
    rw [hc, h2] at h1
    cases h1
    exact ⟨rfl, hp, ha, hn⟩

/-- "No" ends the difference between the two runs. -/
theorem AlertUp.no (h : AlertUp s s') (hl : s.step F .no = some t) : t = s' := by
  obtain ⟨hc, hp, ha, hn⟩ := h
  simp only [SignedInApp.step, ha, if_true, Option.some.injEq] at hl
  subst hl
  cases s
  cases s'
  simp_all

/-- The two taps bring up the alert and clear the session. -/
theorem exec_logOut {c : β} (hp : s.presented = none) (hn : s.loginPushed = false) :
    Runs.exec (step F) s [.showProfile, .logOut c] =
      some { s.mapDefaults fun _ => UserDefaults.empty with presented := some .signout } := by
  rw [Runs.exec_cons_some (t := { s with presented := some .profile }) (by simp [step, hp, hn])]
  simp [step, signout_eq, mapDefaults]

theorem alertUp_of_empty (hp : s.presented = none) (he : s.session = UserDefaults.empty) :
    AlertUp { s.mapDefaults fun _ => UserDefaults.empty with presented := some .signout } s := by
  have hmap : (s.mapDefaults fun _ => UserDefaults.empty).client = s.client := by
    unfold session at he
    simp only [mapDefaults, ← he]
  exact ⟨hmap, rfl, rfl, hp⟩

/-- **When declining is harmless.**  At any point of a run where the search screen is on top with nothing
presented, "Log out" answered with "No" leaves the persisted session the same in every later state if and
only if there is no session left to clear. -/
theorem decline_harmless_iff (F : Foundation) (d : UserDefaults) (now : Date)
    (pre : List (SignedInLabel β)) (c : β) (s : SignedInApp β)
    (h : Runs.exec (step F) (launch d now) pre = some s) (hp : s.presented = none)
    (hn : s.loginPushed = false) :
    DeclineHarmless F (launch d now) pre c ↔ s.session = UserDefaults.empty := by
  constructor
  · intro hsame
    have hdecl : Runs.exec (step F) (launch d now) (pre ++ [.showProfile, .logOut c] ++ [] ++ [.no] ++ []) =
        some { s.mapDefaults fun _ => UserDefaults.empty with presented := none } := by
      simp only [List.append_nil]
      rw [Runs.exec_append_some ((Runs.exec_append_some h _).trans (exec_logOut hp hn))]
      simp [step]
    exact (hsame [] [] _ s hdecl (by simpa using h)).1.symm
  · intro he mid post t t' ht ht'
    obtain ⟨u₂, hu₂, ht⟩ := Runs.exec_append_inv ht
    obtain ⟨u₁, hu₁, hno⟩ := Runs.exec_append_inv hu₂
    rw [List.append_assoc, Runs.exec_append_some h, Runs.exec_append_some (exec_logOut hp hn)] at hu₁
    rw [List.append_assoc, Runs.exec_append_some h] at ht'
    obtain ⟨v, hv, ht'⟩ := Runs.exec_append_inv ht'
    have hup : AlertUp u₁ v := Runs.exec_lockstep (D := fun _ => True)
      (fun s s' l t t' _ hR hl hl' => hR.step hl hl') (fun _ _ => trivial)
      (alertUp_of_empty hp he) hu₁ hv
    rw [Runs.exec_cons, Option.bind_eq_some_iff] at hno
    obtain ⟨w, hw, hno⟩ := hno
    cases hno
    rw [hup.no hw, ht'] at ht
    cases ht
    exact ⟨rfl, Iff.rfl⟩

/-- A store with a session. -/
def fullStore : UserDefaults :=
  ⟨some "token", some "refresh", some 3600, some ⟨none, "user", none, "id", []⟩⟩

/-- Once the session is cleared, declining is harmless. -/
theorem decline_after_decline : DeclineHarmless Foundation.ascii (launch fullStore 0 : SignedInApp ℕ)
    [.showProfile, .logOut 1, .no] 2 :=
  (decline_harmless_iff Foundation.ascii fullStore 0 _ 2 _ rfl rfl rfl).mpr rfl

/-- With a session it is not: the answer is "No", and the session is gone. -/
theorem decline_clears_session :
    ¬ DeclineHarmless Foundation.ascii (launch fullStore 0 : SignedInApp ℕ) [] 1 := by
  intro h
  have hsame := (h [] [] _ _ rfl rfl).1
  exact absurd hsame (by decide +kernel)

end SignedInApp

end Spotify
