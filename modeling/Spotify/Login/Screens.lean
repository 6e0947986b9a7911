import Spotify.Login.Navigation

/-!
# Spotify.Login.Screens — which login screens the app can log in from

A redirect always reaches the view model of the scene.  The only login screen ever subscribed to it is the
root of a launch without a session: a logout pushes a login screen with a view model of its own.  So a
successful login pushes its search screen exactly when the app was launched signed out, and the login
screen on top is the one subscribed until the first confirmed logout (`login_works_iff`).
-/

namespace Spotify.Navigation

variable {s s' : Navigation}

/-- The launch opens the search screen. -/
def LaunchedSignedIn (d : UserDefaults) : Prop := d.isSignedIn = true ∧ d.getUser ≠ none

instance (d : UserDefaults) : Decidable (LaunchedSignedIn d) := inferInstanceAs (Decidable (_ ∧ _))

def asSuccess : NavNote → Option (ℕ × SignedinUserProfile)
  | .succeeded attempt user => some (attempt, user)
  | _ => none

def asPush : NavNote → Option (ℕ × SignedinUserProfile)
  | .pushed attempt user => some (attempt, user)
  | _ => none

/-- The attempts that succeeded, and those whose search screen was pushed. -/
def successes (log : List NavNote) : List (ℕ × SignedinUserProfile) := log.filterMap asSuccess

def pushes (log : List NavNote) : List (ℕ × SignedinUserProfile) := log.filterMap asPush

/-- The pushes that the queued events ask for. -/
def pending (s : Navigation) : List (ℕ × SignedinUserProfile) :=
  s.mainQueue.filterMap fun e => e.user.map fun user => (e.attempt, user)

/-- With the queue worked off, every attempt that was started by a redirect to a visible login screen and
succeeded has pushed exactly one search screen, for its user. -/
def LoginWorks (s : Navigation) (log : List NavNote) : Prop :=
  s.mainQueue = [] → ∀ attempt user, .redirected attempt true ∈ log → .succeeded attempt user ∈ log →
    (pushes log).filter (fun x => x.1 = attempt) = [(attempt, user)]

/-- The users of the search screens on the stack. -/
def searchUsers (s : Navigation) : List SignedinUserProfile :=
  s.stack.filterMap fun
    | .search user => some user
    | _ => none

/-- The notes of a step tell what it does to the stack: where a push is noted the search screen of that user is
put on top, and no other step adds a search screen. -/
def NotedRight (x : Navigation × List NavNote) (l : NavLabel) (y : Navigation × List NavNote) : Prop :=
  ∃ notes, y.2 = x.2 ++ notes ∧
    match l with
    | .redirect _ => (∃ attempt, notes = [.redirected attempt x.1.onLogin]) ∧ y.1.stack = x.1.stack
    | .getUserProfile attempt (.ok user) =>
      notes = [.succeeded attempt user.signedin] ∧ y.1.stack = x.1.stack
    | .main => notes = [] ∧ y.1.stack = x.1.stack ∨
      ∃ attempt user, notes = [.pushed attempt user] ∧ y.1.stack = .search user :: x.1.stack
    | _ => notes = [] ∧ y.1.searchUsers <:+ x.1.searchUsers

/-- The login screen on top is subscribed to the view model that a redirect reaches. -/
def Subscribed (s : Navigation) : Prop :=
  ∀ id, s.stack.head? = some (.login id) → s.loginViewModel.map Prod.fst = some id

@[simp] theorem successes_append (log log' : List NavNote) :
    successes (log ++ log') = successes log ++ successes log' := List.filterMap_append

@[simp] theorem pushes_append (log log' : List NavNote) :
    pushes (log ++ log') = pushes log ++ pushes log' := List.filterMap_append

@[simp] theorem successes_singleton (n : NavNote) : successes [n] = (asSuccess n).toList := by
  cases h : asSuccess n <;> simp [successes, h]

@[simp] theorem pushes_singleton (n : NavNote) : pushes [n] = (asPush n).toList := by
  cases h : asPush n <;> simp [pushes, h]

theorem mem_successes {log : List NavNote} {attempt : ℕ} {user : SignedinUserProfile} :
    (attempt, user) ∈ successes log ↔ .succeeded attempt user ∈ log := by
  simp only [successes, List.mem_filterMap]
  constructor
  · rintro ⟨n, hn, h⟩
    unfold asSuccess at h
    split at h
    · cases h
      exact hn
    · cases h
  · exact fun h => ⟨_, h, rfl⟩

theorem notedRight_effect {l : NavLabel} {notes : List NavNote} (log : List NavNote)
    (he : Effect s l s' notes) : NotedRight (s, log) l (s', log ++ notes) := by
  refine ⟨notes, rfl, ?_⟩
  cases he with
  | redirected | redirectedFirst => exact ⟨⟨_, rfl⟩, rfl⟩
  | answered _ id vm vm' hvm hgone hl =>
    rcases hl with ⟨attempt, success, rfl⟩ | ⟨attempt, error, rfl⟩
    · exact ⟨rfl, List.suffix_refl _⟩
    · exact ⟨rfl, List.suffix_refl _⟩
  | fetched => exact ⟨rfl, rfl⟩
  | pushed e queue user => exact .inr ⟨e.attempt, user, rfl, rfl⟩
  | ignored => exact .inl ⟨rfl, rfl⟩
  | confirmed | selected => exact ⟨rfl, List.suffix_refl _⟩
  | left top below rest hs =>
    refine ⟨rfl, ?_⟩
    simp only [searchUsers, hs, List.filterMap_cons (a := top)]
    split
    · exact List.suffix_refl _
    · exact List.suffix_cons _ _

/-- The entry of a list with unique keys under a key. -/
theorem filter_key_eq {l : List (ℕ × SignedinUserProfile)} (hnd : (l.map Prod.fst).Nodup) {attempt : ℕ}
    {user : SignedinUserProfile} (h : (attempt, user) ∈ l) :
    l.filter (fun x => x.1 = attempt) = [(attempt, user)] := by
  induction l with
  | nil => cases h
  | cons x l ih =>
    rw [List.map_cons, List.nodup_cons] at hnd
    rcases List.mem_cons.mp h with rfl | h
    · have hrest : l.filter (fun x => x.1 = attempt) = [] := by
        refine List.filter_eq_nil_iff.mpr fun y hy hkey => hnd.1 ?_
        exact List.mem_map.mpr ⟨y, hy, of_decide_eq_true hkey⟩
      simp [hrest]
    · have hne : x.1 ≠ attempt := fun hkey => hnd.1 (hkey ▸ List.mem_map_of_mem h)
      rw [List.filter_cons_of_neg (by simpa using hne), ih hnd.2 h]

/-! ### Launched signed out -/

/-- The root is a login screen of the scene's view model, the only one on the stack; the pushes made and
those queued are the successes, in their order. -/
structure RootLogin (s : Navigation) (log : List NavNote) (id : ℕ) (vm : LoginViewModel) : Prop where
  scene : s.loginViewModel = some (id, vm)
  root : s.stack.getLast? = some (.login id)
  once : s.stack.count (.login id) = 1
  fresh : ∀ id', .login id' ∈ s.stack → id' < s.nextViewModel
  queue : ∀ e ∈ s.mainQueue, e.subscriber = id ∧ e.user ≠ none
  ledger : pushes log ++ s.pending = successes log
  nodup : ((successes log).map Prod.fst).Nodup
  gone : ∀ x ∈ successes log, vm.attempts.Gone x.1

theorem RootLogin.mem {log : List NavNote} {id : ℕ} {vm : LoginViewModel} (h : RootLogin s log id vm) :
    .login id ∈ s.stack :=
  List.count_pos_iff.mp (by rw [h.once]; exact Nat.one_pos)

theorem RootLogin.id_lt {log : List NavNote} {id : ℕ} {vm : LoginViewModel} (h : RootLogin s log id vm) :
    id < s.nextViewModel := h.fresh id h.mem

/-- A stack with the same root, and no second login screen of the scene. -/
theorem RootLogin.restack {log : List NavNote} {id : ℕ} {vm : LoginViewModel} (h : RootLogin s log id vm)
    {stack : List Screen} {next : ℕ} (hroot : stack.getLast? = some (.login id))
    (honce : stack.count (.login id) = 1) (hfresh : ∀ id', .login id' ∈ stack → id' < next) :
    RootLogin { s with stack := stack, nextViewModel := next } log id vm :=
  ⟨h.scene, hroot, honce, hfresh, h.queue, h.ledger, h.nodup, h.gone⟩

theorem RootLogin.push {log : List NavNote} {id : ℕ} {vm : LoginViewModel} (h : RootLogin s log id vm)
    {screen : Screen} {next : ℕ} (hne : screen ≠ .login id) (hnext : s.nextViewModel ≤ next)
    (hlt : ∀ id', screen = .login id' → id' < next) :
    RootLogin { s with stack := screen :: s.stack, nextViewModel := next } log id vm := by
  refine h.restack ?_ ?_ ?_
  · rw [List.getLast?_cons, h.root, Option.getD_some]
  · rw [List.count_cons_of_ne hne, h.once]
  · intro id' hid'
    rcases List.mem_cons.mp hid' with heq | hmem
    · exact hlt id' heq.symm
    · exact Nat.lt_of_lt_of_le (h.fresh id' hmem) hnext

/-- A noted success with its queued event. -/
theorem RootLogin.fetched {log : List NavNote} {id : ℕ} {vm : LoginViewModel} (h : RootLogin s log id vm)
    {attempt : ℕ} {user : UserProfile} {a : LoginAttempt} (ha : vm.attempts.find? attempt = some a) :
    RootLogin
      { s with loginViewModel := some (id, { attempts := vm.attempts.finish attempt, user := some user })
               mainQueue := s.mainQueue ++ (s.stack.filter (· = .login id)).map fun _ =>
                 ⟨id, attempt, some user.signedin⟩ }
      (log ++ [.succeeded attempt user.signedin]) id
      { attempts := vm.attempts.finish attempt, user := some user } := by
  have hqueue : (s.stack.filter (· = .login id)).map
      (fun _ => (⟨id, attempt, some user.signedin⟩ : SignedInEvent)) =
      [⟨id, attempt, some user.signedin⟩] := by
    rw [List.filter_eq, h.once]
    rfl
  rw [hqueue]
  have hnew : attempt ∉ (successes log).map Prod.fst := by
    intro hmem
    obtain ⟨x, hx, rfl⟩ := List.mem_map.mp hmem
    rw [(h.gone x hx).2] at ha
    cases ha
  refine ⟨rfl, h.root, h.once, h.fresh, ?_, ?_, ?_, ?_⟩
  · intro e he
    rcases List.mem_append.mp he with he | he
    · exact h.queue e he
    · rw [List.mem_singleton.mp he]
      exact ⟨rfl, by simp⟩
  · have hledger := h.ledger
    simp only [pending, successes_append, pushes_append, List.filterMap_append] at hledger ⊢
    rw [← hledger]
    simp [asPush, asSuccess]
  · rw [successes_append, List.map_append]
    refine List.nodup_append.mpr ⟨h.nodup, by simp [asSuccess], fun x hx y hy hxy => hnew ?_⟩
    obtain rfl : y = attempt := by simpa [asSuccess] using hy
    rwa [← hxy]
  · intro x hx
    rw [successes_append] at hx
    rcases List.mem_append.mp hx with hx | hx
    · exact (h.gone x hx).finish attempt
    · obtain rfl : x = (attempt, user.signedin) := by simpa [asSuccess] using hx
      exact Pool.gone_finish ha

theorem rootLogin_step {log : List NavNote} {l : NavLabel} {notes : List NavNote}
    (h : ∃ id vm, RootLogin s log id vm) (he : Effect s l s' notes) :
    ∃ id vm, RootLogin s' (log ++ notes) id vm := by
  obtain ⟨id, vm, h⟩ := h
  cases he with
  | redirected code id' vm' hvm =>
    rw [h.scene] at hvm
    cases hvm
    refine ⟨id, _, rfl, h.root, h.once, h.fresh, h.queue, ?_, ?_, ?_⟩
    · simpa [asPush, asSuccess, pending] using h.ledger
    · simpa [asSuccess] using h.nodup
    · intro x hx
      exact (h.gone x (by simpa [asSuccess] using hx)).start _
  | redirectedFirst code vm' hvm =>
    rw [h.scene] at hvm
    cases hvm
  | answered l id' vm' vm'' hvm hg hl =>
    rw [h.scene] at hvm
    cases hvm
    rw [List.append_nil]
    exact ⟨id, _, rfl, h.root, h.once, h.fresh, h.queue, h.ledger, h.nodup, fun x hx => hg _ (h.gone x hx)⟩
  | fetched attempt user id' vm' a hvm ha =>
    rw [h.scene] at hvm
    cases hvm
    exact ⟨id, _, h.fetched ha⟩
  | pushed e queue user hq hs hu =>
    have hne : Screen.search user ≠ .login id := by simp
    have hpush := h.push hne (Nat.le_refl _) (fun _ h => by cases h)
    refine ⟨id, vm, hpush.scene, hpush.root, hpush.once, hpush.fresh, ?_, ?_, ?_, ?_⟩
    · exact fun e' he' => h.queue e' (by rw [hq]; exact List.mem_cons_of_mem e he')
    · have hledger := h.ledger
      simp only [pending, hq, List.filterMap_cons, hu, Option.map_some] at hledger ⊢
      rw [successes_append, ← hledger]
      simp [asPush, asSuccess]
    · simpa [asSuccess] using h.nodup
    · exact fun x hx => h.gone x (by simpa [asSuccess] using hx)
  | ignored e queue hq hno =>
    obtain ⟨hsub, huser⟩ := h.queue e (by rw [hq]; exact List.mem_cons_self)
    rcases hno with hno | hno
    · rw [hsub] at hno
      exact absurd h.mem hno
    · exact absurd hno huser
  | confirmed user below hs =>
    rw [List.append_nil]
    have hid := h.id_lt
    refine ⟨id, vm, h.push ?_ (Nat.le_succ _) ?_⟩
    · rintro ⟨⟩
      exact absurd hid (Nat.lt_irrefl _)
    · rintro id' ⟨⟩
      exact Nat.lt_succ_self _
  | selected user below hs =>
    rw [List.append_nil]
    exact ⟨id, vm, h.push (by simp) (Nat.le_refl _) (fun _ h => by cases h)⟩
  | left top below rest hs =>
    rw [List.append_nil]
    have hroot : (below :: rest).getLast? = some (.login id) := by
      have := h.root
      rwa [hs, List.getLast?_cons_cons] at this
    refine ⟨id, vm, h.restack hroot ?_ ?_⟩
    · have hle : (below :: rest).count (.login id) ≤ 1 := by
        rw [← h.once, hs]
        exact (List.sublist_cons_self top _).count_le _
      have hpos := List.count_pos_iff.mpr (List.mem_of_getLast? hroot)
      omega
    · exact fun id' hmem => h.fresh id' (by rw [hs]; exact List.mem_cons_of_mem top hmem)

/-! ### Launched signed in -/

/-- No login screen on the stack is the scene's, so nothing was pushed and nothing is queued. -/
structure NoRootLogin (s : Navigation) (log : List NavNote) : Prop where
  silent : pushes log = [] ∧ s.mainQueue = []
  scene : ∀ id vm, s.loginViewModel = some (id, vm) → .login id ∉ s.stack ∧ id < s.nextViewModel
  fresh : ∀ id, .login id ∈ s.stack → id < s.nextViewModel

theorem noRootLogin_step {log : List NavNote} {l : NavLabel} {notes : List NavNote}
    (h : NoRootLogin s log) (he : Effect s l s' notes) : NoRootLogin s' (log ++ notes) := by
  obtain ⟨⟨hpush, hqueue⟩, hscene, hfresh⟩ := h
  cases he with
  | redirected code id vm hvm =>
    refine ⟨⟨by simp [hpush, asPush], hqueue⟩, fun id' vm' hvm' => ?_, hfresh⟩
    cases hvm'
    exact hscene id vm hvm
  | redirectedFirst code vm hvm =>
    refine ⟨⟨by simp [hpush, asPush], hqueue⟩, fun id' vm' hvm' => ?_, ?_⟩
    · cases hvm'
      exact ⟨fun hmem => absurd (hfresh _ hmem) (Nat.lt_irrefl _), Nat.lt_succ_self _⟩
    · exact fun id' hmem => Nat.lt_succ_of_lt (hfresh id' hmem)
  | answered l id vm vm' hvm =>
    refine ⟨⟨by simpa using hpush, hqueue⟩, fun id' vm' hvm' => ?_, hfresh⟩
    cases hvm'
    exact hscene id vm hvm
  | fetched attempt user id vm a hvm =>
    have hnone : s.stack.filter (· = .login id) = [] := by
      refine List.filter_eq_nil_iff.mpr fun x hx heq => (hscene id vm hvm).1 ?_
      rw [← of_decide_eq_true heq]
      exact hx
    refine ⟨⟨by simp [hpush, asPush], ?_⟩, fun id' vm' hvm' => ?_, hfresh⟩
    · simp only [hqueue, hnone, List.map_nil, List.append_nil]
    · cases hvm'
      exact hscene id vm hvm
  | pushed e queue user hq =>
    rw [hqueue] at hq
    cases hq
  | ignored e queue hq =>
    rw [hqueue] at hq
    cases hq
  | confirmed user below hs =>
    refine ⟨⟨by simpa using hpush, hqueue⟩, fun id vm hvm => ?_, fun id hmem => ?_⟩
    · obtain ⟨hno, hlt⟩ := hscene id vm hvm
      refine ⟨fun hmem => ?_, Nat.lt_succ_of_lt hlt⟩
      rcases List.mem_cons.mp hmem with heq | hmem
      · cases heq
        exact absurd hlt (Nat.lt_irrefl _)
      · exact hno hmem
    · rcases List.mem_cons.mp hmem with heq | hmem
      · cases heq
        exact Nat.lt_succ_self _
      · exact Nat.lt_succ_of_lt (hfresh id hmem)
  | selected user below hs =>
    refine ⟨⟨by simpa using hpush, hqueue⟩, fun id vm hvm => ?_, fun id hmem => ?_⟩
    · exact ⟨by simpa using (hscene id vm hvm).1, (hscene id vm hvm).2⟩
    · exact hfresh id (by simpa using hmem)
  | left top below rest hs =>
    have hsub : ∀ x ∈ below :: rest, x ∈ s.stack := fun x hx => by
      rw [hs]
      exact List.mem_cons_of_mem top hx
    refine ⟨⟨by simpa using hpush, hqueue⟩, fun id vm hvm => ?_, fun id hmem => hfresh id (hsub _ hmem)⟩
    exact ⟨fun hmem => (hscene id vm hvm).1 (hsub _ hmem), (hscene id vm hvm).2⟩

/-! ### The screen on top -/

/-- Every login screen on the stack has the view model of the scene. -/
structure SceneLogins (s : Navigation) : Prop where
  own : ∀ id, .login id ∈ s.stack → s.loginViewModel.map Prod.fst = some id
  lt : ∀ id, s.loginViewModel.map Prod.fst = some id → id < s.nextViewModel

theorem SceneLogins.subscribed (h : SceneLogins s) : Subscribed s :=
  fun id hid => h.own id (List.mem_of_head? hid)

theorem SceneLogins.effect {l : NavLabel} {notes : List NavNote} (h : SceneLogins s)
    (hl : l ≠ .logoutConfirmed) (he : Effect s l s' notes) : SceneLogins s' := by
  obtain ⟨hown, hlt⟩ := h
  cases he with
  | redirected code id vm hvm =>
    rw [hvm] at hown hlt
    exact ⟨hown, hlt⟩
  | redirectedFirst code vm hvm =>
    rw [hvm] at hown
    refine ⟨fun id hmem => ?_, fun id hid => ?_⟩
    · cases hown id hmem
    · cases hid
      exact Nat.lt_succ_self _
  | answered l id vm vm' hvm =>
    rw [hvm] at hown hlt
    exact ⟨hown, hlt⟩
  | fetched attempt user id vm a hvm =>
    rw [hvm] at hown hlt
    exact ⟨hown, hlt⟩
  | pushed e queue user => exact ⟨fun id hmem => hown id (by simpa using hmem), hlt⟩
  | ignored => exact ⟨hown, hlt⟩
  | confirmed => exact absurd rfl hl
  | selected => exact ⟨fun id hmem => hown id (by simpa using hmem), hlt⟩
  | left top below rest hs =>
    exact ⟨fun id hmem => hown id (by rw [hs]; exact List.mem_cons_of_mem top hmem), hlt⟩

/-- A confirmed logout shows a login screen that the redirect does not reach. -/
theorem SceneLogins.not_confirmed {l : NavLabel} {notes : List NavNote} (h : SceneLogins s)
    (he : Effect s l s' notes) (h' : Subscribed s') : l ≠ .logoutConfirmed := by
  rintro rfl
  cases he with
  | answered _ _ _ _ _ _ hl => rcases hl with ⟨_, _, hl⟩ | ⟨_, _, hl⟩ <;> cases hl
  | confirmed user below hs => exact absurd (h.lt _ (h' _ rfl)) (Nat.lt_irrefl _)

theorem launch_of_signedIn {d : UserDefaults} (hd : LaunchedSignedIn d) :
    ∃ user, launch d = ⟨[.search user], none, 0, []⟩ := by
  obtain ⟨user, huser⟩ := Option.ne_none_iff_exists'.mp hd.2
  exact ⟨user.signedin, by unfold launch; rw [hd.1, huser]⟩

theorem launch_of_not_signedIn {d : UserDefaults} (hd : ¬ LaunchedSignedIn d) :
    launch d = ⟨[.login 0], some (0, LoginViewModel.init), 1, []⟩ := by
  unfold launch
  split
  · rename_i user hin huser
    exact absurd ⟨hin, by rw [huser]; simp⟩ hd
  · rfl

theorem sceneLogins_launch (d : UserDefaults) : SceneLogins (launch d) := by
  by_cases hd : LaunchedSignedIn d
  · obtain ⟨user, h⟩ := launch_of_signedIn hd
    rw [h]
    exact ⟨fun id hmem => by simp at hmem, fun id hid => by cases hid⟩
  · rw [launch_of_not_signedIn hd]
    refine ⟨fun id hmem => ?_, fun id hid => ?_⟩
    · cases List.mem_singleton.mp hmem
      rfl
    · cases hid
      exact Nat.one_pos

/-! ### Logging in -/

theorem loginWorks_of_rootLogin {log : List NavNote} {id : ℕ} {vm : LoginViewModel}
    (h : RootLogin s log id vm) : LoginWorks s log := by
  intro hq attempt user _ hsucc
  have hledger := h.ledger
  rw [pending, hq, List.filterMap_nil, List.append_nil] at hledger
  rw [hledger]
  exact filter_key_eq h.nodup (mem_successes.mpr hsucc)

theorem loginWorks_iff_of_noRootLogin {log : List NavNote} (h : NoRootLogin s log) :
    LoginWorks s log ↔
      ∀ attempt user, .redirected attempt true ∈ log → .succeeded attempt user ∉ log := by
  constructor
  · intro hw attempt user hr hsucc
    have := hw h.silent.2 attempt user hr hsucc
    rw [h.silent.1] at this
    cases this
  · exact fun hno _ attempt user hr hsucc => absurd hsucc (hno attempt user hr)

/-- **From which login screens the app logs in.**  In every run from either launch: a push that is noted puts the
search screen on top of the stack, in every step; the successful logins from a visible login screen push exactly
one search screen each, for their user, if and only if the app was launched signed out or there is no such login;
and the login screen on top is subscribed to the view model that redirects reach, in every state, if and only if
no logout is confirmed. -/
theorem login_works_iff (d : UserDefaults) (ls : List NavLabel) (s : Navigation) (log : List NavNote)
    (h : Runs.exec (Runs.logged step) (launch d, []) ls = some (s, log)) :
    Runs.EachStep (Runs.logged step) NotedRight (launch d, []) ls ∧
    (LoginWorks s log ↔ ¬ LaunchedSignedIn d ∨
      ∀ attempt user, .redirected attempt true ∈ log → .succeeded attempt user ∉ log) ∧
    (Runs.Always (Runs.silent step) Subscribed (launch d) ls ↔ .logoutConfirmed ∉ ls) := by
  have hsilent := Runs.exec_silent_of_logged h
  refine ⟨?_, ?_, ?_⟩
  · rintro p l ⟨s₁, log₁⟩ ⟨s₂, log₂⟩ - - hl
    obtain ⟨notes, hl, rfl⟩ := Runs.logged_eq_some.mp hl
    exact notedRight_effect log₁ (step_effect hl)
  · by_cases hd : LaunchedSignedIn d
    · obtain ⟨user, hlaunch⟩ := launch_of_signedIn hd
      have hinv : NoRootLogin s log := by
        refine Runs.exec_inv (I := fun x => NoRootLogin x.1 x.2) ?_ ?_ h
        · intro x l y hx hl
          obtain ⟨notes, hl, hy⟩ := Runs.logged_eq_some.mp hl
          rw [hy]
          exact noRootLogin_step hx (step_effect hl)
        · simp only [hlaunch]
          exact ⟨⟨rfl, rfl⟩, fun _ _ hvm => by (cases hvm), fun id hmem => by simp at hmem⟩
      rw [loginWorks_iff_of_noRootLogin hinv]
      simp [hd]
    · have hinv : ∃ id vm, RootLogin s log id vm := by
        refine Runs.exec_inv (I := fun x => ∃ id vm, RootLogin x.1 x.2 id vm) ?_ ?_ h
        · intro x l y hx hl
          obtain ⟨notes, hl, hy⟩ := Runs.logged_eq_some.mp hl
          rw [hy]
          exact rootLogin_step hx (step_effect hl)
        · simp only [launch_of_not_signedIn hd]
          exact ⟨0, LoginViewModel.init, rfl, rfl, rfl, fun id hmem => by simp_all,
            fun e he => absurd he List.not_mem_nil, rfl, List.nodup_nil,
            fun x hx => absurd hx List.not_mem_nil⟩
      obtain ⟨id, vm, hroot⟩ := hinv
      exact iff_of_true (loginWorks_of_rootLogin hroot) (.inl hd)
  · have hiff : Runs.Always (Runs.silent step) Subscribed (launch d) ls ↔
        Runs.EachStep (Runs.silent step) (fun _ l _ => l ≠ .logoutConfirmed) (launch d) ls := by
      refine Runs.always_iff_eachStep (I := SceneLogins) (fun _ h => h.subscribed) ?_ ?_
        (sceneLogins_launch d)
      · intro s l s' hs hl hstep
        obtain ⟨notes, hstep⟩ := Runs.silent_eq_some.mp hstep
        exact hs.effect hl (step_effect hstep)
      · intro s l s' hs hstep h'
        obtain ⟨notes, hstep⟩ := Runs.silent_eq_some.mp hstep
        exact hs.not_confirmed (step_effect hstep) h'
    rw [hiff, Runs.eachStep_labels_iff hsilent]
    exact ⟨fun hl hmem => hl _ hmem rfl, fun hno l hl heq => hno (heq ▸ hl)⟩

/-- A profile, and a store that a session left. -/
def someUser : UserProfile := ⟨none, "user", none, "id", [⟨some "picture", none, none⟩]⟩

def sessionStore : UserDefaults := ⟨some "token", some "refresh", some 3600, some someUser⟩

/-- One login: the redirect, the two completions, and the event on the main thread. -/
def loginRun : List NavLabel :=
  [.redirect "code", .generateToken 0 true, .getUserProfile 0 (.ok someUser)]

/-- Launched signed out, the login pushes its search screen. -/
theorem login_from_root : ∃ s, Runs.exec (Runs.logged step) (launch UserDefaults.empty, [])
      (loginRun ++ [.main]) = some (s, [.redirected 0 true, .succeeded 0 someUser.signedin,
        .pushed 0 someUser.signedin]) ∧
    LoginWorks s [.redirected 0 true, .succeeded 0 someUser.signedin, .pushed 0 someUser.signedin] := by
  obtain ⟨s, h⟩ : ∃ s, Runs.exec (Runs.logged step) (launch UserDefaults.empty, []) (loginRun ++ [.main]) =
      some (s, [.redirected 0 true, .succeeded 0 someUser.signedin, .pushed 0 someUser.signedin]) :=
    ⟨_, rfl⟩
  exact ⟨s, h, (login_works_iff _ _ s _ h).2.1.mpr (.inl (by decide))⟩

/-- Launched signed in, a logout is confirmed and the user logs in again: nothing is pushed. -/
theorem login_after_logout_ignored : ∃ s, Runs.exec (Runs.logged step) (launch sessionStore, [])
      (.logoutConfirmed :: loginRun) = some (s, [.redirected 0 true, .succeeded 0 someUser.signedin]) ∧
    ¬ LoginWorks s [.redirected 0 true, .succeeded 0 someUser.signedin] ∧ ¬ Subscribed s := by
  refine ⟨_, rfl, ?_, ?_⟩
  · intro h
    have hpushed := h rfl 0 someUser.signedin (by decide) (by decide)
    cases hpushed
  · intro h
    have hid := h 0 rfl
    cases hid

end Spotify.Navigation
