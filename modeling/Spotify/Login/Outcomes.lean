import Spotify.Login.ViewModel

/-!
# Spotify.Login.Outcomes — what becomes of login attempts

An attempt ends with the failure of its token exchange or with the answer of its profile fetch.  Attempts
overlap and share the field `user`, which `setupUser` reads again; since the completion that sets it runs to
its end, every attempt that ends sends the one event that belongs to its own answer
(`attempt_outcomes`).
-/

namespace Spotify.LoginViewModel

variable {vm vm' : LoginViewModel}

/-- The codes accepted. -/
def accepted : LoginLabel → Option String
  | .code code => some code
  | _ => none

/-- The attempt whose last stage completes. -/
def ended : LoginLabel → Option ℕ
  | .generateToken attempt false => some attempt
  | .getUserProfile attempt _ => some attempt
  | _ => none

/-- The profile of an attempt that succeeds. -/
def fetched : LoginLabel → Option UserProfile
  | .getUserProfile _ (.ok p) => some p
  | _ => none

/-- The one event that an ending attempt should send. -/
def outcome : LoginLabel → Option LoginCall
  | .generateToken _ false => some (.onError (.custom "Failed to fetch token!"))
  | .getUserProfile _ (.ok p) =>
    some (.signedInUserProfile (some ⟨p.images.head?.bind ImageResponse.url, p.displayName, p.id⟩))
  | .getUserProfile _ (.error error) => some (.onError error)
  | _ => none

/-- The code of a `generateToken` call. -/
def tokenCode : LoginCall → Option String
  | .generateToken code => some code
  | _ => none

/-- The events of the two relays. -/
def emission : LoginCall → Option LoginCall
  | .signedInUserProfile user => some (.signedInUserProfile user)
  | .onError error => some (.onError error)
  | _ => none

/-- The profile that a call saves. -/
def savedUser : LoginCall → Option UserProfile
  | .saveUser user => some user
  | _ => none

/-- The store after the calls of a view model; only `saveUser` writes it. -/
def persist (d : UserDefaults) (calls : List LoginCall) : UserDefaults :=
  calls.foldl (fun d call =>
    match call with
    | .saveUser user => d.saveUser user
    | _ => d) d

theorem getUser_persist (d : UserDefaults) (calls : List LoginCall) :
    (persist d calls).getUser = (calls.filterMap savedUser).getLast?.or d.getUser := by
  induction calls generalizing d with
  | nil => rfl
  | cons call calls ih =>
    have hcons : persist d (call :: calls) = persist (persist d [call]) calls := rfl
    rw [hcons, ih]
    cases call with
    | saveUser user =>
      rw [List.filterMap_cons_some (f := savedUser) rfl, List.getLast?_cons]
      cases (calls.filterMap savedUser).getLast? with
      | none => rfl
      | some last => rfl
    | generateToken | getUserProfile | signedInUserProfile | onError =>
      rw [List.filterMap_cons_none (f := savedUser) rfl]
      rfl

/-! ### One step -/

theorem Effect.tokenCode_calls {l : LoginLabel} {calls : List LoginCall} (he : Effect vm l vm' calls) :
    calls.filterMap tokenCode = (accepted l).toList := by
  cases he with
  | started | tokenFetched | tokenFailed | succeeded | failed => rfl

theorem Effect.emission_calls {l : LoginLabel} {calls : List LoginCall} (he : Effect vm l vm' calls) :
    calls.filterMap emission = (outcome l).toList := by
  cases he with
  | started | tokenFetched | tokenFailed | succeeded | failed => rfl

theorem Effect.savedUser_calls {l : LoginLabel} {calls : List LoginCall} (he : Effect vm l vm' calls) :
    calls.filterMap savedUser = (fetched l).toList := by
  cases he with
  | started | tokenFetched | tokenFailed | succeeded | failed => rfl

theorem Effect.user_eq {l : LoginLabel} {calls : List LoginCall} (he : Effect vm l vm' calls) :
    vm'.user = (fetched l).or vm.user := by
  cases he with
  | started | tokenFetched | tokenFailed | succeeded | failed => rfl

/-- The attempts that have ended, in the order of their ends. -/
structure Ended (vm : LoginViewModel) (ends : List ℕ) : Prop where
  nodup : ends.Nodup
  mem_iff : ∀ attempt, attempt ∈ ends ↔ vm.attempts.Gone attempt

theorem ended_init : Ended init [] where
  nodup := List.nodup_nil
  mem_iff attempt := iff_of_false List.not_mem_nil fun h => absurd h.1 (Nat.not_lt_zero attempt)

theorem Ended.finish {ends : List ℕ} {attempt : ℕ} {a : LoginAttempt} (h : Ended vm ends)
    (ha : vm.attempts.find? attempt = some a) (hvm' : vm'.attempts = vm.attempts.finish attempt) :
    Ended vm' (ends ++ [attempt]) := by
  have hnew : attempt ∉ ends := by
    intro hmem
    rw [((h.mem_iff attempt).mp hmem).2] at ha
    cases ha
  constructor
  · refine List.nodup_append.mpr ⟨h.nodup, List.nodup_singleton _, fun x hx y hy hxy => hnew ?_⟩
    rw [← List.mem_singleton.mp hy, ← hxy]
    exact hx
  · intro other
    rw [hvm', Pool.gone_finish_iff ha, List.mem_append, List.mem_singleton, h.mem_iff]
    exact or_comm

theorem Ended.effect {ends : List ℕ} {l : LoginLabel} {calls : List LoginCall} (h : Ended vm ends)
    (he : Effect vm l vm' calls) : Ended vm' (ends ++ (ended l).toList) := by
  cases he with
  | started code =>
    refine ⟨by simpa [ended] using h.nodup, fun attempt => ?_⟩
    rw [Pool.gone_start_iff, ← h.mem_iff]
    simp [ended]
  | tokenFetched attempt code ha =>
    refine ⟨by simpa [ended] using h.nodup, fun other => ?_⟩
    rw [Pool.gone_update_iff, ← h.mem_iff]
    simp [ended]
  | tokenFailed attempt code ha => exact h.finish ha rfl
  | succeeded attempt code user ha => exact h.finish ha rfl
  | failed attempt code error ha => exact h.finish ha rfl

/-! ### Runs -/

theorem exec_next {ls : List LoginLabel} {log log' : List LoginCall}
    (h : Runs.exec (Runs.logged step) (vm, log) ls = some (vm', log')) :
    vm'.attempts.next = vm.attempts.next + (ls.filterMap accepted).length := by
  induction ls generalizing vm log with
  | nil => cases h; rfl
  | cons l ls ih =>
    obtain ⟨u, calls, hl, h⟩ := Runs.exec_logged_cons.mp h
    rw [ih h]
    cases step_effect hl with
    | started code =>
      rw [List.filterMap_cons_some (f := accepted) rfl, List.length_cons, Pool.next_start]
      omega
    | tokenFetched | tokenFailed | succeeded | failed =>
      rw [List.filterMap_cons_none (f := accepted) rfl]
      rfl

theorem exec_ended {ls : List LoginLabel} {log log' : List LoginCall} {ends : List ℕ}
    (h0 : Ended vm ends) (h : Runs.exec (Runs.logged step) (vm, log) ls = some (vm', log')) :
    Ended vm' (ends ++ ls.filterMap ended) := by
  induction ls generalizing vm log ends with
  | nil =>
    cases h
    rw [List.filterMap_nil, List.append_nil]
    exact h0
  | cons l ls ih =>
    obtain ⟨u, calls, hl, h⟩ := Runs.exec_logged_cons.mp h
    have hend := ih (h0.effect (step_effect hl)) h
    cases hg : ended l with
    | none =>
      rw [hg, Option.toList_none, List.append_nil] at hend
      rw [List.filterMap_cons_none hg]
      exact hend
    | some attempt =>
      rw [hg, Option.toList_some, List.append_assoc, List.singleton_append] at hend
      rw [List.filterMap_cons_some hg]
      exact hend

/-- Every ending attempt has an outcome, and nothing else has. -/
theorem isSome_outcome (l : LoginLabel) : (outcome l).isSome = (ended l).isSome := by
  cases l with
  | code code => rfl
  | generateToken attempt success =>
    cases success with
    | true => rfl
    | false => rfl
  | getUserProfile attempt result =>
    cases result with
    | ok p => rfl
    | error error => rfl

theorem length_outcomes (ls : List LoginLabel) :
    (ls.filterMap outcome).length = (ls.filterMap ended).length := by
  rw [List.length_filterMap_eq_countP, List.length_filterMap_eq_countP]
  exact congrArg (ls.countP ·) (funext isSome_outcome)

/-- **Each login attempt has exactly one outcome, the right one.**  In every run of the view model the
codes handed to `generateToken` are those accepted, in order.  The events sent are, one for one and in
order, the outcomes of the attempts that end: an attempt that succeeds sends its own profile, any other
its own error.  The attempts that end are exactly those that have been started and wait for no completion,
each once.  And `user` and the saved record hold the profile of the last success, or what they held at the
start. -/
theorem attempt_outcomes (d : UserDefaults) (ls : List LoginLabel) (vm : LoginViewModel)
    (log : List LoginCall) (h : Runs.exec (Runs.logged step) (init, []) ls = some (vm, log)) :
    log.filterMap tokenCode = ls.filterMap accepted ∧
    log.filterMap emission = ls.filterMap outcome ∧
    (ls.filterMap ended).Perm ((List.range (ls.filterMap accepted).length).filter
      fun attempt => vm.attempts.find? attempt = none) ∧
    (log.filterMap emission).length = (ls.filterMap ended).length ∧
    vm.user = (ls.filterMap fetched).getLast? ∧
    (persist d log).getUser = (ls.filterMap fetched).getLast?.or d.getUser := by
  have hemit : log.filterMap emission = ls.filterMap outcome :=
    Runs.exec_logged_filterMap (f := emission) (g := outcome)
      (fun _ _ _ _ hl => (step_effect hl).emission_calls) h
  have hsaved : log.filterMap savedUser = ls.filterMap fetched :=
    Runs.exec_logged_filterMap (f := savedUser) (g := fetched)
      (fun _ _ _ _ hl => (step_effect hl).savedUser_calls) h
  have hnext : vm.attempts.next = (ls.filterMap accepted).length := by
    rw [exec_next h]
    exact Nat.zero_add _
  have hended : Ended vm (ls.filterMap ended) := exec_ended ended_init h
  refine ⟨?_, hemit, ?_, ?_, ?_, ?_⟩
  · exact Runs.exec_logged_filterMap (f := tokenCode) (g := accepted)
      (fun _ _ _ _ hl => (step_effect hl).tokenCode_calls) h
  · refine (List.perm_ext_iff_of_nodup hended.nodup (List.nodup_range.filter _)).mpr fun attempt => ?_
    rw [hended.mem_iff, List.mem_filter, List.mem_range, decide_eq_true_eq, ← hnext]
    rfl
  · rw [hemit, length_outcomes]
  · have huser := Runs.exec_getLast? (v := fun x : LoginViewModel => x.user) (g := fetched)
      (fun s l t hl => by
        obtain ⟨calls, hl⟩ := Runs.silent_eq_some.mp hl
        exact (step_effect hl).user_eq) (Runs.exec_silent_of_logged h)
    rw [huser]
    exact Option.or_none
  · rw [getUser_persist, hsaved]

/-- Two attempts overlap: the second succeeds first, then the first one does. -/
def overlapRun : List LoginLabel :=
  [.code "a", .code "b", .generateToken 1 true, .generateToken 0 true,
    .getUserProfile 1 (.ok ⟨none, "B", none, "b", []⟩), .getUserProfile 0 (.ok ⟨none, "A", none, "a", []⟩)]

/-- Each sends its own profile. -/
theorem overlap_outcomes : ∃ vm log, Runs.exec (Runs.logged step) (init, []) overlapRun = some (vm, log) ∧
    log.filterMap emission =
      [.signedInUserProfile (some ⟨none, "B", "b"⟩), .signedInUserProfile (some ⟨none, "A", "a"⟩)] ∧
    (persist UserDefaults.empty log).getUser = some ⟨none, "A", none, "a", []⟩ := by
  obtain ⟨⟨vm, log⟩, h⟩ : ∃ r, Runs.exec (Runs.logged step) (init, []) overlapRun = some r := ⟨_, rfl⟩
  obtain ⟨-, hemit, -, -, -, hsaved⟩ := attempt_outcomes UserDefaults.empty _ vm log h
  exact ⟨vm, log, h, hemit, hsaved⟩

end Spotify.LoginViewModel
