import Spotify.Api.Requests
import Spotify.Login.Accounts

/-!
# Spotify.Login.Linked — what the attempts of a running app wait for

The completions of `LoginViewModel` are called by the manager and by the client, which know nothing of login
attempts.  `Linked` ties the three together: an attempt waits for a token exchange in flight that belongs to
no other attempt, or for an unanswered call of its own.  The lemmas here say what the steps of manager and
client do to it.
-/

namespace Spotify.AuthenticationManager

variable {κ β : Type} {F : Foundation} {m m' : AuthenticationManager κ β} {l : AuthLabel κ β}
  {out : List (Call κ β)}

/-- The token exchanges of a login start with its `generateToken` and end with their answer. -/
theorem Effect.login_iff (he : Effect m l m' out) {c : β} (hl : ∀ code, l ≠ .generateToken code c)
    (hr : ∀ task o, l = .response task o → ∀ request, m.tasks.find? task ≠ some (.generateToken request c))
    (task : ℕ) (request : URLRequest) :
    m'.tasks.find? task = some (.generateToken request c) ↔
      m.tasks.find? task = some (.generateToken request c) := by
  have hstart : ∀ {ex : Exchange κ β}, (∀ q, ex ≠ .generateToken q c) →
      ((m.tasks.start ex).find? task = some (.generateToken request c) ↔
        m.tasks.find? task = some (.generateToken request c)) := by
    intro ex hex
    rw [Pool.find?_start]
    by_cases htask : task = m.tasks.next
    · rw [if_pos htask, htask, Pool.find?_next]
      exact iff_of_false (fun h => hex request (Option.some.inj h)) fun h => by cases h
    · rw [if_neg htask]
  have hfinish : ∀ {id : ℕ} {o : Outcome AuthenticationResponse}, l = .response id o →
      ((m.tasks.finish id).find? task = some (.generateToken request c) ↔
        m.tasks.find? task = some (.generateToken request c)) := by
    intro id o ho
    rw [Pool.find?_finish_eq_some]
    refine ⟨fun h => h.2, fun h => ⟨?_, h⟩⟩
    rintro rfl
    exact hr task o ho request h
  cases he with
  | refreshReturned | queued | delivered | dropped | signedOut | ticked => exact Iff.rfl
  | loginStarted code c' q =>
    refine hstart fun q' h => ?_
    cases h
    exact hl code rfl
  | refreshStarted => exact hstart fun q h => by cases h
  | loginSucceeded | loginFailed | refreshSucceeded | refreshFailed => exact hfinish rfl

/-- A refresh is started by the call of `refreshToken` whose completion it keeps. -/
theorem Effect.caller_of (he : Effect m l m' out) {task : ℕ} {request : URLRequest} {c : β}
    (h : m'.tasks.find? task = some (.refreshToken request (.caller c))) :
    m.tasks.find? task = some (.refreshToken request (.caller c)) ∨ l = .refreshToken c := by
  have hstart : ∀ {ex : Exchange κ β}, (m.tasks.start ex).find? task = some (.refreshToken request (.caller c)) →
      m.tasks.find? task = some (.refreshToken request (.caller c)) ∨ ex = .refreshToken request (.caller c) := by
    intro ex hex
    rw [Pool.find?_start] at hex
    split_ifs at hex
    · exact .inr (Option.some.inj hex)
    · exact .inl hex
  cases he with
  | refreshReturned | queued | delivered | dropped | signedOut | ticked => exact .inl h
  | loginStarted code c' q =>
    rcases hstart h with hold | hnew
    · exact .inl hold
    · cases hnew
  | refreshStarted _ c' q hl =>
    rcases hstart h with hold | hnew
    · exact .inl hold
    · cases hnew
      rcases hl with ⟨b, rfl, hb⟩ | ⟨k, -, hk⟩
      · cases hb
        exact .inr rfl
      · cases hk
  | loginSucceeded | loginFailed | refreshSucceeded | refreshFailed =>
    exact .inl (Pool.find?_finish_eq_some.mp h).2

end Spotify.AuthenticationManager

namespace Spotify.SigninApp

open APIClient (Ledger)

variable {F : Foundation} {s : SigninApp}

/-! ### The invariant -/

/-- A token exchange in flight belongs to the attempt. -/
def Exchanging (s : SigninApp) (task attempt : ℕ) : Prop :=
  ∃ request, s.client.auth.tasks.find? task = some (.generateToken request (.fetchToken attempt))

/-- A call that has not been answered was made by the attempt. -/
def Fetching (s : SigninApp) (call attempt : ℕ) : Prop :=
  s.loginOf call = some attempt ∧ call ∉ s.client.answered

/-- Manager, client and view model agree on the attempts. -/
structure Linked (s : SigninApp) : Prop where
  ledger : Ledger s.client
  callers : ∀ task request c,
    s.client.auth.tasks.find? task = some (.refreshToken request (.caller c)) → c = .other
  profile : ∀ k ∈ s.client.live, s.loginOf k.id ≠ none → k.endpoint = .getUserProfile
  lt : ∀ call attempt, s.loginOf call = some attempt →
    call < s.client.nextCall ∧ attempt < s.login.attempts.next
  done : ∀ call attempt, s.loginOf call = some attempt → call ∈ s.client.answered →
    s.login.attempts.find? attempt = none
  exchange_unique : ∀ task task' attempt, Exchanging s task attempt → Exchanging s task' attempt → task = task'
  call_unique : ∀ call call' attempt, s.loginOf call = some attempt → s.loginOf call' = some attempt →
    call = call'
  exchanging : ∀ attempt, (∃ task, Exchanging s task attempt) ↔
    ∃ code, s.login.attempts.find? attempt = some ⟨code, .fetchToken⟩
  fetching : ∀ attempt, (∃ call, Fetching s call attempt) ↔
    ∃ code, s.login.attempts.find? attempt = some ⟨code, .login⟩

theorem linked_launch (d : UserDefaults) (t : Date) : Linked (launch d t) where
  ledger := APIClient.ledger_launch d t
  callers := fun task request c h => by cases h
  profile := fun k hk => by cases hk
  lt := fun call attempt h => by cases h
  done := fun call attempt h => by cases h
  exchange_unique := fun task task' attempt h => by
    obtain ⟨request, h⟩ := h
    cases h
  call_unique := fun call call' attempt h => by cases h
  exchanging := fun attempt => by
    constructor
    · rintro ⟨task, request, h⟩
      cases h
    · rintro ⟨code, h⟩
      cases h
  fetching := fun attempt => by
    constructor
    · rintro ⟨call, h, -⟩
      cases h
    · rintro ⟨code, h⟩
      cases h

/-- The attempt of an exchange in flight has made no call yet. -/
theorem Linked.no_call (hs : Linked s) {task attempt : ℕ} (h : Exchanging s task attempt) (call : ℕ) :
    s.loginOf call ≠ some attempt := by
  intro hcall
  obtain ⟨code, hcode⟩ := (hs.exchanging attempt).mp ⟨task, h⟩
  by_cases hanswered : call ∈ s.client.answered
  · rw [hs.done call attempt hcall hanswered] at hcode
    cases hcode
  · obtain ⟨code', hcode'⟩ := (hs.fetching attempt).mp ⟨call, hcall, hanswered⟩
    rw [hcode] at hcode'
    cases hcode'

/-- The store is of no importance here. -/
theorem Linked.mapDefaults (hs : Linked s) (f : UserDefaults → UserDefaults) : Linked (s.mapDefaults f) where
  ledger := ⟨hs.ledger.flight, hs.ledger.nodup, hs.ledger.lt⟩
  callers := hs.callers
  profile := hs.profile
  lt := hs.lt
  done := hs.done
  exchange_unique := hs.exchange_unique
  call_unique := hs.call_unique
  exchanging := hs.exchanging
  fetching := hs.fetching

/-! ### Steps of the client -/

/-- The effect on the manager of a step of the client. -/
theorem auth_of_step {al : APILabel TokenCaller} {la : AuthLabel APICall TokenCaller}
    {client : APIClient TokenCaller} (hla : s.client.authLabel al = some la)
    (hc : s.client.step F al = some client) :
    ∃ out, AuthenticationManager.Effect s.client.auth la client.auth out := by
  rcases APIClient.step_inv hc with ⟨la', m, out, hla', hm, rfl⟩ | ⟨task, t, o, rfl, -⟩
  · have heq : la' = la := Option.some.inj (hla'.symm.trans hla)
    subst heq
    rw [(APIClient.resume_spec (F := F) _ out).1]
    exact ⟨out, AuthenticationManager.step_effect hm⟩
  · cases hla

/-- A step of the client that answers no call adds no call of a login, and answers none. -/
theorem Linked.frame (hs : Linked s) {al : APILabel TokenCaller} {client : APIClient TokenCaller}
    (hal : ∀ task o, al ≠ .response task o) (hc : s.client.step F al = some client) :
    (∀ k ∈ client.live, s.loginOf k.id ≠ none → k.endpoint = .getUserProfile) ∧
    s.client.nextCall ≤ client.nextCall ∧ client.answered = s.client.answered := by
  refine ⟨fun k hk hlogin => ?_, ?_, congrArg (List.map Prod.fst) (APIClient.answers_step hal hc)⟩
  · rcases APIClient.live_step hc hk with hold | ⟨e, -, rfl⟩
    · exact hs.profile k hold hlogin
    · obtain ⟨attempt, hattempt⟩ := Option.ne_none_iff_exists'.mp hlogin
      exact absurd (hs.lt _ attempt hattempt).1 (Nat.lt_irrefl _)
  · rw [APIClient.nextCall_step hc]
    omega

/-- The callers of the exchanges in flight, after a step. -/
theorem Linked.callers_of (hs : Linked s) {al : APILabel TokenCaller} {la : AuthLabel APICall TokenCaller}
    {client : APIClient TokenCaller} (hla : s.client.authLabel al = some la)
    (hc : s.client.step F al = some client) (hother : ∀ c, la = .refreshToken c → c = .other)
    (task : ℕ) (request : URLRequest) (c : TokenCaller)
    (h : client.auth.tasks.find? task = some (.refreshToken request (.caller c))) : c = .other := by
  obtain ⟨out, he⟩ := auth_of_step hla hc
  rcases he.caller_of h with hold | hnew
  · exact hs.callers task request c hold
  · exact hother c hnew

/-- The client does something that ends no login. -/
theorem Linked.managed (hs : Linked s) {al : APILabel TokenCaller} {la : AuthLabel APICall TokenCaller}
    {client : APIClient TokenCaller} (hla : s.client.authLabel al = some la)
    (hc : s.client.step F al = some client) (hl : ∀ code c, la ≠ .generateToken code c)
    (hother : ∀ c, la = .refreshToken c → c = .other)
    (hr : ∀ task o, la = .response task o → ∀ request attempt,
      s.client.auth.tasks.find? task ≠ some (.generateToken request (.fetchToken attempt))) :
    Linked { s with client := client } := by
  obtain ⟨out, he⟩ := auth_of_step hla hc
  have hal : ∀ task o, al ≠ .response task o := by
    rintro task o rfl
    cases hla
  obtain ⟨hprofile, hnext, hanswered⟩ := hs.frame hal hc
  have hexchange : ∀ task attempt, Exchanging { s with client := client } task attempt ↔ Exchanging s task attempt :=
    fun task attempt => exists_congr fun request =>
      he.login_iff (fun code => hl code _) (fun task o h request => hr task o h request attempt) task request
  have hfetch : ∀ call attempt, Fetching { s with client := client } call attempt ↔ Fetching s call attempt := by
    intro call attempt
    simp only [Fetching, hanswered]
  constructor
  · exact hs.ledger.step hc
  · exact hs.callers_of hla hc hother
  · exact hprofile
  · intro call attempt h
    exact ⟨Nat.lt_of_lt_of_le (hs.lt call attempt h).1 hnext, (hs.lt call attempt h).2⟩
  · intro call attempt h hin
    rw [hanswered] at hin
    exact hs.done call attempt h hin
  · intro task task' attempt h h'
    exact hs.exchange_unique task task' attempt ((hexchange task attempt).mp h) ((hexchange task' attempt).mp h')
  · exact hs.call_unique
  · intro attempt
    simp only [hexchange]
    exact hs.exchanging attempt
  · intro attempt
    simp only [hfetch]
    exact hs.fetching attempt

/-- An attempt starts. -/
theorem Linked.started (hs : Linked s) {code : String} {client : APIClient TokenCaller}
    (hc : s.client.step F (.auth (.generateToken code (.fetchToken s.login.attempts.next))) = some client) :
    Linked { s with client := client, login := (s.login.fetchToken code).1 } := by
  obtain ⟨hprofile, hnext, hanswered⟩ := hs.frame (fun _ _ h => by cases h) hc
  obtain ⟨out, he⟩ := auth_of_step rfl hc
  obtain ⟨request, htasks⟩ : ∃ request, client.auth.tasks =
      s.client.auth.tasks.start (.generateToken request (.fetchToken s.login.attempts.next)) := by
    generalize client.auth = m at he
    cases he with
    | loginStarted code c request => exact ⟨request, rfl⟩
    | refreshStarted _ c request hl => rcases hl with ⟨b, hl, -⟩ | ⟨k, hl, -⟩ <;> cases hl
  -- the new attempt is under a fresh identifier, and so is its exchange
  have hexchange : ∀ task attempt,
      Exchanging { s with client := client, login := (s.login.fetchToken code).1 } task attempt ↔
        Exchanging s task attempt ∨ (task = s.client.auth.tasks.next ∧ attempt = s.login.attempts.next) := by
    intro task attempt
    simp only [Exchanging, htasks, Pool.find?_start]
    by_cases htask : task = s.client.auth.tasks.next
    · have hnone : ¬ ∃ q, s.client.auth.tasks.find? task = some (.generateToken q (.fetchToken attempt)) := by
        rw [htask, Pool.find?_next]
        exact fun ⟨q, h⟩ => by cases h
      simp [htask, eq_comm] at hnone ⊢
      tauto
    · simp [htask]
  have hno : ∀ task, ¬ Exchanging s task s.login.attempts.next := by
    intro task h
    obtain ⟨code', hcode⟩ := (hs.exchanging _).mp ⟨task, h⟩
    rw [Pool.find?_next] at hcode
    cases hcode
  have hfind : ∀ attempt stage code', (s.login.fetchToken code).1.attempts.find? attempt = some ⟨code', stage⟩ ↔
      s.login.attempts.find? attempt = some ⟨code', stage⟩ ∨
        (attempt = s.login.attempts.next ∧ code' = code ∧ stage = .fetchToken) := by
    intro attempt stage code'
    simp only [LoginViewModel.fetchToken, Pool.find?_start]
    by_cases hattempt : attempt = s.login.attempts.next
    · rw [if_pos hattempt, hattempt, Pool.find?_next]
      simp [eq_comm]
    · simp [hattempt]
  constructor
  · exact hs.ledger.step hc
  · exact hs.callers_of rfl hc fun _ h => by cases h
  · exact hprofile
  · intro call attempt h
    obtain ⟨hcall, hattempt⟩ := hs.lt call attempt h
    exact ⟨Nat.lt_of_lt_of_le hcall hnext, Nat.lt_succ_of_lt hattempt⟩
  · intro call attempt h hin
    rw [hanswered] at hin
    have hlt := (hs.lt call attempt h).2
    show (s.login.attempts.start _).find? attempt = none
    rw [Pool.find?_start_of_ne (Nat.ne_of_lt hlt)]
    exact hs.done call attempt h hin
  · intro task task' attempt h h'
    rcases (hexchange task attempt).mp h with hold | ⟨htask, hattempt⟩
    · rcases (hexchange task' attempt).mp h' with hold' | ⟨-, hattempt⟩
      · exact hs.exchange_unique task task' attempt hold hold'
      · exact absurd (hattempt ▸ hold) (hno task)
    · rcases (hexchange task' attempt).mp h' with hold' | ⟨htask', -⟩
      · exact absurd (hattempt ▸ hold') (hno task')
      · rw [htask, htask']
  · exact hs.call_unique
  · intro attempt
    simp only [hexchange, hfind, exists_or, hs.exchanging attempt]
    simp
  · intro attempt
    have hsame : ∀ call, Fetching { s with client := client, login := (s.login.fetchToken code).1 } call attempt ↔
        Fetching s call attempt := fun call => by simp only [Fetching, hanswered]
    simp only [hsame, hs.fetching attempt, hfind]
    simp

/-- The exchange of an attempt is answered; the others go on. -/
theorem Linked.exchanged (hs : Linked s) {task attempt : ℕ} (hx : Exchanging s task attempt)
    {o : Outcome AuthenticationResponse} {client : APIClient TokenCaller}
    (hc : s.client.step F (.auth (.response task o)) = some client) (task' attempt' : ℕ) :
    Exchanging { s with client := client } task' attempt' ↔ Exchanging s task' attempt' ∧ attempt' ≠ attempt := by
  obtain ⟨out, he⟩ := auth_of_step rfl hc
  obtain ⟨request, hx'⟩ := hx
  have htasks : client.auth.tasks = s.client.auth.tasks.finish task := by
    generalize client.auth = m at he
    cases he with
    | loginSucceeded | loginFailed | refreshSucceeded | refreshFailed => rfl
    | refreshStarted _ c request hl => rcases hl with ⟨b, hl, -⟩ | ⟨k, hl, -⟩ <;> cases hl
  simp only [Exchanging, htasks, Pool.find?_finish_eq_some]
  constructor
  · rintro ⟨q, hne, hq⟩
    refine ⟨⟨q, hq⟩, ?_⟩
    rintro rfl
    exact hne (hs.exchange_unique task' task attempt' ⟨q, hq⟩ ⟨request, hx'⟩)
  · rintro ⟨⟨q, hq⟩, hne⟩
    refine ⟨q, ?_, hq⟩
    rintro rfl
    rw [hx'] at hq
    cases hq
    exact hne rfl

/-- The token exchange of an attempt fails. -/
theorem Linked.tokenFailed (hs : Linked s) {task attempt : ℕ} (hx : Exchanging s task attempt)
    {o : Outcome AuthenticationResponse} {client : APIClient TokenCaller}
    (hc : s.client.step F (.auth (.response task o)) = some client) :
    Linked { s with
      client := client
      login := { s.login with attempts := s.login.attempts.finish attempt } } := by
  obtain ⟨hprofile, hnext, hanswered⟩ := hs.frame (fun _ _ h => by cases h) hc
  have hexchange := hs.exchanged hx hc
  have hno := hs.no_call hx
  constructor
  · exact hs.ledger.step hc
  · exact hs.callers_of rfl hc fun _ h => by cases h
  · exact hprofile
  · intro call attempt' h
    exact ⟨Nat.lt_of_lt_of_le (hs.lt call attempt' h).1 hnext, (hs.lt call attempt' h).2⟩
  · intro call attempt' h hin
    rw [hanswered] at hin
    have hne : attempt' ≠ attempt := fun heq => hno call (heq ▸ h)
    show (s.login.attempts.finish attempt).find? attempt' = none
    rw [Pool.find?_finish, if_neg hne]
    exact hs.done call attempt' h hin
  · intro task' task'' attempt' h h'
    have hold := (hexchange task' attempt').mp h
    have hold' := (hexchange task'' attempt').mp h'
    exact hs.exchange_unique task' task'' attempt' hold.1 hold'.1
  · exact hs.call_unique
  · intro attempt'
    have hsame : ∀ task', Exchanging { s with
        client := client
        login := { s.login with attempts := s.login.attempts.finish attempt } } task' attempt' ↔
          Exchanging s task' attempt' ∧ attempt' ≠ attempt := fun task' => hexchange task' attempt'
    simp only [hsame, exists_and_right, hs.exchanging attempt', Pool.find?_finish_eq_some, exists_and_left]
    exact and_comm
  · intro attempt'
    have hsame : ∀ call, Fetching { s with
        client := client
        login := { s.login with attempts := s.login.attempts.finish attempt } } call attempt' ↔
          Fetching s call attempt' := fun call => by simp only [Fetching, hanswered]
    simp only [hsame, hs.fetching attempt', Pool.find?_finish_eq_some, exists_and_left]
    refine ⟨fun h => ⟨?_, h⟩, fun h => h.2⟩
    rintro rfl
    obtain ⟨call, hcall, -⟩ := (hs.fetching attempt').mpr h
    exact hno call hcall

theorem Linked.lt_nextCall (hs : Linked s) : (∀ k ∈ s.client.live, k.id < s.client.nextCall) ∧
    ∀ c ∈ s.client.answered, c < s.client.nextCall := by
  constructor
  · intro k hk
    apply hs.ledger.lt
    unfold APIClient.live AuthenticationManager.holders at hk
    unfold APIClient.places
    rw [List.mem_append, List.mem_append] at hk
    rw [List.mem_append, List.mem_append, List.mem_append]
    rcases hk with (hqueued | hstarting) | hloading
    · exact .inl (.inl (.inl (List.mem_map_of_mem hqueued)))
    · exact .inl (.inl (.inr (List.mem_map_of_mem hstarting)))
    · obtain ⟨id, t, ht, rfl⟩ := APIClient.mem_collect_call.mp hloading
      exact .inl (.inr ((Pool.mem_collect _).mpr ⟨id, t, ht, rfl⟩))
  · intro c hc
    exact hs.ledger.lt c (List.mem_append_right _ hc)

/-- The token exchange of an attempt succeeds, and its `login` calls the client. -/
theorem Linked.tokenFetched (hs : Linked s) {task attempt : ℕ} (hx : Exchanging s task attempt)
    {o : Outcome AuthenticationResponse} {client client' : APIClient TokenCaller}
    (hc : s.client.step F (.auth (.response task o)) = some client)
    (hc' : client.step F (.call .getUserProfile) = some client') :
    Linked {
      client := client'
      login := { s.login with attempts := s.login.attempts.update attempt LoginAttempt.toLogin }
      loginOf := Function.update s.loginOf client.nextCall (some attempt) } := by
  obtain ⟨code, hcode⟩ := (hs.exchanging attempt).mp ⟨task, hx⟩
  have hno := hs.no_call hx
  have hn : client.nextCall = s.client.nextCall := APIClient.nextCall_step hc
  have hn' : client'.nextCall = s.client.nextCall + 1 := by
    rw [APIClient.nextCall_step hc', hn]
    rfl
  have hanswered : client'.answered = s.client.answered := by
    have h := APIClient.answers_step (fun _ _ h => by cases h) hc
    have h' := APIClient.answers_step (fun _ _ h => by cases h) hc'
    exact congrArg (List.map Prod.fst) (h'.trans h)
  have hnew : s.client.nextCall ∉ s.client.answered := fun h => Nat.lt_irrefl _ (hs.lt_nextCall.2 _ h)
  have hcallers := hs.callers_of rfl hc fun _ h => by cases h
  obtain ⟨out, he⟩ := auth_of_step (s := { s with client := client }) rfl hc'
  rw [hn]
  have hof : ∀ call attempt', Function.update s.loginOf s.client.nextCall (some attempt) call = some attempt' ↔
      (call = s.client.nextCall ∧ attempt' = attempt) ∨ s.loginOf call = some attempt' := by
    intro call attempt'
    by_cases hcall : call = s.client.nextCall
    · subst hcall
      rw [Function.update_self]
      have hnone : s.loginOf s.client.nextCall ≠ some attempt' :=
        fun h => Nat.lt_irrefl _ (hs.lt _ attempt' h).1
      simp [hnone, eq_comm]
    · rw [Function.update_of_ne hcall]
      simp [hcall]
  have hfind : ∀ attempt', (s.login.attempts.update attempt LoginAttempt.toLogin).find? attempt' =
      if attempt' = attempt then some ⟨code, .login⟩ else s.login.attempts.find? attempt' := by
    intro attempt'
    rw [Pool.find?_update]
    by_cases hattempt : attempt' = attempt
    · rw [if_pos hattempt, if_pos hattempt, hattempt, hcode]
      rfl
    · rw [if_neg hattempt, if_neg hattempt]
  have hexchange : ∀ task' attempt', (∃ request, client'.auth.tasks.find? task' =
      some (.generateToken request (.fetchToken attempt'))) ↔ Exchanging s task' attempt' ∧ attempt' ≠ attempt := by
    intro task' attempt'
    rw [← hs.exchanged hx hc]
    refine exists_congr fun request => he.login_iff ?_ ?_ task' request
    · exact fun _ h => by cases h
    · exact fun _ _ h => by cases h
  constructor
  · exact (hs.ledger.step hc).step hc'
  · intro task' request c h
    rcases he.caller_of h with hold | hlabel
    · exact hcallers task' request c hold
    · cases hlabel
  · intro k hk hlogin
    rcases APIClient.live_step hc' hk with hold | ⟨e, he, rfl⟩
    · rcases APIClient.live_step hc hold with hold | ⟨e, he, -⟩
      · have hne : k.id ≠ s.client.nextCall := Nat.ne_of_lt (hs.lt_nextCall.1 k hold)
        exact hs.profile k hold fun h => hlogin ((Function.update_of_ne hne ..).trans h)
      · cases he
    · cases he
      rfl
  · intro call attempt' h
    show call < client'.nextCall ∧ attempt' < s.login.attempts.next
    rw [hn']
    rcases (hof call attempt').mp h with ⟨rfl, rfl⟩ | hold
    · exact ⟨Nat.lt_succ_self _, Pool.find?_lt hcode⟩
    · exact ⟨Nat.lt_succ_of_lt (hs.lt call attempt' hold).1, (hs.lt call attempt' hold).2⟩
  · intro call attempt' h hin
    rw [hanswered] at hin
    show (s.login.attempts.update attempt LoginAttempt.toLogin).find? attempt' = none
    rcases (hof call attempt').mp h with ⟨rfl, -⟩ | hold
    · exact absurd hin hnew
    · have hne : attempt' ≠ attempt := fun heq => hno call (heq ▸ hold)
      rw [hfind, if_neg hne]
      exact hs.done call attempt' hold hin
  · intro task' task'' attempt' h h'
    have hold := (hexchange task' attempt').mp h
    have hold' := (hexchange task'' attempt').mp h'
    exact hs.exchange_unique task' task'' attempt' hold.1 hold'.1
  · intro call call' attempt' h h'
    rcases (hof call attempt').mp h with ⟨hcall, hattempt⟩ | hold
    · rcases (hof call' attempt').mp h' with ⟨hcall', -⟩ | hold'
      · rw [hcall, hcall']
      · exact absurd (hattempt ▸ hold') (hno call')
    · rcases (hof call' attempt').mp h' with ⟨-, hattempt⟩ | hold'
      · exact absurd (hattempt ▸ hold) (hno call)
      · exact hs.call_unique call call' attempt' hold hold'
  · intro attempt'
    have hiff : (∃ task', Exchanging s task' attempt' ∧ attempt' ≠ attempt) ↔
        ∃ code', (if attempt' = attempt then some ⟨code, .login⟩ else s.login.attempts.find? attempt') =
          some (⟨code', .fetchToken⟩ : LoginAttempt) := by
      by_cases hattempt : attempt' = attempt
      · simp [hattempt]
      · simp [hattempt, hs.exchanging attempt']
    rw [← hfind] at hiff
    exact (exists_congr fun task' => hexchange task' attempt').trans hiff
  · intro attempt'
    simp only [Fetching, hof, hanswered, hfind]
    by_cases hattempt : attempt' = attempt
    · subst hattempt
      rw [if_pos rfl]
      refine iff_of_true ⟨s.client.nextCall, .inl ⟨rfl, rfl⟩, hnew⟩ ⟨code, rfl⟩
    · rw [if_neg hattempt]
      simp only [hattempt, and_false, false_or]
      exact hs.fetching attempt'

/-- The client has an answer; the attempt that made the call, if there is one, ends. -/
theorem Linked.answered (hs : Linked s) {task : ℕ} {t : DataTask} {o : Outcome Payload}
    {client : APIClient TokenCaller} {login : LoginViewModel} (ht : s.client.tasks.find? task = some t)
    (hc : s.client.step F (.response task o) = some client)
    (hnext : login.attempts.next = s.login.attempts.next)
    (hfind : ∀ attempt, login.attempts.find? attempt =
      if s.loginOf t.call.id = some attempt then none else s.login.attempts.find? attempt) :
    Linked { s with client := client, login := login } := by
  have hledger := hs.ledger.step hc
  have hopen : t.call.id ∉ s.client.answered := hs.ledger.not_answered ht
  have hlive : ∀ k ∈ client.live, k ∈ s.client.live := by
    intro k hk
    rcases APIClient.live_step hc hk with hold | ⟨e, he, -⟩
    · exact hold
    · cases he
  obtain ⟨t', ht', -, rfl⟩ := APIClient.step_response hc
  obtain rfl : t = t' := Option.some.inj (ht.symm.trans ht')
  have hin : ∀ call, call ∈ (s.client.answers ++ [(t.call.id, t.call.endpoint.handler o)]).map Prod.fst ↔
      call ∈ s.client.answered ∨ call = t.call.id := by
    intro call
    rw [List.map_append, List.mem_append]
    simp [APIClient.answered]
  have hfetch : ∀ call attempt, (s.loginOf call = some attempt ∧
      call ∉ (s.client.answers ++ [(t.call.id, t.call.endpoint.handler o)]).map Prod.fst) ↔
        Fetching s call attempt ∧ s.loginOf t.call.id ≠ some attempt := by
    intro call attempt
    rw [hin, not_or]
    constructor
    · rintro ⟨hcall, hno, hne⟩
      exact ⟨⟨hcall, hno⟩, fun h => hne (hs.call_unique call t.call.id attempt hcall h)⟩
    · rintro ⟨⟨hcall, hno⟩, hne⟩
      refine ⟨hcall, hno, ?_⟩
      rintro rfl
      exact hne hcall
  constructor
  · exact hledger
  · exact hs.callers
  · exact fun k hk => hs.profile k (hlive k hk)
  · intro call attempt h
    show call < s.client.nextCall ∧ attempt < login.attempts.next
    rw [hnext]
    exact hs.lt call attempt h
  · intro call attempt h hanswered
    show login.attempts.find? attempt = none
    rw [hfind]
    rcases (hin call).mp hanswered with hold | rfl
    · rw [hs.done call attempt h hold, ite_self]
    · rw [if_pos h]
  · exact hs.exchange_unique
  · exact hs.call_unique
  · intro attempt
    show (∃ task', Exchanging s task' attempt) ↔ ∃ code, login.attempts.find? attempt = some ⟨code, .fetchToken⟩
    rw [hfind]
    by_cases hown : s.loginOf t.call.id = some attempt
    · rw [if_pos hown]
      apply iff_of_false
      · rintro ⟨task', hx⟩
        exact hs.no_call hx _ hown
      · rintro ⟨code, h⟩
        exact absurd h (by simp)
    · rw [if_neg hown]
      exact hs.exchanging attempt
  · intro attempt
    refine (exists_congr fun call => hfetch call attempt).trans ?_
    show _ ↔ ∃ code, login.attempts.find? attempt = some ⟨code, .login⟩
    rw [exists_and_right, hs.fetching attempt, hfind]
    by_cases hown : s.loginOf t.call.id = some attempt
    · rw [if_pos hown]
      apply iff_of_false
      · exact fun h => h.2 hown
      · rintro ⟨code, h⟩
        exact absurd h (by simp)
    · rw [if_neg hown]
      exact and_iff_left hown

end Spotify.SigninApp
